import SqfLayout.Proofs.Sequence
import SqfLayout.TokenReader

/-! When reading token by token succeeds, and what it then took. -/
namespace SqfLayout.TokenReader

theorem complete_of_ends {s : List Token} (h : ∃ t ∈ s.getLast?, t.kind = .eos) : complete s = s := by
  obtain ⟨t, ht, hkind⟩ := h
  simp only [complete, Option.mem_def.1 ht, hkind, if_true]

theorem next_cons (t : Token) (s : List Token) : next (t :: s) = t := rfl

theorem after_cons {t : Token} {s : List Token} (ht : t.kind ≠ .eos) : after (t :: s) = s :=
  if_neg ht

theorem length_after_le (s : List Token) : (after s).length ≤ s.length := by
  cases s with
  | nil => exact Nat.le_refl _
  | cons t s =>
    simp only [after]
    split <;> simp

theorem exists_cons_of_next {s : List Token} {kind : Token.Kind} (h : (next s).kind = kind)
    (hkind : kind ≠ .eos) : ∃ t m, s = t :: m ∧ t.kind = kind := by
  cases s with
  | nil => exact absurd h.symm hkind
  | cons t m => exact ⟨t, m, rfl, h⟩

theorem take_ok_iff {s s' : List Token} {t : Token} :
    take s = .ok t s' ↔ t = next s ∧ s' = after s := by
  unfold take
  simp [eq_comm]

/-- A token of a kind is taken exactly where it stands. No reader asks for the end. -/
theorem expect_ok_iff {kind : Token.Kind} {hint : Option Hint} {s s' : List Token} {t : Token}
    (hkind : kind ≠ .eos) : expect kind hint s = .ok t s' ↔ s = t :: s' ∧ t.kind = kind := by
  unfold expect
  split
  · rename_i hnext
    rw [take_ok_iff]
    cases s with
    | nil => exact absurd hnext.symm hkind
    | cons u more =>
      have hu : u.kind = kind := hnext
      have hafter : after (u :: more) = more := by simp [after, hu, hkind]
      rw [hafter]
      constructor
      · rintro ⟨rfl, rfl⟩
        exact ⟨rfl, hu⟩
      · rintro ⟨h, _⟩
        cases h
        exact ⟨rfl, rfl⟩
  · rename_i hnext
    constructor
    · intro h; cases h
    · rintro ⟨rfl, ht⟩
      exact absurd ht hnext

theorem take_cons {t : Token} {s : List Token} (ht : t.kind ≠ .eos) : take (t :: s) = .ok t s := by
  unfold take
  rw [next_cons, after_cons ht]

theorem expect_of_ne {kind : Token.Kind} {hint : Option Hint} {t : Token} {s : List Token}
    (ht : t.kind ≠ kind) :
    expect kind hint (t :: s) = .error (violationAt (.mismatch kind t hint) (t :: s)) (t :: s) :=
  if_neg ht

theorem need_ok_iff {k : Token.Kind} {s s' : List Token} {t : Token} (hk : k ≠ .eos) :
    need k s = .ok t s' ↔ s = t :: s' ∧ t.kind = k := expect_ok_iff hk

end SqfLayout.TokenReader
