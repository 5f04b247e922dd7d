import Mathlib.Data.List.Basic
import Mathlib.Data.List.TakeWhile
import SqfLayout.Proofs.TokenReader

/-! Readers that never run out of tokens, and where their failures are located. -/
namespace SqfLayout.TokenReader

/-- What remains of tokens that have an end. No end lies before it. -/
structure Rest (whole s : List Token) : Prop where
  passed : ∃ x, whole = x ++ s ∧ ∀ t ∈ x, t.kind ≠ .eos
  ends : ∃ t ∈ s.getLast?, t.kind = .eos

section
variable {whole s m x : List Token} {t : Token}

theorem Rest.all (h : ∃ t ∈ s.getLast?, t.kind = .eos) : Rest s s := ⟨⟨[], rfl, by simp⟩, h⟩

theorem Rest.suffix (h : Rest whole s) : s <:+ whole := by
  obtain ⟨x, rfl, _⟩ := h.passed
  exact List.suffix_append x s

theorem Rest.ne_nil (h : Rest whole s) : s ≠ [] := by
  rintro rfl
  simpa using h.ends

theorem Rest.behind (h : Rest whole (x ++ m)) (hx : ∀ t ∈ x, t.kind ≠ .eos) : Rest whole m := by
  obtain ⟨y, rfl, hy⟩ := h.passed
  obtain ⟨t, ht, hkind⟩ := h.ends
  have hne : m ≠ [] := by
    rintro rfl
    rw [List.append_nil] at ht
    exact hx t (List.mem_of_getLast? ht) hkind
  rw [List.getLast?_append_of_ne_nil x hne] at ht
  refine ⟨⟨y ++ x, (List.append_assoc y x m).symm, fun u hu => ?_⟩, t, ht, hkind⟩
  exact (List.mem_append.1 hu).elim (hy u) (hx u)

theorem Rest.tail (h : Rest whole (t :: m)) (ht : t.kind ≠ .eos) : Rest whole m :=
  h.behind (x := [t]) (by simpa using ht)

theorem Rest.next_mem (h : Rest whole s) : next s ∈ whole := by
  obtain ⟨t, m, rfl⟩ := List.exists_cons_of_ne_nil h.ne_nil
  exact h.suffix.subset (List.mem_cons_self)

theorem Rest.after (h : Rest whole s) : Rest whole (after s) := by
  obtain ⟨t, m, rfl⟩ := List.exists_cons_of_ne_nil h.ne_nil
  by_cases ht : t.kind = .eos
  · rwa [TokenReader.after, if_pos ht]
  · rw [after_cons ht]
    exact h.tail ht

theorem Rest.dropWhile {p : Token → Bool} (h : Rest whole s) (hp : ∀ t, t.kind = .eos → p t = false) :
    Rest whole (s.dropWhile p) := by
  rw [← List.takeWhile_append_dropWhile (p := p) (l := s)] at h
  refine h.behind fun t ht hkind => ?_
  have hskipped := List.all_eq_true.1 List.all_takeWhile t ht
  simp [hp t hkind] at hskipped

theorem Rest.skipSpaces (h : Rest whole s) : Rest whole (skipSpaces s) :=
  h.dropWhile fun t ht => by simp [ht]

theorem Rest.skipLayout (h : Rest whole s) : Rest whole (skipLayout s) :=
  h.dropWhile fun t ht => by simp [ht, Token.Kind.isLayout]

end

variable {ε α β : Type}

/-- A result on tokens that have an end, up to which reading went at most: a value for which `R` holds,
or a failure for which `E` holds. -/
inductive Keeps (whole : List Token) (E : ε → Prop) (R : α → Prop) :
    EStateM.Result ε (List Token) α → Prop
  | ok {a : α} {s : List Token} (ha : R a) (hs : Rest whole s) : Keeps whole E R (.ok a s)
  | error {e : ε} {s : List Token} (he : E e) (hs : Rest whole s) : Keeps whole E R (.error e s)

/-- A reader that keeps the end, wherever among the tokens it starts. -/
def Careful (whole : List Token) (E : ε → Prop) (R : α → Prop) (r : EStateM ε (List Token) α) : Prop :=
  ∀ s, Rest whole s → Keeps whole E R (r s)

/-- A violation at one of the tokens. -/
def AtToken (whole : List Token) (v : Violation) : Prop := ∃ t ∈ whole, v.position = t.position

section
variable {whole : List Token} {E : ε → Prop} {R : α → Prop} {S : β → Prop}
  {r : EStateM ε (List Token) α} {f : α → EStateM ε (List Token) β}

theorem Keeps.bind {s : List Token} (h : Keeps whole E R (r s))
    (hf : ∀ a m, r s = .ok a m → R a → Rest whole m → Keeps whole E S (f a m)) :
    Keeps whole E S ((r >>= f) s) := by
  show Keeps whole E S (EStateM.bind r f s)
  unfold EStateM.bind
  cases hr : r s with
  | ok a m =>
    rw [hr] at h
    cases h with
    | ok ha hm => exact hf a m hr ha hm
  | error e m =>
    rw [hr] at h
    cases h with
    | error he hm => exact .error he hm

theorem Careful.bind (h : Careful whole E R r) (hf : ∀ a, R a → Careful whole E S (f a)) :
    Careful whole E S (r >>= f) :=
  fun s hs => (h s hs).bind fun a m _ ha hm => hf a ha m hm

theorem Careful.next {g : EStateM ε (List Token) β} (h : Careful whole E R r)
    (hg : Careful whole E S g) : Careful whole E S (r >>= fun _ => g) := h.bind fun _ _ => hg

theorem Careful.mono {E' : ε → Prop} (h : Careful whole E R r) (hE : ∀ e, E e → E' e) :
    Careful whole E' R r := by
  intro s hs
  cases hr : r s with
  | ok a m =>
    have hkeeps := h s hs
    rw [hr] at hkeeps
    cases hkeeps with
    | ok ha hm => exact .ok ha hm
  | error e m =>
    have hkeeps := h s hs
    rw [hr] at hkeeps
    cases hkeeps with
    | error he hm => exact .error (hE e he) hm

theorem careful_pure {a : α} (h : R a) : Careful whole E R (pure a) := fun _ hs => .ok h hs

theorem careful_throw {e : ε} (h : E e) : Careful whole E R (throw e) := fun _ hs => .error h hs

theorem careful_get : Careful whole E (Rest whole) get := fun _ hs => .ok hs hs

theorem Careful.behindCheck {p : Prop} [Decidable p] {e : ε} (he : E e) (h : Careful whole E R r) :
    Careful whole E R (if p then throw e >>= fun _ : PUnit => r else r) := by
  split
  · exact (careful_throw (R := fun _ => True) he).next h
  · exact h

end

section
variable {whole s : List Token}

theorem Rest.atToken (h : Rest whole s) (problem : Problem) : AtToken whole (violationAt problem s) :=
  ⟨next s, h.next_mem, rfl⟩

theorem careful_take : Careful whole (AtToken whole) (· ∈ whole) take :=
  fun _ hs => .ok hs.next_mem hs.after

theorem careful_expect (kind : Token.Kind) (hint : Option Hint) :
    Careful whole (AtToken whole) (fun t => t ∈ whole ∧ t.kind = kind) (expect kind hint) := by
  intro s hs
  unfold expect
  split
  · rename_i hkind
    exact .ok ⟨hs.next_mem, hkind⟩ hs.after
  · exact .error (hs.atToken _) hs

theorem careful_reject {R : α → Prop} (problem : Problem) :
    Careful whole (AtToken whole) R (reject problem) := fun _ hs => .error (hs.atToken problem) hs

end

end SqfLayout.TokenReader
