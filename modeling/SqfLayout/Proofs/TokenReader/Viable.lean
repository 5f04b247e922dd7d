import SqfLayout.Proofs.TokenReader.Blame

/-! Readers that fail at the first token that cannot be right: the tokens in front of it begin something that
they accept, and nothing that goes on with that token and the one behind it is accepted. -/
namespace SqfLayout

/-- How many tokens a reader has taken from the one that it fails at. A path or a literal is taken before
its value is looked at. -/
def Problem.taken : Problem → Nat
  | .unknownInclude _ | .wrongSentinel _ _ => 1
  | _ => 0

theorem Problem.taken_le (problem : Problem) : problem.taken ≤ 1 := by
  unfold Problem.taken
  split <;> decide

namespace TokenReader

/-- Tokens that go on like others as far as a reader looks ahead. -/
def SharesFront (m m' : List Token) : Prop := m.take 2 <+: m'

section
variable {whole s m m' : List Token} {t : Token} {p : Token → Bool}

theorem SharesFront.refl (m : List Token) : SharesFront m m := List.take_prefix 2 m

theorem SharesFront.append (h : SharesFront m m') (x : List Token) : SharesFront (x ++ m) (x ++ m') := by
  have hfar : (x ++ m).take 2 <+: (x ++ m).take (x.length + 2) :=
    List.take_prefix_take_left (Nat.le_add_left 2 x.length)
  rw [List.take_length_add_append] at hfar
  exact hfar.trans ((List.prefix_append_right_inj x).2 h)

theorem SharesFront.exists_cons (h : SharesFront (t :: m) m') : ∃ more, m' = t :: more := by
  obtain ⟨more, rfl⟩ := h
  exact ⟨_, rfl⟩

theorem SharesFront.dropWhile_append (h : SharesFront (s.dropWhile p) m') (hs : s.dropWhile p ≠ []) :
    (s.takeWhile p ++ m').dropWhile p = m' := by
  obtain ⟨t, more, ht⟩ := List.exists_cons_of_ne_nil hs
  have hstop : p t = false := by
    have hhead := List.head_dropWhile_not p hs
    simpa only [ht, List.head_cons] using hhead
  rw [ht] at h
  obtain ⟨others, rfl⟩ := h.exists_cons
  rw [List.dropWhile_append_of_pos (List.all_eq_true.1 List.all_takeWhile),
    List.dropWhile_cons_of_neg (by simp [hstop])]

end

/-- A violation is raised at the first of the tokens `m`, and reading stopped at the tokens `rest`. -/
structure Raised (v : Violation) (rest m : List Token) : Prop where
  rest_eq : rest = m.drop v.problem.taken
  position_eq : v.position = (next m).position

variable {ε α β : Type}

/-- What a reader makes of tokens, where `view` shows what a failure tells and `G` says which tokens stand
for which value. A value depends on the tokens taken and on as much of what follows as a reader looks at. A
failure, but for one at a code block without an end, is raised at the first token that cannot be right. -/
inductive Decides (view : ε → Violation) (whole : List Token) (r : EStateM ε (List Token) α)
    (G : α → List Token → Prop) (s : List Token) : Prop
  | done {a : α} {x m : List Token} (hs : s = x ++ m) (hx : G a x) (hm : Rest whole m)
      (hread : ∀ m', SharesFront m m' → r (x ++ m') = .ok a m')
  | unclosed {e : ε} {rest : List Token} (hread : r s = .error e rest)
      (he : (view e).problem = .unclosedCode)
  | stuck {e : ε} {rest x m : List Token} (hs : s = x ++ m) (hm : Rest whole m)
      (hread : r s = .error e rest) (he : Raised (view e) rest m) (hviable : ∃ a y, G a (x ++ y))
      (hstuck : ∀ m', SharesFront m m' → ∃ e' rest', r (x ++ m') = .error e' rest')

/-- A reader that accepts something, and decides at the first token that cannot be right, wherever among
tokens with an end it starts. -/
structure Decisive (view : ε → Violation) (whole : List Token) (r : EStateM ε (List Token) α)
    (G : α → List Token → Prop) : Prop where
  inhabited : ∃ a x, G a x
  decides : ∀ s, Rest whole s → Decides view whole r G s

section
variable {view : ε → Violation} {whole s m x : List Token} {r : EStateM ε (List Token) α}
  {f : α → EStateM ε (List Token) β} {G K : α → List Token → Prop} {L : β → List Token → Prop}

theorem Decides.mono (h : Decides view whole r G s) (hG : ∀ a x, G a x → K a x) :
    Decides view whole r K s := by
  cases h with
  | done hs hx hm hread => exact .done hs (hG _ _ hx) hm hread
  | unclosed hread he => exact .unclosed hread he
  | stuck hs hm hread he hviable hstuck =>
    obtain ⟨a, y, hy⟩ := hviable
    exact .stuck hs hm hread he ⟨a, y, hG _ _ hy⟩ hstuck

theorem Decides.behind {r' : EStateM ε (List Token) α} (hr : ∀ m', SharesFront m m' → r' (x ++ m') = r m')
    (h : Decides view whole r (fun a y => G a (x ++ y)) m) : Decides view whole r' G (x ++ m) := by
  have hsame := hr m (.refl m)
  cases h with
  | @done a y n hs hy hn hread =>
    subst hs
    refine .done (x := x ++ y) (List.append_assoc x y n).symm hy hn fun n' hfront => ?_
    rw [List.append_assoc, hr _ (hfront.append y), hread n' hfront]
  | unclosed hread he => exact .unclosed (hsame.trans hread) he
  | @stuck e rest y n hs hn hread he hviable hstuck =>
    subst hs
    obtain ⟨a, z, hz⟩ := hviable
    refine .stuck (x := x ++ y) (List.append_assoc x y n).symm hn (hsame.trans hread) he
      ⟨a, z, by rwa [List.append_assoc]⟩ fun n' hfront => ?_
    obtain ⟨e', rest', hfails⟩ := hstuck n' hfront
    exact ⟨e', rest', by rw [List.append_assoc, hr _ (hfront.append y), hfails]⟩

theorem Decides.bind (h : Decides view whole r G s)
    (hf : ∀ a x m, r s = .ok a m → G a x → Rest whole m →
      Decides view whole (f a) (fun b y => L b (x ++ y)) m)
    (hL : ∀ a x, G a x → ∃ b y, L b (x ++ y)) : Decides view whole (r >>= f) L s := by
  cases h with
  | @done a x m hs hx hm hread =>
    subst hs
    refine .behind (fun m' hfront => bind_of_ok (hread m' hfront)) ?_
    exact hf a x m (hread m (.refl m)) hx hm
  | unclosed hread he => exact .unclosed (bind_of_error hread) he
  | @stuck e rest x m hs hm hread he hviable hstuck =>
    obtain ⟨a, y, hy⟩ := hviable
    obtain ⟨b, z, hz⟩ := hL a (x ++ y) hy
    refine .stuck hs hm (bind_of_error hread) he ⟨b, y ++ z, by rwa [← List.append_assoc]⟩
      fun m' hfront => ?_
    obtain ⟨e', rest', hfails⟩ := hstuck m' hfront
    exact ⟨e', rest', bind_of_error hfails⟩

theorem decides_pure {a : α} (hs : Rest whole s) (ha : G a []) : Decides view whole (pure a) G s :=
  .done (x := []) rfl ha hs fun _ _ => rfl

theorem Decisive.mono (h : Decisive view whole r G) (hG : ∀ a x, G a x → K a x) :
    Decisive view whole r K := by
  obtain ⟨a, x, hx⟩ := h.inhabited
  exact ⟨⟨a, x, hG a x hx⟩, fun s hs => (h.decides s hs).mono hG⟩

theorem Decisive.bind (h : Decisive view whole r G)
    (hf : ∀ a x, G a x → Decisive view whole (f a) fun b y => L b (x ++ y)) :
    Decisive view whole (r >>= f) L := by
  refine ⟨?_, fun s hs => (h.decides s hs).bind (fun a x m _ hx hm => (hf a x hx).decides m hm)
    fun a x hx => (hf a x hx).inhabited⟩
  obtain ⟨a, x, hx⟩ := h.inhabited
  obtain ⟨b, y, hy⟩ := (hf a x hx).inhabited
  exact ⟨b, x ++ y, hy⟩

theorem decisive_pure {a : α} (ha : G a []) : Decisive view whole (pure a) G :=
  ⟨⟨a, [], ha⟩, fun _ hs => decides_pure hs ha⟩

end

theorem decides_refused {view : ε → Violation} {whole m : List Token} {t : Token}
    {r : EStateM ε (List Token) α} {G : α → List Token → Prop} {e : ε} (hs : Rest whole (t :: m))
    (hfails : ∀ m', r (t :: m') = .error e ((t :: m').drop (view e).problem.taken))
    (hplace : (view e).position = t.position) (hviable : ∃ a y, G a y) : Decides view whole r G (t :: m) := by
  refine .stuck (x := []) rfl hs (hfails m) ⟨rfl, hplace⟩ hviable fun m' hfront => ?_
  obtain ⟨more, rfl⟩ := hfront.exists_cons
  exact ⟨_, _, hfails more⟩

theorem decisive_expect (whole : List Token) {kind : Token.Kind} (hint : Option Hint) (hkind : kind ≠ .eos) :
    Decisive id whole (expect kind hint) fun t x => t.kind = kind ∧ x = [t] := by
  let wanted : Token := ⟨kind, [], Position.start⟩
  refine ⟨⟨wanted, [wanted], rfl, rfl⟩, fun s hs => ?_⟩
  obtain ⟨t, m, rfl⟩ := List.exists_cons_of_ne_nil hs.ne_nil
  by_cases ht : t.kind = kind
  · exact .done (x := [t]) rfl ⟨ht, rfl⟩ (hs.tail (by rwa [ht])) fun m' _ =>
      (expect_ok_iff hkind).2 ⟨rfl, ht⟩
  · let refused : Violation := ⟨.mismatch kind t hint, t.position⟩
    exact decides_refused (e := refused) hs (fun _ => expect_of_ne ht) rfl ⟨wanted, [wanted], rfl, rfl⟩

end TokenReader
end SqfLayout
