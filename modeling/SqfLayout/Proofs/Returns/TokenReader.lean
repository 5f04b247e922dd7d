import Mathlib.Data.List.Forall2
import SqfLayout.Proofs.Returns.Token
import SqfLayout.Proofs.TokenReader

/-! Two runs of a reader, over a stream and over the same stream where lines end in two characters. -/
namespace SqfLayout

/-- A token of a source without carriage returns, and the same token where lines end in two
characters. -/
def Token.Alike (t t' : Token) : Prop := t.IsClean ∧ t' = t.withReturns

namespace Token.Alike
variable {t t' : Token}

theorem kind_eq (h : Alike t t') : t'.kind = t.kind := by rw [h.2, kind_withReturns]

theorem position_eq (h : Alike t t') : t'.position = t.position := by rw [h.2, position_withReturns]

theorem value_eq_withReturns (h : Alike t t') (ht : t.kind ≠ .newline) :
    t'.value = t.value.withReturns := by rw [h.2, withReturns_of_ne ht]

theorem value_eq (h : Alike t t') (ht : t.kind ∈ lineKinds) : t'.value = t.value := by
  have hne : t.kind ≠ .newline := by
    intro hkind
    simp [hkind, lineKinds] at ht
  rw [h.value_eq_withReturns hne, Text.withReturns_of_not_mem (h.1.noFeed ht)]

end Token.Alike

/-- Violations that read the same. -/
def Violation.Same (v v' : Violation) : Prop :=
  v'.problem.message = v.problem.message ∧ v'.position = v.position

namespace TokenReader
open Token (Alike)

variable {ε α α' β β' : Type}

/-- Streams of alike tokens. -/
abbrev Streams : List Token → List Token → Prop := List.Forall₂ Alike

/-- Two results agree: both are values and streams that belong together, or both are failures. -/
inductive Agree (E : ε → ε → Prop) (R : α → α' → Prop) :
    EStateM.Result ε (List Token) α → EStateM.Result ε (List Token) α' → Prop
  | ok {a : α} {a' : α'} {s s' : List Token} (ha : R a a') (hs : Streams s s') :
      Agree E R (.ok a s) (.ok a' s')
  | error {e e' : ε} {s s' : List Token} (he : E e e') : Agree E R (.error e s) (.error e' s')

/-- Two readers agree on streams that belong together. -/
def Simulates (E : ε → ε → Prop) (R : α → α' → Prop) (r : EStateM ε (List Token) α)
    (r' : EStateM ε (List Token) α') : Prop := ∀ s s', Streams s s' → Agree E R (r s) (r' s')

section
variable {E : ε → ε → Prop} {R : α → α' → Prop} {S : β → β' → Prop}
  {r : EStateM ε (List Token) α} {r' : EStateM ε (List Token) α'}
  {f : α → EStateM ε (List Token) β} {f' : α' → EStateM ε (List Token) β'}

theorem Agree.bind {s s' : List Token} (h : Agree E R (r s) (r' s'))
    (hf : ∀ a a' m m', r s = .ok a m → R a a' → Streams m m' → Agree E S (f a m) (f' a' m')) :
    Agree E S ((r >>= f) s) ((r' >>= f') s') := by
  show Agree E S (EStateM.bind r f s) (EStateM.bind r' f' s')
  unfold EStateM.bind
  cases hr : r s with
  | ok a m =>
    cases hr' : r' s' with
    | ok a' m' =>
      rw [hr, hr'] at h
      cases h with
      | ok ha hm => exact hf a a' m m' hr ha hm
    | error =>
      rw [hr, hr'] at h
      cases h
  | error e m =>
    cases hr' : r' s' with
    | ok =>
      rw [hr, hr'] at h
      cases h
    | error =>
      rw [hr, hr'] at h
      cases h with
      | error he => exact .error he

theorem Simulates.bind (h : Simulates E R r r') (hf : ∀ a a', R a a' → Simulates E S (f a) (f' a')) :
    Simulates E S (r >>= f) (r' >>= f') :=
  fun s s' hs => (h s s' hs).bind fun a a' m m' _ ha hm => hf a a' ha m m' hm

theorem Simulates.next {g : EStateM ε (List Token) β} {g' : EStateM ε (List Token) β'}
    (h : Simulates E R r r') (hg : Simulates E S g g') :
    Simulates E S (r >>= fun _ => g) (r' >>= fun _ => g') := h.bind fun _ _ _ => hg

theorem simulates_pure {a : α} {a' : α'} (h : R a a') : Simulates E R (pure a) (pure a') :=
  fun _ _ hs => .ok h hs

theorem simulates_throw {e e' : ε} (h : E e e') : Simulates E R (throw e) (throw e') :=
  fun _ _ _ => .error h

theorem simulates_get : Simulates E Streams get get := fun _ _ hs => .ok hs hs

theorem Simulates.behindCheck {p : Prop} [Decidable p] {e e' : ε} (he : E e e')
    (h : Simulates E R r r') :
    Simulates E R (if p then throw e >>= fun _ : PUnit => r else r)
      (if p then throw e' >>= fun _ : PUnit => r' else r') := by
  split
  · exact (simulates_throw (R := Eq) he).next h
  · exact h

end

section
variable {s s' : List Token}

theorem next_alike (h : Streams s s') : Alike (next s) (next s') := by
  cases h with
  | nil => exact ⟨⟨by simp [next, Token.eos], by simp [next, Token.eos, Token.lineKinds]⟩, rfl⟩
  | cons ht _ => exact ht

theorem after_alike (h : Streams s s') : Streams (after s) (after s') := by
  cases h with
  | nil => exact .nil
  | @cons t t' s s' ht hs =>
    simp only [after, ht.kind_eq]
    split
    · exact .cons ht hs
    · exact hs

theorem violationAt_same {problem problem' : Problem} (h : Streams s s')
    (hproblem : problem'.message = problem.message) :
    Violation.Same (violationAt problem s) (violationAt problem' s') :=
  ⟨hproblem, (next_alike h).position_eq⟩

theorem dropWhile_alike {p : Token.Kind → Bool} (h : Streams s s') :
    Streams (s.dropWhile fun t => p t.kind) (s'.dropWhile fun t => p t.kind) := by
  induction h with
  | nil => exact .nil
  | @cons t t' s s' ht hs ih =>
    rw [List.dropWhile_cons, List.dropWhile_cons, ht.kind_eq]
    split
    · exact ih
    · exact .cons ht hs

end

theorem simulates_take : Simulates Violation.Same Alike take take :=
  fun _ _ hs => .ok (next_alike hs) (after_alike hs)

theorem simulates_expect (kind : Token.Kind) (hint : Option Hint) :
    Simulates Violation.Same (fun t t' => Alike t t' ∧ t.kind = kind) (expect kind hint)
      (expect kind hint) := by
  intro s s' hs
  have hnext := next_alike hs
  unfold expect
  rw [hnext.kind_eq]
  split
  · rename_i hkind
    exact .ok ⟨hnext, hkind⟩ (after_alike hs)
  · refine .error (violationAt_same hs ?_)
    cases hint with
    | some hint => rfl
    | none => simp [Problem.message, hnext.kind_eq]

theorem simulates_reject {R : α → α' → Prop} (problem : Problem) :
    Simulates Violation.Same R (reject problem) (reject problem) :=
  fun _ _ hs => .error (violationAt_same hs rfl)

end TokenReader
end SqfLayout
