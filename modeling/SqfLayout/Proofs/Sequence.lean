import Mathlib.Logic.Basic

/-! One reader after another, whatever it reads and however it fails. -/
namespace SqfLayout
variable {ε σ α β : Type} {r r' : EStateM ε σ α} {f : α → EStateM ε σ β} {s s' m : σ}

theorem bind_apply (r : EStateM ε σ α) (f : α → EStateM ε σ β) (s : σ) :
    (r >>= f) s = match r s with
      | .ok a m => f a m
      | .error e m => .error e m := by
  show EStateM.bind r f s = _
  unfold EStateM.bind
  cases r s <;> rfl

theorem bind_ok_iff {b : β} : (r >>= f) s = .ok b s' ↔ ∃ a m, r s = .ok a m ∧ f a m = .ok b s' := by
  rw [bind_apply]
  cases r s with
  | ok a m =>
    constructor
    · exact fun h => ⟨a, m, rfl, h⟩
    · rintro ⟨_, _, h, hf⟩
      cases h
      exact hf
  | error => simp

theorem bind_of_ok {a : α} (h : r s = .ok a m) : (r >>= f) s = f a m := by
  rw [bind_apply, h]

theorem bind_of_error {e : ε} (h : r s = .error e m) : (r >>= f) s = .error e m := by
  rw [bind_apply, h]

theorem bind_eq_bind (h : r s = r' s') (f : α → EStateM ε σ β) : (r >>= f) s = (r' >>= f) s' := by
  rw [bind_apply, bind_apply, h]

theorem pure_ok_iff {a b : α} : (pure a : EStateM ε σ α) s = .ok b s' ↔ a = b ∧ s = s' := by
  show EStateM.Result.ok a s = .ok b s' ↔ _
  simp

theorem get_ok_iff {a : σ} : (get : EStateM ε σ σ) s = .ok a s' ↔ a = s ∧ s' = s := by
  show EStateM.Result.ok s s = .ok a s' ↔ _
  simp [eq_comm]

theorem throw_ne_ok {e : ε} {a : α} : (throw e : EStateM ε σ α) s ≠ .ok a s' := by
  show EStateM.Result.error e s ≠ .ok a s'
  simp

end SqfLayout
