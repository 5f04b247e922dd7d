import SqfLayout.Proofs.Expression.Blame

/-! The place in the tokens that steps of reading lead to. Whatever the steps are, and whether or not they
fail, the place never goes back and never goes past the first end. -/
namespace SqfLayout.TokenReader

/-- What may be asked of the tokens that remain. -/
inductive Step
  | peek (n : USize)
  | take
  | expect (kind : Token.Kind) (hint : Option Hint)
  | error (template : Text) (arguments : List Text)
  | expression
  | array

/-- What a step gives. A look ahead gives no token if its sum stops. -/
inductive Found
  | token (t : Token)
  | noToken
  | expression (e : Expression)

namespace Step

def run (checked : Bool) (whole : List Token) : Step → TokenReader Found
  | .peek n => fun s =>
    match peek? checked whole n s with
    | some t => .ok (.token t) s
    | none => .ok .noToken s
  | .take => do return .token (← TokenReader.take)
  | .expect kind hint => do return .token (← TokenReader.expect kind hint)
  | .error template arguments => reject (.stated template arguments)
  | .expression => do return .expression (← Expression.read)
  | .array => do return .expression (← Expression.readArray)

/-- The tokens that remain behind a step, even if it fails. -/
def rest (checked : Bool) (whole : List Token) (step : Step) (s : List Token) : List Token :=
  match step.run checked whole s with
  | .ok _ m => m
  | .error _ m => m

end Step

/-- The tokens that remain behind steps, one after the other. -/
def remaining (checked : Bool) (whole : List Token) (steps : List Step) (s : List Token) : List Token :=
  steps.foldl (fun s step => step.rest checked whole s) s

def firstEnd (whole : List Token) : Nat := whole.findIdx fun t => t.kind = .eos

/-- How far a step goes. -/
def Step.Moves (checked : Bool) (whole : List Token) (step : Step) (s : List Token) : Prop :=
  let before := place whole s
  let behind := place whole (step.rest checked whole s)
  match step with
  | .peek n => behind = before ∧
      if checked ∧ USize.size ≤ before + n.toNat then step.run checked whole s = .ok .noToken s
      else ∃ t, whole[min ((before + n.toNat) % USize.size) (whole.length - 1)]? = some t ∧
        step.run checked whole s = .ok (.token t) s
  | .error _ _ => behind = before
  | .take => (next s).kind ≠ .eos → behind = before + 1
  | .expect kind _ =>
    match step.run checked whole s with
    | .ok _ _ => kind ≠ .eos → (next s).kind ≠ .eos → behind = before + 1
    | .error _ _ => behind = before
  | .expression | .array =>
    match step.run checked whole s with
    | .ok _ _ => before < behind
    | .error _ _ => True

private theorem ends_complete (tokens : List Token) : ∃ t ∈ (complete tokens).getLast?, t.kind = .eos := by
  unfold complete
  cases hlast : tokens.getLast? with
  | none => exact ⟨_, rfl, rfl⟩
  | some t =>
    by_cases ht : t.kind = .eos
    · exact ⟨t, by simpa [ht] using hlast, ht⟩
    · exact ⟨Token.eos t.position, by simp [ht], rfl⟩

section
variable {checked : Bool} {whole s m : List Token}

private theorem Rest.trans (h : Rest whole s) (hm : Rest s m) : Rest whole m := by
  obtain ⟨x, rfl, hx⟩ := hm.passed
  exact h.behind hx

private theorem Rest.exists_passed (h : Rest whole s) :
    ∃ x, whole = x ++ s ∧ (∀ t ∈ x, t.kind ≠ .eos) ∧ place whole s = x.length := by
  obtain ⟨x, rfl, hx⟩ := h.passed
  refine ⟨x, rfl, hx, ?_⟩
  rw [place, List.length_append]
  omega

private theorem Rest.eq_drop (h : Rest whole s) : s = whole.drop (place whole s) := by
  obtain ⟨x, rfl, _, hplace⟩ := h.exists_passed
  rw [hplace, List.drop_left]

private theorem Rest.place_le_firstEnd (h : Rest whole s) : place whole s ≤ firstEnd whole := by
  obtain ⟨x, rfl, hx, hplace⟩ := h.exists_passed
  have hnone : x.findIdx (fun t => t.kind = .eos) = x.length := by
    rw [List.findIdx_eq_length]
    simpa using hx
  rw [hplace, firstEnd, List.findIdx_append, hnone, if_neg (Nat.lt_irrefl _)]
  omega

private theorem Rest.firstEnd_lt (h : Rest whole s) : firstEnd whole < whole.length := by
  obtain ⟨t, ht, hkind⟩ := h.ends
  have hmem : t ∈ whole := h.suffix.subset (List.mem_of_getLast? ht)
  exact List.findIdx_lt_length_of_exists ⟨t, hmem, by simpa using hkind⟩

private theorem place_le (hm : Rest s m) : place whole s ≤ place whole m := by
  have hshort := hm.suffix.length_le
  unfold place
  omega

private theorem place_lt (h : Rest whole s) (hm : m.length < s.length) : place whole s < place whole m := by
  have hshort := h.suffix.length_le
  unfold place
  omega

private theorem place_after (h : Rest whole s) (hs : (next s).kind ≠ .eos) :
    place whole (after s) = place whole s + 1 := by
  obtain ⟨t, m, rfl⟩ := List.exists_cons_of_ne_nil h.ne_nil
  have hshort := h.suffix.length_le
  have hafter : after (t :: m) = m := after_cons hs
  rw [List.length_cons] at hshort
  rw [hafter, place, place, List.length_cons]
  omega

private theorem getElem?_ahead {whole : List Token} (h : whole ≠ []) (i : Nat) :
    whole[min i (whole.length - 1)]? = some (ahead i whole) := by
  have hpos : 0 < whole.length := List.length_pos_iff.2 h
  by_cases hi : i < whole.length
  · rw [Nat.min_eq_left (by omega), ahead, List.getElem?_eq_getElem hi]
    rfl
  · have hlast : whole.getLast? = some (whole.getLast h) := List.getLast?_eq_some_getLast h
    rw [Nat.min_eq_right (by omega), ahead, List.getElem?_eq_none (Nat.le_of_not_lt hi), hlast,
      ← List.getLast?_eq_getElem?, hlast]
    rfl

private theorem sum?_eq (checked : Bool) (m : Nat) (n : USize) :
    sum? checked m n =
      if checked ∧ USize.size ≤ m + n.toNat then none else some ((m + n.toNat) % USize.size) := by
  unfold sum?
  by_cases hsum : m + n.toNat < USize.size
  · rw [if_pos hsum, if_neg (fun h => absurd h.2 (Nat.not_le.2 hsum)), Nat.mod_eq_of_lt hsum]
  · rw [if_neg hsum]
    cases checked <;> simp [Nat.le_of_not_lt hsum]

private theorem careful_step (checked : Bool) (whole s : List Token) (step : Step) :
    Careful s (AtToken s) (fun _ => True) (step.run checked whole) := by
  cases step with
  | peek n =>
    intro m hm
    simp only [Step.run]
    cases peek? checked whole n m with
    | none => exact .ok trivial hm
    | some t => exact .ok trivial hm
  | take => exact careful_take.bind fun _ _ => careful_pure trivial
  | expect kind hint => exact (careful_expect kind hint).bind fun _ _ => careful_pure trivial
  | error template arguments => exact careful_reject _
  | expression => exact (Expression.careful_read s).bind fun _ _ => careful_pure trivial
  | array => exact (Expression.careful_readArray s).bind fun _ _ => careful_pure trivial

private theorem Rest.step (h : Rest whole s) (step : Step) : Rest s (step.rest checked whole s) := by
  have hkeeps := careful_step checked whole s step s (.all h.ends)
  unfold Step.rest
  generalize step.run checked whole s = result at hkeeps
  cases hkeeps with
  | ok _ hm => exact hm
  | error _ hm => exact hm

private theorem Rest.remaining (h : Rest whole s) (steps : List Step) :
    Rest s (remaining checked whole steps s) := by
  induction steps generalizing s with
  | nil => exact .all h.ends
  | cons step steps ih =>
    have hstep : Rest s (step.rest checked whole s) := h.step step
    exact hstep.trans (ih (h.trans hstep))

private theorem run_peek (h : Rest whole s) (n : USize) :
    if checked ∧ USize.size ≤ place whole s + n.toNat then
      (Step.peek n).run checked whole s = .ok .noToken s
    else ∃ t, whole[min ((place whole s + n.toNat) % USize.size) (whole.length - 1)]? = some t ∧
      (Step.peek n).run checked whole s = .ok (.token t) s := by
  have hne : whole ≠ [] := fun hnil => h.ne_nil (List.suffix_nil.1 (hnil ▸ h.suffix))
  by_cases hstops : checked ∧ USize.size ≤ place whole s + n.toNat
  · rw [if_pos hstops]
    simp only [Step.run, peek?, sum?_eq, if_pos hstops, Option.map_none]
  · rw [if_neg hstops]
    refine ⟨_, getElem?_ahead hne _, ?_⟩
    simp only [Step.run, peek?, sum?_eq, if_neg hstops, Option.map_some]

private theorem rest_peek (n : USize) : (Step.peek n).rest checked whole s = s := by
  simp only [Step.rest, Step.run]
  cases peek? checked whole n s <;> rfl

private theorem Step.moves (h : Rest whole s) (step : Step) : step.Moves checked whole s := by
  cases step with
  | peek n => exact ⟨congrArg (place whole) (rest_peek n), run_peek h n⟩
  | take => exact place_after h
  | expect kind hint =>
    by_cases hkind : (next s).kind = kind
    · have hrun : Step.run checked whole (.expect kind hint) s = .ok (.token (next s)) (after s) :=
        bind_of_ok (if_pos hkind)
      simp only [Step.Moves, Step.rest, hrun]
      exact fun _ hs => place_after h hs
    · have hrun : Step.run checked whole (.expect kind hint) s =
          .error (violationAt (.mismatch kind (next s) hint) s) s := bind_of_error (if_neg hkind)
      simp only [Step.Moves, Step.rest, hrun]
  | error template arguments => rfl
  | expression =>
    cases hread : Expression.read s with
    | ok e m =>
      have hrun : Step.run checked whole .expression s = .ok (.expression e) m := bind_of_ok hread
      simp only [Step.Moves, Step.rest, hrun]
      exact place_lt h (Expression.length_of_read hread)
    | error v m =>
      have hrun : Step.run checked whole .expression s = .error v m := bind_of_error hread
      simp only [Step.Moves, hrun]
  | array =>
    cases hread : Expression.readArray s with
    | ok e m =>
      have hrun : Step.run checked whole .array s = .ok (.expression e) m := bind_of_ok hread
      simp only [Step.Moves, Step.rest, hrun]
      exact place_lt h (Expression.length_of_readArray hread)
    | error v m =>
      have hrun : Step.run checked whole .array s = .error v m := bind_of_error hread
      simp only [Step.Moves, hrun]

end

/-- Behind any steps on any tokens, the place is at most that of the first end, which lies among the
tokens. What remains begins there. Further steps never go back or past that end, and each goes as far as it
may. All this holds whether or not sums are checked. -/
theorem place_remaining (checked : Bool) (tokens : List Token) (steps : List Step) :
    let whole := complete tokens
    let s := remaining checked whole steps whole
    firstEnd whole < whole.length ∧ place whole s ≤ firstEnd whole ∧ s = whole.drop (place whole s) ∧
      (∀ later, place whole s ≤ place whole (remaining checked whole later s) ∧
        place whole (remaining checked whole later s) ≤ firstEnd whole) ∧
      ∀ step : Step, place whole s ≤ place whole (step.rest checked whole s) ∧
        place whole (step.rest checked whole s) ≤ firstEnd whole ∧ step.Moves checked whole s := by
  intro whole s
  have hwhole : Rest whole whole := .all (ends_complete tokens)
  have hs : Rest whole s := hwhole.remaining steps
  refine ⟨hwhole.firstEnd_lt, hs.place_le_firstEnd, hs.eq_drop, fun later => ?_, fun step => ?_⟩
  · have hlater : Rest s (remaining checked whole later s) := hs.remaining later
    exact ⟨place_le hlater, (hs.trans hlater).place_le_firstEnd⟩
  · have hstep : Rest s (step.rest checked whole s) := hs.step step
    exact ⟨place_le hstep, (hs.trans hstep).place_le_firstEnd, step.moves hs⟩

end SqfLayout.TokenReader
