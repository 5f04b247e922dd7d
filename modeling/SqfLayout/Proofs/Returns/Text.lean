import SqfLayout.Proofs.Lexeme.Spelling

/-! Texts with a carriage return before every line feed. -/
namespace SqfLayout
namespace Text

/-- Puts a carriage return before every line feed. -/
def withReturns (t : Text) : Text := t.flatMap fun c => if c = '\n' then ['\r', '\n'] else [c]

@[simp] theorem withReturns_nil : withReturns [] = [] := rfl

@[simp] theorem withReturns_newline (t : Text) :
    withReturns ('\n' :: t) = '\r' :: '\n' :: withReturns t := rfl

theorem withReturns_cons {c : Char} (hc : c ≠ '\n') (t : Text) :
    withReturns (c :: t) = c :: withReturns t := by
  simp [withReturns, hc]

@[simp] theorem withReturns_append (a b : Text) :
    withReturns (a ++ b) = withReturns a ++ withReturns b := List.flatMap_append

theorem withReturns_of_not_mem {t : Text} (h : '\n' ∉ t) : withReturns t = t := by
  induction t with
  | nil => rfl
  | cons c t ih =>
    simp only [List.mem_cons, not_or] at h
    rw [withReturns_cons (Ne.symm h.1), ih h.2]

private theorem mem_withReturns {t : Text} : '\n' ∈ withReturns t ↔ '\n' ∈ t := by
  induction t with
  | nil => simp
  | cons c t ih =>
    by_cases hc : c = '\n'
    · simp [hc]
    · simp [withReturns_cons hc, ih, Ne.symm hc]

theorem withReturns_eq_iff {t u : Text} (hu : '\n' ∉ u) : withReturns t = u ↔ t = u := by
  constructor
  · rintro rfl
    rw [mem_withReturns] at hu
    exact (withReturns_of_not_mem hu).symm
  · rintro rfl
    exact withReturns_of_not_mem hu

theorem head?_withReturns {t : Text} {c : Char} (hc : isBreak c = false) :
    (withReturns t).head? = some c ↔ t.head? = some c := by
  cases t with
  | nil => simp
  | cons d t =>
    by_cases hd : d = '\n'
    · subst hd
      have hr : '\r' ≠ c := by
        rintro rfl
        simp [isBreak] at hc
      have hn : '\n' ≠ c := by
        rintro rfl
        simp [isBreak] at hc
      simp [hr, hn]
    · simp [withReturns_cons hd]

theorem forall_isBreak {p : Char → Prop} : (∀ k, isBreak k = true → p k) ↔ p '\n' ∧ p '\r' := by
  simp [isBreak, or_imp, forall_and]

private theorem line_cases {t : Text} (ht : '\r' ∉ t) :
    ∃ line, (∀ c ∈ line, isBreak c = false) ∧ (t = line ∨ ∃ more, t = line ++ '\n' :: more) := by
  obtain ⟨line, rest, rfl, hline, hrest⟩ := Lexeme.exists_line t
  refine ⟨line, hline, ?_⟩
  cases rest with
  | nil => exact .inl (List.append_nil line)
  | cons c more =>
    have hc : c ≠ '\r' := by
      rintro rfl
      simp at ht
    have hbreak := hrest c rfl
    simp only [isBreak, Bool.or_eq_true, beq_iff_eq, hc, or_false] at hbreak
    exact .inr ⟨more, by rw [hbreak]⟩

theorem withReturns_line {line : Text} (h : ∀ c ∈ line, isBreak c = false) :
    withReturns line = line := by
  refine withReturns_of_not_mem fun hmem => ?_
  simpa [isBreak] using h '\n' hmem

/-- What is read off the start of a line alone is not changed. -/
theorem eq_of_line {α : Type} {f : Text → α}
    (hf : ∀ line k more, isBreak k = true → f (line ++ k :: more) = f line) {t : Text}
    (ht : '\r' ∉ t) : f (withReturns t) = f t := by
  obtain ⟨line, hline, rfl | ⟨more, rfl⟩⟩ := line_cases ht
  · rw [withReturns_line hline]
  · rw [withReturns_append, withReturns_line hline, withReturns_newline, hf line '\r' _ rfl,
      hf line '\n' _ rfl]

section
variable {p : Char → Bool} {t : Text}

theorem takeWhile_withReturns (hp : ∀ k, isBreak k = true → p k = false) (ht : '\r' ∉ t) :
    (withReturns t).takeWhile p = t.takeWhile p :=
  eq_of_line (f := List.takeWhile p)
    (fun line _ more hk => Lexeme.takeWhile_append_stop line more (hp _ hk)) ht

theorem dropWhile_withReturns (hp : ∀ k, isBreak k = true → p k = false) :
    (withReturns t).dropWhile p = withReturns (t.dropWhile p) := by
  induction t with
  | nil => rfl
  | cons c t ih =>
    by_cases hc : c = '\n'
    · subst hc
      simp [hp '\n' rfl, hp '\r' rfl]
    · rw [withReturns_cons hc]
      by_cases hpc : p c = true
      · simp [hpc, ih]
      · simp [hpc, withReturns_cons hc]

theorem takeWhile_withReturns_of_breaks (hp : ∀ k, isBreak k = true → p k = true) :
    (withReturns t).takeWhile p = withReturns (t.takeWhile p) := by
  induction t with
  | nil => rfl
  | cons c t ih =>
    by_cases hc : c = '\n'
    · subst hc
      simp [hp '\n' rfl, hp '\r' rfl, ih]
    · rw [withReturns_cons hc]
      by_cases hpc : p c = true
      · simp [hpc, ih, withReturns_cons hc]
      · simp [hpc]

end

theorem dropMark_withReturns (t : Text) : dropMark (withReturns t) = withReturns (dropMark t) := by
  cases t with
  | nil => rfl
  | cons c t =>
    by_cases hc : c = '\n'
    · subst hc
      rfl
    · rw [withReturns_cons hc]
      simp only [dropMark]
      split
      · rfl
      · rw [withReturns_cons hc]

theorem dropMark_subset (t : Text) : dropMark t ⊆ t := by
  cases t with
  | nil => exact List.nil_subset _
  | cons c t =>
    simp only [dropMark]
    split
    · exact List.subset_cons_self c t
    · exact List.Subset.refl _

/-- Lines end where they ended, now with a carriage return that belongs to no line. -/
theorem splitLines_withReturns {t : Text} (ht : '\r' ∉ t) :
    (splitLines (withReturns t)).map dropReturn = (splitLines t).map dropReturn := by
  induction hn : t.length using Nat.strongRecOn generalizing t with
  | _ n ih =>
    obtain ⟨line, hline, rfl | ⟨more, rfl⟩⟩ := line_cases ht
    · rw [withReturns_line hline]
    · have hfeed {line : Text} (hline : ∀ c ∈ line, isBreak c = false) : '\n' ∉ line := by
        intro hmem
        simpa [isBreak] using hline '\n' hmem
      have hreturn : dropReturn (line ++ ['\r']) = dropReturn line := by
        have hplain : line.getLast? ≠ some '\r' := by
          intro hlast
          simpa [isBreak] using hline '\r' (List.mem_of_getLast? hlast)
        rw [dropReturn_concat, dropReturn_eq_self_iff.2 hplain]
      have hsplit : withReturns (line ++ '\n' :: more) =
          (line ++ ['\r']) ++ '\n' :: withReturns more := by
        simp [withReturns_line hline]
      have hmore : '\r' ∉ more := fun h => ht (by simp [h])
      rw [hsplit, splitLines_append (by simp [hfeed hline]), splitLines_append (hfeed hline),
        List.map_cons, List.map_cons, hreturn, ih more.length (by simp [← hn]; omega) hmore rfl]

end Text

theorem Position.advance_withReturns (p : Position) (t : Text) :
    p.advance (Text.withReturns t) = p.advance t := by
  induction t generalizing p with
  | nil => rfl
  | cons c t ih =>
    by_cases hc : c = '\n'
    · subst hc
      rw [Text.withReturns_newline, advance_cons, advance_cons, ih]
      rfl
    · rw [Text.withReturns_cons hc, advance_cons, advance_cons, ih]

end SqfLayout
