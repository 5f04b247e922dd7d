import SqfLayout.Proofs.Header.Acceptance

/-! Which line of a comment is blamed for a section that is missing or wrong. -/
namespace SqfLayout.Header
open Text (isPrefixOf?_append)

/-- What is wrong with a comment at the line with the given number, counted from the line of the
opening delimiter, which is zero. -/
inductive Unmet (c : Convention) (lines : List Text) : Nat → Problem → Prop
  | title (h : ¬ (lines[0]? = some [] ∧ lines[1]? = some (indent c.title) ∧ Flush c.title)) :
      Unmet c lines 1 (.badTitle c.title)
  | authors {i : Nat} (h : ∀ names, lines[i]? = some (indent ("Author: " ++ names)) →
      ∃ a ∈ Text.splitItems names, c.isAuthor a = false) : Unmet c lines i (.badAuthors c.authors)
  /-- The heading is missing, or no sentence follows it. -/
  | description {i : Nat} (h : lines[i]? = some (indent "Description:") → ∀ t,
      lines[i + 1]? = some (indent t) → Flush t → isSentence t = false) : Unmet c lines i .badDescription
  | parameters {i : Nat} (h : lines[i]? ≠ some (indent "Parameter(s):")) : Unmet c lines i .noParameters
  | parameter {i ordinal : Nat} (h : ∀ t, lines[i]? = some (indent t) → Flush t →
      parameterLine? c ordinal t = none) : Unmet c lines i (.badParameter ordinal c.types)

/-- A violation on line `i` of a comment that opens on the line with the given number, where a section
was not met. -/
structure Blames (c : Convention) (number : Nat) (lines : List Text) (v : Violation) (i : Nat) : Prop where
  below : 1 ≤ i
  line_eq : v.position.line = number + i
  column : v.position.column = 1 ∨ v.position.column = 5
  unmet : Unmet c lines i v.problem

namespace Lines

/-- What remains behind the first lines of a comment that opens on the line with the given number. -/
def behind (number : Nat) (lines : List Text) (i : Nat) : Lines := ⟨number + i, lines.drop i⟩

section
variable {number i : Nat} {lines : List Text}

theorem ofComment_eq (number : Nat) (comment : Text) :
    ofComment number comment = behind number (linesOf comment) 0 := rfl

theorem advance_behind : (behind number lines i).advance = behind number lines (i + 1) := by
  simp [behind, advance, Nat.add_assoc]

private theorem exists_skipBlank_behind (number : Nat) (lines : List Text) (i : Nat) :
    ∃ j, i ≤ j ∧ (behind number lines i).skipBlank = behind number lines j := by
  unfold skipBlank
  split
  · exact ⟨i + 1, Nat.le_succ i, advance_behind⟩
  · exact ⟨i, Nat.le_refl i, rfl⟩

theorem text?_behind {text : Text} : (behind number lines i).text? = some text ↔
    lines[i]? = some (indent text) ∧ Flush text := by
  unfold text? behind
  simp only [List.head?_drop, Option.bind_eq_some_iff, indented?_eq_some_iff]
  constructor
  · rintro ⟨line, hline, rfl, hflush⟩
    exact ⟨hline, hflush⟩
  · rintro ⟨hline, hflush⟩
    exact ⟨_, hline, rfl, hflush⟩

theorem rest_behind {line : Text} (h : lines[i]? = some line) :
    (behind number lines i).rest = line :: (behind number lines (i + 1)).rest := by
  obtain ⟨hi, rfl⟩ := List.getElem?_eq_some_iff.1 h
  exact List.drop_eq_getElem_cons hi

end
end Lines

section
variable {c : Convention} {number i : Nat} {lines : List Text} {v : Violation}
open Lines (behind)

theorem bind_error_iff {ε α β : Type} {x : Except ε α} {f : α → Except ε β} {e : ε} :
    (x >>= f) = .error e ↔ x = .error e ∨ ∃ a, x = .ok a ∧ f a = .error e := by
  cases x <;> simp [bind, Except.bind]

private theorem readTitle_behind {l : Lines} (h : readTitle c (behind number lines 0) = .ok l) :
    l = behind number lines 2 := by
  unfold readTitle at h
  split at h
  · cases h
    rw [Lines.advance_behind, Lines.advance_behind]
  · cases h

private theorem blames_of_readTitle (h : readTitle c (behind number lines 0) = .error v) :
    ∃ i, Blames c number lines v i := by
  unfold readTitle at h
  split at h
  · cases h
  · rename_i hunmet
    cases h
    refine ⟨1, Nat.le_refl 1, rfl, .inl rfl, .title fun htitle => hunmet ?_⟩
    rw [Lines.advance_behind, Lines.text?_behind]
    exact ⟨by simpa [behind, List.head?_eq_getElem?] using htitle.1, htitle.2⟩

private theorem readAuthors_behind {l : Lines} {names : List Text}
    (h : readAuthors c (behind number lines i) = .ok (names, l)) : l = behind number lines (i + 1) := by
  obtain ⟨-, -, -, -, rfl⟩ := readAuthors_ok_iff.1 h
  exact Lines.advance_behind

private theorem blames_of_readAuthors (hi : 1 ≤ i) (h : readAuthors c (behind number lines i) = .error v) :
    ∃ i, Blames c number lines v i := by
  have hunmet : Unmet c lines i (.badAuthors c.authors) := by
    refine .authors fun names hnames => ?_
    by_cases hknown : ∀ a ∈ Text.splitItems names, c.isAuthor a = true
    · have hread := readAuthors_ok_iff (l := behind number lines i).2
        ⟨names, Lines.rest_behind hnames, rfl, hknown, Lines.advance_behind.symm⟩
      rw [hread] at h
      cases h
    · simpa using hknown
  unfold readAuthors at h
  dsimp only at h
  split at h
  · cases h
    exact ⟨i, hi, rfl, .inl rfl, hunmet⟩
  · split at h
    · cases h
    · cases h
      exact ⟨i, hi, rfl, .inl rfl, hunmet⟩

private theorem readDescription_behind {l : Lines} {found : List Text}
    (h : readDescription (behind number lines i) = .ok (found, l)) :
    l = behind number lines (i + 1 + found.length) := by
  rw [readDescription_eq] at h
  split at h
  · cases h
    simp [behind, Nat.add_assoc]
  · cases h

private theorem blames_of_readDescription (hi : 1 ≤ i) (h : readDescription (behind number lines i) = .error v) :
    ∃ i, Blames c number lines v i := by
  rw [readDescription_eq] at h
  split at h
  · cases h
  · rename_i hfound
    cases h
    refine ⟨i, hi, rfl, .inl rfl, .description fun hheading t ht hflush => ?_⟩
    refine Bool.eq_false_iff.2 fun hsentence => hfound ?_
    refine ⟨Lines.text?_behind.2 ⟨hheading, flush_heading.1⟩, ?_⟩
    have hrest : (behind number lines i).rest.tail = indent t :: (behind number lines (i + 2)).rest := by
      rw [Lines.rest_behind hheading, List.tail_cons, Lines.rest_behind ht]
    rw [hrest, sentences, indented?_eq_some_iff.2 ⟨rfl, hflush⟩]
    simp [hsentence]

private theorem blames_of_readList {ordinal : Nat} (hi : 1 ≤ i)
    (h : readList c ordinal (number + i) (lines.drop i) = .error v) : ∃ i, Blames c number lines v i := by
  generalize hrest : lines.drop i = rest at h
  induction rest generalizing ordinal i with
  | nil =>
    cases h
    refine ⟨i, hi, rfl, .inr rfl, .parameter fun t ht => ?_⟩
    have hnone : lines[i]? = none := List.getElem?_eq_none (List.drop_eq_nil_iff.1 hrest)
    rw [hnone] at ht
    cases ht
  | cons line rest ih =>
    have hline : lines[i]? = some line := by rw [← List.head?_drop, hrest, List.head?_cons]
    have hmore : lines.drop (i + 1) = rest := by rw [← List.tail_drop, hrest, List.tail_cons]
    rw [readList] at h
    split at h
    · rename_i hnone
      cases h
      refine ⟨i, hi, rfl, .inr rfl, .parameter fun t ht hflush => ?_⟩
      obtain rfl : line = indent t := Option.some.inj (hline.symm.trans ht)
      rwa [indented?_eq_some_iff.2 ⟨rfl, hflush⟩] at hnone
    · split at h
      · cases h
      · cases hlist : readList c (ordinal + 1) (number + i + 1) rest with
        | ok ps => rw [hlist] at h; cases h
        | error v' =>
          rw [hlist] at h
          cases h
          exact ih (Nat.le_succ_of_le hi) hmore hlist

private theorem blames_of_readParameters (hi : 1 ≤ i) (h : readParameters c (behind number lines i) = .error v) :
    ∃ i, Blames c number lines v i := by
  rw [readParameters_eq] at h
  split at h
  · split at h
    · cases h
    · have hlist : readList c 0 (number + (i + 1)) (lines.drop (i + 1)) = .error v := by
        rwa [← List.tail_drop]
      exact blames_of_readList (Nat.le_succ_of_le hi) hlist
  · rename_i hheading
    cases h
    refine ⟨i, hi, rfl, .inl rfl, .parameters fun hline => hheading ?_⟩
    exact Lines.text?_behind.2 ⟨hline, flush_heading.2.1⟩

/-- A comment that is no header is blamed on a line below the one that it opens on. -/
theorem blames_of_read {comment : Text} (h : read c number comment = .error v) :
    ∃ i, Blames c number (linesOf comment) v i := by
  unfold read at h
  rw [Lines.ofComment_eq] at h
  obtain h | ⟨l, htitle, h⟩ := bind_error_iff.1 h
  · exact blames_of_readTitle h
  obtain rfl := readTitle_behind htitle
  obtain ⟨i, hi, hskip⟩ := Lines.exists_skipBlank_behind number (linesOf comment) 2
  rw [hskip] at h
  obtain h | ⟨⟨authors, l⟩, hauthors, h⟩ := bind_error_iff.1 h
  · exact blames_of_readAuthors (by omega) h
  obtain rfl := readAuthors_behind hauthors
  obtain ⟨j, hj, hskip⟩ := Lines.exists_skipBlank_behind number (linesOf comment) (i + 1)
  dsimp only at h
  rw [hskip] at h
  obtain h | ⟨⟨description, l⟩, hdescription, h⟩ := bind_error_iff.1 h
  · exact blames_of_readDescription (by omega) h
  obtain rfl := readDescription_behind hdescription
  obtain ⟨k, hk, hskip⟩ :=
    Lines.exists_skipBlank_behind number (linesOf comment) (j + 1 + description.length)
  dsimp only at h
  rw [hskip] at h
  obtain h | ⟨parameters, -, h⟩ := bind_error_iff.1 h
  · exact blames_of_readParameters (by omega) h
  · cases h

end
end SqfLayout.Header
