import SqfLayout.Proofs.Header.Blame
import SqfLayout.Proofs.Text.Lines

/-! The sections of a comment in the order in which they are read, the line on which each is expected,
and the first that is not there. -/
namespace SqfLayout.Header

/-- What a comment is read for. Of the parameters each is a section, known by its number. -/
inductive Section
  | title | authors | description | heading
  | parameter (ordinal : Nat)
  deriving DecidableEq, Repr

namespace Section

def problem (c : Convention) : Section → Problem
  | .title => .badTitle c.title
  | .authors => .badAuthors c.authors
  | .description => .badDescription
  | .heading => .noParameters
  | .parameter ordinal => .badParameter ordinal c.types

def fault : Section → Text
  | .title => "Invalid project title"
  | .authors => "Invalid authors"
  | .description => "Invalid description"
  | .heading => "Missing parameters"
  | .parameter _ => "Invalid parameter definition"

/-- A parameter is blamed behind its indentation, any other section at the start of its line. -/
def column : Section → Nat
  | .parameter _ => 5
  | _ => 1

private theorem problem_injective (c : Convention) : Function.Injective (problem c) := by
  intro s s' h
  cases s <;> cases s' <;> simp_all [problem]

private theorem message_problem (c : Convention) (s : Section) : (s.problem c).message = s.fault := by
  cases s <;> rfl

end Section

/-- An empty line before other lines. -/
def BlankAt (lines : List Text) (i : Nat) : Prop := lines[i]? = some [] ∧ i + 1 < lines.length

instance (lines : List Text) (i : Nat) : Decidable (BlankAt lines i) :=
  inferInstanceAs (Decidable (_ ∧ _))

/-- The line behind at most one empty line. -/
def afterGap (lines : List Text) (i : Nat) : Nat := if BlankAt lines i then i + 1 else i

/-- An indented line that is a sentence. -/
def SentenceAt (lines : List Text) (i : Nat) : Prop :=
  ∃ t, lines[i]? = some (indent t) ∧ Flush t ∧ isSentence t = true

/-- A section stands at line `i`. A description has its heading there and a sentence below it. -/
def Found (c : Convention) (lines : List Text) (i : Nat) : Section → Prop
  | .title => lines[i - 1]? = some [] ∧ lines[i]? = some (indent c.title) ∧ Flush c.title
  | .authors => ∃ names, lines[i]? = some (indent ("Author: " ++ names)) ∧
      ∀ a ∈ Text.splitItems names, c.isAuthor a = true
  | .description => lines[i]? = some (indent "Description:") ∧ SentenceAt lines (i + 1)
  | .heading => lines[i]? = some (indent "Parameter(s):")
  | .parameter ordinal => ∃ t p, lines[i]? = some (indent t) ∧ Flush t ∧
      parameterLine? c ordinal t = some p

/-- A section is expected at line `i`: all sections before it were found, each behind the lines of the
one before and at most one empty line. A description takes all sentences that follow its heading. -/
inductive Expects (c : Convention) (lines : List Text) : Section → Nat → Prop
  | title : Expects c lines .title 1
  | authors (hfound : Found c lines 1 .title) : Expects c lines .authors (afterGap lines 2)
  | description {i : Nat} (h : Expects c lines .authors i) (hfound : Found c lines i .authors) :
      Expects c lines .description (afterGap lines (i + 1))
  | heading {i k : Nat} (h : Expects c lines .description i) (hfound : Found c lines i .description)
      (hsentences : ∀ m < k, SentenceAt lines (i + 1 + m)) (hend : ¬ SentenceAt lines (i + 1 + k)) :
      Expects c lines .heading (afterGap lines (i + 1 + k))
  | first {i : Nat} (h : Expects c lines .heading i) (hfound : Found c lines i .heading)
      (hnone : lines[i + 1]? ≠ some (indent "None")) : Expects c lines (.parameter 0) (i + 1)
  | next {i ordinal : Nat} (h : Expects c lines (.parameter ordinal) i)
      (hfound : Found c lines i (.parameter ordinal)) (hblank : ¬ BlankAt lines (i + 1)) :
      Expects c lines (.parameter (ordinal + 1)) (i + 1)

/-- The first section that is not there, and the line on which it was expected. -/
def FirstLack (c : Convention) (lines : List Text) (s : Section) (i : Nat) : Prop :=
  Expects c lines s i ∧ ¬ Found c lines i s

/-- The violation that the lack of a section is. -/
def Section.violation (c : Convention) (number i : Nat) (s : Section) : Violation :=
  ⟨s.problem c, ⟨number + i, s.column⟩⟩

section
variable {c : Convention} {number i : Nat} {lines : List Text} {v : Violation}
open Lines (behind)

private theorem startsBlank_behind (number : Nat) (lines : List Text) (i : Nat) :
    startsBlank (behind number lines i).rest = true ↔ BlankAt lines i := by
  have hlength : i + 1 < lines.length ↔ 1 < (lines.drop i).length := by
    rw [List.length_drop]
    omega
  unfold BlankAt
  rw [← List.head?_drop, hlength]
  show startsBlank (lines.drop i) = true ↔ _
  match lines.drop i with
  | [] => simp [startsBlank]
  | [_] => simp [startsBlank]
  | _ :: _ :: _ => simp [startsBlank]

private theorem skipBlank_behind (number : Nat) (lines : List Text) (i : Nat) :
    (behind number lines i).skipBlank = behind number lines (afterGap lines i) := by
  unfold Lines.skipBlank afterGap
  by_cases h : BlankAt lines i
  · rw [if_pos h, if_pos ((startsBlank_behind number lines i).2 h), Lines.advance_behind]
  · rw [if_neg h, if_neg fun hstarts => h ((startsBlank_behind number lines i).1 hstarts)]

/-- What remains to be read when a section is expected, as far as its success goes. -/
def resume (c : Convention) : Section → Lines → Except Violation Unit
  | .title, l => do
    let l ← readTitle c l
    let (_, l) ← readAuthors c l.skipBlank
    let (_, l) ← readDescription l.skipBlank
    let _ ← readParameters c l.skipBlank
  | .authors, l => do
    let (_, l) ← readAuthors c l
    let (_, l) ← readDescription l.skipBlank
    let _ ← readParameters c l.skipBlank
  | .description, l => do
    let (_, l) ← readDescription l
    let _ ← readParameters c l.skipBlank
  | .heading, l => do
    let _ ← readParameters c l
  | .parameter ordinal, l => do
    let _ ← readList c ordinal l.number l.rest

/-- The line from which a section is read. The title takes the line above it, too. -/
def Section.start (i : Nat) : Section → Nat
  | .title => i - 1
  | _ => i

private theorem resume_title (h : Found c lines 1 .title) : resume c .title (behind number lines 0) =
    resume c .authors (behind number lines (afterGap lines 2)) := by
  have hread : readTitle c (behind number lines 0) = .ok (behind number lines 2) := by
    unfold readTitle
    rw [Lines.advance_behind, if_pos, Lines.advance_behind]
    exact ⟨by simpa [behind, List.head?_eq_getElem?] using h.1, Lines.text?_behind.2 h.2⟩
  simp only [resume, hread, bind, Except.bind, skipBlank_behind]

private theorem resume_authors (h : Found c lines i .authors) : resume c .authors (behind number lines i) =
    resume c .description (behind number lines (afterGap lines (i + 1))) := by
  obtain ⟨names, hline, hknown⟩ := h
  have hread : readAuthors c (behind number lines i) = .ok (Text.splitItems names, behind number lines (i + 1)) :=
    readAuthors_ok_iff.2 ⟨names, Lines.rest_behind hline, rfl, hknown, Lines.advance_behind.symm⟩
  simp only [resume, hread, bind, Except.bind, skipBlank_behind]

theorem sentenceAt_iff {rest : List Text} {i : Nat} (hrest : lines.drop i = rest) :
    SentenceAt lines i ↔ ∃ t more, rest = indent t :: more ∧ Flush t ∧ isSentence t = true := by
  unfold SentenceAt
  rw [← List.head?_drop, hrest]
  constructor
  · rintro ⟨t, ht, hflush, hsentence⟩
    obtain ⟨more, hmore⟩ := List.head?_eq_some_iff.1 ht
    exact ⟨t, more, hmore, hflush, hsentence⟩
  · rintro ⟨t, more, rfl, hflush, hsentence⟩
    exact ⟨t, rfl, hflush, hsentence⟩

private theorem sentences_drop (lines : List Text) (i : Nat) :
    (∀ m < (sentences (lines.drop i)).length, SentenceAt lines (i + m)) ∧
      ¬ SentenceAt lines (i + (sentences (lines.drop i)).length) := by
  generalize hrest : lines.drop i = rest
  induction rest generalizing i with
  | nil => simp [sentences, sentenceAt_iff hrest]
  | cons line rest ih =>
    have hmore : lines.drop (i + 1) = rest := by rw [← List.tail_drop, hrest, List.tail_cons]
    obtain ⟨hall, hend⟩ := ih (i + 1) hmore
    by_cases hsentence : SentenceAt lines i
    · obtain ⟨t, _, hline, hflush, ht⟩ := (sentenceAt_iff hrest).1 hsentence
      obtain ⟨rfl, rfl⟩ := List.cons.inj hline
      rw [sentences, indented?_eq_some_iff.2 ⟨rfl, hflush⟩]
      simp only [ht, if_true, List.length_cons]
      refine ⟨fun m hm => ?_, by rwa [← Nat.add_assoc, Nat.add_right_comm]⟩
      cases m with
      | zero => exact hsentence
      | succ m =>
        rw [← Nat.add_assoc, Nat.add_right_comm]
        exact hall m (Nat.lt_of_succ_lt_succ hm)
    · have hnone : sentences (line :: rest) = [] := by
        rw [sentences]
        split
        · rfl
        · rename_i t ht
          obtain ⟨rfl, hflush⟩ := indented?_eq_some_iff.1 ht
          exact if_neg fun hs => hsentence ((sentenceAt_iff hrest).2 ⟨t, rest, rfl, hflush, hs⟩)
      rw [hnone]
      exact ⟨by simp, hsentence⟩

theorem sentences_ne_nil_iff (lines : List Text) (i : Nat) :
    sentences (lines.drop i) ≠ [] ↔ SentenceAt lines i := by
  obtain ⟨hall, hend⟩ := sentences_drop lines i
  constructor
  · exact fun hne => hall 0 (List.length_pos_iff.2 hne)
  · intro hsentence hnil
    rw [hnil] at hend
    exact hend hsentence

private theorem length_sentences_drop {k : Nat} (hsentences : ∀ m < k, SentenceAt lines (i + m))
    (hend : ¬ SentenceAt lines (i + k)) : (sentences (lines.drop i)).length = k := by
  obtain ⟨hall, hstop⟩ := sentences_drop lines i
  rcases Nat.lt_trichotomy (sentences (lines.drop i)).length k with hlt | heq | hgt
  · exact absurd (hsentences _ hlt) hstop
  · exact heq
  · exact absurd (hall k hgt) hend

private theorem resume_description {k : Nat} (h : Found c lines i .description)
    (hsentences : ∀ m < k, SentenceAt lines (i + 1 + m)) (hend : ¬ SentenceAt lines (i + 1 + k)) :
    resume c .description (behind number lines i) =
      resume c .heading (behind number lines (afterGap lines (i + 1 + k))) := by
  have hread : readDescription (behind number lines i) =
      .ok (sentences (lines.drop (i + 1)), behind number lines (i + 1 + k)) := by
    have hfound := h.2
    rw [← sentences_ne_nil_iff] at hfound
    rw [readDescription_eq, Lines.rest_behind h.1, List.tail_cons,
      if_pos ⟨Lines.text?_behind.2 ⟨h.1, flush_heading.1⟩, hfound⟩]
    simp [behind, length_sentences_drop hsentences hend, Nat.add_assoc]
  simp only [resume, hread, bind, Except.bind, skipBlank_behind]

private theorem resume_heading (h : Found c lines i .heading) : resume c .heading (behind number lines i) =
    if lines[i + 1]? = some (indent "None") then .ok ()
    else resume c (.parameter 0) (behind number lines (i + 1)) := by
  have hnone : (behind number lines i).advance.text? = some (Text.ofString "None") ↔
      lines[i + 1]? = some (indent "None") := by
    rw [Lines.advance_behind, Lines.text?_behind]
    exact and_iff_left flush_heading.2.2
  simp only [resume]
  rw [readParameters_eq, if_pos (Lines.text?_behind.2 ⟨h, flush_heading.2.1⟩)]
  by_cases hline : lines[i + 1]? = some (indent "None")
  · rw [if_pos (hnone.2 hline), if_pos hline]
    rfl
  · rw [if_neg fun htext => hline (hnone.1 htext), if_neg hline, Lines.rest_behind h, List.tail_cons]
    rfl

private theorem resume_parameter {ordinal : Nat} (h : Found c lines i (.parameter ordinal)) :
    resume c (.parameter ordinal) (behind number lines i) =
      if BlankAt lines (i + 1) then .ok ()
      else resume c (.parameter (ordinal + 1)) (behind number lines (i + 1)) := by
  obtain ⟨t, p, hline, hflush, hp⟩ := h
  simp only [resume]
  rw [Lines.rest_behind hline, readList, indented?_eq_some_iff.2 ⟨rfl, hflush⟩, Option.bind_some, hp]
  dsimp only
  by_cases hblank : BlankAt lines (i + 1)
  · rw [if_pos hblank, if_pos ((startsBlank_behind number lines (i + 1)).2 hblank)]
    rfl
  · rw [if_neg hblank, if_neg fun hstarts => hblank ((startsBlank_behind number lines (i + 1)).1 hstarts)]
    show ((readList c (ordinal + 1) (number + (i + 1)) (behind number lines (i + 1)).rest).map _ >>= _) =
      (readList c (ordinal + 1) (number + (i + 1)) (behind number lines (i + 1)).rest >>= _)
    cases readList c (ordinal + 1) (number + (i + 1)) (behind number lines (i + 1)).rest <;> rfl

/-- Whether a comment is read is decided at each section that is expected. -/
private theorem resume_of_expects {s : Section} (h : Expects c lines s i) :
    resume c s (behind number lines (s.start i)) = resume c .title (behind number lines 0) := by
  induction h with
  | title => rfl
  | authors hfound => exact (resume_title hfound).symm
  | description _ hfound ih => exact (resume_authors hfound).symm.trans ih
  | heading _ hfound hsentences hend ih => exact (resume_description hfound hsentences hend).symm.trans ih
  | first _ hfound hnone ih => exact ((resume_heading hfound).trans (if_neg hnone)).symm.trans ih
  | next _ hfound hblank ih => exact ((resume_parameter hfound).trans (if_neg hblank)).symm.trans ih

private theorem error_of_readAuthors {l : Lines} (h : ∀ names l', readAuthors c l ≠ .ok (names, l')) :
    readAuthors c l = .error ⟨.badAuthors c.authors, ⟨l.number, 1⟩⟩ := by
  unfold readAuthors at h ⊢
  dsimp only at h ⊢
  split
  · rfl
  · split
    · rename_i hmark hknown
      rw [hmark] at h
      exact absurd (if_pos hknown) (h _ _)
    · rfl

private theorem error_of_readList {ordinal : Nat}
    (h : ∀ t, lines[i]? = some (indent t) → Flush t → parameterLine? c ordinal t = none) :
    readList c ordinal (number + i) (lines.drop i) =
      .error ⟨.badParameter ordinal c.types, ⟨number + i, 5⟩⟩ := by
  match hrest : lines.drop i with
  | [] => rfl
  | line :: rest =>
    have hline : lines[i]? = some line := by rw [← List.head?_drop, hrest, List.head?_cons]
    have hnone : (indented? line).bind (parameterLine? c ordinal) = none := by
      refine Option.bind_eq_none_iff.2 fun t ht => ?_
      obtain ⟨rfl, hflush⟩ := indented?_eq_some_iff.1 ht
      exact h t hline hflush
    rw [readList, hnone]

private theorem resume_lack {s : Section} (h : FirstLack c lines s i) :
    resume c s (behind number lines (s.start i)) = .error (s.violation c number i) := by
  obtain ⟨hexpects, hlack⟩ := h
  have hblames : ∀ {α : Type} {x : Except Violation α}, x = .error (s.violation c number i) →
      ∀ f : α → Except Violation Unit, (x >>= f) = .error (s.violation c number i) := by
    rintro α x rfl f
    rfl
  cases s with
  | title =>
    cases hexpects
    refine hblames (if_neg fun hread => hlack ?_) _
    rw [Lines.advance_behind, Lines.text?_behind] at hread
    exact ⟨by simpa [behind, Section.start, List.head?_eq_getElem?] using hread.1, hread.2⟩
  | authors =>
    refine hblames ?_ _
    have hread : ∀ names l, readAuthors c (behind number lines i) ≠ .ok (names, l) := by
      intro names l hread
      obtain ⟨names, hrest, rfl, hknown, -⟩ := readAuthors_ok_iff.1 hread
      refine hlack ⟨names, ?_, hknown⟩
      rw [← List.head?_drop]
      exact congrArg List.head? hrest
    exact error_of_readAuthors hread
  | description =>
    refine hblames (if_neg fun hread => hlack ?_) _
    obtain ⟨hline, hflush⟩ := Lines.text?_behind.1 hread.1
    have hsentences := hread.2
    rw [Lines.rest_behind hline, List.tail_cons] at hsentences
    exact ⟨hline, (sentences_ne_nil_iff lines (i + 1)).1 hsentences⟩
  | heading => exact hblames (if_neg fun hread => hlack (Lines.text?_behind.1 hread).1) _
  | parameter ordinal =>
    refine hblames ?_ _
    refine error_of_readList fun t ht hflush => ?_
    by_contra hsome
    obtain ⟨p, hp⟩ := Option.ne_none_iff_exists'.1 hsome
    exact hlack ⟨t, p, ht, hflush, hp⟩

private theorem read_error_iff_resume {comment : Text} : read c number comment = .error v ↔
    resume c .title (behind number (linesOf comment) 0) = .error v := by
  rw [← Lines.ofComment_eq]
  simp only [read, resume, bind_error_iff, pure, Except.pure, reduceCtorEq]

/-- Where a list is rejected, it lacks a parameter: each found one leaves fewer lines. -/
private theorem exists_lack_parameter {i ordinal : Nat} (h : Expects c lines (.parameter ordinal) i)
    (herror : resume c (.parameter ordinal) (behind number lines i) = .error v) :
    ∃ s j, FirstLack c lines s j := by
  by_cases hfound : Found c lines i (.parameter ordinal)
  · have hi : i < lines.length := by
      obtain ⟨_, _, hline, -⟩ := hfound
      exact (List.getElem?_eq_some_iff.1 hline).1
    rw [resume_parameter hfound] at herror
    split at herror
    · cases herror
    · rename_i hblank
      exact exists_lack_parameter (.next h hfound hblank) herror
  · exact ⟨_, i, h, hfound⟩
termination_by lines.length - i

private theorem exists_lack_heading (h : Expects c lines .heading i)
    (herror : resume c .heading (behind number lines i) = .error v) : ∃ s j, FirstLack c lines s j := by
  by_cases hfound : Found c lines i .heading
  · rw [resume_heading hfound] at herror
    split at herror
    · cases herror
    · rename_i hnone
      exact exists_lack_parameter (.first h hfound hnone) herror
  · exact ⟨_, i, h, hfound⟩

private theorem exists_lack (h : resume c .title (behind number lines 0) = .error v) :
    ∃ s j, FirstLack c lines s j := by
  by_cases htitle : Found c lines 1 .title
  swap
  · exact ⟨_, 1, .title, htitle⟩
  have hexpects := Expects.authors htitle
  by_cases hauthors : Found c lines (afterGap lines 2) .authors
  swap
  · exact ⟨_, _, hexpects, hauthors⟩
  replace hexpects := Expects.description hexpects hauthors
  by_cases hdescription : Found c lines (afterGap lines (afterGap lines 2 + 1)) .description
  swap
  · exact ⟨_, _, hexpects, hdescription⟩
  obtain ⟨hsentences, hend⟩ := sentences_drop lines (afterGap lines (afterGap lines 2 + 1) + 1)
  replace hexpects := Expects.heading hexpects hdescription hsentences hend
  exact exists_lack_heading hexpects ((resume_of_expects hexpects).trans h)

private theorem expects_pos {s : Section} (h : Expects c lines s i) : 1 ≤ i := by
  have hgap : ∀ j, j ≤ afterGap lines j := by
    intro j
    unfold afterGap
    split <;> omega
  induction h with
  | title => exact Nat.le_refl 1
  | authors => exact Nat.le_trans (by decide) (hgap 2)
  | description => exact Nat.le_trans (Nat.le_add_left 1 _) (hgap _)
  | heading => exact Nat.le_trans (by omega) (hgap _)
  | first | next => exact Nat.le_add_left 1 _

private theorem expects_le {s : Section} (hlines : lines ≠ []) (h : Expects c lines s i) : i ≤ lines.length := by
  have hgap : ∀ j, j ≤ lines.length → afterGap lines j ≤ lines.length := by
    intro j hj
    unfold afterGap
    split
    · rename_i hblank
      exact Nat.le_of_lt hblank.2
    · exact hj
  have hlt : ∀ {j : Nat} {line : Text}, lines[j]? = some line → j + 1 ≤ lines.length :=
    fun hline => (List.getElem?_eq_some_iff.1 hline).1
  cases h with
  | title => exact List.length_pos_iff.2 hlines
  | authors hfound => exact hgap 2 (hlt hfound.2.1)
  | description _ hfound =>
    obtain ⟨_, hline, -⟩ := hfound
    exact hgap _ (hlt hline)
  | @heading i k _ hfound hsentences =>
    refine hgap _ ?_
    cases k with
    | zero => exact hlt hfound.1
    | succ k =>
      obtain ⟨_, hline, -⟩ := hsentences k (Nat.lt_succ_self k)
      exact hlt hline
  | first _ hfound => exact hlt hfound
  | next _ hfound =>
    obtain ⟨_, _, hline, -⟩ := hfound
    exact hlt hline

/-- A comment is rejected for its first section that is not there, which is one at most and stands on
a line of the comment or right below its last line. -/
theorem read_error_iff_firstLack (c : Convention) (number : Nat) (comment : Text) :
    (∀ v, read c number comment = .error v ↔
      ∃ s i, FirstLack c (linesOf comment) s i ∧ v = s.violation c number i) ∧
    ∀ s i, FirstLack c (linesOf comment) s i → 1 ≤ i ∧ i ≤ (linesOf comment).length ∧
      (s.violation c number i).problem.message = s.fault ∧
      ∀ s' i', FirstLack c (linesOf comment) s' i' → s' = s ∧ i' = i := by
  have hread : ∀ {s i}, FirstLack c (linesOf comment) s i →
      resume c .title (behind number (linesOf comment) 0) = .error (s.violation c number i) :=
    fun hlack => (resume_of_expects hlack.1).symm.trans (resume_lack hlack)
  constructor
  · intro v
    rw [read_error_iff_resume]
    constructor
    · intro h
      obtain ⟨s, i, hlack⟩ := exists_lack h
      exact ⟨s, i, hlack, Except.error.inj (h.symm.trans (hread hlack))⟩
    · rintro ⟨s, i, hlack, rfl⟩
      exact hread hlack
  · intro s i hlack
    have hlines : linesOf comment ≠ [] := by simp [linesOf, Text.splitLines_ne_nil]
    refine ⟨expects_pos hlack.1, expects_le hlines hlack.1,
      Section.message_problem c s, fun s' i' hlack' => ?_⟩
    have heq := Except.error.inj ((hread hlack').symm.trans (hread hlack))
    obtain ⟨hproblem, hposition⟩ := Violation.mk.inj heq
    obtain rfl := Section.problem_injective c hproblem
    exact ⟨rfl, Nat.add_left_cancel (Position.mk.inj hposition).1⟩

end
end SqfLayout.Header
