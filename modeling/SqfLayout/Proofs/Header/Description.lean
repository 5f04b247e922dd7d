import SqfLayout.Proofs.Header.Acceptance

/-! The description of a header: which texts are its sentences, and where its reader stops. -/
namespace SqfLayout.Header

private theorem isSpace_last_of_isSentence {t : Text} (h : isSentence t = true) :
    ∀ c ∈ t.getLast?, Text.isSpace c = false := by
  obtain ⟨s, rfl⟩ := isSentence_iff_exists_text.1 h
  obtain ⟨front, last, htext, hlast⟩ := s.exists_concat
  intro c hc
  obtain rfl : last = c := by simpa [htext] using hc
  rcases hlast with hword | rfl | rfl
  · exact Text.isSpace_eq_false_of_isWord hword
  · decide
  · decide

private theorem ne_of_isSentence {t heading : Text} (h : isSentence t = true) (hcolon : ':' ∈ heading) :
    t ≠ heading := by
  rintro rfl
  rw [isSentence_eq_false_of_colon hcolon] at h
  cases h

private theorem readDescription_sentences {number : Nat} {found gap more : List Text} {heading : Text}
    (hne : found ≠ []) (hfound : ∀ t ∈ found, isSentence t = true) (hgap : Gap gap)
    (hheading : isSentence heading = false) :
    readDescription ⟨number, indent "Description:" ::
      (found.map indent ++ (gap ++ indent heading :: more))⟩ =
        .ok (found, ⟨number + 1 + found.length, gap ++ indent heading :: more⟩) :=
  readDescription_ok_iff.2 ⟨hne, sentences_append hfound (sentences_gap hgap hheading), rfl, rfl⟩

/-- The sentences are exactly the texts that have the parts of one, each in one way only. They go on with
any group unless a period ends them, no white space stands at their ends, and none is a heading: the
reader of a description takes the sentences below its heading, all of them, and stops where the next
section starts. -/
theorem isSentence_iff_parts :
    (∀ t, isSentence t = true ↔ ∃ s : Sentence, s.text = t) ∧ Function.Injective Sentence.text ∧
      (∀ t, isSentence t = true →
        (t.getLast? ≠ some '.' → ∀ g, IsGroup g → isSentence (t ++ g) = true) ∧
          Flush t ∧ (∀ c ∈ t.getLast?, Text.isSpace c = false) ∧ t ≠ "Description:" ∧ t ≠ "Parameter(s):") ∧
      ∀ (number : Nat) (found gap more : List Text) (heading : Text), found ≠ [] →
        (∀ t ∈ found, isSentence t = true) → Gap gap →
        (heading = "Description:" ∨ heading = "Parameter(s):") →
        readDescription ⟨number, indent "Description:" ::
          (found.map indent ++ (gap ++ indent heading :: more))⟩ =
            .ok (found, ⟨number + 1 + found.length, gap ++ indent heading :: more⟩) := by
  refine ⟨fun t => isSentence_iff_exists_text, Sentence.text_injective, ?_, ?_⟩
  · intro t ht
    refine ⟨fun hend g hg => isSentence_append ht hend hg, flush_iff.2 (head_of_isSentence ht),
      isSpace_last_of_isSentence ht, ?_, ?_⟩
    · exact ne_of_isSentence ht (by simp)
    · exact ne_of_isSentence ht (by simp)
  · intro number found gap more heading hne hfound hgap hheading
    refine readDescription_sentences hne hfound hgap (isSentence_eq_false_of_colon ?_)
    rcases hheading with rfl | rfl
    · simp
    · simp

/-- A sentence that goes on behind a quoted term, and the line behind which the reader stops. -/
theorem isSentence_iff_parts_flag :
    (isSentence "Spawns the \"base/flag\"" = true ∧
      (Text.ofString "Spawns the \"base/flag\"").getLast? ≠ some '.' ∧ IsGroup "-marker" ∧
      isSentence ("Spawns the \"base/flag\"" ++ "-marker") = true) ∧
    readDescription ⟨4, [indent "Description:", indent "Spawns the \"base/flag\"", [],
        indent "Parameter(s):", indent "None"]⟩ =
      .ok (["Spawns the \"base/flag\""], ⟨6, [[], indent "Parameter(s):", indent "None"]⟩) := by
  have hsentence : isSentence "Spawns the \"base/flag\"" = true := by cbv
  have hend : (Text.ofString "Spawns the \"base/flag\"").getLast? ≠ some '.' := by simp
  have hword : IsJoined ['m', 'a', 'r', 'k', 'e', 'r'] := .word (by simp) (by simp; decide)
  have hgroup : IsGroup "-marker" := by simpa using IsGroup.mk .hyphen hword
  obtain ⟨-, -, hparts, hreader⟩ := isSentence_iff_parts
  refine ⟨⟨hsentence, hend, hgroup, (hparts _ hsentence).1 hend _ hgroup⟩, ?_⟩
  exact hreader 4 ["Spawns the \"base/flag\""] [[]] [indent "None"] "Parameter(s):" (by simp)
    (by simpa using hsentence) (.inr rfl) (.inr rfl)

end SqfLayout.Header
