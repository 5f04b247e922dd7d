import SqfLayout.Header.ParameterLine
import SqfLayout.Proofs.Header.Sentence

/-! The prose of a header: the phrase that describes a parameter, and the sentences of a
description. -/
namespace SqfLayout.Header

/-- Words, each behind one character of white space. -/
inductive Words : Text → Prop
  | nil : Words []
  | cons {s : Char} {w more : Text} (hs : Text.isSpace s = true) (hne : w ≠ [])
      (hw : ∀ c ∈ w, Text.isWord c = true) (hmore : Words more) : Words (s :: w ++ more)

/-- What describes a parameter: a capitalized word of two characters or more, and further words. -/
inductive IsPhrase : Text → Prop
  | words {c : Char} {w more : Text} (hc : isCapital c = true) (hne : w ≠ [])
      (hw : ∀ c ∈ w, Text.isWord c = true) (hmore : Words more) : IsPhrase (c :: w ++ more)

private theorem phraseTail_word {w : Text} (hw : ∀ c ∈ w, Text.isWord c = true) (more : Text) :
    phraseTail (w ++ more) = w ++ phraseTail more := by
  induction w with
  | nil => rfl
  | cons c w ih =>
    rw [List.cons_append, phraseTail, if_pos (by simp [hw c]), ih fun d hd => hw d (by simp [hd])]
    rfl

private theorem phraseTail_words {t more : Text} (ht : Words t) (hmore : phraseTail more = []) :
    phraseTail (t ++ more) = t := by
  induction ht with
  | nil => exact hmore
  | @cons s w rest hs hne hw _ ih =>
    obtain ⟨c, w, rfl⟩ := List.exists_cons_of_ne_nil hne
    have hword := phraseTail_word hw (rest ++ more)
    rw [ih] at hword
    have hc : Text.isWord c = true := hw c (by simp)
    simp only [List.cons_append, List.append_assoc] at hword ⊢
    rw [phraseTail, if_pos (by simp [hs, hc]), hword]

theorem phrase?_append {t more : Text} (ht : IsPhrase t) (hmore : phraseTail more = []) :
    phrase? (t ++ more) = some t := by
  cases ht with
  | @words c w rest hc hne hw hrest =>
    obtain ⟨d, w, rfl⟩ := List.exists_cons_of_ne_nil hne
    have hd : Text.isWord d = true := hw d (by simp)
    have hword := phraseTail_word (w := w) (fun e he => hw e (by simp [he])) (rest ++ more)
    rw [phraseTail_words hrest hmore] at hword
    simp [phrase?, hc, hd, hword]

private theorem phraseTail_isPrefix (t : Text) : phraseTail t <+: t := by
  fun_induction phraseTail t with
  | case1 => exact List.prefix_rfl
  | case2 c rest _ ih => exact (List.prefix_cons_inj c).2 ih
  | case3 => exact List.nil_prefix

private theorem exists_words_of_phraseTail (t : Text) :
    ∃ more, phraseTail t = t.takeWhile Text.isWord ++ more ∧ Words more := by
  fun_induction phraseTail t with
  | case1 => exact ⟨[], rfl, .nil⟩
  | case2 c rest hgoes ih =>
    obtain ⟨more, htail, hmore⟩ := ih
    cases hc : Text.isWord c with
    | true => exact ⟨more, by simp [hc, htail], hmore⟩
    | false =>
      -- White space in front of a word: the word that follows is not empty.
      obtain ⟨hspace, hword⟩ : Text.isSpace c = true ∧ rest.head?.any Text.isWord = true := by
        simpa [hc] using hgoes
      have hne : rest.takeWhile Text.isWord ≠ [] := by
        cases rest with
        | nil => simp at hword
        | cons d rest =>
          have hd : Text.isWord d = true := by simpa using hword
          simp [hd]
      refine ⟨c :: rest.takeWhile Text.isWord ++ more, by simp [hc, htail], ?_⟩
      exact .cons hspace hne (List.all_eq_true.1 List.all_takeWhile) hmore
  | case3 c rest hends =>
    have hc : Text.isWord c = false := by
      cases h : Text.isWord c with
      | true => simp [h] at hends
      | false => rfl
    exact ⟨[], by simp [hc], .nil⟩

theorem isPhrase_of_phrase? {t description : Text} (h : phrase? t = some description) :
    IsPhrase description ∧ description <+: t := by
  unfold phrase? at h
  split at h
  · rename_i c d rest
    split at h
    · rename_i hstart
      simp only [Bool.and_eq_true] at hstart
      cases h
      obtain ⟨more, htail, hmore⟩ := exists_words_of_phraseTail rest
      refine ⟨?_, (List.prefix_cons_inj c).2 ((List.prefix_cons_inj d).2 (phraseTail_isPrefix rest))⟩
      have hw : ∀ e ∈ d :: rest.takeWhile Text.isWord, Text.isWord e = true := by
        simpa [hstart.2] using List.all_eq_true.1 (List.all_takeWhile (p := Text.isWord) (l := rest))
      rw [htail]
      exact .words hstart.1 (by simp) hw hmore
    · cases h
  · cases h

private theorem ne_star_of_isWord {c : Char} (h : Text.isWord c = true) : c ≠ '*' := by
  rintro rfl
  revert h
  decide

private theorem ne_star_of_isSpace {c : Char} (h : Text.isSpace c = true) : c ≠ '*' := by
  rintro rfl
  revert h
  decide

private theorem star_not_mem_word {w : Text} (hw : ∀ c ∈ w, Text.isWord c = true) : '*' ∉ w :=
  fun h => ne_star_of_isWord (hw _ h) rfl

theorem star_not_mem_phrase {t : Text} (ht : IsPhrase t) : '*' ∉ t := by
  have hwords {more : Text} (h : Words more) : '*' ∉ more := by
    induction h with
    | nil => simp
    | cons hs _ hw _ ih => simp [(ne_star_of_isSpace hs).symm, star_not_mem_word hw, ih]
  cases ht with
  | @words c w more hc _ hw hmore =>
    have hne : '*' ≠ c := by
      rintro rfl
      revert hc
      decide
    simp [hne, star_not_mem_word hw, hwords hmore]

/-- A text that may stand on a line of a comment: it neither ends the comment nor, at its end, the
line. -/
def Quiet (t : Text) : Prop := '*' ∉ t ∧ t.getLast? ≠ some '\r'

theorem quiet_of_isSentence {t : Text} (h : isSentence t = true) : Quiet t := by
  obtain ⟨s, rfl⟩ := isSentence_iff_exists_text.1 h
  constructor
  · intro hstar
    rcases s.isProse _ hstar with hword | hspace | hmark
    · exact ne_star_of_isWord hword rfl
    · exact ne_star_of_isSpace hspace rfl
    · exact absurd hmark (by decide)
  · intro hreturn
    obtain ⟨front, last, htext, hlast⟩ := s.exists_concat
    obtain rfl : last = '\r' := by simpa [htext] using hreturn
    exact absurd hlast (by decide)

end SqfLayout.Header
