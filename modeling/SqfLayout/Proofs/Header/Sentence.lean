import SqfLayout.Header.Sentence
import SqfLayout.Proofs.Text.Joined

/-! The sentences of a description as a grammar: a capitalized word, further words and quoted terms
behind joiners, and perhaps a period. The matcher takes each word as far as it goes and never comes
back, which loses nothing: no joiner starts with a character of a word. -/
namespace SqfLayout

private theorem Ranges.exists_of_contains {r : Ranges} {point : Nat} (h : r.contains point = true) :
    ∃ range ∈ r, range.1 ≤ point ∧ point ≤ range.2 := by
  induction r with
  | nil => cases h
  | cons range r ih =>
    unfold contains at h
    split at h
    · cases h
    · rename_i hlow
      rcases Bool.or_eq_true_iff.1 h with hhigh | hmore
      · exact ⟨range, List.mem_cons_self, Nat.le_of_not_lt hlow, of_decide_eq_true hhigh⟩
      · obtain ⟨range', hmem, hin⟩ := ih hmore
        exact ⟨range', List.mem_cons_of_mem range hmem, hin⟩

theorem Text.isSpace_eq_false_of_isWord {c : Char} (hword : isWord c = true) : isSpace c = false := by
  have hapart : ∀ range ∈ word, ∀ range' ∈ whiteSpace, range.2 < range'.1 ∨ range'.2 < range.1 := by
    decide +kernel
  rw [Bool.eq_false_iff]
  intro hspace
  obtain ⟨range, hrange, hlow, hhigh⟩ := Ranges.exists_of_contains hword
  obtain ⟨range', hrange', hlow', hhigh'⟩ := Ranges.exists_of_contains hspace
  have := hapart range hrange range' hrange'
  omega

namespace Header

/-- What joins a word or a quoted term to what stands before it. -/
inductive IsJoiner : Text → Prop
  | space {s : Char} (hs : Text.isSpace s = true) : IsJoiner [s]
  | period {s : Char} (hs : Text.isSpace s = true) : IsJoiner ['.', s]
  | hyphen : IsJoiner ['-']

/-- A word, or a quoted term: between its quotes three characters or more, with slashes inside only. -/
inductive IsJoined : Text → Prop
  | word {w : Text} (hne : w ≠ []) (hw : ∀ c ∈ w, Text.isWord c = true) : IsJoined w
  | quoted {first last : Char} {inner : Text} (hfirst : Text.isWord first = true) (hne : inner ≠ [])
      (hinner : ∀ c ∈ inner, Text.isWord c = true ∨ c = '/') (hlast : Text.isWord last = true) :
      IsJoined ('"' :: first :: (inner ++ [last, '"']))

/-- A joiner, and the word or the quoted term that it joins. -/
inductive IsGroup : Text → Prop
  | mk {joiner t : Text} (hjoiner : IsJoiner joiner) (ht : IsJoined t) : IsGroup (joiner ++ t)

/-- A capital of ASCII and one word character or more. -/
inductive IsCapitalized : Text → Prop
  | mk {c : Char} {w : Text} (hc : isCapital c = true) (hne : w ≠ [])
      (hw : ∀ d ∈ w, Text.isWord d = true) : IsCapitalized (c :: w)

/-- Groups, and behind the last of them a period or nothing. -/
structure Continues (groups : List Text) (period : Text) : Prop where
  joined : ∀ g ∈ groups, IsGroup g
  period_eq : period = [] ∨ period = ['.']

/-- A sentence, cut into its parts. -/
structure Sentence where
  first : Text
  groups : List Text
  period : Text
  capitalized : IsCapitalized first
  continues : Continues groups period

def Sentence.text (s : Sentence) : Text := s.first ++ (s.groups.flatten ++ s.period)

private theorem IsJoiner.afterJoiner?_append {joiner : Text} (h : IsJoiner joiner) (rest : Text) :
    afterJoiner? (joiner ++ rest) = some rest := by
  cases h with
  | @space s hs =>
    have hs' : s ≠ '.' := by
      rintro rfl
      exact absurd hs (by decide)
    simp [afterJoiner?, hs, hs']
  | period hs => simp [afterJoiner?, hs]
  | hyphen => simp [afterJoiner?]

private theorem exists_joiner {t rest : Text} (h : afterJoiner? t = some rest) :
    ∃ joiner, t = joiner ++ rest ∧ IsJoiner joiner := by
  unfold afterJoiner? at h
  split at h
  · cases h
  · rename_i c t
    split at h
    · rename_i hc
      split at h
      · cases h
      · rename_i d u
        split at h
        · rename_i hd
          cases h
          exact ⟨['.', d], by rw [hc]; rfl, .period hd⟩
        · cases h
    · split at h
      · rename_i hjoin
        cases h
        rcases (by simpa using hjoin : Text.isSpace c = true ∨ c = '-') with hspace | rfl
        · exact ⟨[c], rfl, .space hspace⟩
        · exact ⟨['-'], rfl, .hyphen⟩
      · cases h

private theorem IsJoiner.exists_cons {joiner : Text} (h : IsJoiner joiner) :
    ∃ c rest, joiner = c :: rest ∧ Text.isWord c = false := by
  cases h with
  | @space s hs =>
    refine ⟨s, [], rfl, Bool.eq_false_iff.2 ?_⟩
    intro hword
    rw [Text.isSpace_eq_false_of_isWord hword] at hs
    cases hs
  | @period s => exact ⟨'.', [s], rfl, by decide⟩
  | hyphen => exact ⟨'-', [], rfl, by decide⟩

private theorem ne_quote_of_isWord {c : Char} (h : Text.isWord c = true) : c ≠ '"' := by
  rintro rfl
  exact absurd h (by decide)

theorem isTerm_iff {body : Text} : isTerm body = true ↔ ∃ first inner last,
    body = first :: (inner ++ [last]) ∧ Text.isWord first = true ∧ inner ≠ [] ∧
      (∀ c ∈ inner, Text.isWord c = true ∨ c = '/') ∧ Text.isWord last = true := by
  simp only [isTerm, Bool.and_eq_true, decide_eq_true_eq, List.all_eq_true, Bool.or_eq_true, beq_iff_eq]
  constructor
  · rintro ⟨⟨⟨hlength, hall⟩, hfirst⟩, hlast⟩
    obtain ⟨first, rest, rfl⟩ : ∃ first rest, body = first :: rest :=
      List.exists_cons_of_ne_nil (by rintro rfl; simp at hlength)
    rcases List.eq_nil_or_concat' rest with rfl | ⟨inner, last, rfl⟩
    · simp at hlength
    · rw [← List.cons_append, List.getLast?_concat] at hlast
      refine ⟨first, inner, last, rfl, by simpa using hfirst, ?_, fun c hc => hall c (by simp [hc]),
        by simpa using hlast⟩
      rintro rfl
      simp at hlength
  · rintro ⟨first, inner, last, rfl, hfirst, hne, hinner, hlast⟩
    have hpos : 0 < inner.length := List.length_pos_iff.2 hne
    refine ⟨⟨⟨by simp; omega, ?_⟩, by simpa using hfirst⟩, ?_⟩
    · intro c hc
      simp only [List.mem_cons, List.mem_append, List.not_mem_nil, or_false] at hc
      rcases hc with rfl | hc | rfl
      · exact .inl hfirst
      · exact hinner c hc
      · exact .inl hlast
    · rw [← List.cons_append, List.getLast?_concat]
      simpa using hlast

private theorem IsJoined.afterTerm?_append {t rest : Text} (h : IsJoined t)
    (hrest : ∀ c ∈ rest.head?, Text.isWord c = false) : afterTerm? (t ++ rest) = some rest := by
  cases h with
  | word hne hw =>
    obtain ⟨c, w, rfl⟩ := List.exists_cons_of_ne_nil hne
    have hc : Text.isWord c = true := hw c (by simp)
    rw [List.cons_append, afterTerm?, if_neg (ne_quote_of_isWord hc), if_pos hc,
      Text.dropWhile_append_of_head? (fun d hd => hw d (by simp [hd])) hrest]
  | @quoted first last inner hfirst hne hinner hlast =>
    let body : Text := first :: (inner ++ [last])
    have hterm : isTerm body = true := isTerm_iff.2 ⟨first, inner, last, rfl, hfirst, hne, hinner, hlast⟩
    have hbody : ∀ c ∈ body, decide (c ≠ '"') = true := by
      intro c hc
      simp only [body, List.mem_cons, List.mem_append, List.not_mem_nil, or_false] at hc
      rw [decide_eq_true_eq]
      rcases hc with rfl | hc | rfl
      · exact ne_quote_of_isWord hfirst
      · rcases hinner c hc with hword | rfl
        · exact ne_quote_of_isWord hword
        · decide
      · exact ne_quote_of_isWord hlast
    have hquote : ∀ c ∈ ('"' :: rest).head?, decide (c ≠ '"') = false := by simp
    have htext : '"' :: first :: (inner ++ [last, '"']) ++ rest = '"' :: (body ++ '"' :: rest) := by
      simp [body]
    rw [htext, afterTerm?, if_pos rfl, Text.takeWhile_append_of_head? hbody hquote, if_pos hterm,
      Text.dropWhile_append_of_head? hbody hquote]

private theorem exists_joined {t rest : Text} (h : afterTerm? t = some rest) :
    ∃ front, t = front ++ rest ∧ IsJoined front := by
  unfold afterTerm? at h
  split at h
  · cases h
  · rename_i c t
    split at h
    · rename_i hc
      split at h
      · rename_i hterm
        have hsplit := List.takeWhile_append_dropWhile (p := fun d => decide (d ≠ '"')) (l := t)
        split at h
        · cases h
        · rename_i d u hd
          cases h
          have hquote : d = '"' := by
            have := List.head?_dropWhile_not (fun d => decide (d ≠ '"')) t
            rw [hd] at this
            simpa using this
          obtain ⟨first, inner, last, hbody, hfirst, hne, hinner, hlast⟩ := isTerm_iff.1 hterm
          refine ⟨_, ?_, .quoted hfirst hne hinner hlast⟩
          rw [← hsplit, hd, hbody, hc, hquote]
          simp
      · cases h
    · split at h
      · rename_i hword
        cases h
        refine ⟨c :: t.takeWhile Text.isWord, ?_, .word (by simp) ?_⟩
        · rw [List.cons_append, List.takeWhile_append_dropWhile]
        · simpa [hword] using List.all_eq_true.1 (List.all_takeWhile (p := Text.isWord) (l := t))
      · cases h

namespace Continues
variable {g period period' : Text} {groups groups' : List Text}

private theorem tail (h : Continues (g :: groups) period) : Continues groups period :=
  ⟨fun g' hg' => h.joined g' (List.mem_cons_of_mem g hg'), h.period_eq⟩

private theorem isWord_head (h : Continues groups period) :
    ∀ c ∈ (groups.flatten ++ period).head?, Text.isWord c = false := by
  intro c hc
  cases groups with
  | nil =>
    rcases h.period_eq with rfl | rfl
    · cases hc
    · obtain rfl : '.' = c := by simpa using hc
      decide
  | cons g groups =>
    obtain ⟨hjoiner, -⟩ := h.joined g List.mem_cons_self
    obtain ⟨d, rest, rfl, hd⟩ := hjoiner.exists_cons
    obtain rfl : d = c := by simpa using hc
    exact hd

private theorem step (h : Continues (g :: groups) period) :
    (afterJoiner? ((g :: groups).flatten ++ period)).bind afterTerm? = some (groups.flatten ++ period) := by
  obtain ⟨hjoiner, ht⟩ := h.joined g List.mem_cons_self
  rw [List.flatten_cons, List.append_assoc, List.append_assoc, hjoiner.afterJoiner?_append,
    Option.bind_some, ht.afterTerm?_append h.tail.isWord_head]

private theorem stop (h : Continues [] period) : (afterJoiner? ([].flatten ++ period)).bind afterTerm? = none := by
  rcases h.period_eq with rfl | rfl <;> rfl

private theorem isContinuation (h : Continues groups period) : isContinuation (groups.flatten ++ period) = true := by
  induction groups with
  | nil =>
    unfold Header.isContinuation
    split
    · rename_i rest hrest
      rw [h.stop] at hrest
      cases hrest
    · simpa using h.period_eq
  | cons g groups ih =>
    unfold Header.isContinuation
    split
    · rename_i rest hrest
      rw [h.step] at hrest
      cases hrest
      exact ih h.tail
    · rename_i hnone
      rw [h.step] at hnone
      cases hnone

/-- What the matcher takes leaves no choice: groups and a period follow a word in one way only. -/
private theorem unique (h : Continues groups period) (h' : Continues groups' period')
    (htext : groups.flatten ++ period = groups'.flatten ++ period') : groups = groups' ∧ period = period' := by
  induction groups generalizing groups' with
  | nil =>
    cases groups' with
    | nil => simpa using htext
    | cons g' groups' =>
      have hstep := h'.step
      rw [← htext, h.stop] at hstep
      cases hstep
  | cons g groups ih =>
    have hstep := h.step
    cases groups' with
    | nil =>
      rw [htext, h'.stop] at hstep
      cases hstep
    | cons g' groups' =>
      rw [htext, h'.step] at hstep
      obtain ⟨rfl, rfl⟩ := ih h.tail h'.tail (Option.some.inj hstep).symm
      rw [List.flatten_cons, List.flatten_cons, List.append_assoc, List.append_assoc] at htext
      exact ⟨by rw [List.append_cancel_right htext], rfl⟩

end Continues

private theorem exists_groups {t : Text} (h : isContinuation t = true) :
    ∃ (groups : List Text) (period : Text), t = groups.flatten ++ period ∧ Continues groups period := by
  -- Along the matcher: each of its turns takes the first group that is left.
  fun_induction isContinuation t with
  | case1 t rest hrest ih =>
    obtain ⟨u, hjoin, hterm⟩ := Option.bind_eq_some_iff.1 hrest
    obtain ⟨joiner, rfl, hjoiner⟩ := exists_joiner hjoin
    obtain ⟨front, rfl, hfront⟩ := exists_joined hterm
    obtain ⟨groups, period, rfl, hmore⟩ := ih h
    refine ⟨(joiner ++ front) :: groups, period, by simp, ?_, hmore.period_eq⟩
    simpa using ⟨IsGroup.mk hjoiner hfront, hmore.joined⟩
  | case2 t _ => exact ⟨[], t, rfl, by simp, by simpa using h⟩

/-- Exactly the texts that have the parts of a sentence are sentences. -/
theorem isSentence_iff_exists_text {t : Text} : isSentence t = true ↔ ∃ s : Sentence, s.text = t := by
  constructor
  · intro h
    unfold isSentence at h
    split at h
    · rename_i c d rest
      simp only [Bool.and_eq_true] at h
      obtain ⟨groups, period, hrest, hmore⟩ := exists_groups h.2
      have hword : ∀ e ∈ d :: rest.takeWhile Text.isWord, Text.isWord e = true := by
        simpa [h.1.2] using List.all_eq_true.1 (List.all_takeWhile (p := Text.isWord) (l := rest))
      refine ⟨⟨_, groups, period, .mk h.1.1 (by simp) hword, hmore⟩, ?_⟩
      simp only [Sentence.text]
      rw [← hrest, List.cons_append, List.cons_append, List.takeWhile_append_dropWhile]
    · cases h
  · rintro ⟨⟨first, groups, period, hfirst, hmore⟩, rfl⟩
    cases hfirst with
    | @mk c w hc hne hw =>
      obtain ⟨d, w, rfl⟩ := List.exists_cons_of_ne_nil hne
      -- The first word is dropped as a whole and no further.
      have hdrop : (w ++ (groups.flatten ++ period)).dropWhile Text.isWord = groups.flatten ++ period :=
        Text.dropWhile_append_of_head? (fun e he => hw e (by simp [he])) hmore.isWord_head
      simp only [Sentence.text, List.cons_append, isSentence, hdrop, hmore.isContinuation, hc, hw d (by simp),
        Bool.and_self]

theorem Sentence.text_injective : Function.Injective Sentence.text := by
  rintro ⟨_, groups, period, ⟨hc, hne, hw⟩, hmore⟩ ⟨_, groups', period', ⟨hc', hne', hw'⟩, hmore'⟩ h
  simp only [text, List.cons_append, List.cons.injEq] at h
  obtain ⟨rfl, h⟩ := h
  have hword := Text.takeWhile_append_of_head? hw hmore.isWord_head
  rw [h, Text.takeWhile_append_of_head? hw' hmore'.isWord_head] at hword
  subst hword
  obtain ⟨rfl, rfl⟩ := hmore.unique hmore' (List.append_cancel_left h)
  rfl

/-- A character of a sentence. -/
def IsProse (c : Char) : Prop :=
  Text.isWord c = true ∨ Text.isSpace c = true ∨ c ∈ ['.', '-', '"', '/']

private theorem isWord_of_isCapital {c : Char} (h : isCapital c = true) : Text.isWord c = true := by
  have hletters : ∀ point ∈ List.range' 'A'.toNat 26, Text.word.contains point = true := by decide
  simp only [isCapital, Bool.and_eq_true, decide_eq_true_eq] at h
  have hlow : 65 ≤ c.toNat := h.1
  have hhigh : c.toNat ≤ 90 := h.2
  refine hletters c.toNat (List.mem_range'_1.2 ⟨hlow, ?_⟩)
  exact Nat.lt_succ_of_le hhigh

private theorem IsCapitalized.isWord {t : Text} (h : IsCapitalized t) : ∀ c ∈ t, Text.isWord c = true := by
  obtain ⟨hc, -, hw⟩ := h
  simpa [isWord_of_isCapital hc] using hw

private theorem IsJoiner.isProse {t : Text} (h : IsJoiner t) : ∀ c ∈ t, IsProse c := by
  cases h with
  | space hs => simp [IsProse, hs]
  | period hs => simp [IsProse, hs]
  | hyphen => simp [IsProse]

private theorem IsJoined.isProse {t : Text} (h : IsJoined t) : ∀ c ∈ t, IsProse c := by
  cases h with
  | word _ hw => exact fun c hc => .inl (hw c hc)
  | @quoted first last inner hfirst _ hinner hlast =>
    intro c hc
    simp only [List.mem_cons, List.mem_append, List.not_mem_nil, or_false] at hc
    rcases hc with rfl | rfl | hc | rfl | rfl
    · simp [IsProse]
    · exact .inl hfirst
    · rcases hinner c hc with hword | rfl
      · exact .inl hword
      · simp [IsProse]
    · exact .inl hlast
    · simp [IsProse]

theorem Sentence.isProse (s : Sentence) : ∀ c ∈ s.text, IsProse c := by
  intro c hc
  simp only [text, List.mem_append, List.mem_flatten] at hc
  rcases hc with hc | ⟨g, hg, hc⟩ | hc
  · exact .inl (s.capitalized.isWord c hc)
  · obtain ⟨hjoiner, ht⟩ := s.continues.joined g hg
    rcases List.mem_append.1 hc with hc | hc
    · exact hjoiner.isProse c hc
    · exact ht.isProse c hc
  · rcases s.continues.period_eq with hperiod | hperiod
    · rw [hperiod] at hc
      cases hc
    · rw [hperiod, List.mem_singleton] at hc
      simp [IsProse, hc]

private theorem exists_concat_of_word {w : Text} (hne : w ≠ []) (hw : ∀ c ∈ w, Text.isWord c = true) :
    ∃ front last, w = front ++ [last] ∧ Text.isWord last = true := by
  rcases List.eq_nil_or_concat' w with rfl | ⟨front, last, rfl⟩
  · exact absurd rfl hne
  · exact ⟨front, last, rfl, hw last (by simp)⟩

private theorem IsJoined.exists_concat {t : Text} (h : IsJoined t) :
    ∃ front last, t = front ++ [last] ∧ (Text.isWord last = true ∨ last = '"') := by
  cases h with
  | word hne hw =>
    obtain ⟨front, last, rfl, hlast⟩ := exists_concat_of_word hne hw
    exact ⟨front, last, rfl, .inl hlast⟩
  | @quoted first last inner => exact ⟨'"' :: first :: (inner ++ [last]), '"', by simp, .inr rfl⟩

theorem Sentence.exists_concat (s : Sentence) : ∃ front last,
    s.text = front ++ [last] ∧ (Text.isWord last = true ∨ last = '"' ∨ last = '.') := by
  obtain ⟨first, groups, period, hfirst, hgroups, hperiod⟩ := s
  -- The last of the parts that is not empty ends the sentence.
  rcases hperiod with rfl | rfl
  · rcases List.eq_nil_or_concat' groups with rfl | ⟨groups, g, rfl⟩
    · have hne : first ≠ [] := by
        cases hfirst
        simp
      obtain ⟨front, last, rfl, hlast⟩ := exists_concat_of_word hne hfirst.isWord
      exact ⟨front, last, by simp [text], .inl hlast⟩
    · cases hgroups g (by simp) with
      | @mk joiner t _ ht =>
        obtain ⟨front, last, rfl, hlast⟩ := ht.exists_concat
        refine ⟨first ++ (groups.flatten ++ (joiner ++ front)), last, by simp [text], ?_⟩
        exact hlast.imp_right .inl
  · exact ⟨first ++ groups.flatten, '.', by simp [text], by simp⟩

theorem isSentence_append {t g : Text} (ht : isSentence t = true) (hend : t.getLast? ≠ some '.')
    (hg : IsGroup g) : isSentence (t ++ g) = true := by
  obtain ⟨s, rfl⟩ := isSentence_iff_exists_text.1 ht
  have hperiod : s.period = [] := by
    rcases s.continues.period_eq with hperiod | hperiod
    · exact hperiod
    · exact absurd (by simp [Sentence.text, hperiod]) hend
  have hmore : Continues (s.groups ++ [g]) [] := by
    refine ⟨fun g' hg' => ?_, .inl rfl⟩
    rcases List.mem_append.1 hg' with hg' | hg'
    · exact s.continues.joined g' hg'
    · rwa [List.mem_singleton.1 hg']
  refine isSentence_iff_exists_text.2 ⟨⟨s.first, s.groups ++ [g], [], s.capitalized, hmore⟩, ?_⟩
  simp [Sentence.text, hperiod]

theorem isSentence_eq_false_of_colon {t : Text} (h : ':' ∈ t) : isSentence t = false := by
  refine Bool.eq_false_iff.2 fun ht => ?_
  obtain ⟨s, rfl⟩ := isSentence_iff_exists_text.1 ht
  rcases s.isProse _ h with hword | hspace | hmark
  · exact absurd hword (by decide)
  · exact absurd hspace (by decide)
  · exact absurd hmark (by decide)

end Header
end SqfLayout
