import SqfLayout.Proofs.Lexeme.Context
import SqfLayout.Proofs.Lexeme.Spelling

/-! How far a lexeme looks: to the character behind it and, at a number, to a bar behind that. What
stands further behind may be replaced. -/
namespace SqfLayout.Lexeme

section
variable {k c : Char} {t m : Text} {x : Lexeme}

/-- A longest run that ends in a text goes no further if the text behind the next character changes. -/
private theorem takeWhile_local {p : Char → Bool} (h : ((t ++ k :: m).takeWhile p).length ≤ t.length) (m' : Text) :
    (t ++ k :: m').takeWhile p = (t ++ k :: m).takeWhile p := by
  have hstop : (∀ d ∈ t, p d = true) → p k = false := by
    intro hall
    rw [List.takeWhile_append_of_pos hall, List.length_append] at h
    by_contra hk
    rw [List.takeWhile_cons_of_pos (by simpa using hk), List.length_cons] at h
    omega
  by_cases hall : ∀ d ∈ t, p d = true
  · rw [takeWhile_append_stop t m (hstop hall), takeWhile_append_stop t m' (hstop hall)]
  · have hshort : (t.takeWhile p).length ≠ t.length := by
      intro hlength
      refine hall fun d hd => List.all_eq_true.1 ?_ d hd
      rw [← (List.takeWhile_prefix p).eq_of_length hlength]
      exact List.all_takeWhile
    rw [List.takeWhile_append, List.takeWhile_append, if_neg hshort, if_neg hshort]

private theorem commentBody_local {u body : Text} (h : commentBody (t ++ u) = some body)
    (hbody : body.length + 2 ≤ t.length) : commentBody t = some body := by
  fun_induction commentBody t generalizing body with
  | case1 => simp at hbody
  | case2 => simp at hbody
  | case3 c d rest hc =>
    simpa [commentBody, hc] using h
  | case4 c d rest hc ih =>
    rw [List.cons_append, List.cons_append, commentBody, if_neg hc] at h
    obtain ⟨b, hb, rfl⟩ := Option.map_eq_some_iff.1 h
    rw [ih hb (by simpa using hbody)]
    rfl

private theorem stringBody_local {q : Char} {body : Text} (h : stringBody q (t ++ k :: m) = some body)
    (hbody : body.length < t.length) (m' : Text) : stringBody q (t ++ k :: m') = some body := by
  fun_induction stringBody q t generalizing body with
  | case1 => simp at hbody
  | case2 =>
    obtain rfl : body = [] := by simpa using hbody
    rw [List.singleton_append, stringBody, if_pos rfl] at h ⊢
    by_cases hk : k = q
    · rw [if_pos hk, Option.map_eq_some_iff] at h
      simp at h
    · rw [if_neg hk]
  | case3 d hd =>
    rw [List.singleton_append, stringBody, if_neg hd] at h
    obtain ⟨b, hb, rfl⟩ := Option.map_eq_some_iff.1 h
    simp at hbody
  | case4 rest ih =>
    rw [List.cons_append, List.cons_append, stringBody, if_pos rfl, if_pos rfl] at h ⊢
    obtain ⟨b, hb, rfl⟩ := Option.map_eq_some_iff.1 h
    rw [ih hb (by simpa using hbody)]
    rfl
  | case5 d rest hd =>
    rw [List.cons_append, List.cons_append, stringBody, if_pos rfl, if_neg hd] at h ⊢
    exact h
  | case6 d e rest hd ih =>
    rw [List.cons_append, List.cons_append, stringBody, if_neg hd] at h ⊢
    obtain ⟨b, hb, rfl⟩ := Option.map_eq_some_iff.1 h
    rw [← List.cons_append, ih hb (by simpa using hbody)]
    rfl

theorem logicalLine_eq_nil_iff {continued : Bool} : logicalLine continued (k :: m) = [] ↔
    Text.isBreak k = true ∧ continued = false := by
  cases m with
  | nil => cases continued <;> simp [logicalLine]
  | cons d rest =>
    rw [logicalLine]
    by_cases hk : Text.isBreak k = true
    · cases continued with
      | false => simp [hk]
      | true =>
        rw [if_pos hk, if_pos rfl]
        split <;> simp
    · simp [hk]

/-- A directive that ends before a character does not continue, so it looks no further. -/
private theorem logicalLine_local_nil {continued : Bool} (h : (logicalLine continued (k :: m)).length ≤ 0)
    (m' : Text) : logicalLine continued (k :: m') = logicalLine continued (k :: m) := by
  have hnil := List.length_eq_zero_iff.1 (Nat.le_zero.1 h)
  rw [hnil, logicalLine_eq_nil_iff]
  exact logicalLine_eq_nil_iff.1 hnil

private theorem logicalLine_local {continued : Bool} (h : (logicalLine continued (t ++ k :: m)).length ≤ t.length)
    (m' : Text) : logicalLine continued (t ++ k :: m') = logicalLine continued (t ++ k :: m) := by
  fun_induction logicalLine continued t with
  | case1 continued => exact logicalLine_local_nil h m'
  | case2 continued d hd => simp_all [logicalLine]
  | case3 continued d hd =>
    rw [List.singleton_append, logicalLine] at h ⊢
    rw [List.singleton_append, logicalLine]
    by_cases hbreak : Text.isBreak d = true
    · obtain rfl : continued = true := by simpa [hbreak] using hd
      rw [if_pos hbreak, if_pos rfl] at h ⊢
      rw [if_pos hbreak, if_pos rfl]
      by_cases hfeed : d = '\n'
      · rw [if_pos hfeed] at h ⊢
        rw [if_pos hfeed, logicalLine_local_nil (Nat.le_of_succ_le_succ h)]
      · rw [if_neg hfeed] at h
        simp at h
    · rw [if_neg hbreak] at h ⊢
      rw [if_neg hbreak, logicalLine_local_nil (Nat.le_of_succ_le_succ h)]
  | case4 e rest hd ih =>
    simp only [List.cons_append, logicalLine, hd, if_true] at h ⊢
    rw [← List.cons_append, ← List.cons_append, ih (by simpa using h)]
  | case5 d e rest hd hne ih =>
    simp only [List.cons_append, logicalLine, hd, if_true, if_neg hne] at h ⊢
    rw [ih (by simpa using h)]
  | case6 continued d e rest hd hcontinued =>
    simp only [List.cons_append, logicalLine, hd, if_true, if_neg hcontinued]
  | case7 continued d e rest hd ih =>
    simp only [List.cons_append, logicalLine, if_neg hd] at h ⊢
    rw [← List.cons_append, ← List.cons_append, ih (by simpa using h)]

theorem readInclusion_written {gap path : Text} {style : PathStyle}
    (hgap : ∀ c ∈ gap, Text.isBlank c = true) (hpath : ∀ c ∈ path, style.holds c = true) (more : Text) :
    readInclusion (gap ++ style.opening :: path ++ style.closing :: more) = .ok (.inclusion gap style path) := by
  have hopening : Text.isBlank style.opening = false ∧ PathStyle.ofOpening? style.opening = some style := by
    cases style <;> exact ⟨by decide, by decide⟩
  have hclosing : style.holds style.closing = false := by simp [PathStyle.holds]
  have hdrop : (gap ++ style.opening :: path ++ style.closing :: more).dropWhile Text.isBlank =
      style.opening :: (path ++ style.closing :: more) := by
    rw [List.append_assoc, List.dropWhile_append_of_pos hgap, List.cons_append,
      List.dropWhile_cons_of_neg (by simp [hopening.1])]
  have htake : (gap ++ style.opening :: path ++ style.closing :: more).takeWhile Text.isBlank = gap := by
    rw [List.append_assoc, List.takeWhile_append_of_pos hgap, List.cons_append,
      List.takeWhile_cons_of_neg (by simp [hopening.1]), List.append_nil]
  have hend : (path ++ style.closing :: more).dropWhile style.holds = style.closing :: more := by
    rw [List.dropWhile_append_of_pos hpath, List.dropWhile_cons_of_neg (by simp [hclosing])]
  have hbody : (path ++ style.closing :: more).takeWhile style.holds = path := by
    rw [List.takeWhile_append_of_pos hpath, List.takeWhile_cons_of_neg (by simp [hclosing]), List.append_nil]
  unfold readInclusion
  rw [hdrop]
  simp only [hopening.2, hend, htake, hbody, List.head?_cons, if_true]

private theorem readInclusion_local (h : readInclusion (t ++ m) = .ok x) (hx : x.text.length ≤ t.length + 8)
    (m' : Text) : readInclusion (t ++ m') = .ok x := by
  have hwell := wellFormed_of_readInclusion h
  obtain ⟨gap, style, path, rfl, hprefix⟩ := readInclusion_isPrefix h
  cases hwell with
  | inclusion hgap hpath =>
    have hlength : (gap ++ style.opening :: path ++ [style.closing]).length ≤ t.length := by
      simp only [text, List.length_append, List.length_cons, List.length_nil] at hx ⊢
      have hname : (Text.ofString "#include").length = 8 := by simp
      omega
    obtain ⟨more, rfl⟩ := List.prefix_of_prefix_length_le hprefix (List.prefix_append t m) hlength
    have hwritten := readInclusion_written hgap hpath (more ++ m')
    simpa using hwritten

private theorem isDirectiveWord_bar : ∀ k ∈ bars, isDirectiveWord k = false := by
  intro k hk
  simp only [bars, ends, stops, List.mem_cons, List.not_mem_nil, or_false] at hk
  rcases hk with rfl | rfl | rfl | rfl | rfl | rfl <;> decide

private theorem readDirective_local (hk : k ∈ bars) (h : readDirective (t ++ k :: m) = .ok x)
    (hx : x.text.length ≤ t.length + 1) (m' : Text) : readDirective (t ++ k :: m') = .ok x := by
  have hname : ∀ m', (t ++ k :: m').takeWhile isDirectiveWord = t.takeWhile isDirectiveWord :=
    fun m' => takeWhile_append_stop t m' (isDirectiveWord_bar k hk)
  have hrest : ∀ m', (t ++ k :: m').dropWhile isDirectiveWord = t.dropWhile isDirectiveWord ++ k :: m' := by
    intro m'
    refine (List.append_right_inj (t.takeWhile isDirectiveWord)).1 ?_
    rw [← List.append_assoc, List.takeWhile_append_dropWhile, ← hname m', List.takeWhile_append_dropWhile]
  unfold readDirective at h ⊢
  rw [hname, hrest] at h ⊢
  by_cases hinclude : t.takeWhile isDirectiveWord = Text.ofString "include"
  · rw [if_pos hinclude] at h ⊢
    refine readInclusion_local h ?_ _
    have hlength := congrArg List.length
      (List.takeWhile_append_dropWhile (p := isDirectiveWord) (l := t))
    rw [hinclude, List.length_append] at hlength
    have : (Text.ofString "include").length = 7 := by simp
    omega
  · rw [if_neg hinclude] at h ⊢
    cases h
    rw [logicalLine_local (by simpa [text] using hx)]

/-- A lexeme that ends before a bar does not depend on what stands behind the bar. -/
theorem read_local {lineStart : Bool} (hk : k ∈ bars) (h : read lineStart c (t ++ k :: m) = .ok x)
    (hx : x.text.length ≤ t.length + 1) (m' : Text) : read lineStart c (t ++ k :: m') = .ok x := by
  have hhead : (t ++ k :: m').head? = (t ++ k :: m).head? := by
    cases t <;> rfl
  have hrun : ∀ {p : Char → Bool}, ((c :: (t ++ k :: m)).takeWhile p).length ≤ t.length + 1 →
      (c :: (t ++ k :: m')).takeWhile p = (c :: (t ++ k :: m)).takeWhile p :=
    fun hlength => takeWhile_local (t := c :: t) hlength m'
  have hoperator : operator c (t ++ k :: m') = operator c (t ++ k :: m) := by
    cases t <;> rfl
  have hstarts : startsNumber c (t ++ k :: m') = startsNumber c (t ++ k :: m) := by
    rw [startsNumber_append t hk, startsNumber_append t hk]
  have hnumber : number (c :: (t ++ k :: m')) = number (c :: (t ++ k :: m)) := by
    rw [← List.cons_append, ← List.cons_append, number_append t hk, number_append t hk]
  unfold read at h ⊢
  rw [hhead, hoperator, hstarts, hnumber]
  by_cases hbreak : Text.isBreak c = true
  · rw [if_pos hbreak] at h ⊢
    cases h
    rw [hrun hx]
  rw [if_neg hbreak] at h ⊢
  by_cases hblank : Text.isBlank c = true
  · rw [if_pos hblank] at h ⊢
    cases h
    rw [hrun hx]
  rw [if_neg hblank] at h ⊢
  by_cases hdirective : c = '#' ∧ lineStart = true
  · rw [if_pos hdirective] at h ⊢
    exact readDirective_local hk h hx m'
  rw [if_neg hdirective] at h ⊢
  by_cases hcomment : c = '/' ∧ (t ++ k :: m).head? = some '*'
  · rw [if_pos hcomment] at h ⊢
    cases hbody : commentBody (t ++ k :: m).tail with
    | none => simp [hbody] at h
    | some body =>
      rw [hbody] at h
      cases h
      have hlength : body.length + 3 ≤ t.length := by
        simp only [text, List.length_append] at hx
        have hdelimiters : (Text.ofString "/*").length = 2 ∧ (Text.ofString "*/").length = 2 := by simp
        omega
      cases t with
      | nil => simp at hlength
      | cons d t =>
        have hlocal := commentBody_local hbody (Nat.le_of_succ_le_succ hlength)
        have hagain := commentBody_append hlocal (k :: m')
        simp only [List.cons_append, List.tail_cons, hagain]
  rw [if_neg hcomment] at h ⊢
  by_cases hline : c = '/' ∧ (t ++ k :: m).head? = some '/'
  · rw [if_pos hline] at h ⊢
    cases h
    rw [hrun (p := fun d => !Text.isBreak d) hx]
  rw [if_neg hline] at h ⊢
  by_cases hquote : c = '"' ∨ c = '\''
  · rw [if_pos hquote] at h ⊢
    cases hbody : stringBody c (t ++ k :: m) with
    | none => simp [hbody] at h
    | some body =>
      rw [hbody] at h
      cases h
      rw [stringBody_local hbody (Nat.lt_of_succ_le (by simpa [text] using hx))]
  rw [if_neg hquote] at h ⊢
  by_cases hdigits : startsNumber c (t ++ k :: m) = true
  · rw [if_pos hdigits] at h ⊢
    exact h
  rw [if_neg hdigits] at h ⊢
  by_cases hword : (Text.isLetter c || decide (c = '_')) = true
  · rw [if_pos hword] at h ⊢
    cases h
    rw [hrun hx]
  rw [if_neg hword] at h ⊢
  exact h

end
end SqfLayout.Lexeme
