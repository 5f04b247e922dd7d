import SqfLayout.Proofs.Returns.Text

/-! Lexemes of a source that has a carriage return before every line feed. -/
namespace SqfLayout.Lexeme
open Text (withReturns)

/-- The same lexeme where lines end in two characters. Paths and lexemes without delimiters stay on
their line. -/
def withReturns : Lexeme → Lexeme
  | .breaks run => .breaks run.withReturns
  | .inclusion gap style path => .inclusion gap style path
  | .directive body => .directive body.withReturns
  | .blockComment body => .blockComment body.withReturns
  | .string quote body => .string quote body.withReturns
  | .plain kind text => .plain kind text

theorem isBreaks_withReturns (x : Lexeme) : x.withReturns.isBreaks = x.isBreaks := by
  cases x <;> rfl

private theorem commentBody_withReturns (t : Text) :
    commentBody t.withReturns = (commentBody t).map Text.withReturns := by
  induction t with
  | nil => rfl
  | cons c t ih =>
    by_cases hc : c = '\n'
    · subst hc
      rw [Text.withReturns_newline, commentBody_cons, commentBody_cons, commentBody_cons, ih]
      simp [Function.comp_def]
    · have hslash := Text.head?_withReturns (t := t) (c := '/') rfl
      rw [Text.withReturns_cons hc, commentBody_cons, commentBody_cons, ih]
      simp only [hslash]
      split
      · rfl
      · cases commentBody t <;> simp [Text.withReturns_cons hc]

private theorem stringBody_cons (q c : Char) (t : Text) : stringBody q (c :: t) =
    if c = q then (if t.head? = some q then (stringBody q t.tail).map (c :: q :: ·) else some [])
    else (stringBody q t).map (c :: ·) := by
  cases t with
  | nil =>
    by_cases hc : c = q <;> simp [stringBody, hc]
  | cons d t =>
    by_cases hc : c = q
    · by_cases hd : d = q <;> simp [stringBody, hc, hd]
    · simp [stringBody, hc]

private theorem stringBody_withReturns {q : Char} (hq : Text.isBreak q = false) (t : Text) :
    stringBody q t.withReturns = (stringBody q t).map Text.withReturns := by
  have hreturn : '\r' ≠ q := by rintro rfl; simp [Text.isBreak] at hq
  have hfeed : '\n' ≠ q := by rintro rfl; simp [Text.isBreak] at hq
  fun_induction stringBody q t with
  | case1 => rfl
  | case2 => simp [Text.withReturns_cons (Ne.symm hfeed), stringBody]
  | case3 c hc =>
    by_cases hc' : c = '\n'
    · subst hc'
      simp [stringBody, hreturn, hfeed]
    · simp [Text.withReturns_cons hc', stringBody, hc]
  | case4 rest ih =>
    simp only [Text.withReturns_cons (Ne.symm hfeed), stringBody, if_true, ih]
    cases stringBody q rest <;> simp [Text.withReturns_cons (Ne.symm hfeed)]
  | case5 d rest hd =>
    have hhead := Text.head?_withReturns (t := d :: rest) hq
    rw [Text.withReturns_cons (Ne.symm hfeed), stringBody_cons, if_pos rfl, if_neg]
    · rfl
    · rw [hhead]
      simpa using hd
  | case6 c d rest hc ih =>
    by_cases hc' : c = '\n'
    · subst hc'
      rw [Text.withReturns_newline, stringBody_cons, if_neg hreturn, stringBody_cons, if_neg hfeed, ih]
      cases stringBody q (d :: rest) <;> simp
    · rw [Text.withReturns_cons hc', stringBody_cons, if_neg hc, ih]
      cases stringBody q (d :: rest) <;> simp [Text.withReturns_cons hc']

private theorem logicalLine_newline (continued : Bool) (t : Text) :
    logicalLine continued ('\n' :: t) = if continued then '\n' :: logicalLine false t else [] := by
  cases t <;> cases continued <;> rfl

-- A carriage return takes the next character along, whatever it is; here that is its line feed.
private theorem logicalLine_return (continued : Bool) (t : Text) :
    logicalLine continued ('\r' :: '\n' :: t) =
      if continued then '\r' :: '\n' :: logicalLine false t else [] := by
  cases continued <;> rfl

/-- A directive goes on over the same lines: a backslash reaches over either line break. -/
private theorem logicalLine_withReturns {t : Text} (ht : '\r' ∉ t) (continued : Bool) :
    logicalLine continued t.withReturns = (logicalLine continued t).withReturns := by
  induction t generalizing continued with
  | nil => rfl
  | cons c t ih =>
    simp only [List.mem_cons, not_or] at ht
    by_cases hc : c = '\n'
    · subst hc
      rw [Text.withReturns_newline, logicalLine_return, logicalLine_newline]
      cases continued
      · rfl
      · simp [ih ht.2]
    · have hbreak : Text.isBreak c = false := by simp [Text.isBreak, hc, Ne.symm ht.1]
      rw [Text.withReturns_cons hc, logicalLine_cons hbreak, logicalLine_cons hbreak, ih ht.2,
        Text.withReturns_cons hc]

section
variable {c : Char} {rest : Text}

private theorem number_withReturns (h : '\r' ∉ rest) : number (c :: rest.withReturns) = number (c :: rest) :=
  Text.eq_of_line (f := fun t => number (c :: t))
    (fun line _ _ hk => number_append line (mem_bars_of_isBreak hk)) h

private theorem startsNumber_withReturns (h : '\r' ∉ rest) :
    startsNumber c rest.withReturns = startsNumber c rest :=
  Text.eq_of_line (fun line _ _ hk => startsNumber_append line (mem_bars_of_isBreak hk)) h

private theorem operator_withReturns (h : '\r' ∉ rest) :
    operator c rest.withReturns = operator c rest :=
  Text.eq_of_line (fun line _ _ hk => operator_append line (mem_ends_of_isBreak hk)) h

private theorem readInclusion_withReturns (h : '\r' ∉ rest) :
    readInclusion rest.withReturns = (readInclusion rest).map withReturns := by
  have hblank : ∀ k, Text.isBreak k = true → Text.isBlank k = false := Text.forall_isBreak.2 ⟨rfl, rfl⟩
  have hdrop : '\r' ∉ rest.dropWhile Text.isBlank := fun hmem =>
    h ((List.dropWhile_suffix _).subset hmem)
  unfold readInclusion
  rw [Text.takeWhile_withReturns hblank h, Text.dropWhile_withReturns hblank]
  generalize rest.dropWhile Text.isBlank = behind at hdrop
  cases behind with
  | nil => rfl
  | cons c after =>
    by_cases hc : c = '\n'
    · subst hc
      simp [PathStyle.ofOpening?, Except.map]
    · simp only [Text.withReturns_cons hc]
      cases PathStyle.ofOpening? c with
      | none => rfl
      | some style =>
        have hholds : ∀ k, Text.isBreak k = true → style.holds k = false := by
          intro k hk
          simp [PathStyle.holds, hk]
        have hclosing : Text.isBreak style.closing = false := by cases style <;> rfl
        have hafter : '\r' ∉ after := fun hmem => hdrop (List.mem_cons_of_mem _ hmem)
        simp only [Text.dropWhile_withReturns hholds, Text.head?_withReturns hclosing,
          Text.takeWhile_withReturns hholds hafter]
        split <;> rfl

private theorem readDirective_withReturns (h : '\r' ∉ rest) :
    readDirective rest.withReturns = (readDirective rest).map withReturns := by
  have hword : ∀ k, Text.isBreak k = true → isDirectiveWord k = false :=
    Text.forall_isBreak.2 ⟨by decide, by decide⟩
  have hdrop : '\r' ∉ rest.dropWhile isDirectiveWord := fun hmem =>
    h ((List.dropWhile_suffix _).subset hmem)
  unfold readDirective
  rw [Text.takeWhile_withReturns hword h, Text.dropWhile_withReturns hword,
    readInclusion_withReturns hdrop, logicalLine_withReturns h]
  split <;> rfl

theorem read_withReturns {lineStart : Bool} (hc : Text.isBreak c = false) (h : '\r' ∉ rest) :
    read lineStart c rest.withReturns = (read lineStart c rest).map withReturns := by
  have hstar := Text.head?_withReturns (t := rest) (c := '*') rfl
  have hslash := Text.head?_withReturns (t := rest) (c := '/') rfl
  have hfeed : c ≠ '\n' := by rintro rfl; simp [Text.isBreak] at hc
  have hreturn : '\r' ∉ c :: rest := by
    simp only [List.mem_cons, h, or_false]
    rintro rfl
    simp [Text.isBreak] at hc
  have htake {p : Char → Bool} (hp : ∀ k, Text.isBreak k = true → p k = false) :
      (c :: rest.withReturns).takeWhile p = (c :: rest).takeWhile p := by
    rw [← Text.withReturns_cons hfeed, Text.takeWhile_withReturns hp hreturn]
  have hblanks := htake (p := Text.isBlank) (Text.forall_isBreak.2 ⟨rfl, rfl⟩)
  have hline := htake (p := fun d => !Text.isBreak d) (by simp)
  have hcommand := htake (p := isCommand) (Text.forall_isBreak.2 ⟨by decide, by decide⟩)
  unfold read
  simp only [hc, Bool.false_eq_true, if_false, hblanks, hline, hcommand, hstar, hslash,
    readDirective_withReturns h, startsNumber_withReturns h, number_withReturns h,
    operator_withReturns h]
  split
  · rfl
  split
  · rfl
  split
  · rename_i hcomment
    obtain ⟨body, rfl⟩ := List.head?_eq_some_iff.1 hcomment.2
    rw [Text.withReturns_cons (by decide), List.tail_cons, commentBody_withReturns, List.tail_cons]
    cases commentBody body <;> rfl
  split
  · rfl
  split
  · rename_i hquote
    rw [stringBody_withReturns hc]
    cases stringBody c rest <;> rfl
  split
  · rfl
  split
  · rfl
  split
  · rfl
  split <;> rfl

end

end SqfLayout.Lexeme
