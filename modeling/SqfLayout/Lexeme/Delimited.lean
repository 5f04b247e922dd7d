import SqfLayout.Lexeme

/-! Lexemes between delimiters: comments, strings, and the lines of directives. -/
namespace SqfLayout.Lexeme

/-- What stands before the first `*/`, if there is one. -/
def commentBody : Text → Option Text
  | [] => none
  | [_] => none
  | c :: d :: rest =>
    if c = '*' ∧ d = '/' then some [] else (commentBody (d :: rest)).map (c :: ·)

/-- What stands before the first quote that is not doubled, if there is one. -/
def stringBody (quote : Char) : Text → Option Text
  | [] => none
  | [c] => if c = quote then some [] else none
  | c :: d :: rest =>
    if c = quote then
      if d = quote then (stringBody quote rest).map (c :: d :: ·) else some []
    else (stringBody quote (d :: rest)).map (c :: ·)

/-- The rest of a directive. A line that ends in a backslash, blanks after it not counted, is
continued: a line feed then belongs to the directive, a carriage return together with the next
character, whatever that is. -/
def logicalLine (continued : Bool) : Text → Text
  | [] => []
  | [c] => if Text.isBreak c && !continued then [] else [c]
  | c :: d :: rest =>
    if Text.isBreak c then
      if continued then
        if c = '\n' then c :: logicalLine false (d :: rest)
        else c :: d :: logicalLine (d == '\\') rest
      else []
    else c :: logicalLine (if Text.isBlank c then continued else c == '\\') (d :: rest)

theorem logicalLine_cons {c : Char} {continued : Bool} (hc : Text.isBreak c = false) (t : Text) :
    logicalLine continued (c :: t) = c :: logicalLine (if Text.isBlank c then continued else c == '\\') t := by
  cases t <;> simp [logicalLine, hc]

theorem commentBody_isPrefix {t body : Text} (h : commentBody t = some body) :
    body ++ ("*/" : Text) <+: t := by
  fun_induction commentBody t generalizing body with
  | case1 => simp at h
  | case2 => simp at h
  | case3 c d rest hc =>
    obtain ⟨rfl, rfl⟩ := hc
    cases h
    exact ⟨rest, by simp⟩
  | case4 c d rest _ ih =>
    obtain ⟨b, hb, rfl⟩ := Option.map_eq_some_iff.1 h
    exact (List.prefix_cons_inj c).2 (ih hb)

theorem stringBody_isPrefix {quote : Char} {t body : Text} (h : stringBody quote t = some body) :
    body ++ [quote] <+: t := by
  fun_induction stringBody quote t generalizing body with
  | case1 => simp at h
  | case2 => cases h; exact ⟨[], rfl⟩
  | case3 => simp at h
  | case4 rest ih =>
    obtain ⟨b, hb, rfl⟩ := Option.map_eq_some_iff.1 h
    exact (List.prefix_cons_inj _).2 ((List.prefix_cons_inj _).2 (ih hb))
  | case5 d rest _ => cases h; exact ⟨d :: rest, rfl⟩
  | case6 c d rest _ ih =>
    obtain ⟨b, hb, rfl⟩ := Option.map_eq_some_iff.1 h
    exact (List.prefix_cons_inj c).2 (ih hb)

theorem logicalLine_isPrefix (continued : Bool) (t : Text) : logicalLine continued t <+: t := by
  fun_induction logicalLine continued t with
  | case1 => exact List.nil_prefix
  | case2 => exact List.nil_prefix
  | case3 => exact List.prefix_rfl
  | case4 d rest _ ih => exact (List.prefix_cons_inj _).2 ih
  | case5 c d rest _ _ ih => exact (List.prefix_cons_inj _).2 ((List.prefix_cons_inj _).2 ih)
  | case6 => exact List.nil_prefix
  | case7 continued c d rest _ ih => exact (List.prefix_cons_inj _).2 ih

end SqfLayout.Lexeme
