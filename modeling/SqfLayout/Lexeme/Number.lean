import SqfLayout.Text

/-! Number literals: decimal with fraction and exponent, or hexadecimal after `$` or `0x`. -/
namespace SqfLayout.Lexeme

/-- A number may start here. A point or a dollar sign needs a digit of its base behind it. -/
def startsNumber (c : Char) (rest : Text) : Bool :=
  c.isDigit || c == '.' && rest.head?.any Char.isDigit || c == '$' && rest.head?.any Text.isHexDigit

/-- The fraction at the start of a text: a point and at least one digit, or nothing. -/
def fraction : Text → Text
  | c :: d :: rest => if c = '.' ∧ d.isDigit then c :: (d :: rest).takeWhile Char.isDigit else []
  | _ => []

/-- A sign of an exponent. -/
def isSign (c : Char) : Bool := c == '+' || c == '-'

/-- The exponent at the start of a text: a letter e, at most one sign and at least one digit, or
nothing. -/
def exponent : Text → Text
  | e :: c :: rest =>
    if e = 'e' ∨ e = 'E' then
      if c.isDigit then e :: (c :: rest).takeWhile Char.isDigit
      else if isSign c && rest.head?.any Char.isDigit then e :: c :: rest.takeWhile Char.isDigit
      else []
    else []
  | _ => []

/-- The decimal literal at the start of a text. -/
def decimal (text : Text) : Text :=
  let whole := text.takeWhile Char.isDigit
  let rest := text.drop whole.length
  let part := fraction rest
  whole ++ part ++ exponent (rest.drop part.length)

/-- The number literal at the start of a text. After `0x` there may be no digit at all. -/
def number : Text → Text
  | [] => []
  | c :: rest =>
    if c = '$' then c :: rest.takeWhile Text.isHexDigit
    else match rest with
      | [] => decimal [c]
      | x :: rest' =>
        if c = '0' ∧ (x = 'x' ∨ x = 'X') then c :: x :: rest'.takeWhile Text.isHexDigit
        else decimal (c :: x :: rest')

theorem fraction_isPrefix (t : Text) : fraction t <+: t := by
  unfold fraction
  split
  · split
    · exact (List.prefix_cons_inj _).2 (Text.takeWhile_isPrefix _ _)
    · exact List.nil_prefix
  · exact List.nil_prefix

private theorem exponent_isPrefix (t : Text) : exponent t <+: t := by
  unfold exponent
  split
  · split
    · split
      · exact (List.prefix_cons_inj _).2 (Text.takeWhile_isPrefix _ _)
      · split
        · exact (List.prefix_cons_inj _).2 ((List.prefix_cons_inj _).2 (Text.takeWhile_isPrefix _ _))
        · exact List.nil_prefix
    · exact List.nil_prefix
  · exact List.nil_prefix

/-- Two stretches in a row are a stretch. -/
private theorem isPrefix_append_drop {a b t : Text} (ha : a <+: t) (hb : b <+: t.drop a.length) :
    a ++ b <+: t := by
  obtain ⟨u, rfl⟩ := ha
  rw [List.drop_left] at hb
  exact (List.prefix_append_right_inj a).2 hb

private theorem decimal_isPrefix (t : Text) : decimal t <+: t := by
  have hw := Text.takeWhile_isPrefix Char.isDigit t
  have hf := isPrefix_append_drop hw (fraction_isPrefix _)
  refine isPrefix_append_drop hf ?_
  rw [List.length_append, ← List.drop_drop]
  exact exponent_isPrefix _

theorem number_isPrefix (t : Text) : number t <+: t := by
  unfold number
  split
  · exact List.nil_prefix
  · split
    · exact (List.prefix_cons_inj _).2 (Text.takeWhile_isPrefix _ _)
    · split
      · exact decimal_isPrefix _
      · split
        · exact (List.prefix_cons_inj _).2 ((List.prefix_cons_inj _).2 (Text.takeWhile_isPrefix _ _))
        · exact decimal_isPrefix _

end SqfLayout.Lexeme
