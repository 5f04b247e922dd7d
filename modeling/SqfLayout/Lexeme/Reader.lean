import SqfLayout.Lexeme.Delimited
import SqfLayout.Lexeme.Number
import SqfLayout.Text.Letter

/-! Reading the lexeme at the start of a text. Each reader gives a lexeme whose text is the start
of what it read, so nothing is lost or repeated. -/
namespace SqfLayout.Lexeme

/-- A problem met while reading a lexeme, after a part of it. -/
structure Stuck where
  problem : LexicalProblem
  before : Text
  deriving DecidableEq, Repr

/-- The characters of which a run of line breaks and indentations is made. -/
def isRun (c : Char) : Bool := Text.isBreak c || Text.isBlank c

/-- The characters of a directive's name. -/
def isDirectiveWord (c : Char) : Bool := c.isAlphanum || c == '_'

/-- The characters of a command after its first. -/
def isCommand (c : Char) : Bool := Text.isLetterOrNumber c || c == '_'

/-- Brackets and separators, which are always tokens of their own. -/
def mark? (c : Char) : Option Token.Kind :=
  if c = '[' then some .leftBracket
  else if c = ']' then some .rightBracket
  else if c = '{' then some .leftBrace
  else if c = '}' then some .rightBrace
  else if c = '(' then some .leftParen
  else if c = ')' then some .rightParen
  else if c = ',' then some .comma
  else if c = ';' then some .semicolon
  else none

/-- The characters that operators are made of. -/
def operatorCharacters : List Char :=
  ['+', '-', '*', '/', '%', '^', '=', '!', '<', '>', '&', '|', ':', '#']

/-- The operators of two characters. -/
def operatorPairs : List (Char × Char) :=
  [('=', '='), ('!', '='), ('<', '='), ('>', '='), ('&', '&'), ('|', '|'), ('>', '>')]

/-- The operator that starts with `c`: a pair if there is one. -/
def operator (c : Char) (rest : Text) : Text :=
  match rest with
  | d :: _ => if (c, d) ∈ operatorPairs then [c, d] else [c]
  | [] => [c]

/-- The include line after its name. -/
def readInclusion (rest : Text) : Except Stuck Lexeme :=
  match rest.dropWhile Text.isBlank with
  | [] => .error ⟨.malformedInclude, "#include" ++ rest.takeWhile Text.isBlank⟩
  | c :: after =>
    match PathStyle.ofOpening? c with
    | none => .error ⟨.malformedInclude, "#include" ++ rest.takeWhile Text.isBlank⟩
    | some style =>
      if (after.dropWhile style.holds).head? = some style.closing then
        .ok (.inclusion (rest.takeWhile Text.isBlank) style (after.takeWhile style.holds))
      else .error ⟨.unterminatedInclude, "#"⟩

/-- A directive after its `#`. -/
def readDirective (rest : Text) : Except Stuck Lexeme :=
  if rest.takeWhile isDirectiveWord = "include" then
    readInclusion (rest.dropWhile isDirectiveWord)
  else .ok (.directive (logicalLine false rest))

/-- The lexeme at the start of the text `c :: rest`. A `#` starts a directive only where a line
starts; elsewhere it is an operator. -/
def read (lineStart : Bool) (c : Char) (rest : Text) : Except Stuck Lexeme :=
  if Text.isBreak c then .ok (.breaks ((c :: rest).takeWhile isRun))
  else if Text.isBlank c then .ok (.plain .space ((c :: rest).takeWhile Text.isBlank))
  else if c = '#' ∧ lineStart then readDirective rest
  else if c = '/' ∧ rest.head? = some '*' then
    match commentBody rest.tail with
    | some body => .ok (.blockComment body)
    | none => .error ⟨.unterminatedComment, []⟩
  else if c = '/' ∧ rest.head? = some '/' then
    .ok (.plain .lineComment ((c :: rest).takeWhile fun d => !Text.isBreak d))
  else if c = '"' ∨ c = '\'' then
    match stringBody c rest with
    | some body => .ok (.string c body)
    | none => .error ⟨.unterminatedString, []⟩
  else if startsNumber c rest then .ok (.plain .number (number (c :: rest)))
  else if Text.isLetter c || c = '_' then
    .ok (.plain .command ((c :: rest).takeWhile isCommand))
  else match mark? c with
    | some kind => .ok (.plain kind [c])
    | none =>
      if c ∈ operatorCharacters then .ok (.plain .operator (operator c rest))
      else .error ⟨.unexpected c, []⟩

/-- What can be read from the text `c :: rest`, one case for each kind of lexeme. -/
inductive Reads (c : Char) (rest : Text) : Lexeme → Prop
  | breaks (hc : Text.isBreak c = true) : Reads c rest (.breaks ((c :: rest).takeWhile isRun))
  | space (hc : Text.isBlank c = true) :
      Reads c rest (.plain .space ((c :: rest).takeWhile Text.isBlank))
  | directive {x : Lexeme} (hc : c = '#') (hx : readDirective rest = .ok x) : Reads c rest x
  | blockComment {more body : Text} (hc : c = '/') (hrest : rest = '*' :: more)
      (hbody : commentBody more = some body) : Reads c rest (.blockComment body)
  | lineComment (hc : c = '/') :
      Reads c rest (.plain .lineComment ((c :: rest).takeWhile fun d => !Text.isBreak d))
  | string {body : Text} (hc : c = '"' ∨ c = '\'') (hbody : stringBody c rest = some body) :
      Reads c rest (.string c body)
  | number (hc : startsNumber c rest = true) : Reads c rest (.plain .number (number (c :: rest)))
  | command (hc : isCommand c = true) :
      Reads c rest (.plain .command ((c :: rest).takeWhile isCommand))
  | mark {kind : Token.Kind} (hkind : mark? c = some kind) : Reads c rest (.plain kind [c])
  | operator (hc : c ∈ operatorCharacters) : Reads c rest (.plain .operator (operator c rest))

theorem reads_of_read {lineStart : Bool} {c : Char} {rest : Text} {x : Lexeme}
    (h : read lineStart c rest = .ok x) : Reads c rest x := by
  unfold read at h
  split at h
  · cases h
    exact .breaks (by assumption)
  split at h
  · cases h
    exact .space (by assumption)
  split at h
  · rename_i hc
    exact .directive hc.1 h
  split at h
  · rename_i hc
    obtain ⟨more, rfl⟩ := List.head?_eq_some_iff.1 hc.2
    split at h
    · rename_i hbody
      cases h
      exact .blockComment hc.1 rfl hbody
    · cases h
  split at h
  · rename_i hc
    cases h
    exact .lineComment hc.1
  split at h
  · rename_i hc
    split at h
    · rename_i hbody
      cases h
      exact .string hc hbody
    · cases h
  split at h
  · cases h
    exact .number (by assumption)
  split at h
  · rename_i hc
    cases h
    refine .command ?_
    rcases Bool.or_eq_true _ _ ▸ hc with hl | hu
    · simp [isCommand, Text.isLetterOrNumber, hl]
    · simp [isCommand, of_decide_eq_true hu]
  split at h
  · cases h
    exact .mark (by assumption)
  split at h
  · cases h
    exact .operator (by assumption)
  · cases h

private theorem takeWhile_cons_isPrefix {p : Char → Bool} {c : Char} (h : p c = true) (rest : Text) :
    (c :: rest).takeWhile p <+: c :: rest ∧ (c :: rest).takeWhile p ≠ [] := by
  refine ⟨Text.takeWhile_isPrefix p _, ?_⟩
  simp [h]

theorem opening_of_ofOpening? {c : Char} {style : PathStyle}
    (h : PathStyle.ofOpening? c = some style) : style.opening = c := by
  unfold PathStyle.ofOpening? at h
  split at h
  · rename_i hc; cases h; exact hc.symm
  · split at h
    · rename_i hc; cases h; exact hc.symm
    · cases h

private theorem eq_cons_of_head? {t : Text} {c : Char} (h : t.head? = some c) :
    ∃ rest, t = c :: rest := by
  cases t with
  | nil => cases h
  | cons a rest => cases h; exact ⟨rest, rfl⟩

theorem readInclusion_isPrefix {rest : Text} {x : Lexeme} (h : readInclusion rest = .ok x) :
    ∃ gap style path, x = .inclusion gap style path ∧
      gap ++ style.opening :: path ++ [style.closing] <+: rest := by
  unfold readInclusion at h
  split at h
  · cases h
  · rename_i c after hafter
    split at h
    · cases h
    · rename_i style hstyle
      split at h
      · rename_i hclose
        cases h
        refine ⟨_, _, _, rfl, ?_⟩
        obtain ⟨w, hw⟩ := eq_cons_of_head? hclose
        refine ⟨w, ?_⟩
        conv => rhs; rw [← List.takeWhile_append_dropWhile (p := Text.isBlank) (l := rest), hafter,
          ← List.takeWhile_append_dropWhile (p := style.holds) (l := after), hw]
        rw [opening_of_ofOpening? hstyle]
        simp only [List.append_assoc, List.cons_append, List.nil_append]
      · cases h

theorem readDirective_isPrefix {rest : Text} {x : Lexeme} (h : readDirective rest = .ok x) :
    x.text <+: '#' :: rest ∧ x.text ≠ [] := by
  unfold readDirective at h
  split at h
  · rename_i hname
    obtain ⟨gap, style, path, rfl, v, hv⟩ := readInclusion_isPrefix h
    have hrest := List.takeWhile_append_dropWhile (p := isDirectiveWord) (l := rest)
    rw [hname, ← hv] at hrest
    refine ⟨⟨v, ?_⟩, by simp [text]⟩
    rw [← hrest]
    simp [text]
  · cases h
    refine ⟨?_, by simp [text]⟩
    change '#' :: logicalLine false rest <+: '#' :: rest
    exact (List.prefix_cons_inj _).2 (logicalLine_isPrefix _ _)

theorem operator_isPrefix (c : Char) (rest : Text) :
    operator c rest <+: c :: rest ∧ operator c rest ≠ [] := by
  unfold operator
  split
  · split
    · exact ⟨(List.prefix_cons_inj _).2 ((List.prefix_cons_inj _).2 List.nil_prefix), by simp⟩
    · exact ⟨(List.prefix_cons_inj _).2 List.nil_prefix, by simp⟩
  · exact ⟨List.prefix_rfl, by simp⟩

private theorem number_ne_nil {c : Char} {rest : Text} (h : startsNumber c rest = true) :
    number (c :: rest) ≠ [] := by
  unfold number
  by_cases hd : c = '$'
  · simp [hd]
  · have hdec : ∀ r, r.head? = rest.head? → decimal (c :: r) ≠ [] := by
      intro r hr
      unfold decimal
      by_cases hc : c.isDigit = true
      · simp [hc]
      · have hp : c = '.' ∧ rest.head?.any Char.isDigit = true := by
          simp [startsNumber, hc, hd] at h
          exact ⟨h.1, by simpa using h.2⟩
        cases r with
        | nil => rw [← hr] at hp; simp at hp
        | cons d r =>
          rw [← hr] at hp
          have hdd : d.isDigit = true := by simpa using hp.2
          simp [fraction, hp.1, hdd]
    simp only [hd, if_false]
    cases rest with
    | nil => exact hdec [] rfl
    | cons x rest =>
      dsimp only
      split
      · simp
      · exact hdec _ rfl

/-- What is read is the start of the text, and it is not empty. -/
theorem read_isPrefix {lineStart : Bool} {c : Char} {rest : Text} {x : Lexeme}
    (h : read lineStart c rest = .ok x) : x.text <+: c :: rest ∧ x.text ≠ [] := by
  cases reads_of_read h with
  | breaks hc => exact takeWhile_cons_isPrefix (p := isRun) (by simp [isRun, hc]) rest
  | space hc => exact takeWhile_cons_isPrefix (p := Text.isBlank) hc rest
  | directive hc hx =>
    rw [hc]
    exact readDirective_isPrefix hx
  | blockComment hc hrest hbody =>
    obtain ⟨u, hu⟩ := commentBody_isPrefix hbody
    refine ⟨⟨u, ?_⟩, by simp [text]⟩
    rw [hc, hrest, ← hu]
    simp [text]
  | lineComment hc =>
    exact takeWhile_cons_isPrefix (p := fun d => !Text.isBreak d) (by simp [hc, Text.isBreak]) rest
  | string hc hbody =>
    refine ⟨?_, by simp [text]⟩
    have := stringBody_isPrefix hbody
    simpa [text] using this
  | number hc => exact ⟨number_isPrefix (c :: rest), number_ne_nil hc⟩
  | command hc => exact takeWhile_cons_isPrefix (p := isCommand) hc rest
  | mark => exact ⟨⟨rest, rfl⟩, by simp [text]⟩
  | operator => exact operator_isPrefix c rest

end SqfLayout.Lexeme
