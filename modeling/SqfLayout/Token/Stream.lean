import SqfLayout.Indentation
import SqfLayout.Lexeme.Reader

/-! The tokens of a source. The source is cut into lexemes first; then the layout of its lines is
read off the runs of line breaks. -/
namespace SqfLayout

namespace Lexeme

/-- What follows a lexeme is shorter than the text that the lexeme was read from. -/
theorem length_drop_lt {lineStart : Bool} {c : Char} {rest : Text} {x : Lexeme}
    (h : read lineStart c rest = .ok x) :
    ((c :: rest).drop x.text.length).length < (c :: rest).length := by
  obtain ⟨_, hne⟩ := read_isPrefix h
  have := List.length_pos_iff.2 hne
  simp only [List.length_drop, List.length_cons]
  omega

/-- Cuts a text, which starts at `p`, into lexemes with their places. -/
def cut (p : Position) (lineStart : Bool) (source : Text) :
    Except LexicalFault (List (Position × Lexeme)) :=
  match source with
  | [] => .ok []
  | c :: rest =>
    match _ : read lineStart c rest with
    | .error stuck => .error ⟨stuck.problem, p.advance stuck.before⟩
    | .ok x =>
      match cut (p.advance x.text) x.isBreaks ((c :: rest).drop x.text.length) with
      | .error fault => .error fault
      | .ok more => .ok ((p, x) :: more)
termination_by source.length
decreasing_by exact length_drop_lt (by assumption)

end Lexeme

namespace Token

/-- The tokens of lexemes, given the levels that are open and the place of the end. A run of line
breaks at the very end closes no level. -/
def ofLexemes (i : Indentation) (final : Position) : List (Position × Lexeme) → List Token
  | [] => i.finish final
  | (p, .breaks run) :: rest =>
    let next :=
      if rest.isEmpty then (i, [Kind.newline]) else i.enter (Indentation.width run)
    Indentation.blanks p run ++ next.2.map (Indentation.token p) ++ ofLexemes next.1 final rest
  | (p, x) :: rest => x.tokens p ++ ofLexemes i final rest

/-- The tokens of a source. A byte order mark at its start is dropped, and the blanks that its
first line starts with give no token but the base of the indentation. -/
def stream (source : Text) : Except LexicalFault (List Token) :=
  let text := Text.dropMark source
  let margin := text.takeWhile Text.isBlank
  let body := text.dropWhile Text.isBlank
  let start := Position.start.advance margin
  match Lexeme.cut start true body with
  | .error fault => .error fault
  | .ok lexemes => .ok (ofLexemes ⟨margin.length, []⟩ (start.advance body) lexemes)

end Token
end SqfLayout
