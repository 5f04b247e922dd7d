import SqfLayout.Header.ParameterLine
import SqfLayout.Violation

/-! Reading the header comment, section by section. A section that is missing or wrong is blamed on
the line where it was expected. -/
namespace SqfLayout.Header

/-- The lines that remain of a comment, and the number of the first of them in its file. -/
structure Lines where
  number : Nat
  rest : List Text
  deriving DecidableEq, Repr

/-- The text of a line that is indented by four spaces and no further. -/
def indented? (line : Text) : Option Text :=
  match List.isPrefixOf? "    " line with
  | none => none
  | some text => if text.head?.any Text.isSpace then none else some text

/-- An empty line before other lines. The last line holds the closing delimiter and is none. -/
def startsBlank : List Text → Bool
  | line :: _ :: _ => line.isEmpty
  | _ => false

namespace Lines

/-- The lines of a comment that opens on the given line. -/
def ofComment (number : Nat) (comment : Text) : Lines :=
  ⟨number, (Text.splitLines comment).map Text.dropReturn⟩

def advance (l : Lines) : Lines := ⟨l.number + 1, l.rest.tail⟩

/-- The indented text of the first line. -/
def text? (l : Lines) : Option Text := l.rest.head?.bind indented?

/-- Sections may have one empty line between them. -/
def skipBlank (l : Lines) : Lines := if startsBlank l.rest then l.advance else l

end Lines

/-- The line below the opening delimiter holds the title, and the delimiter's own line nothing. -/
def readTitle (c : Convention) (l : Lines) : Except Violation Lines :=
  if l.rest.head? = some [] ∧ l.advance.text? = some c.title then .ok l.advance.advance
  else .error ⟨.badTitle c.title, ⟨l.number + 1, 1⟩⟩

def readAuthors (c : Convention) (l : Lines) : Except Violation (List Text × Lines) :=
  match l.text?.bind (List.isPrefixOf? "Author: ") with
  | none => .error ⟨.badAuthors c.authors, ⟨l.number, 1⟩⟩
  | some names =>
    let names := Text.splitItems names
    if names.all c.isAuthor then .ok (names, l.advance)
    else .error ⟨.badAuthors c.authors, ⟨l.number, 1⟩⟩

/-- The sentences that lines start with. -/
def sentences : List Text → List Text
  | [] => []
  | line :: rest =>
    match indented? line with
    | none => []
    | some text => if isSentence text then text :: sentences rest else []

/-- A description without a sentence is blamed on its heading. -/
def readDescription (l : Lines) : Except Violation (List Text × Lines) :=
  let found := sentences l.rest.tail
  if l.text? = some "Description:" ∧ found ≠ [] then
    .ok (found, ⟨l.number + 1 + found.length, l.rest.tail.drop found.length⟩)
  else .error ⟨.badDescription, ⟨l.number, 1⟩⟩

/-- The parameter list from the given ordinal and line number. It ends with an empty line. -/
def readList (c : Convention) (ordinal number : Nat) :
    List Text → Except Violation (List Parameter)
  | [] => .error ⟨.badParameter ordinal c.types, ⟨number, 5⟩⟩
  | line :: rest =>
    match (indented? line).bind (parameterLine? c ordinal) with
    | none => .error ⟨.badParameter ordinal c.types, ⟨number, 5⟩⟩
    | some parameter =>
      if startsBlank rest then .ok [parameter]
      else (readList c (ordinal + 1) (number + 1) rest).map (parameter :: ·)

def readParameters (c : Convention) (l : Lines) : Except Violation (List Parameter) :=
  if l.text? = some "Parameter(s):" then
    if l.advance.text? = some "None" then .ok []
    else readList c 0 (l.number + 1) l.rest.tail
  else .error ⟨.noParameters, ⟨l.number, 1⟩⟩

/-- Reads a comment that opens on the given line. What follows the parameters is not looked at. -/
def read (c : Convention) (number : Nat) (comment : Text) : Except Violation Header := do
  let l ← readTitle c (Lines.ofComment number comment)
  let (authors, l) ← readAuthors c l.skipBlank
  let (description, l) ← readDescription l.skipBlank
  let parameters ← readParameters c l.skipBlank
  return ⟨authors, description, parameters⟩

end SqfLayout.Header
