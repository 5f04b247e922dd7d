import SqfLayout.Text

/-! The house convention of a project, held as data: what a header says, and which literal stands
for a type. -/
namespace SqfLayout

/-- The literal that a type check uses for a type. -/
inductive Sentinel
  | emptyArray
  | emptyCode
  | command (name : Text)
  | number (text : Text)
  | string (text : Text)
  deriving DecidableEq, Repr

/-- How a message names a sentinel. -/
def Sentinel.describe : Sentinel → Text
  | .emptyArray => "[]"
  | .emptyCode => "\x7b\x7d"
  | .command name => name
  | .number text => text
  | .string text => if text.isEmpty then "empty string" else text

/-- A convention. A type may lack a sentinel; a header may name it, but nothing checks it. -/
structure Convention where
  title : Text
  authors : List Text
  types : List Text
  /-- The path of the include line. -/
  header : Text
  /-- The command that binds parameters. -/
  parametersCommand : Text
  sentinels : List (Text × Sentinel)
  deriving DecidableEq, Repr

namespace Convention

/-- The convention in force where no other is given. -/
def standard : Convention where
  title := "Arma At War"
  authors := ["BadGuy", "joko // Jonas", "NetFusion"]
  types := ["Anything", "Array", "Bool", "Code", "Control", "Display", "Group", "Number", "Object",
    "Side", "String"]
  header := "macros.hpp"
  parametersCommand := "params"
  sentinels := [("Array", .emptyArray), ("Bool", .command "true"), ("Code", .emptyCode),
    ("Control", .command "controlNull"), ("Display", .command "displayNull"),
    ("Group", .command "grpNull"), ("Number", .number "0"), ("Object", .command "objNull"),
    ("Side", .command "sideUnknown"), ("String", .string "")]

def isAuthor (c : Convention) (name : Text) : Bool := c.authors.contains name

theorem isAuthor_iff {c : Convention} {name : Text} : c.isAuthor name = true ↔ name ∈ c.authors :=
  List.contains_iff_mem

def isType (c : Convention) (name : Text) : Bool := c.types.contains name

theorem isType_iff {c : Convention} {name : Text} : c.isType name = true ↔ name ∈ c.types :=
  List.contains_iff_mem

/-- The sentinel of a type. Of two entries for one type the first counts. -/
def sentinel? (c : Convention) (type : Text) : Option Sentinel := c.sentinels.lookup type

theorem sentinel?_eq_some_iff {c : Convention} {type : Text} {sen : Sentinel} : c.sentinel? type = some sen ↔
    ∃ front back, c.sentinels = front ++ (type, sen) :: back ∧ ∀ entry ∈ front, type ≠ entry.1 := by
  simp only [sentinel?, List.lookup_eq_some_iff, bne_iff_ne]

theorem sentinel?_eq_none_iff {c : Convention} {type : Text} :
    c.sentinel? type = none ↔ ∀ entry ∈ c.sentinels, type ≠ entry.1 := by
  simp only [sentinel?, List.lookup_eq_none_iff, bne_iff_ne]

/-- A parameter that may be an array has its size checked, too. -/
def needsSizeCheck (c : Convention) (types : List Text) : Bool :=
  types.any fun type => c.sentinel? type == some .emptyArray

end Convention
end SqfLayout
