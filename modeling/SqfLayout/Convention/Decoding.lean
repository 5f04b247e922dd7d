import SqfLayout.Convention
import SqfLayout.Json.Number
import SqfLayout.Text.Quoted

/-! Reading a convention from JSON: an object with its six fields, or a list of their values. The
first problem in reading order is reported. -/
namespace SqfLayout.Convention

/-- What stands where something else is wanted. -/
inductive Found
  | null
  | bool (b : Bool)
  | number (n : Json.Number)
  | string (t : Text)
  | list
  | object
  | bareVariant

def Found.describe : Found → Text
  | .null => "null"
  | .bool b => "boolean `" ++ (if b then "true" else "false") ++ "`"
  | .number n => n.describe
  | .string t => "string " ++ Text.quoted t
  | .list => "sequence"
  | .object => "map"
  | .bareVariant => "unit variant"

/-- What is wanted. -/
inductive Wanted
  | string | list | pair | convention | null | newtypeVariant
  deriving DecidableEq, Repr

def Wanted.describe : Wanted → Text
  | .string => "a string"
  | .list => "a sequence"
  | .pair => "a tuple of size 2"
  | .convention => "struct Convention"
  | .null => "unit"
  | .newtypeVariant => "newtype variant"

inductive Field
  | title | authors | types | header | parametersCommand | sentinels
  deriving DecidableEq, Repr

namespace Field

def name : Field → Text
  | .title => "title"
  | .authors => "authors"
  | .types => "types"
  | .header => "include"
  | .parametersCommand => "parameters_command"
  | .sentinels => "sentinels"

/-- The fields in the order in which a list gives their values. -/
def all : List Field := [.title, .authors, .types, .header, .parametersCommand, .sentinels]

def ofName? (name : Text) : Option Field := all.find? (·.name = name)

end Field

/-- The forms of a sentinel. -/
inductive Variant
  | emptyArray | emptyCode | command | number | string
  deriving DecidableEq, Repr

namespace Variant

def name : Variant → Text
  | .emptyArray => "empty-array"
  | .emptyCode => "empty-code"
  | .command => "command"
  | .number => "number"
  | .string => "string"

def all : List Variant := [.emptyArray, .emptyCode, .command, .number, .string]

def ofName? (name : Text) : Option Variant := all.find? (·.name = name)

end Variant

/-- Why a text holds no convention. -/
inductive DecodingProblem
  | syntactic (p : Json.Problem)
  | wrongType (found : Found) (wanted : Wanted)
  | tooShort (length : Nat) (wanted : Wanted)
  | missingField (f : Field)
  | duplicateField (f : Field)
  | unknownVariant (name : Text)

def DecodingProblem.message : DecodingProblem → Text
  | .syntactic p => p.message
  | .wrongType found wanted =>
    "invalid type: " ++ found.describe ++ ", expected " ++ wanted.describe
  | .tooShort length wanted =>
    "invalid length " ++ Text.ofNat length ++ ", expected " ++ wanted.describe ++
      (if wanted = .convention then " with 6 elements" else "")
  | .missingField f => "missing field `" ++ f.name ++ "`"
  | .duplicateField f => "duplicate field `" ++ f.name ++ "`"
  | .unknownVariant name =>
    "unknown variant `" ++ name ++ "`, expected one of " ++
      Text.joinItems (Variant.all.map fun v => "`" ++ v.name ++ "`")

/-- A problem, and the bytes behind its place once that is known. -/
structure DecodingFailure where
  problem : DecodingProblem
  left? : Option Nat

/-- A reader of parts of a convention; its state is the text that remains. -/
abbrev Decoder := EStateM DecodingFailure Text

namespace Decoder

variable {α : Type}

/-- Runs a reader of JSON text. -/
def lift (read : Text → Except Json.Fault (α × Text)) : Decoder α := fun s =>
  match read s with
  | .ok (a, rest) => .ok a rest
  | .error fault => .error ⟨.syntactic fault.problem, some fault.left⟩ s

/-- Fails before the next byte. -/
def failBefore (p : Json.Problem) : Decoder α := fun s =>
  .error ⟨.syntactic p, some (Json.byteCount s)⟩ s

/-- Fails behind the next byte. -/
def failBehind (p : Json.Problem) : Decoder α := fun s =>
  .error ⟨.syntactic p, some (Json.byteCount s - 1)⟩ s

/-- Fails at a place that is not settled yet. -/
def fail (p : DecodingProblem) : Decoder α := fun s => .error ⟨p, none⟩ s

/-- A failure whose place is not settled is placed where reading stopped. -/
def located (d : Decoder α) : Decoder α := fun s =>
  match d s with
  | .ok a rest => .ok a rest
  | .error e rest => .error ⟨e.problem, some (e.left?.getD (Json.byteCount rest))⟩ rest

/-- Reads a body and its end. The end is looked for even if the body failed, which moves the place
of a failure that is not settled. -/
def bracketed (body : Decoder α) (finish : Decoder Unit) : Decoder α := fun s =>
  match body s with
  | .ok a rest =>
    match finish rest with
    | .ok _ rest => .ok a rest
    | .error e rest => .error e rest
  | .error e rest =>
    match finish rest with
    | .ok _ rest => .error e rest
    | .error _ rest => .error e rest

/-- The next character that is no white space. -/
def peek : Decoder (Option Char) := fun s =>
  .ok (Json.skipWhite s).head? (Json.skipWhite s)

/-- Drops the next character. -/
def eat : Decoder Unit := fun s => .ok () s.tail

/-- What the next value is; lists and objects are not entered. -/
def found : Decoder Found := do
  match (← get).head? with
  | some 'n' => eat; lift fun s => (Json.word "ull" s).map (Found.null, ·)
  | some 't' => eat; lift fun s => (Json.word "rue" s).map (Found.bool true, ·)
  | some 'f' => eat; lift fun s => (Json.word "alse" s).map (Found.bool false, ·)
  | some '"' => eat; lift fun s => (Json.string s).map fun r => (Found.string r.1, r.2)
  | some '[' => return .list
  | some '-' => eat; lift fun s => (Json.number true s).map fun r => (Found.number r.1, r.2)
  | some c =>
    if c = '\x7b' then return .object
    else if c.isDigit then lift fun s => (Json.number false s).map fun r => (Found.number r.1, r.2)
    else failBehind .noValue
  | none => failBehind .noValue

/-- Refuses the next value. -/
def refuse (wanted : Wanted) : Decoder α :=
  located do fail (.wrongType (← found) wanted)

/-- A string. -/
def text : Decoder Text := do
  match ← peek with
  | none => failBehind .endInValue
  | some c => if c = '"' then do eat; lift Json.string else refuse .string

/-- The end of a list. -/
def listEnd : Decoder Unit := do
  match ← peek with
  | none => failBehind .endInList
  | some c =>
    if c = ']' then eat
    else if c = ',' then do
      eat
      if (← peek) = some ']' then failBehind .trailingComma else failBehind .trailingCharacters
    else failBehind .trailingCharacters

/-- The end of an object. -/
def objectEnd : Decoder Unit := do
  match ← peek with
  | none => failBehind .endInObject
  | some c =>
    if c = '\x7d' then eat
    else if c = ',' then failBehind .trailingComma
    else failBehind .trailingCharacters

/-- Whether a list has another item. Before any but the first a comma is taken. -/
def hasItem (first : Bool) : Decoder Bool := do
  match ← peek with
  | none => failBehind .endInList
  | some c =>
    if c = ']' then return false
    else if first then return true
    else if c = ',' then do
      eat
      match ← peek with
      | none => failBehind .endInValue
      | some c => if c = ']' then failBehind .trailingComma else return true
    else failBehind .noListEnd

/-- Whether an object has another key. Before any but the first a comma is taken. -/
def hasKey (first : Bool) : Decoder Bool := do
  match ← peek with
  | none => failBehind .endInObject
  | some c =>
    if c = '\x7d' then return false
    else if first then do
      if c = '"' then return true else failBehind .keyNotString
    else if c = ',' then do
      eat
      match ← peek with
      | none => failBehind .endInValue
      | some c =>
        if c = '"' then return true
        else if c = '\x7d' then failBehind .trailingComma
        else failBehind .keyNotString
    else failBehind .noObjectEnd

/-- A string whose opening quote was seen; of a key, the colon is not looked for. -/
def key : Decoder Text := do
  eat
  lift Json.string

def colon : Decoder Unit := do
  match ← peek with
  | none => failBehind .endInObject
  | some c => if c = ':' then eat else failBehind .noColon

/-- Opens a list that must be there. -/
def inList (wanted : Wanted) (body : Decoder α) : Decoder α := do
  match ← peek with
  | none => failBehind .endInValue
  | some c =>
    if c = '[' then located (bracketed (do eat; body) listEnd) else refuse wanted

/-- Repeats a step with the state it leaves for as long as it goes on. A step that takes nothing
from the text is the last. -/
def iterate {σ : Type} (step : σ → Decoder (σ × Bool)) (state : σ) : Decoder σ := fun s =>
  match step state s with
  | .error e rest => .error e rest
  | .ok (state', goesOn) rest =>
    if goesOn ∧ rest.length < s.length then iterate step state' rest else .ok state' rest
termination_by s => s.length

/-- A list of any length. -/
def list (item : Decoder α) : Decoder (List α) :=
  inList .list <| List.reverse <$> iterate (fun items => do
    if ← hasItem items.isEmpty then return ((← item) :: items, true) else return (items, false)) []

/-- The next item of a list whose length is known. -/
def nextItem (index : Nat) (wanted : Wanted) (item : Decoder α) : Decoder α := do
  if ← hasItem (index = 0) then item else fail (.tooShort index wanted)

/-- The name of a sentinel's form, whose opening quote was seen. -/
def variant : Decoder Variant := located do
  let name ← key
  match Variant.ofName? name with
  | some v => return v
  | none => fail (.unknownVariant name)

/-- The name of a sentinel's form as the key of an object that was opened. -/
def variantKey : Decoder Variant := do
  match ← peek with
  | none => failBehind .endInObject
  | some c =>
    if c = '"' then variant
    else if c = '\x7d' then failBehind .noValue
    else failBehind .keyNotString

/-- What an object holds under the name of a sentinel's form. -/
def payload : Variant → Decoder Sentinel
  | .emptyArray => do null; return .emptyArray
  | .emptyCode => do null; return .emptyCode
  | .command => return .command (← text)
  | .number => return .number (← text)
  | .string => return .string (← text)
where
  null : Decoder Unit := do
    match ← peek with
    | none => failBehind .endInValue
    | some c =>
      if c = 'n' then do eat; lift fun s => (Json.word "ull" s).map ((), ·)
      else refuse .null

/-- A sentinel: the name of a form that needs nothing else, or an object of one field. -/
def sentinel : Decoder Sentinel := do
  match ← peek with
  | none => failBehind .endInValue
  | some c =>
    if c = '\x7b' then do
      eat
      let v ← variantKey
      colon
      let s ← payload v
      match ← peek with
      | none => failBefore .endInObject
      | some c => if c = '\x7d' then do eat; return s else failBefore .noValue
    else if c = '"' then do
      match ← variant with
      | .emptyArray => return .emptyArray
      | .emptyCode => return .emptyCode
      | _ => fail (.wrongType .bareVariant .newtypeVariant)
    else failBehind .noValue

/-- A type and its sentinel. -/
def entry : Decoder (Text × Sentinel) :=
  inList .pair do
    let type ← nextItem 0 .pair text
    let s ← nextItem 1 .pair sentinel
    return (type, s)

/-- The fields read so far. -/
structure Partial where
  title? : Option Text
  authors? : Option (List Text)
  types? : Option (List Text)
  header? : Option Text
  parametersCommand? : Option Text
  sentinels? : Option (List (Text × Sentinel))

namespace Partial

def empty : Partial := ⟨none, none, none, none, none, none⟩

def has (p : Partial) : Field → Bool
  | .title => p.title?.isSome
  | .authors => p.authors?.isSome
  | .types => p.types?.isSome
  | .header => p.header?.isSome
  | .parametersCommand => p.parametersCommand?.isSome
  | .sentinels => p.sentinels?.isSome

/-- The value of a field. -/
def readField (p : Partial) : Field → Decoder Partial
  | .title => return { p with title? := some (← text) }
  | .authors => return { p with authors? := some (← list text) }
  | .types => return { p with types? := some (← list text) }
  | .header => return { p with header? := some (← text) }
  | .parametersCommand => return { p with parametersCommand? := some (← text) }
  | .sentinels => return { p with sentinels? := some (← list entry) }

/-- A field that must have been read. -/
def require (f : Field) : Option α → Decoder α
  | some a => pure a
  | none => fail (.missingField f)

/-- All fields must have been read; of several that were not the first is reported. -/
def convention (p : Partial) : Decoder Convention := do
  return ⟨← require .title p.title?, ← require .authors p.authors?, ← require .types p.types?,
    ← require .header p.header?, ← require .parametersCommand p.parametersCommand?,
    ← require .sentinels p.sentinels?⟩

/-- One field of the object. A field that is read already is refused before its value is looked at;
a field of another name is passed over. -/
def next (first : Bool) (p : Partial) : Decoder (Partial × Bool) := do
  if ← hasKey first then
    match Field.ofName? (← key) with
    | some f =>
      if p.has f then fail (.duplicateField f)
      colon
      return (← p.readField f, true)
    | none =>
      colon
      lift fun s => (Json.skip s).map ((), ·)
      return (p, true)
  else return (p, false)

end Partial

/-- The fields of an object in any order. -/
def fields : Decoder Convention := do
  let (p, goesOn) ← Partial.empty.next true
  (← if goesOn then iterate (Partial.next false) p else pure p).convention

/-- The values of the fields in order. -/
def values : Decoder Convention := do
  let title ← nextItem 0 .convention text
  let authors ← nextItem 1 .convention (list text)
  let types ← nextItem 2 .convention (list text)
  let header ← nextItem 3 .convention text
  let command ← nextItem 4 .convention text
  let sentinels ← nextItem 5 .convention (list entry)
  return ⟨title, authors, types, header, command, sentinels⟩

/-- A convention, and nothing behind it. -/
def document : Decoder Convention := do
  let c ← value
  match ← peek with
  | none => return c
  | some _ => failBehind .trailingCharacters
where
  value : Decoder Convention := do
    match ← peek with
    | none => failBehind .endInValue
    | some c =>
      if c = '[' then located (bracketed (do eat; values) listEnd)
      else if c = '\x7b' then located (bracketed (do eat; fields) objectEnd)
      else refuse .convention

end Decoder

/-- A refused text: why, and at which line and column. -/
structure Refusal where
  problem : DecodingProblem
  line : Nat
  column : Nat

/-- The problem with its place. -/
def Refusal.message (r : Refusal) : Text :=
  r.problem.message ++ " at line " ++ Text.ofNat r.line ++ " column " ++ Text.ofNat r.column

/-- Reads a convention from JSON. -/
def ofJson (source : Text) : Except Refusal Convention :=
  match Decoder.document source with
  | .ok c _ => .ok c
  | .error e _ =>
    let read := Json.byteCount source - e.left?.getD 0
    let place := Json.place 1 0 source read
    .error ⟨e.problem, place.1, place.2⟩

end SqfLayout.Convention
