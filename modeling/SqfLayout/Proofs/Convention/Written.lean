import SqfLayout.Convention.Decoding
import SqfLayout.Proofs.Json.Values

/-! Conventions as JSON text: what may hold a convention, or some of its fields, and one text that does. -/
namespace SqfLayout

namespace Json
variable {α : Type} {item : Text → α → Prop}

/-- What stands behind the first item of a list or an object, up to the closing mark: a comma and an item, any number
of times, with white space around each. -/
inductive IsTail (item : Text → α → Prop) : Text → List α → Prop
  | close {gap : Text} (hgap : IsGap gap) : IsTail item gap []
  | more {gap gap' t tail : Text} {a : α} {as : List α} (hgap : IsGap gap) (hgap' : IsGap gap') (h : item t a)
      (htail : IsTail item tail as) : IsTail item (gap ++ ',' :: (gap' ++ (t ++ tail))) (a :: as)

/-- A list or an object with the given items, which may be none. -/
inductive IsFrame (frame : Frame) (item : Text → α → Prop) : Text → List α → Prop
  | empty {gap : Text} (hgap : IsGap gap) : IsFrame frame item (frame.opening :: (gap ++ [frame.closing])) []
  | filled {gap t tail : Text} {a : α} {as : List α} (hgap : IsGap gap) (h : item t a) (htail : IsTail item tail as) :
      IsFrame frame item (frame.opening :: (gap ++ (t ++ (tail ++ [frame.closing])))) (a :: as)

def writeItems : List Text → Text
  | [] => []
  | t :: ts => t ++ ts.flatMap (',' :: ·)

def writeFrame (frame : Frame) (items : List Text) : Text := frame.opening :: (writeItems items ++ [frame.closing])

def writeMember (name value : Text) : Text := writeString name ++ ':' :: value

theorem isGap_nil : IsGap [] := by simp [IsGap]

private theorem isTail_flatMap {write : α → Text} {as : List α} (hwrite : ∀ a ∈ as, item (write a) a) :
    IsTail item ((as.map write).flatMap (',' :: ·)) as := by
  induction as with
  | nil => exact .close isGap_nil
  | cons a as ih =>
    obtain ⟨ha, has⟩ := List.forall_mem_cons.1 hwrite
    exact .more isGap_nil isGap_nil ha (ih has)

private theorem isFrame_writeFrame (frame : Frame) {write : α → Text} {as : List α}
    (hwrite : ∀ a ∈ as, item (write a) a) : IsFrame frame item (writeFrame frame (as.map write)) as := by
  cases as with
  | nil => exact .empty isGap_nil
  | cons a as =>
    obtain ⟨ha, has⟩ := List.forall_mem_cons.1 hwrite
    have hfilled : IsFrame frame item _ (a :: as) := .filled isGap_nil ha (isTail_flatMap has)
    simpa [writeFrame, writeItems] using hfilled

/-- What closes a list or an object ends the last item, and a comma ends any other. -/
theorem IsTail.ends {tail : Text} {as : List α} (h : IsTail item tail as) (frame : Frame) (rest : Text) :
    Ends (tail ++ frame.closing :: rest) := by
  cases h with
  | close hgap => exact ends_append hgap (ends_closing frame rest)
  | more hgap =>
    rw [List.append_assoc]
    exact ends_append hgap (ends_comma _)

end Json

namespace Convention
open Json (IsFrame IsGap IsJson IsString)

/-- What stands behind the name of a sentinel's form. -/
inductive IsPayload : Variant → Text → Sentinel → Prop
  | emptyArray : IsPayload .emptyArray "null" .emptyArray
  | emptyCode : IsPayload .emptyCode "null" .emptyCode
  | command {t s : Text} (h : IsString t s) : IsPayload .command t (.command s)
  | number {t s : Text} (h : IsString t s) : IsPayload .number t (.number s)
  | string {t s : Text} (h : IsString t s) : IsPayload .string t (.string s)

/-- A sentinel: the name of its form, if that needs nothing else, or an object with one key. -/
inductive IsSentinel : Text → Sentinel → Prop
  | emptyArray {t : Text} (h : IsString t "empty-array") : IsSentinel t .emptyArray
  | emptyCode {t : Text} (h : IsString t "empty-code") : IsSentinel t .emptyCode
  | object {gap₁ key gap₂ gap₃ t gap₄ : Text} {v : Variant} {s : Sentinel} (hgap₁ : IsGap gap₁)
      (hkey : IsString key v.name) (hgap₂ : IsGap gap₂) (hgap₃ : IsGap gap₃) (h : IsPayload v t s)
      (hgap₄ : IsGap gap₄) :
      IsSentinel ('\x7b' :: (gap₁ ++ (key ++ (gap₂ ++ ':' :: (gap₃ ++ (t ++ (gap₄ ++ ['\x7d']))))))) s

/-- A type and its sentinel. -/
inductive IsEntry : Text → Text × Sentinel → Prop
  | pair {gap₁ t gap₂ gap₃ u gap₄ type : Text} {s : Sentinel} (hgap₁ : IsGap gap₁) (ht : IsString t type)
      (hgap₂ : IsGap gap₂) (hgap₃ : IsGap gap₃) (hu : IsSentinel u s) (hgap₄ : IsGap gap₄) :
      IsEntry ('[' :: (gap₁ ++ (t ++ (gap₂ ++ ',' :: (gap₃ ++ (u ++ (gap₄ ++ [']']))))))) (type, s)

/-- The value of a field of a convention. -/
def IsField (c : Convention) : Field → Text → Prop
  | .title, t => IsString t c.title
  | .authors, t => IsFrame .list IsString t c.authors
  | .types, t => IsFrame .list IsString t c.types
  | .header, t => IsString t c.header
  | .parametersCommand, t => IsString t c.parametersCommand
  | .sentinels, t => IsFrame .list IsEntry t c.sentinels

/-- A key with its value: a field of a convention, or anything under another name. -/
inductive IsMember (c : Convention) : Text → Option Field → Prop
  | field {key gap gap' t : Text} {f : Field} (hkey : IsString key f.name) (hgap : IsGap gap) (hgap' : IsGap gap')
      (h : IsField c f t) : IsMember c (key ++ (gap ++ ':' :: (gap' ++ t))) (some f)
  | other {key gap gap' t name : Text} (hkey : IsString key name) (hname : ∀ f : Field, f.name ≠ name)
      (hgap : IsGap gap) (hgap' : IsGap gap') (h : IsJson .value t) :
      IsMember c (key ++ (gap ++ ':' :: (gap' ++ t))) none

/-- A text that holds fields of a convention, each of them once and in any order, with anything under other names
among them. -/
structure Holds (c : Convention) (text : Text) (members : List (Option Field)) : Prop where
  object : ∃ gap t, text = gap ++ t ∧ IsGap gap ∧ IsFrame .object (IsMember c) t members
  once : ∀ f, members.count (some f) ≤ 1

/-- The first field, in the order of declaration, that is not given. -/
def missing? (given : List (Option Field)) : Option Field := Field.all.find? fun f => some f ∉ given

/-! Writing. -/

def writeSentinel : Sentinel → Text
  | .emptyArray => Json.writeString Variant.emptyArray.name
  | .emptyCode => Json.writeString Variant.emptyCode.name
  | .command name => Json.writeFrame .object [Json.writeMember Variant.command.name (Json.writeString name)]
  | .number text => Json.writeFrame .object [Json.writeMember Variant.number.name (Json.writeString text)]
  | .string text => Json.writeFrame .object [Json.writeMember Variant.string.name (Json.writeString text)]

def writeEntry (e : Text × Sentinel) : Text := Json.writeFrame .list [Json.writeString e.1, writeSentinel e.2]

def writeField (c : Convention) : Field → Text
  | .title => Json.writeString c.title
  | .authors => Json.writeFrame .list (c.authors.map Json.writeString)
  | .types => Json.writeFrame .list (c.types.map Json.writeString)
  | .header => Json.writeString c.header
  | .parametersCommand => Json.writeString c.parametersCommand
  | .sentinels => Json.writeFrame .list (c.sentinels.map writeEntry)

def toJson (c : Convention) : Text :=
  Json.writeFrame .object (Field.all.map fun f => Json.writeMember f.name (c.writeField f))

private theorem isSentinel_writeSentinel (s : Sentinel) : IsSentinel (writeSentinel s) s := by
  have hobject {v : Variant} {t : Text} (h : IsPayload v t s) :
      IsSentinel (Json.writeFrame .object [Json.writeMember v.name t]) s := by
    have hall := IsSentinel.object Json.isGap_nil (Json.isString_writeString v.name) Json.isGap_nil Json.isGap_nil h
      Json.isGap_nil
    simpa [Json.writeFrame, Json.writeItems, Json.writeMember, Json.Frame.opening, Json.Frame.closing] using hall
  cases s with
  | emptyArray => exact .emptyArray (Json.isString_writeString _)
  | emptyCode => exact .emptyCode (Json.isString_writeString _)
  | command name => exact hobject (.command (Json.isString_writeString name))
  | number text => exact hobject (.number (Json.isString_writeString text))
  | string text => exact hobject (.string (Json.isString_writeString text))

private theorem isEntry_writeEntry (e : Text × Sentinel) : IsEntry (writeEntry e) e := by
  have hall := IsEntry.pair Json.isGap_nil (Json.isString_writeString e.1) Json.isGap_nil Json.isGap_nil
    (isSentinel_writeSentinel e.2) Json.isGap_nil
  simpa [writeEntry, Json.writeFrame, Json.writeItems, Json.Frame.opening, Json.Frame.closing] using hall

private theorem isField_writeField (c : Convention) (f : Field) : IsField c f (c.writeField f) := by
  cases f with
  | title | header | parametersCommand => exact Json.isString_writeString _
  | authors | types => exact Json.isFrame_writeFrame .list fun s _ => Json.isString_writeString s
  | sentinels => exact Json.isFrame_writeFrame .list fun e _ => isEntry_writeEntry e

theorem isMember_writeMember (c : Convention) (f : Field) :
    IsMember c (Json.writeMember f.name (c.writeField f)) (some f) := by
  have hall := IsMember.field (Json.isString_writeString f.name) Json.isGap_nil Json.isGap_nil (c.isField_writeField f)
  simpa [Json.writeMember] using hall

theorem holds_toJson (c : Convention) : c.Holds c.toJson (Field.all.map some) := by
  let write (m : Option Field) : Text := m.elim [] fun f => Json.writeMember f.name (c.writeField f)
  have hwrite : ∀ m ∈ Field.all.map some, IsMember c (write m) m := by
    simpa [write] using fun f _ => c.isMember_writeMember f
  have hframe := Json.isFrame_writeFrame .object hwrite
  rw [List.map_map] at hframe
  exact ⟨⟨[], _, rfl, Json.isGap_nil, hframe⟩, fun f => by cases f <;> decide⟩

end Convention
end SqfLayout
