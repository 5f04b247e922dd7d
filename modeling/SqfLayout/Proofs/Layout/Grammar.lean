import SqfLayout.Layout
import SqfLayout.Proofs.Expression.Grammar

/-! The layout of a conformant file as a grammar of tokens, with the header that belongs to it. -/
namespace SqfLayout.Layout
open Expression (Derives)

/-- The tokens of a literal that stands for a type. Words and strings count by their text. -/
inductive Spells : Sentinel → List Token → Prop
  | emptyArray {l r : Token} (hl : l.kind = .leftBracket) (hr : r.kind = .rightBracket) :
      Spells .emptyArray [l, r]
  | emptyCode {l r : Token} (hl : l.kind = .leftBrace) (hr : r.kind = .rightBrace) :
      Spells .emptyCode [l, r]
  | command {t : Token} (ht : t.kind = .command) : Spells (.command t.value) [t]
  | number {t : Token} (ht : t.kind = .number) : Spells (.number t.value) [t]
  | string {t : Token} (ht : t.kind = .string) : Spells (.string t.value) [t]

/-- The tokens that check one type: its literal, or nothing for a type without a sentinel. -/
def ChecksType (c : Convention) (type : Text) (x : List Token) : Prop :=
  match c.sentinel? type with
  | none => x = []
  | some s => Spells s x

/-- The tokens that check types in their order, with a comma and a blank between any two. -/
inductive ChecksTypes (c : Convention) : List Text → List Token → Prop
  | nil : ChecksTypes c [] []
  | single {type : Text} {x : List Token} (hx : ChecksType c type x) : ChecksTypes c [type] x
  | cons {type : Text} {types : List Text} {sep gap : Token} {x y : List Token}
      (hx : ChecksType c type x) (hsep : sep.kind = .comma) (hgap : gap.kind = .space)
      (htypes : types ≠ []) (hy : ChecksTypes c types y) :
      ChecksTypes c (type :: types) (x ++ sep :: gap :: y)

/-- One of the types is an array's. -/
def NeedsSize (c : Convention) (types : List Text) : Prop :=
  ∃ type ∈ types, c.sentinel? type = some .emptyArray

/-- The tokens that check a size: a number or an array. -/
inductive ChecksSize : List Token → Prop
  | number {sep gap t : Token} (hsep : sep.kind = .comma) (hgap : gap.kind = .space)
      (ht : t.kind = .number) : ChecksSize [sep, gap, t]
  | array {sep gap : Token} {items : List Expression} {x : List Token} (hsep : sep.kind = .comma)
      (hgap : gap.kind = .space) (hx : Derives (.array items) x) : ChecksSize (sep :: gap :: x)

/-- The tokens that check a size stand exactly where a type asks for them. -/
def ChecksSizeOf (c : Convention) (types : List Text) (x : List Token) : Prop :=
  (NeedsSize c types ∧ ChecksSize x) ∨ (¬ NeedsSize c types ∧ x = [])

/-- The tokens of the entry that binds a parameter, and the parameter once it is bound. -/
inductive Binds (c : Convention) (p : Parameter) : List Token → Parameter → Prop
  | entry {l name sep gap sep' gap' l' r' r : Token} {e : Expression} {x y z : List Token}
      (hl : l.kind = .leftBracket) (hname : name.kind = .string) (hsep : sep.kind = .comma)
      (hgap : gap.kind = .space) (hx : Derives (.expression e) x) (hsep' : sep'.kind = .comma)
      (hgap' : gap'.kind = .space) (hl' : l'.kind = .leftBracket) (hy : ChecksTypes c p.types y)
      (hr' : r'.kind = .rightBracket) (hz : ChecksSizeOf c p.types z)
      (hr : r.kind = .rightBracket) :
      Binds c p (l :: name :: sep :: gap :: x ++ sep' :: gap' :: l' :: y ++ r' :: z ++ [r])
        { p with name? := some name.value, value? := some e }

theorem Binds.types_eq {c : Convention} {p bound : Parameter} {x : List Token}
    (h : Binds c p x bound) : bound.types = p.types := by
  cases h
  rfl

/-- The entries of parameters, one on a line. -/
inductive BindsAll (c : Convention) : List Parameter → List Token → List Parameter → Prop
  | single {p bound : Parameter} {x : List Token} (hx : Binds c p x bound) :
      BindsAll c [p] x [bound]
  | cons {p bound : Parameter} {ps rest : List Parameter} {sep line : Token} {x y : List Token}
      (hx : Binds c p x bound) (hsep : sep.kind = .comma) (hline : line.kind = .newline)
      (hy : BindsAll c ps y rest) : BindsAll c (p :: ps) (x ++ sep :: line :: y) (bound :: rest)

/-- The tokens of the include line, the comment and the empty line, and the header that the comment
declares. -/
inductive Declares (c : Convention) : List Token → Header → Prop
  | opening {hash path line comment blank line' : Token} {h : Header}
      (hhash : hash.kind = .preprocessorStart) (hpath : path.kind = .preprocessorInclude)
      (hheader : path.value = c.header) (hline : line.kind = .newline)
      (hcomment : comment.kind = .blockComment)
      (hread : Header.read c comment.position.line comment.value = .ok h)
      (hblank : blank.kind = .blank) (hline' : line'.kind = .newline) :
      Declares c [hash, path, line, comment, blank, line'] h

/-- The next token is the command that binds parameters. -/
def StartsBinding (c : Convention) (s : List Token) : Prop :=
  ∃ t more, s = t :: more ∧ t.kind = .command ∧ t.value = c.parametersCommand

/-- The tokens of a conformant file, and its header with the parameters bound. -/
inductive Conforms (c : Convention) : List Token → Header → Prop
  | plain {x rest : List Token} {h : Header} (hx : Declares c x h) (hnone : h.parameters = [])
      (hrest : ¬ StartsBinding c rest) : Conforms c (x ++ rest) h
  | binding {command gap l indent outdent : Token} {x y rest : List Token} {h : Header}
      {bound : List Parameter} (hx : Declares c x h) (hcommand : command.kind = .command)
      (hvalue : command.value = c.parametersCommand) (hgap : gap.kind = .space)
      (hl : l.kind = .leftBracket) (hindent : indent.kind = .indent)
      (hy : BindsAll c h.parameters y bound) (houtdent : outdent.kind = .outdent) :
      Conforms c (x ++ command :: gap :: l :: indent :: y ++ outdent :: rest)
        { h with parameters := bound }

/-- The tokens of a file that binds parameters, up to the one that closes its statement. -/
inductive Closes (c : Convention) : List Token → Header → Prop
  | binding {command gap l indent outdent : Token} {x y : List Token} {h : Header}
      {bound : List Parameter} (hx : Declares c x h) (hcommand : command.kind = .command)
      (hvalue : command.value = c.parametersCommand) (hgap : gap.kind = .space)
      (hl : l.kind = .leftBracket) (hindent : indent.kind = .indent)
      (hy : BindsAll c h.parameters y bound) (houtdent : outdent.kind = .outdent) :
      Closes c (x ++ command :: gap :: l :: indent :: y ++ [outdent]) { h with parameters := bound }

end SqfLayout.Layout
