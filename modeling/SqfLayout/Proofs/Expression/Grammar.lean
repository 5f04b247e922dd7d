import SqfLayout.Expression.Reader

/-! The grammar of expressions, as a relation between tokens and trees. It says nothing about the
order in which a reader looks at them. -/
namespace SqfLayout.Expression

/-- Code with as many closing as opening braces, each closing one behind its opening one. -/
inductive Balanced : List Token → Prop
  | nil : Balanced []
  | plain {t : Token} {x : List Token} (heos : t.kind ≠ .eos) (hopen : t.kind ≠ .leftBrace)
      (hclose : t.kind ≠ .rightBrace) (hx : Balanced x) : Balanced (t :: x)
  | block {l r : Token} {x y : List Token} (hl : l.kind = .leftBrace) (hx : Balanced x)
      (hr : r.kind = .rightBrace) (hy : Balanced y) : Balanced (l :: x ++ r :: y)

/-- Any number of blanks. -/
def Spaces (x : List Token) : Prop := ∀ t ∈ x, t.kind = .space

/-- What may stand between the items of an array. -/
def Filler (x : List Token) : Prop := ∀ t ∈ x, (t.kind = .space || t.kind.isLayout) = true

/-- What a stretch of tokens stands for. An array has its brackets; items are what stands between
them, without the filler before the first one. -/
inductive Form
  | expression (e : Expression)
  | operand (e : Expression)
  | array (items : List Expression)
  | items (items : List Expression)

/-- All binary operators bind alike and to the left. Parentheses leave no trace in the tree. -/
inductive Derives : Form → List Token → Prop
  | single {e : Expression} {x : List Token} (hx : Derives (.operand e) x) :
      Derives (.expression e) x
  | chain {left right : Expression} {op : Token} {x gap spaces y : List Token}
      (hx : Derives (.expression left) x) (hgap : Spaces gap) (hone : gap.length ≤ 1)
      (hop : op.kind = .operator) (hspaces : Spaces spaces) (hy : Derives (.operand right) y) :
      Derives (.expression (.binary left op.value right)) (x ++ gap ++ op :: spaces ++ y)
  | sign {t : Token} {e : Expression} {x : List Token} (ht : t.kind = .operator)
      (hsign : t.value = ['-'] ∨ t.value = ['+'] ∨ t.value = ['!']) (hx : Derives (.operand e) x) :
      Derives (.operand (.unary t.value e)) (t :: x)
  | number {t : Token} (ht : t.kind = .number) : Derives (.operand (.number t.value)) [t]
  | string {t : Token} (ht : t.kind = .string) : Derives (.operand (.string t.value)) [t]
  | command {t : Token} (ht : t.kind = .command) : Derives (.operand (.command t.value)) [t]
  | array {items : List Expression} {x : List Token} (hx : Derives (.array items) x) :
      Derives (.operand (.array items)) x
  | code {l r : Token} {body : List Token} (hl : l.kind = .leftBrace) (hbody : Balanced body)
      (hr : r.kind = .rightBrace) : Derives (.operand (.code body)) (l :: body ++ [r])
  | parens {l r : Token} {e : Expression} {before x after : List Token} (hl : l.kind = .leftParen)
      (hbefore : Spaces before) (hx : Derives (.expression e) x) (hafter : Spaces after)
      (hr : r.kind = .rightParen) : Derives (.operand e) (l :: before ++ x ++ after ++ [r])
  | empty {l r : Token} {filler : List Token} (hl : l.kind = .leftBracket) (hfiller : Filler filler)
      (hr : r.kind = .rightBracket) : Derives (.array []) (l :: filler ++ [r])
  | bracketed {l r : Token} {items : List Expression} {filler x : List Token}
      (hl : l.kind = .leftBracket) (hfiller : Filler filler) (hx : Derives (.items items) x)
      (hr : r.kind = .rightBracket) : Derives (.array items) (l :: filler ++ x ++ [r])
  | last {e : Expression} {x filler : List Token} (hx : Derives (.expression e) x)
      (hfiller : Filler filler) : Derives (.items [e]) (x ++ filler)
  | more {e : Expression} {es : List Expression} {sep : Token} {x filler filler' y : List Token}
      (hx : Derives (.expression e) x) (hfiller : Filler filler) (hsep : sep.kind = .comma)
      (hfiller' : Filler filler') (hy : Derives (.items es) y) :
      Derives (.items (e :: es)) (x ++ filler ++ sep :: filler' ++ y)

/-- Tokens after an expression that make it longer: an operator, with one blank before it or
none. -/
def Continues (rest : List Token) : Prop :=
  (∃ t more, rest = t :: more ∧ t.kind = .operator) ∨
    ∃ s t more, rest = s :: t :: more ∧ s.kind = .space ∧ t.kind = .operator

/-- The kinds of token that an operand without signs starts with. -/
def starts : List Token.Kind := [.number, .string, .command, .leftBracket, .leftBrace, .leftParen]

/-- The kinds of token that an expression starts with. -/
def openings : List Token.Kind := .operator :: starts

/-- The kinds of token that an expression ends with. -/
def endings : List Token.Kind :=
  [.number, .string, .command, .rightBracket, .rightBrace, .rightParen]

theorem Derives.exists_cons {form : Form} {x : List Token} (h : Derives form x) :
    ∃ t more, x = t :: more ∧ t.kind ∈ openings := by
  induction h with
  | single _ ih => exact ih
  | chain _ _ _ _ _ _ ih =>
    obtain ⟨t, more, rfl, ht⟩ := ih
    exact ⟨t, _, rfl, ht⟩
  | sign ht => exact ⟨_, _, rfl, by simp [openings, starts, ht]⟩
  | number ht => exact ⟨_, _, rfl, by simp [openings, starts, ht]⟩
  | string ht => exact ⟨_, _, rfl, by simp [openings, starts, ht]⟩
  | command ht => exact ⟨_, _, rfl, by simp [openings, starts, ht]⟩
  | array _ ih => exact ih
  | code hl => exact ⟨_, _, rfl, by simp [openings, starts, hl]⟩
  | parens hl => exact ⟨_, _, rfl, by simp [openings, starts, hl]⟩
  | empty hl => exact ⟨_, _, rfl, by simp [openings, starts, hl]⟩
  | bracketed hl => exact ⟨_, _, rfl, by simp [openings, starts, hl]⟩
  | last _ _ ih =>
    obtain ⟨t, more, rfl, ht⟩ := ih
    exact ⟨t, _, rfl, ht⟩
  | more _ _ _ _ _ ih =>
    obtain ⟨t, more, rfl, ht⟩ := ih
    exact ⟨t, _, rfl, ht⟩

end SqfLayout.Expression
