import SqfLayout.Proofs.Expression.Reading

/-! Expressions written out again, and the tokens that they were read from. -/
namespace SqfLayout.Expression
open TokenReader

/-- A token as far as the tree keeps it. Brackets, braces and commas have no text of their own; in a
code block every token is kept whole. -/
inductive Mark
  | sign (kind : Token.Kind)
  | word (kind : Token.Kind) (text : Text)
  | kept (token : Token)

mutual

/-- The tree from left to right. -/
def marks : Expression → List Mark
  | .number text => [.word .number text]
  | .string text => [.word .string text]
  | .command name => [.word .command name]
  | .array items => .sign .leftBracket :: itemMarks items ++ [.sign .rightBracket]
  | .code body => .sign .leftBrace :: body.map .kept ++ [.sign .rightBrace]
  | .unary operator operand => .word .operator operator :: marks operand
  | .binary left operator right => marks left ++ .word .operator operator :: marks right

def itemMarks : List Expression → List Mark
  | [] => []
  | [e] => marks e
  | e :: e' :: more => marks e ++ .sign .comma :: itemMarks (e' :: more)

end

/-- Kinds that leave nothing in a tree: grouping and layout. -/
def isDropped (kind : Token.Kind) : Bool :=
  kind = .space || kind.isLayout || kind = .leftParen || kind = .rightParen

/-- Kinds whose text is not kept. -/
def isBare (kind : Token.Kind) : Bool :=
  kind = .leftBracket || kind = .rightBracket || kind = .comma

/-- The marks of tokens, without grouping and layout outside code blocks. `depth` counts the braces
that are open. -/
def tokenMarks : Nat → List Token → List Mark
  | _, [] => []
  | 0, t :: rest =>
    if t.kind = .leftBrace then .sign .leftBrace :: tokenMarks 1 rest
    else if isDropped t.kind then tokenMarks 0 rest
    else (if isBare t.kind then .sign t.kind else .word t.kind t.value) :: tokenMarks 0 rest
  | depth + 1, t :: rest =>
    if t.kind = .leftBrace then .kept t :: tokenMarks (depth + 2) rest
    else if t.kind = .rightBrace then
      (if depth = 0 then .sign .rightBrace else .kept t) :: tokenMarks depth rest
    else .kept t :: tokenMarks (depth + 1) rest

theorem itemMarks_cons (e : Expression) {es : List Expression} (h : es ≠ []) :
    itemMarks (e :: es) = marks e ++ .sign .comma :: itemMarks es := by
  cases es with
  | nil => exact absurd rfl h
  | cons e' more => rw [itemMarks]

private theorem tokenMarks_dropped {t : Token} (h : isDropped t.kind = true) (rest : List Token) :
    tokenMarks 0 (t :: rest) = tokenMarks 0 rest := by
  have hne : t.kind ≠ .leftBrace := by
    intro hk
    simp [isDropped, hk, Token.Kind.isLayout] at h
  rw [tokenMarks, if_neg hne, if_pos h]

private theorem tokenMarks_bare {t : Token} (h : isBare t.kind = true) (rest : List Token) :
    tokenMarks 0 (t :: rest) = .sign t.kind :: tokenMarks 0 rest := by
  have hne : t.kind ≠ .leftBrace := by
    intro hk
    simp [isBare, hk] at h
  have hkept : ¬ isDropped t.kind = true := by
    revert h
    cases t.kind <;> simp [isBare, isDropped, Token.Kind.isLayout]
  rw [tokenMarks, if_neg hne, if_neg hkept, if_pos h]

private theorem tokenMarks_word {t : Token} (h : t.kind = .operator ∨ t.kind = .number ∨
    t.kind = .string ∨ t.kind = .command) (rest : List Token) :
    tokenMarks 0 (t :: rest) = .word t.kind t.value :: tokenMarks 0 rest := by
  rcases h with h | h | h | h <;> simp [tokenMarks, h, isBare, isDropped, Token.Kind.isLayout]

private theorem tokenMarks_filler {x : List Token} (hx : Filler x) (rest : List Token) :
    tokenMarks 0 (x ++ rest) = tokenMarks 0 rest := by
  induction x with
  | nil => rfl
  | cons t x ih =>
    have ht : isDropped t.kind = true := by
      have := hx t List.mem_cons_self
      simp [isDropped, this]
    rw [List.cons_append, tokenMarks_dropped ht]
    exact ih fun u hu => hx u (List.mem_cons_of_mem _ hu)

private theorem tokenMarks_balanced {x : List Token} (hx : Balanced x) (depth : Nat)
    (rest : List Token) :
    tokenMarks (depth + 1) (x ++ rest) = x.map .kept ++ tokenMarks (depth + 1) rest := by
  induction hx generalizing depth rest with
  | nil => rfl
  | plain _ hopen hclose _ ih =>
    rw [List.cons_append, tokenMarks, if_neg hopen, if_neg hclose, ih]
    rfl
  | @block l r x y hl _ hr _ ihx ihy =>
    rw [List.append_assoc, List.cons_append, tokenMarks, if_pos hl, ihx, List.cons_append,
      tokenMarks, if_neg (by simp [hr]), if_pos hr, if_neg (Nat.succ_ne_zero depth), ihy]
    simp

def Form.marks : Form → List Mark
  | .expression e => e.marks
  | .operand e => e.marks
  | .array es => (Expression.array es).marks
  | .items es => itemMarks es

/-- Nothing but grouping and layout is lost on the way into the tree. -/
theorem tokenMarks_of_derives {form : Form} {x : List Token} (h : Derives form x)
    (rest : List Token) : tokenMarks 0 (x ++ rest) = form.marks ++ tokenMarks 0 rest := by
  induction h generalizing rest with
  | single _ ih => exact ih rest
  | @chain left right op x gap spaces y _ hgap _ hop hspaces _ ihx ihy =>
    have hs : x ++ gap ++ op :: spaces ++ y ++ rest = x ++ (gap ++ op :: (spaces ++ (y ++ rest))) := by
      simp
    rw [hs, ihx, tokenMarks_filler hgap.filler, tokenMarks_word (.inl hop),
      tokenMarks_filler hspaces.filler, ihy, hop]
    simp [Form.marks, Expression.marks]
  | sign ht _ _ ih =>
    rw [List.cons_append, tokenMarks_word (.inl ht), ih, ht]
    simp [Form.marks, Expression.marks]
  | number ht =>
    rw [List.singleton_append, tokenMarks_word (.inr (.inl ht)), ht]
    simp [Form.marks, Expression.marks]
  | string ht =>
    rw [List.singleton_append, tokenMarks_word (.inr (.inr (.inl ht))), ht]
    simp [Form.marks, Expression.marks]
  | command ht =>
    rw [List.singleton_append, tokenMarks_word (.inr (.inr (.inr ht))), ht]
    simp [Form.marks, Expression.marks]
  | array _ ih => exact ih rest
  | @code l r body hl hbody hr =>
    have hs : l :: body ++ [r] ++ rest = l :: (body ++ r :: rest) := by simp
    rw [hs, tokenMarks, if_pos hl, tokenMarks_balanced hbody, tokenMarks, if_neg (by simp [hr]),
      if_pos hr, if_pos rfl]
    simp [Form.marks, Expression.marks]
  | @parens l r e before x after hl hbefore _ hafter hr ih =>
    have hs : l :: before ++ x ++ after ++ [r] ++ rest =
        l :: (before ++ (x ++ (after ++ r :: rest))) := by simp
    rw [hs, tokenMarks_dropped (by simp [isDropped, hl]), tokenMarks_filler hbefore.filler, ih,
      tokenMarks_filler hafter.filler, tokenMarks_dropped (by simp [isDropped, hr])]
    rfl
  | @empty l r filler hl hfiller hr =>
    have hs : l :: filler ++ [r] ++ rest = l :: (filler ++ r :: rest) := by simp
    rw [hs, tokenMarks_bare (by simp [isBare, hl]), tokenMarks_filler hfiller,
      tokenMarks_bare (by simp [isBare, hr]), hl, hr]
    simp [Form.marks, Expression.marks, itemMarks]
  | @bracketed l r items filler x hl hfiller _ hr ih =>
    have hs : l :: filler ++ x ++ [r] ++ rest = l :: (filler ++ (x ++ r :: rest)) := by simp
    rw [hs, tokenMarks_bare (by simp [isBare, hl]), tokenMarks_filler hfiller, ih,
      tokenMarks_bare (by simp [isBare, hr]), hl, hr]
    simp [Form.marks, Expression.marks]
  | last _ hfiller ih =>
    rw [List.append_assoc, ih, tokenMarks_filler hfiller]
    simp [Form.marks, itemMarks]
  | @more e es sep x filler filler' y _ hfiller hsep hfiller' hy ihx ihy =>
    have hs : x ++ filler ++ sep :: filler' ++ y ++ rest =
        x ++ (filler ++ sep :: (filler' ++ (y ++ rest))) := by simp
    have hne : es ≠ [] := by
      rintro rfl
      cases hy
    rw [hs, ihx, tokenMarks_filler hfiller, tokenMarks_bare (by simp [isBare, hsep]),
      tokenMarks_filler hfiller', ihy, hsep]
    simp [Form.marks, itemMarks_cons e hne]

/-- A split of tokens into an expression and what does not make it longer. -/
def Splits (s x : List Token) (e : Expression) (rest : List Token) : Prop :=
  Derives (.expression e) x ∧ ¬ Continues rest ∧ s = x ++ rest

/-- The reader succeeds exactly where the tokens split, and stops at the split. There is one split
at most, and its expression written out again gives the tokens that were read, but for grouping
and layout. -/
theorem read_ok_iff_splits (s : List Token) :
    (∀ e rest, read s = .ok e rest ↔ ∃ x, Splits s x e rest) ∧
    (∀ x y e f rest more, Splits s x e rest → Splits s y f more → x = y ∧ e = f ∧ rest = more) ∧
    (∀ x e rest, Splits s x e rest → tokenMarks 0 x = e.marks) := by
  refine ⟨fun e rest => read_eq_ok_iff, ?_, ?_⟩
  · intro x y e f rest more hx hy
    have hread := read_eq_ok_iff.2 ⟨x, hx⟩
    rw [read_eq_ok_iff.2 ⟨y, hy⟩] at hread
    cases hread
    have heq : x ++ rest = y ++ rest := hx.2.2.symm.trans hy.2.2
    exact ⟨List.append_cancel_right heq, rfl, rfl⟩
  · intro x e rest hx
    have h := tokenMarks_of_derives hx.1 []
    simpa [Form.marks, tokenMarks] using h

end SqfLayout.Expression
