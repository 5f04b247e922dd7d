import SqfLayout.Expression
import SqfLayout.TokenReader

/-! Reading expressions. All binary operators bind alike and to the left. -/
namespace SqfLayout

/-- What reading comes to: a value with fewer tokens left than the bound, or a violation and the
tokens left where it was met. -/
inductive Reading (α : Type) (bound : Nat)
  | done (value : α) (rest : List Token) (shorter : rest.length < bound)
  | failed (violation : Violation) (rest : List Token)

namespace Reading

variable {α β : Type} {m n : Nat}

/-- The same reading under a larger bound, with its value changed. -/
def map (f : α → β) (h : m ≤ n) : Reading α m → Reading β n
  | done a rest shorter => done (f a) rest (Nat.lt_of_lt_of_le shorter h)
  | failed v rest => failed v rest

/-- Forgets the bound. -/
def result : Reading α n → EStateM.Result Violation (List Token) α
  | done a rest _ => .ok a rest
  | failed v rest => .error v rest

end Reading

namespace Expression
open TokenReader

/-- An operator that may stand before its operand. -/
def isSign (t : Token) : Bool :=
  t.kind = .operator && (t.value = ['-'] || t.value = ['+'] || t.value = ['!'])

/-- The operator that goes on with an expression, and what follows it. It may have one space token
before it and any number behind it. -/
def operator? : List Token → Option (Token × List Token)
  | [] => none
  | t :: rest =>
    if t.kind = .operator then some (t, skipSpaces rest)
    else if t.kind = .space then
      match rest with
      | [] => none
      | u :: rest => if u.kind = .operator then some (u, skipSpaces rest) else none
    else none

theorem length_of_operator? {s rest : List Token} {t : Token} (h : operator? s = some (t, rest)) :
    rest.length < s.length := by
  unfold operator? at h
  split at h
  · cases h
  · split at h
    · cases h
      exact Nat.lt_succ_of_le (length_skipSpaces_le _)
    · split at h
      · split at h
        · cases h
        · split at h
          · cases h
            have := length_skipSpaces_le (by assumption)
            simp only [List.length_cons]
            omega
          · cases h
      · cases h

/-- The tokens of a code block up to its closing brace, and what follows the brace. `depth` counts
the braces that are open inside it. -/
def codeBody (depth : Nat) : List Token → Option (List Token × List Token)
  | [] => none
  | t :: rest =>
    if t.kind = .eos then none
    else if t.kind = .leftBrace then (codeBody (depth + 1) rest).map fun r => (t :: r.1, r.2)
    else if t.kind = .rightBrace then
      match depth with
      | 0 => some ([], rest)
      | depth + 1 => (codeBody depth rest).map fun r => (t :: r.1, r.2)
    else (codeBody depth rest).map fun r => (t :: r.1, r.2)

theorem length_of_codeBody {depth : Nat} {s body rest : List Token}
    (h : codeBody depth s = some (body, rest)) : rest.length < s.length := by
  fun_induction codeBody depth s generalizing body rest with
  | case1 => cases h
  | case2 => cases h
  | case3 depth t more _ _ ih =>
    obtain ⟨⟨body', rest'⟩, hr, he⟩ := Option.map_eq_some_iff.1 h
    cases he
    exact Nat.lt_succ_of_lt (ih hr)
  | case4 => cases h; exact Nat.lt_succ_self _
  | case5 t more _ _ _ depth ih =>
    obtain ⟨⟨body', rest'⟩, hr, he⟩ := Option.map_eq_some_iff.1 h
    cases he
    exact Nat.lt_succ_of_lt (ih hr)
  | case6 depth t more _ _ _ ih =>
    obtain ⟨⟨body', rest'⟩, hr, he⟩ := Option.map_eq_some_iff.1 h
    cases he
    exact Nat.lt_succ_of_lt (ih hr)

/-- The code block that `brace` opens. An unclosed block is blamed on its brace, and reading stops
at the end of the stream. -/
def readCode (brace : Token) (s : List Token) : Reading Expression s.length :=
  match h : codeBody 0 s with
  | some (body, rest) => .done (.code body) rest (length_of_codeBody h)
  | none => .failed ⟨.unclosedCode, brace.position⟩ (s.dropWhile (·.kind ≠ .eos))

mutual

/-- An operand, and the operators and operands that go on with it. -/
def readFrom (s : List Token) : Reading Expression s.length :=
  match operandFrom s with
  | .failed v rest => .failed v rest
  | .done left rest shorter => (chainFrom left rest).map id shorter
termination_by (s.length, 2)

/-- The operators and operands after a left operand. -/
def chainFrom (left : Expression) (s : List Token) : Reading Expression (s.length + 1) :=
  match h : operator? s with
  | none => .done left s (Nat.lt_succ_self _)
  | some (t, rest) =>
    have := length_of_operator? h
    match operandFrom rest with
    | .failed v rest => .failed v rest
    | .done right rest shorter =>
      (chainFrom (.binary left t.value right) rest).map id (by omega)
termination_by (s.length, 0)

/-- A literal, an array, a code block or an expression in parentheses, behind any number of
signs. -/
def operandFrom (s : List Token) : Reading Expression s.length :=
  match s with
  | [] => .failed (violationAt (.noExpression (next s).kind) s) s
  | t :: rest =>
    if isSign t then (operandFrom rest).map (.unary t.value) (Nat.le_succ _)
    else match t.kind with
      | .number => .done (.number t.value) rest (Nat.lt_succ_self _)
      | .string => .done (.string t.value) rest (Nat.lt_succ_self _)
      | .command => .done (.command t.value) rest (Nat.lt_succ_self _)
      | .leftBracket => (arrayFrom rest).map .array (Nat.le_refl _)
      | .leftBrace => (readCode t rest).map id (Nat.le_succ _)
      | .leftParen =>
        have := length_skipSpaces_le rest
        match readFrom (skipSpaces rest) with
        | .failed v rest => .failed v rest
        | .done inner rest' shorter =>
          match h : skipSpaces rest' with
          | [] => .failed (violationAt (.mismatch .rightParen (next []) none) []) []
          | u :: rest'' =>
            if u.kind = .rightParen then
              have : rest''.length + 1 ≤ rest'.length := by
                have := length_skipSpaces_le rest'
                rwa [h] at this
              .done inner rest'' (by simp only [List.length_cons] at *; omega)
            else .failed (violationAt (.mismatch .rightParen u none) (u :: rest'')) (u :: rest'')
      | kind => .failed (violationAt (.noExpression kind) (t :: rest)) (t :: rest)
termination_by (s.length, 1)

/-- The items of an array after its bracket. -/
def arrayFrom (s : List Token) : Reading (List Expression) (s.length + 1) :=
  match h : skipLayout s with
  | [] => .failed (violationAt (.noExpression (next []).kind) []) []
  | t :: rest =>
    have : rest.length + 1 ≤ s.length := by have := length_skipLayout_le s; rwa [h] at this
    if t.kind = .rightBracket then .done [] rest (Nat.lt_succ_of_lt this)
    else (itemsFrom (t :: rest)).map id (Nat.le_succ_of_le this)
termination_by (s.length + 1, 0)

/-- One item of an array or more, up to the closing bracket. A separator must be followed by
another item. -/
def itemsFrom (s : List Token) : Reading (List Expression) s.length :=
  match readFrom s with
  | .failed v rest => .failed v rest
  | .done item rest shorter =>
    match h : skipLayout rest with
    | [] => .failed (violationAt .noSeparator []) []
    | t :: rest' =>
      have : rest'.length + 1 < s.length := by
        have := length_skipLayout_le rest
        rw [h] at this
        exact Nat.lt_of_le_of_lt this shorter
      have := length_skipLayout_le rest'
      if t.kind = .comma then
        (itemsFrom (skipLayout rest')).map (item :: ·) (by omega)
      else if t.kind = .rightBracket then .done [item] rest' (Nat.lt_of_succ_lt ‹_›)
      else .failed (violationAt .noSeparator (t :: rest')) (t :: rest')
termination_by (s.length, 3)

end

/-- Reads one expression: the longest that starts with the next token. -/
def read : TokenReader Expression := fun s => (readFrom s).result

/-- Reads the rest of an array whose bracket was taken. -/
def readItems : TokenReader Expression := fun s => ((arrayFrom s).map .array (Nat.le_refl _)).result

/-- Reads one array. -/
def readArray : TokenReader Expression := do
  let _ ← need .leftBracket
  readItems

end Expression
end SqfLayout
