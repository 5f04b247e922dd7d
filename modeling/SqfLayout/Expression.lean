import SqfLayout.Token

/-! Expressions as they stand for default values. -/
namespace SqfLayout

/-- Literals keep their source text. A code block keeps its tokens: nothing looks into it.
Parentheses leave no trace. -/
inductive Expression
  | number (text : Text)
  | string (text : Text)
  | command (name : Text)
  | array (items : List Expression)
  | code (body : List Token)
  | unary (operator : Text) (operand : Expression)
  | binary (left : Expression) (operator : Text) (right : Expression)
  deriving Repr

end SqfLayout
