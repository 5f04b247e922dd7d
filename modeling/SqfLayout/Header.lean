import SqfLayout.Expression

/-! What the comment at the top of a file says. -/
namespace SqfLayout

/-- A parameter as the header declares it. The name of its variable and its value are known once the
binding statement was read. -/
structure Parameter where
  description : Text
  types : List Text
  documented : Text
  name? : Option Text
  value? : Option Expression
  deriving Repr

structure Header where
  authors : List Text
  description : List Text
  parameters : List Parameter
  deriving Repr

end SqfLayout
