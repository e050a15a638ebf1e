import TypedData.Document.Tree

/-!
# How tightly expressions bind

From loose to tight: `or`, `and`, `not`, the comparisons, `+` and `-`, then `*`, `/` and `%`, a sign, and
what needs no parentheses anywhere.  Operators of one strength group to the left.  A negative number
counts as a sign with its operand, so that no operator is read into it.
-/

namespace TypedData

namespace BinaryOp

/-- How tightly an operator binds. -/
def precedence : BinaryOp → Nat
  | or => 1
  | and => 2
  | eq | ne | lt | le | gt | ge => 4
  | add | sub => 5
  | mul | div | rem => 6

end BinaryOp

namespace Expr

/-- How tightly a logical negation binds. -/
def notPrecedence : Nat := 3

/-- How tightly a sign binds. -/
def negPrecedence : Nat := 7

/-- How tightly an expression binds that has no operator outside brackets. -/
def atomPrecedence : Nat := 8

/-- How tightly an expression binds. -/
def precedence : Expr → Nat
  | binary _ op _ _ => op.precedence
  | unary _ .not _ => notPrecedence
  | unary _ .neg _ => negPrecedence
  | int _ n => if n.val < 0 then negPrecedence else atomPrecedence
  | float _ x => if x.isNegative then negPrecedence else atomPrecedence
  | _ => atomPrecedence

/-- Whether the expression is a number. -/
def isNumber : Expr → Bool
  | int .. | float .. => true
  | _ => false

end Expr

end TypedData
