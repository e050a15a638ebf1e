import TypedData.Document.Parser.Basic
import TypedData.Document.Tree

/-!
# Parsing types and expressions

Types and expressions are nested at most `maxNesting` deep; the argument `levels` of a parser is the
number of levels that are left.  An operator does not open a level in the text, but it does in the
tree, so each operator of a chain takes a level as well.

The parser has powers of its own for how tightly operators bind (`BinaryOp.powers`), with one for either
side: an operator takes what stands before it if the power on its left is at least that which is demanded
there, and demands the power on its right of what stands after it.
-/

namespace TypedData

/-- How tightly an operator binds on its left and on its right. -/
def BinaryOp.powers : BinaryOp → Nat × Nat
  | or => (1, 2)
  | and => (3, 4)
  | eq | ne | lt | le | gt | ge => (7, 8)
  | add | sub => (9, 10)
  | mul | div | rem => (11, 12)

namespace Parser

/-! ## Types -/

/-- A type in parentheses. -/
def groupedType (type : Parser TypeExpr) : Parser TypeExpr := do
  expect (.mark .leftParen)
  skipNewlines
  let inner ← type
  skipNewlines
  expect (.mark .rightParen)
  return inner

/-- An argument of a type: a name, or a type in parentheses. -/
def typeArgument (type : Parser TypeExpr) : Parser TypeExpr := do
  match ← kind with
  | .name text =>
    let span := (← get).current.span
    advance
    return .named span text []
  | _ => groupedType type

/-- Whether another argument of a type follows. -/
def moreTypeArguments : Parser Bool := do
  match ← kind with
  | .name _ | .mark .leftParen => return true
  | _ => return false

/-- A type whose parts are read by `type`. -/
def typeForm (type : Parser TypeExpr) : Parser TypeExpr := do
  let start ← start
  match ← kind with
  | .keyword .optional =>
    advance
    let inner ← type
    return .optional (← spanFrom start) inner
  | .keyword .list =>
    advance
    let inner ← type
    return .list (← spanFrom start) inner
  | .mark .leftParen => groupedType type
  | .name text =>
    advance
    let args ← rounds moreTypeArguments (typeArgument type)
    return .named (← spanFrom start) text args
  | _ => failExpecting .type

/-- A type nested at most `levels` deep. -/
def typeWithin : (levels : Nat) → Parser TypeExpr
  | 0 => failTooDeep
  | levels + 1 => typeForm (typeWithin levels)

/-- A type. -/
def type : Parser TypeExpr := typeWithin maxNesting

/-! ## Expressions -/

/-- The binary operator that a token is. -/
def binaryOp? : TokenKind → Option BinaryOp
  | .keyword .or => some .or
  | .keyword .and => some .and
  | .mark .equal => some .eq
  | .mark .notEqual => some .ne
  | .mark .less => some .lt
  | .mark .lessEqual => some .le
  | .mark .greater => some .gt
  | .mark .greaterEqual => some .ge
  | .mark .plus => some .add
  | .mark .minus => some .sub
  | .mark .star => some .mul
  | .mark .slash => some .div
  | .mark .percent => some .rem
  | _ => none

/-- The power that a logical negation demands of its operand. -/
def notPower : Nat := 5

/-- The power that a sign demands of its operand. -/
def negPower : Nat := 13

/-- How tightly a field binds on its left. -/
def fieldPower : Nat := 15

/-- What continues an expression. -/
inductive Continuation where
  | field
  | binary (op : BinaryOp)

/-- What continues an expression here, where at least the power `least` is demanded. -/
def continuation? (least : Nat) : Parser (Option Continuation) := do
  match ← kind with
  | .mark .dot => return if least ≤ fieldPower then some .field else none
  | kind =>
    match binaryOp? kind with
    | some op => return if least ≤ op.powers.1 then some (.binary op) else none
    | none => return none

/-- Opens a group. -/
def openGroup : Parser Unit := modify fun c => { c with groups := c.groups + 1 }

/-- Closes a group. -/
def closeGroup : Parser Unit := modify fun c => { c with groups := c.groups - 1 }

/-- An argument of a call, perhaps with its name. -/
def callArgument (operand : Parser Expr) : Parser (Argument Expr) := do
  let name ← acceptLabel
  return ⟨name, ← operand⟩

/-- The arguments of a call, in parentheses. -/
def callArguments (operand : Parser Expr) : Parser (List (Argument Expr)) := do
  expect (.mark .leftParen)
  openGroup
  let args ← separatedUntil .rightParen (callArgument operand)
  closeGroup
  return args

/-- An expression without binary operators and fields.  Its parts, of which at least the power `least` is
demanded, are read by `operand least`. -/
def primary (operand : (least : Nat) → Parser Expr) : Parser Expr := do
  let start ← start
  match ← kind with
  | .int n =>
    advance
    return .int (← spanFrom start) n
  | .float x =>
    advance
    return .float (← spanFrom start) x
  | .string template =>
    advance
    return .str (← spanFrom start) template.text
  | .keyword .true =>
    advance
    return .bool (← spanFrom start) true
  | .keyword .false =>
    advance
    return .bool (← spanFrom start) false
  | .keyword .null =>
    advance
    return .null (← spanFrom start)
  | .name text =>
    advance
    if ← isAt (.mark .leftParen) then
      let args ← callArguments (operand 0)
      return .call (← spanFrom start) text args
    else return .name (← spanFrom start) text
  | .mark .leftParen =>
    advance
    openGroup
    let inner ← operand 0
    skipNewlinesInGroup
    expect (.mark .rightParen)
    closeGroup
    return inner
  | .mark .leftBracket =>
    advance
    openGroup
    let items ← separatedUntil .rightBracket (operand 0)
    closeGroup
    return .list (← spanFrom start) items
  | .keyword .not =>
    advance
    let inner ← operand notPower
    return .unary (← spanFrom start) .not inner
  | .mark .minus =>
    advance
    let inner ← operand negPower
    return .unary (← spanFrom start) .neg inner
  | _ => failExpecting .expression

mutual

/-- An expression nested at most `levels` deep, of which at least the power `least` is demanded. -/
def exprWithin : (levels least : Nat) → Parser Expr
  | 0, _ => failTooDeep
  | levels + 1, least => do
    skipNewlinesInGroup
    let first ← primary (exprWithin levels)
    chainWithin levels least first

/-- What follows an operand: fields and binary operators, each of which takes a level. -/
def chainWithin : (levels least : Nat) → (lhs : Expr) → Parser Expr
  | 0, least, lhs => do
    match ← continuation? least with
    | none => return lhs
    | some _ => failTooDeep
  | levels + 1, least, lhs => do
    match ← continuation? least with
    | none => return lhs
    | some .field =>
      advance
      let name ← expectName .fieldName
      chainWithin levels least (.field (← spanFrom lhs.span.start) lhs name)
    | some (.binary op) =>
      advance
      let rhs ← exprWithin levels op.powers.2
      chainWithin levels least (.binary (lhs.span.through rhs.span) op lhs rhs)

end

/-- An expression. -/
def expr : Parser Expr := exprWithin maxNesting 0

end Parser

end TypedData
