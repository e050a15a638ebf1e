import TypedData.Condition.Function

/-!
# Evaluating conditions

An expression is evaluated in an environment, which knows the values of names and follows references.
A name without a value, or with the value null, is **missing**, and so is a field of it.

* An operator or function with a missing operand is missing; what stands to the right of the operand
  in a list or call is not evaluated.
* `and` and `or` drop a missing side; only if both sides are missing is the result missing.  They
  do not evaluate the right side when the left decides.
* A condition that is missing as a whole holds.
-/

namespace TypedData

/-- What an expression can see. -/
structure Environment where
  /-- The value of a name. -/
  lookup : String → Option Operand
  /-- What a reference leads to. -/
  follow : Reference → Except EvalProblem Operand

namespace Environment

/-- An environment without bindings: references lead nowhere. -/
def ofLookup (lookup : String → Option Operand) : Environment :=
  ⟨lookup, fun reference => .error (.unavailable reference.name)⟩

end Environment

/-- Adds a place to a problem. -/
def locate {α : Type} (span : Span) : Except EvalProblem α → Except EvalFault α
  | .ok a => .ok a
  | .error problem => .error ⟨problem, span⟩

/-! ## Operators -/

/-- Applies an operator before an operand. -/
def UnaryOp.apply (op : UnaryOp) (v : Operand) : Except EvalProblem Operand :=
  match op, v with
  | _, .missing => .ok .missing
  | .not, .bool b => .ok (.bool !b)
  | .neg, .int n => Operand.ofInteger? n.neg?
  | .neg, .float x => .ok (.float x.neg)
  | .not, v => .error (.unaryType "not" v.kind)
  | .neg, v => .error (.unaryType "-" v.kind)

namespace BinaryOp

/-- The problem that an operator cannot be applied to two operands. -/
def typeProblem (op : BinaryOp) (a b : Operand) : Except EvalProblem Operand :=
  .error (.binaryType op.symbol a.kind b.kind)

/-- Applies an operation on floats to two numbers. -/
def onNumbers (op : BinaryOp) (f : Double → Double → Double) (a b : Operand) :
    Except EvalProblem Operand :=
  match a.number?, b.number? with
  | some x, some y => .ok (.float (f x y))
  | _, _ => op.typeProblem a b

/-- Applies a division of floats to two numbers. -/
def onDivisor (op : BinaryOp) (f : Double → Double → Double) (a b : Operand) :
    Except EvalProblem Operand :=
  match a.number?, b.number? with
  | some x, some y => if y.isZero then .error .divisionByZero else .ok (.float (f x y))
  | _, _ => op.typeProblem a b

/-- Applies a comparison of order. -/
def onOrder (op : BinaryOp) (holds : Ordering → Bool) (a b : Operand) :
    Except EvalProblem Operand :=
  match a.compare? b with
  | some ordering => .ok (.bool (holds ordering))
  | none => op.typeProblem a b

/-- Applies an operator to two operands that are not missing.  Division always gives a float. -/
def applyPresent (op : BinaryOp) (a b : Operand) : Except EvalProblem Operand :=
  match op with
  | eq => .ok (.bool (a.equal b))
  | ne => .ok (.bool !(a.equal b))
  | lt => op.onOrder Ordering.isLT a b
  | le => op.onOrder Ordering.isLE a b
  | gt => op.onOrder Ordering.isGT a b
  | ge => op.onOrder Ordering.isGE a b
  | add =>
    match a, b with
    | .int m, .int n => Operand.ofInteger? (m.add? n)
    | .str s, .str t => .ok (.str (s ++ t))
    | .list as, .list bs => .ok (.list (as ++ bs))
    | a, b => op.onNumbers Double.add a b
  | sub =>
    match a, b with
    | .int m, .int n => Operand.ofInteger? (m.sub? n)
    | a, b => op.onNumbers Double.sub a b
  | mul =>
    match a, b with
    | .int m, .int n => Operand.ofInteger? (m.mul? n)
    | a, b => op.onNumbers Double.mul a b
  | div => op.onDivisor Double.div a b
  | rem =>
    match a, b with
    | .int m, .int n =>
      if n.val = 0 then .error .divisionByZero else Operand.ofInteger? (m.rem? n)
    | a, b => op.onDivisor Double.rem a b
  | or | and => op.typeProblem a b

/-- Applies an operator to two operands. -/
def apply (op : BinaryOp) (a b : Operand) : Except EvalProblem Operand :=
  match a, b with
  | .missing, _ | _, .missing => .ok .missing
  | a, b => op.applyPresent a b

end BinaryOp

/-! ## Expressions -/

namespace Environment

/-- What a name or a field gives: null is missing, and a reference gives what it leads to. -/
def settle (env : Environment) (v : Operand) : Except EvalProblem Operand :=
  match v with
  | .null => .ok .missing
  | .ref reference =>
    match env.follow reference with
    | .error problem => .error problem
    | .ok .null => .ok .missing
    | .ok v => .ok v
  | v => .ok v

/-- The field of an operand. -/
def fieldOf (env : Environment) (name : String) : Operand → Except EvalProblem Operand
  | .missing | .null => .ok .missing
  | .record _ fields => env.settle ((Field.find? name fields).getD .missing)
  | v => .error (.notARecord v.kind)

end Environment

/-- The truth value of a side of `and` or `or`; `none` where the side is missing. -/
def logicSide (symbol : String) : Operand → Except EvalProblem (Option Bool)
  | .bool b => .ok (some b)
  | .missing => .ok none
  | v => .error (.unaryType symbol v.kind)

/-- The result of `and` or `or` when the left side has not decided it. -/
def logicResult : (left right : Option Bool) → Operand
  | _, some b => .bool b
  | some b, none => .bool b
  | none, none => .missing

namespace Expr

mutual

/-- Evaluates an expression. -/
def eval (env : Environment) : Expr → Except EvalFault Operand
  | int _ n => .ok (.int n)
  | float _ x => .ok (.float x)
  | str _ text => .ok (.str text)
  | bool _ b => .ok (.bool b)
  | null _ => .ok .null
  | name span n => locate span (env.settle ((env.lookup n).getD .missing))
  | list _ items => do
    match ← evalItems env items with
    | some values => return .list values
    | none => return .missing
  | field span base n => do
    let v ← base.eval env
    locate span (env.fieldOf n v)
  | call span callee args => do
    if args.any (·.name.isSome) then throw ⟨.namedArgument callee, span⟩
    match ← evalArguments env args with
    | some values => locate span (applyFunction callee values)
    | none => return .missing
  | unary span op operand => do
    let v ← operand.eval env
    locate span (op.apply v)
  | binary _ .and lhs rhs => do
    match ← locate lhs.span (logicSide "and" (← lhs.eval env)) with
    | some false => return .bool false
    | left =>
      let right ← locate rhs.span (logicSide "and" (← rhs.eval env))
      return logicResult left right
  | binary _ .or lhs rhs => do
    match ← locate lhs.span (logicSide "or" (← lhs.eval env)) with
    | some true => return .bool true
    | left =>
      let right ← locate rhs.span (logicSide "or" (← rhs.eval env))
      return logicResult left right
  | binary span op lhs rhs => do
    let a ← lhs.eval env
    let b ← rhs.eval env
    locate span (op.apply a b)

/-- Evaluates the items of a list, up to the first missing one; `none` if there is one. -/
def evalItems (env : Environment) : List Expr → Except EvalFault (Option (List Operand))
  | [] => .ok (some [])
  | e :: es => do
    match ← e.eval env with
    | .missing => return none
    | v => return (← evalItems env es).map (v :: ·)

/-- Evaluates the arguments of a call, up to the first missing one; `none` if there is one. -/
def evalArguments (env : Environment) :
    List (Argument Expr) → Except EvalFault (Option (List Operand))
  | [] => .ok (some [])
  | ⟨_, e⟩ :: args => do
    match ← e.eval env with
    | .missing => return none
    | v => return (← evalArguments env args).map (v :: ·)

end

/-- Whether a condition holds.  A missing condition does. -/
def check (env : Environment) (e : Expr) : Except EvalFault Bool := do
  match ← e.eval env with
  | .bool b => return b
  | .missing => return true
  | v => throw ⟨.notBoolean v.print, e.span⟩

end Expr

end TypedData
