import Mathlib.Data.List.Forall2
import TypedData.Proofs.Condition.Missing

/-!
# Operations on values

Where all operands of an operator have values, it is applied to them.  So is a function whose arguments have values
and no names, unless one of them is missing.
-/

namespace TypedData

/-- An environment in which no name has a value. -/
def Environment.bare : Environment := .ofLookup fun _ => none

/-- An operation on two values that are there is applied to them. -/
theorem BinaryOp.apply_of_present {op : BinaryOp} {a b : Operand} (ha : a ≠ .missing) (hb : b ≠ .missing) :
    op.apply a b = op.applyPresent a b := by
  unfold apply
  split
  · exact absurd rfl ha
  · exact absurd rfl hb
  · rfl

namespace Expr

variable {env : Environment} {span : Span}

/-- An operand with a value is operated on. -/
theorem eval_unary_of_ok {op : UnaryOp} {operand : Expr} {v : Operand} (h : operand.eval env = .ok v) :
    (unary span op operand).eval env = locate span (op.apply v) := by
  rw [eval, h]
  rfl

/-- An operand with a fault is the fault. -/
theorem eval_unary_of_error {op : UnaryOp} {operand : Expr} {fault : EvalFault}
    (h : operand.eval env = .error fault) : (unary span op operand).eval env = .error fault := by
  rw [eval, h]
  rfl

/-- Two operands with values are operated on, if the operation does not stop after the first one. -/
theorem eval_binary_of_ok {op : BinaryOp} {lhs rhs : Expr} {a b : Operand} (hop : op.isLogical = false)
    (hlhs : lhs.eval env = .ok a) (hrhs : rhs.eval env = .ok b) :
    (binary span op lhs rhs).eval env = locate span (op.apply a b) := by
  rw [eval_binary hop, hlhs, hrhs]
  rfl

/-- A fault on the left is the fault. -/
theorem eval_binary_of_left_error {op : BinaryOp} {lhs rhs : Expr} {fault : EvalFault} (hop : op.isLogical = false)
    (hlhs : lhs.eval env = .error fault) : (binary span op lhs rhs).eval env = .error fault := by
  rw [eval_binary hop, hlhs]
  rfl

/-- A fault on the right is the fault, where the left side has a value. -/
theorem eval_binary_of_right_error {op : BinaryOp} {lhs rhs : Expr} {a : Operand} {fault : EvalFault}
    (hop : op.isLogical = false) (hlhs : lhs.eval env = .ok a) (hrhs : rhs.eval env = .error fault) :
    (binary span op lhs rhs).eval env = .error fault := by
  rw [eval_binary hop, hlhs, hrhs]
  rfl

/-- The expression is true or false: true just if this is the case. -/
def TellsWhether (env : Environment) (e : Expr) (p : Prop) : Prop :=
  ∃ r, e.eval env = .ok (.bool r) ∧ (r = true ↔ p)

/-- The expressions have these values, none of which is missing. -/
abbrev HaveValues (env : Environment) (es : List Expr) (vs : List Operand) : Prop :=
  List.Forall₂ (fun e v => e.eval env = .ok v ∧ v ≠ .missing) es vs

/-- An argument without a name. -/
def argument (e : Expr) : Argument Expr := ⟨none, e⟩

/-- Expressions with values, given as arguments without names, are evaluated to these values. -/
theorem evalArguments_of_haveValues {es : List Expr} {vs : List Operand} (h : HaveValues env es vs) :
    evalArguments env (es.map argument) = .ok (some vs) := by
  induction h with
  | nil => rfl
  | @cons e v es vs hvalue _ ih =>
    obtain ⟨he, hv⟩ := hvalue
    rw [List.map_cons, argument, evalArguments, he]
    cases v with
    | missing => exact absurd rfl hv
    | _ =>
      rw [ih]
      rfl

/-- Expressions given as arguments have no names. -/
theorem any_named_argument (es : List Expr) : (es.map argument).any (·.name.isSome) = false := by
  rw [List.any_map, List.any_eq_false]
  intro e _
  exact Bool.false_ne_true

/-- **A call of arguments that have values applies the function to them.** -/
theorem eval_call_of_haveValues {callee : String} {es : List Expr} {vs : List Operand} (h : HaveValues env es vs) :
    (call span callee (es.map argument)).eval env = locate span (applyFunction callee vs) := by
  rw [eval, any_named_argument, evalArguments_of_haveValues h]
  rfl

/-- A fault in the first argument is the fault of the call. -/
theorem eval_call_of_error {callee : String} {e : Expr} {es : List Expr} {fault : EvalFault}
    (h : e.eval env = .error fault) : (call span callee ((e :: es).map argument)).eval env = .error fault := by
  rw [eval, any_named_argument, List.map_cons, argument, evalArguments, h]
  rfl

end Expr

end TypedData
