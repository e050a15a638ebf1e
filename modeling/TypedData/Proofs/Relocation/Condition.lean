import TypedData.Building.Record
import TypedData.Proofs.Relocation.Tree

/-!
# Conditions and rules at other places

What an expression computes does not depend on where it stands; only a fault is found at another place.
So a rule accepts the same texts, with the same captures, and a record passes the same conditions.
-/

namespace TypedData

variable (f : Span → Span)

/-- A step of an evaluation at other places: its faults are at other places. -/
def relocateFault {α : Type} (x : Except EvalFault α) : Except EvalFault α :=
  x.mapError (EvalFault.relocate f)

/-- Relocation goes through one evaluation after another. -/
theorem relocateFault_bind {α β : Type} (x : Except EvalFault α) (k : α → Except EvalFault β) :
    relocateFault f (x >>= k) = relocateFault f x >>= fun a => relocateFault f (k a) := by
  cases x <;> rfl

/-- An evaluation that is located is relocated with its place. -/
theorem relocateFault_locate {α : Type} (span : Span) (x : Except EvalProblem α) :
    relocateFault f (locate span x) = locate (f span) x := by
  cases x <;> rfl

namespace Expr

mutual

/-- **A moved expression computes the same,** or finds the same fault at the moved place. -/
theorem eval_relocate (env : Environment) : (e : Expr) →
    (e.relocate f).eval env = relocateFault f (e.eval env)
  | .int .. | .float .. | .str .. | .bool .. | .null .. => rfl
  | .name span n => by simp only [relocate, eval, relocateFault_locate]
  | .list _ items => by
    simp only [relocate, eval, evalItems_relocate env items, relocateFault_bind]
    congr 1
    funext values
    cases values <;> rfl
  | .field span base n => by
    simp only [relocate, eval, eval_relocate env base, relocateFault_bind, relocateFault_locate]
  | .call span callee args => by
    simp only [relocate, eval, any_named_relocateArguments]
    cases args.any (·.name.isSome) with
    | true => rfl
    | false =>
      simp only [evalArguments_relocate env args]
      rcases evalArguments env args with fault | _ | vs
      · rfl
      · rfl
      · exact (relocateFault_locate f span _).symm
  | .unary span op operand => by
    simp only [relocate, eval, eval_relocate env operand, relocateFault_bind, relocateFault_locate]
  | .binary span op lhs rhs => by
    cases op with
    | and | or =>
      simp only [relocate, eval, eval_relocate env lhs, eval_relocate env rhs, relocateFault_bind,
        relocateFault_locate, span_relocate]
      congr 1
      funext a
      congr 1
      funext left
      match left with
      | some true | some false | none =>
        simp only [relocateFault_bind, relocateFault_locate]
        rfl
    | _ =>
      simp only [relocate, eval, eval_relocate env lhs, eval_relocate env rhs, relocateFault_bind,
        relocateFault_locate]

/-- Items at other places have the same values, and faults at their places. -/
theorem evalItems_relocate (env : Environment) : (items : List Expr) →
    evalItems env (relocateItems f items) = relocateFault f (evalItems env items)
  | [] => rfl
  | e :: es => by
    simp only [relocateItems, evalItems, eval_relocate env e, relocateFault_bind]
    congr 1
    funext v
    cases v <;> simp only [evalItems_relocate env es, relocateFault_bind] <;> rfl

/-- Arguments at other places have the same values, and faults at their places. -/
theorem evalArguments_relocate (env : Environment) : (args : List (Argument Expr)) →
    evalArguments env (relocateArguments f args) = relocateFault f (evalArguments env args)
  | [] => rfl
  | ⟨label, e⟩ :: args => by
    simp only [relocateArguments, evalArguments, eval_relocate env e, relocateFault_bind]
    congr 1
    funext v
    cases v <;> simp only [evalArguments_relocate env args, relocateFault_bind] <;> rfl

end

/-- A condition at another place is checked with the same verdict, and with faults at its place. -/
theorem check_relocate (env : Environment) (e : Expr) :
    (e.relocate f).check env = relocateFault f (e.check env) := by
  unfold check
  rw [eval_relocate, relocateFault_bind, span_relocate]
  congr 1
  funext v
  cases v <;> rfl

end Expr

/-! ## Rules -/

namespace Rule

/-- A guard at another place accepts the same captures. -/
theorem accepts_relocate (captures : Captures) (guard : Expr) :
    accepts captures (guard.relocate f) = accepts captures guard := by
  unfold accepts
  rw [Expr.check_relocate]
  cases guard.check (environment captures) <;> rfl

/-- A rule at another place matches the same texts. -/
theorem match?_relocate (rule : Rule) (text : List Char) :
    (rule.relocate f).match? text = rule.match? text := by
  unfold match? relocate
  simp only [List.all_map, Function.comp_def, accepts_relocate]

variable {image : Rule → Rule}

/-- Rules that accept the same texts with the same captures accept each text in the same place of their order. -/
theorem firstMatch?_map (h : ∀ rule text, (image rule).match? text = rule.match? text) (rules : List Rule)
    (text : String) : firstMatch? (rules.map image) text =
      (firstMatch? rules text).map fun found => ⟨image found.rule, found.captures⟩ := by
  unfold firstMatch?
  induction rules with
  | nil => rfl
  | cons rule rules ih =>
    dsimp only at ih ⊢
    rw [List.map_cons, List.findSome?_cons, List.findSome?_cons, ih, h]
    cases rule.match? text.toList <;> rfl

/-- The first rule that matches stays the first when every rule is mapped to one that matches the same texts. -/
theorem firstMatchFor?_map (h : ∀ rule text, (image rule).match? text = rule.match? text)
    (htype : ∀ rule, (image rule).typeName = rule.typeName) (typeName : String) (rules : List Rule)
    (text : String) : firstMatchFor? typeName (rules.map image) text =
      (firstMatchFor? typeName rules text).map fun found => ⟨image found.rule, found.captures⟩ := by
  rw [firstMatchFor?, firstMatchFor?, List.filter_map, firstMatch?_map h]
  simp only [Function.comp_def, htype]

end Rule

/-! ## Conditions on records -/

/-- A result at other places: its failures are at other places. -/
def relocateFailure {α : Type} (x : Except Failure α) : Except Failure α :=
  x.mapError (Failure.relocate f)

/-- Relocation goes through one step after another. -/
theorem relocateFailure_bind {α β : Type} (x : Except Failure α) (k : α → Except Failure β) :
    relocateFailure f (x >>= k) = relocateFailure f x >>= fun a => relocateFailure f (k a) := by
  cases x <;> rfl

/-- Conditions at other places are checked with the same verdicts, and with failures at their places. -/
theorem checkConstraints_relocate (env : Environment) (ctor : String) (fields : List (Field Value))
    (span : Span) : (constraints : List Constraint) → (position : Nat) →
    checkConstraints env ctor fields (f span) position (constraints.map (Constraint.relocate f)) =
      relocateFailure f (checkConstraints env ctor fields span position constraints)
  | [], _ => rfl
  | constraint :: constraints, position => by
    rw [List.map_cons, checkConstraints, checkConstraints]
    simp only [Constraint.relocate, Expr.check_relocate]
    rcases constraint.condition.check env with ⟨problem, place⟩ | ⟨_ | _⟩
    · cases problem <;> rfl
    · have hviolation : (⟨ctor, (constraint.condition.relocate f).print, renderedFields fields, f span,
          (constraint.condition.relocate f).span⟩ : ConstraintViolation) =
          ConstraintViolation.relocate f ⟨ctor, constraint.condition.print, renderedFields fields, span,
            constraint.condition.span⟩ := by
        rw [Expr.print_relocate, Expr.span_relocate]
        rfl
      exact congrArg (fun v => (.error (.constraint v) : Except Failure (Option (Nat × String))))
        hviolation
    · exact checkConstraints_relocate env ctor fields span constraints (position + 1)

end TypedData
