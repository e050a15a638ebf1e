import TypedData.Proofs.Condition.Missing

/-!
# The names of an expression

What an expression evaluates to depends on its environment in two ways only: by the values of the names that stand in
it, and by what references lead to (`Expr.eval_congr`).  This is so whether or not a part is reached: the names of the
side that `and` and `or` skip, and of the arguments behind a missing one, stand in the expression like all others.
The names of functions and of fields are not looked up, and are none of them.
-/

namespace TypedData

/-- Two environments in which the names have the same values, and references lead to the same. -/
structure Environment.AgreesOn (env env' : Environment) (names : List String) : Prop where
  lookup : ∀ name ∈ names, env'.lookup name = env.lookup name
  follow : ∀ r, env'.follow r = env.follow r

namespace Environment.AgreesOn

variable {env env' : Environment} {names more : List String}

/-- Environments that agree on names agree on fewer of them. -/
theorem mono (h : env.AgreesOn env' more) (hnames : names ⊆ more) : env.AgreesOn env' names :=
  ⟨fun name hname => h.lookup name (hnames hname), h.follow⟩

/-- Environments that agree on names in two lists agree on those in the first one. -/
theorem left (h : env.AgreesOn env' (names ++ more)) : env.AgreesOn env' names :=
  h.mono (List.subset_append_left names more)

/-- Environments that agree on names in two lists agree on those in the second one. -/
theorem right (h : env.AgreesOn env' (names ++ more)) : env.AgreesOn env' more :=
  h.mono (List.subset_append_right names more)

/-- A value is settled in the same way, as references are followed in the same way. -/
theorem settle (h : env.AgreesOn env' names) (v : Operand) : env'.settle v = env.settle v := by
  cases v with
  | ref r => rw [Environment.settle, Environment.settle, h.follow]
  | _ => rfl

/-- A field is looked up in the same way, as references are followed in the same way. -/
theorem fieldOf (h : env.AgreesOn env' names) (name : String) (v : Operand) :
    env'.fieldOf name v = env.fieldOf name v := by
  cases v with
  | record ctor fields => exact h.settle _
  | _ => rfl

end Environment.AgreesOn

namespace Expr

variable {env env' : Environment}

mutual

/-- **An expression is evaluated alike where its names have the same values.** -/
theorem eval_congr : (e : Expr) → env.AgreesOn env' e.freeNames → e.eval env' = e.eval env
  | .int .., _ | .float .., _ | .str .., _ | .bool .., _ | .null _, _ => by simp only [eval]
  | .name span n, h => by
    rw [eval, eval, h.lookup n (List.mem_singleton_self n), h.settle]
  | .list _ items, h => by
    rw [eval, eval, evalItems_congr items h]
  | .field span base n, h => by
    simp only [eval, eval_congr base h, h.fieldOf]
  | .call span callee args, h => by
    simp only [eval, evalArguments_congr args h]
  | .unary span op operand, h => by
    rw [eval, eval, eval_congr operand h]
  | .binary span op lhs rhs, h => by
    have hlhs : lhs.eval env' = lhs.eval env := eval_congr lhs h.left
    have hrhs : rhs.eval env' = rhs.eval env := eval_congr rhs h.right
    cases hop : op.isLogical with
    | false => rw [eval_binary hop, eval_binary hop, hlhs, hrhs]
    | true =>
      -- The right side may be skipped, and its names count all the same.
      cases op with
      | and | or => simp only [eval, hlhs, hrhs]
      | _ => cases hop

/-- Items have the same values, if the environments agree on the names in them. -/
theorem evalItems_congr : (items : List Expr) → env.AgreesOn env' (freeNamesOfItems items) →
    evalItems env' items = evalItems env items
  | [], _ => rfl
  | e :: es, h => by
    rw [evalItems, evalItems, eval_congr e h.left, evalItems_congr es h.right]

/-- Arguments have the same values, if the environments agree on the names in them. -/
theorem evalArguments_congr : (args : List (Argument Expr)) → env.AgreesOn env' (freeNamesOfArguments args) →
    evalArguments env' args = evalArguments env args
  | [], _ => rfl
  | ⟨_, e⟩ :: args, h => by
    rw [evalArguments, evalArguments, eval_congr e h.left, evalArguments_congr args h.right]

end

/-- A condition has the same result, if the environments agree on the names in it. -/
theorem check_congr {e : Expr} (h : env.AgreesOn env' e.freeNames) : e.check env' = e.check env := by
  rw [check, check, eval_congr e h]

end Expr

end TypedData
