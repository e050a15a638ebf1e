import TypedData.Building.Record
import TypedData.Proofs.Value.Walk

/-!
# Conditions over bindings that are not finished

A condition that reads a binding without a value **waits**.  When more bindings have a value, it may
come to a result, but a condition that has come to one keeps it: it did not read what was missing.  This
holds of true and false, of short cuts by `and` and `or`, and of faults alike (`Expr.check_agrees`).
-/

namespace TypedData

variable {env env' : Environment}

/-- The second environment sees what the first one sees, and perhaps where more references lead. -/
structure Environment.Extends (env env' : Environment) : Prop where
  lookup : ∀ name, env'.lookup name = env.lookup name
  follow : ∀ r, (∃ name, env.follow r = .error (.unavailable name)) ∨ env'.follow r = env.follow r

/-- A result that is not there because a binding has no value. -/
def Waits {α : Type} (x : Except EvalFault α) : Prop :=
  ∃ name span, x = .error ⟨.unavailable name, span⟩

/-- The second result is the first one, unless that waits. -/
def Agrees {α : Type} (x y : Except EvalFault α) : Prop := Waits x ∨ y = x

namespace Agrees

variable {α β : Type}

/-- A result agrees with itself. -/
theorem refl (x : Except EvalFault α) : Agrees x x := .inr rfl

/-- Two steps agree if each of them does. -/
theorem bind {x y : Except EvalFault α} {f g : α → Except EvalFault β} (h : Agrees x y)
    (hf : ∀ a, Agrees (f a) (g a)) : Agrees (x >>= f) (y >>= g) := by
  rcases h with ⟨name, span, rfl⟩ | rfl
  · exact .inl ⟨name, span, rfl⟩
  · cases y with
    | ok a => exact hf a
    | error e => exact .refl _

/-- What agrees with a success is this success. -/
theorem eq_of_ok {x y : Except EvalFault α} {a : α} (h : Agrees x y) (hx : x = .ok a) :
    y = .ok a := by
  rcases h with ⟨name, span, hw⟩ | h
  · cases hx.symm.trans hw
  · exact h.trans hx

end Agrees

namespace Environment.Extends

/-- A value is settled in the same way, unless this waits. -/
theorem settle (h : env.Extends env') (span : Span) (v : Operand) :
    Agrees (locate span (env.settle v)) (locate span (env'.settle v)) := by
  cases v with
  | ref r =>
    rcases h.follow r with ⟨name, hr⟩ | hr
    · exact .inl ⟨name, span, by rw [Environment.settle, hr]; rfl⟩
    · rw [Environment.settle, Environment.settle, hr]
      exact .refl _
  | _ => exact .refl _

/-- A field is looked up in the same way, unless this waits. -/
theorem fieldOf (h : env.Extends env') (span : Span) (name : String) (v : Operand) :
    Agrees (locate span (env.fieldOf name v)) (locate span (env'.fieldOf name v)) := by
  cases v with
  | record _ fields => exact h.settle span _
  | _ => exact .refl _

end Environment.Extends

namespace Expr

mutual

/-- An expression that has a value, or a fault, keeps it when more bindings are finished. -/
theorem eval_agrees (h : env.Extends env') : (e : Expr) → Agrees (e.eval env) (e.eval env')
  | .int _ _ | .float _ _ | .str _ _ | .bool _ _ | .null _ => by
    simp only [eval]
    exact .refl _
  | .name span n => by
    simp only [eval, h.lookup]
    exact h.settle span _
  | .list _ items => by
    simp only [eval]
    exact (evalItems_agrees h items).bind fun _ => .refl _
  | .field span base n => by
    simp only [eval]
    exact (eval_agrees h base).bind fun v => h.fieldOf span n v
  | .call span callee args => by
    simp only [eval]
    cases args.any (·.name.isSome) with
    | true => exact .refl _
    | false => exact (evalArguments_agrees h args).bind fun _ => .refl _
  | .unary span op operand => by
    simp only [eval]
    exact (eval_agrees h operand).bind fun _ => .refl _
  | .binary span op lhs rhs => by
    cases op with
    | and =>
      simp only [eval]
      refine (eval_agrees h lhs).bind fun a => ?_
      refine Agrees.bind (.refl _) fun left => ?_
      match left with
      | some false => exact .refl _
      | some true | none => exact (eval_agrees h rhs).bind fun _ => .refl _
    | or =>
      simp only [eval]
      refine (eval_agrees h lhs).bind fun a => ?_
      refine Agrees.bind (.refl _) fun left => ?_
      match left with
      | some true => exact .refl _
      | some false | none => exact (eval_agrees h rhs).bind fun _ => .refl _
    | _ =>
      simp only [eval]
      exact (eval_agrees h lhs).bind fun _ => (eval_agrees h rhs).bind fun _ => .refl _

/-- The items of a list have the same values, unless one of them waits. -/
theorem evalItems_agrees (h : env.Extends env') :
    (items : List Expr) → Agrees (evalItems env items) (evalItems env' items)
  | [] => .refl _
  | e :: es => by
    simp only [evalItems]
    refine (eval_agrees h e).bind fun v => ?_
    cases v with
    | missing => exact .refl _
    | _ => exact (evalItems_agrees h es).bind fun _ => .refl _

/-- The arguments of a call have the same values, unless one of them waits. -/
theorem evalArguments_agrees (h : env.Extends env') :
    (args : List (Argument Expr)) → Agrees (evalArguments env args) (evalArguments env' args)
  | [] => .refl _
  | ⟨_, e⟩ :: args => by
    simp only [evalArguments]
    refine (eval_agrees h e).bind fun v => ?_
    cases v with
    | missing => exact .refl _
    | _ => exact (evalArguments_agrees h args).bind fun _ => .refl _

end

/-- **A condition that does not wait has its final result.** -/
theorem check_agrees (h : env.Extends env') (e : Expr) : Agrees (e.check env) (e.check env') :=
  (eval_agrees h e).bind fun _ => .refl _

end Expr

/-! ## The conditions on a record -/

/-- When more bindings are finished, or more hops are allowed, the conditions on a record see more. -/
theorem recordEnvironment_extends {root root' : Nat → Option Value} {hops hops' : Nat}
    (hroot : Value.Keeps root root') (hhops : hops ≤ hops') (fields : List (Field Value)) :
    (recordEnvironment root hops fields).Extends (recordEnvironment root' hops' fields) where
  lookup _ := rfl
  follow r := by
    simp only [recordEnvironment]
    cases hb : root r.binding with
    | none => exact .inl ⟨r.name, rfl⟩
    | some base =>
      rw [hroot _ _ hb]
      dsimp only
      cases hf : base.follow root hops r.path with
      | error e =>
        cases e with
        | unavailable name => exact .inl ⟨name, rfl⟩
        | unknownField name =>
          rw [Value.follow_mono hroot hhops (hf ▸ .unknownField name), hf]
          exact .inr rfl
      | ok v =>
        rw [Value.follow_ok_mono hroot hhops hf]
        exact .inr rfl

end TypedData
