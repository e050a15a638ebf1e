import TypedData.Building.Record
import TypedData.Proofs.Condition.Plain

/-!
# Names without a value

An expression asks for a name **strictly** where no `and` or `or` stands around the name.  If the name has no
value, nothing that is around it can make up for that: an operator, a list, a call or a field of something
missing is missing, unless something before it in the order of evaluation fails.  A condition of this kind
therefore never refuses a record for a field that is not there.

`and` and `or` are left out because they drop a missing side: `absent or false` is false.
-/

namespace TypedData

variable {env : Environment}

/-- The name has no value: it is not bound, or it is bound to null, or to a reference that leads to null or to
nothing. -/
inductive Environment.Lacks (env : Environment) (name : String) : Prop
  | unbound (h : env.lookup name = none)
  | null (h : env.lookup name = some .null)
  | toNull {r : Reference} (h : env.lookup name = some (.ref r)) (hr : env.follow r = .ok .null)
  | toNothing {r : Reference} (h : env.lookup name = some (.ref r)) (hr : env.follow r = .ok .missing)

/-- A name that the environment lacks is missing. -/
theorem Environment.Lacks.settle {name : String} (h : env.Lacks name) :
    env.settle ((env.lookup name).getD .missing) = .ok .missing := by
  cases h with
  | unbound h => rw [h]; rfl
  | null h => rw [h]; rfl
  | toNull h hr | toNothing h hr =>
    rw [h, Option.getD_some, Environment.settle, hr]

/-- The result is missing, or it is a fault. -/
abbrev Blank (x : Except EvalFault Operand) : Prop := Yields (· = .missing) x

/-- A step on a missing operand is only taken with a missing operand. -/
theorem Blank.bind {α : Type} {P : α → Prop} {x : Except EvalFault Operand}
    {f : Operand → Except EvalFault α} (h : Blank x) (hf : Yields P (f .missing)) : Yields P (x >>= f) := by
  refine Yields.bind h ?_
  rintro v rfl
  exact hf

namespace BinaryOp

/-- Whether the operator is `and` or `or`. -/
def isLogical : BinaryOp → Bool
  | and | or => true
  | _ => false

/-- An operation on something missing is missing. -/
theorem apply_missing_left (op : BinaryOp) (b : Operand) : op.apply .missing b = .ok .missing := rfl

/-- An operation with something missing is missing. -/
theorem apply_missing_right (op : BinaryOp) (a : Operand) : op.apply a .missing = .ok .missing := by
  cases a <;> rfl

end BinaryOp

namespace Expr

/-- All operators but `and` and `or` evaluate both sides, the left one first. -/
theorem eval_binary {span : Span} {op : BinaryOp} {lhs rhs : Expr} (hop : op.isLogical = false) :
    (binary span op lhs rhs).eval env =
      lhs.eval env >>= fun a => rhs.eval env >>= fun b => locate span (op.apply a b) := by
  rw [eval]
  · rintro rfl
    cases hop
  · rintro rfl
    cases hop

/-- The name stands in the expression, and not under `and` or `or`. -/
inductive Needs (name : String) : Expr → Prop
  | name (span : Span) : Needs name (.name span name)
  | item {span : Span} {items : List Expr} {e : Expr} (he : e ∈ items) (h : Needs name e) :
      Needs name (.list span items)
  | base {span : Span} {base : Expr} {field : String} (h : Needs name base) :
      Needs name (.field span base field)
  | argument {span : Span} {callee : String} {args : List (Argument Expr)} {arg : Argument Expr}
      (harg : arg ∈ args) (h : Needs name arg.value) : Needs name (.call span callee args)
  | operand {span : Span} {op : UnaryOp} {operand : Expr} (h : Needs name operand) :
      Needs name (.unary span op operand)
  | left {span : Span} {op : BinaryOp} {lhs rhs : Expr} (hop : op.isLogical = false)
      (h : Needs name lhs) : Needs name (.binary span op lhs rhs)
  | right {span : Span} {op : BinaryOp} {lhs rhs : Expr} (hop : op.isLogical = false)
      (h : Needs name rhs) : Needs name (.binary span op lhs rhs)

/-- A list has no items to give if one of them is missing. -/
theorem evalItems_of_blank {e : Expr} (h : Blank (e.eval env)) :
    {items : List Expr} → e ∈ items → Yields (· = none) (evalItems env items)
  | _ :: items, .head _ => by
    rw [evalItems]
    exact h.bind (.ok rfl)
  | e' :: items, .tail _ he => by
    rw [evalItems]
    refine (Yields.trivial _).bind fun v _ => ?_
    cases v with
    | missing => exact .ok rfl
    | _ =>
      refine (evalItems_of_blank h he).bind ?_
      rintro _ rfl
      exact .ok rfl

/-- A call has no arguments to give if one of them is missing. -/
theorem evalArguments_of_blank {arg : Argument Expr} (h : Blank (arg.value.eval env)) :
    {args : List (Argument Expr)} → arg ∈ args → Yields (· = none) (evalArguments env args)
  | _ :: args, .head _ => by
    rw [evalArguments]
    exact h.bind (.ok rfl)
  | ⟨_, e⟩ :: args, .tail _ harg => by
    rw [evalArguments]
    refine (Yields.trivial _).bind fun v _ => ?_
    cases v with
    | missing => exact .ok rfl
    | _ =>
      refine (evalArguments_of_blank h harg).bind ?_
      rintro _ rfl
      exact .ok rfl

/-- **What needs a name without a value is missing, or fails.** -/
theorem Needs.blank {name : String} {e : Expr} (h : e.Needs name) (hlacks : env.Lacks name) :
    Blank (e.eval env) := by
  induction h with
  | name span =>
    rw [eval, hlacks.settle]
    exact .ok rfl
  | item he _ ih =>
    rw [eval]
    refine (evalItems_of_blank ih he).bind ?_
    rintro _ rfl
    exact .ok rfl
  | base _ ih =>
    rw [eval]
    exact ih.bind (.ok rfl)
  | argument harg _ ih =>
    -- A named argument stops the call before any argument is evaluated.
    rw [eval]
    split
    · exact .error _
    · refine (evalArguments_of_blank ih harg).bind ?_
      rintro _ rfl
      exact .ok rfl
  | operand _ ih =>
    rw [eval]
    exact ih.bind (.ok rfl)
  | left hop _ ih =>
    rw [eval_binary hop]
    refine ih.bind ((Yields.trivial (ε := EvalFault) _).bind fun b _ => ?_)
    rw [BinaryOp.apply_missing_left]
    exact .ok rfl
  | right hop _ ih =>
    rw [eval_binary hop]
    refine (Yields.trivial _).bind fun a _ => ih.bind ?_
    rw [BinaryOp.apply_missing_right]
    exact .ok rfl

mutual

/-- Whether there is no `and` and no `or` in the expression. -/
def isStrict : Expr → Bool
  | list _ items => areStrictItems items
  | field _ base _ => base.isStrict
  | call _ _ args => areStrictArguments args
  | unary _ _ operand => operand.isStrict
  | binary _ op lhs rhs => !op.isLogical && lhs.isStrict && rhs.isStrict
  | _ => true

/-- Whether there is no `and` and no `or` in the items of a list. -/
def areStrictItems : List Expr → Bool
  | [] => true
  | e :: es => e.isStrict && areStrictItems es

/-- Whether there is no `and` and no `or` in the arguments of a call. -/
def areStrictArguments : List (Argument Expr) → Bool
  | [] => true
  | ⟨_, e⟩ :: args => e.isStrict && areStrictArguments args

end

mutual

/-- Without `and` and `or` an expression needs every name in it. -/
theorem needs_of_isStrict {name : String} : (e : Expr) → e.isStrict = true → name ∈ e.freeNames → e.Needs name
  | .name span n, _, hname => by
    rw [freeNames, List.mem_singleton] at hname
    exact hname ▸ .name span
  | .list _ items, hstrict, hname => by
    obtain ⟨e, he, h⟩ := exists_item_needs items hstrict hname
    exact .item he h
  | .field _ base _, hstrict, hname => .base (needs_of_isStrict base hstrict hname)
  | .call _ _ args, hstrict, hname => by
    obtain ⟨arg, harg, h⟩ := exists_argument_needs args hstrict hname
    exact .argument harg h
  | .unary _ _ operand, hstrict, hname => .operand (needs_of_isStrict operand hstrict hname)
  | .binary _ op lhs rhs, hstrict, hname => by
    simp only [isStrict, Bool.and_eq_true, Bool.not_eq_true'] at hstrict
    obtain ⟨⟨hop, hlhs⟩, hrhs⟩ := hstrict
    rw [freeNames, List.mem_append] at hname
    rcases hname with hname | hname
    · exact .left hop (needs_of_isStrict lhs hlhs hname)
    · exact .right hop (needs_of_isStrict rhs hrhs hname)
  | .int .., _, hname | .float .., _, hname | .str .., _, hname | .bool .., _, hname | .null _, _, hname => by
    cases hname

/-- A name in strict items is needed by one of them. -/
theorem exists_item_needs {name : String} : (items : List Expr) → areStrictItems items = true →
    name ∈ freeNamesOfItems items → ∃ e ∈ items, e.Needs name
  | [], _, hname => by cases hname
  | e :: es, hstrict, hname => by
    obtain ⟨he, hes⟩ := (Bool.and_eq_true ..).mp hstrict
    rw [freeNamesOfItems, List.mem_append] at hname
    rcases hname with hname | hname
    · exact ⟨e, .head _, needs_of_isStrict e he hname⟩
    · obtain ⟨e', he', h⟩ := exists_item_needs es hes hname
      exact ⟨e', .tail _ he', h⟩

/-- A name in strict arguments is needed by one of them. -/
theorem exists_argument_needs {name : String} : (args : List (Argument Expr)) →
    areStrictArguments args = true → name ∈ freeNamesOfArguments args → ∃ arg ∈ args, arg.value.Needs name
  | [], _, hname => by cases hname
  | ⟨label, e⟩ :: args, hstrict, hname => by
    obtain ⟨he, hargs⟩ := (Bool.and_eq_true ..).mp hstrict
    rw [freeNamesOfArguments, List.mem_append] at hname
    rcases hname with hname | hname
    · exact ⟨⟨label, e⟩, .head _, needs_of_isStrict e he hname⟩
    · obtain ⟨arg, harg, h⟩ := exists_argument_needs args hargs hname
      exact ⟨arg, .tail _ harg, h⟩

end

/-- `or` drops a missing side, so `absent or false` refuses a record. -/
example : (binary .zero .or (.name .zero "absent") (.bool .zero false)).check
    (recordEnvironment (fun _ => none) 0 []) = .ok false := rfl

end Expr

end TypedData
