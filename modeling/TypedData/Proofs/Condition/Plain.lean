import TypedData.Rule
import TypedData.Proofs.Result
import TypedData.Proofs.Value.Part

/-!
# What rules compute

The slots of a rule are texts, so the expressions of a rule compute plain values only: from texts no
function or operator makes a record or a reference.  All but `+` give plain results whatever they are
applied to; `+` also joins lists.
-/

namespace TypedData

/-- A place does not change what a result yields. -/
theorem Yields.locate {α : Type} {P : α → Prop} {x : Except EvalProblem α} (span : Span)
    (h : Yields P x) : Yields P (TypedData.locate span x) := by
  cases x with
  | error e => exact .error _
  | ok a => exact .ok (h a rfl)

namespace Operand

/-- An operand without records and references in it. -/
inductive Plain : Operand → Prop
  | missing : Plain .missing
  | null : Plain .null
  | bool (b : Bool) : Plain (.bool b)
  | int (n : Integer) : Plain (.int n)
  | float (x : Double) : Plain (.float x)
  | str (text : String) : Plain (.str text)
  | list {items : List Operand} : (∀ v ∈ items, Plain v) → Plain (.list items)

/-- A result that is plain, if there is one. -/
abbrev PlainResult {ε : Type} (x : Except ε Operand) : Prop := Yields Plain x

namespace Plain

/-- The values of items are items that are turned into values. -/
theorem mem_toItems {w : Value} :
    {items : List Operand} → w ∈ toItems items → ∃ v ∈ items, w = v.toValue
  | [], h => nomatch h
  | v :: vs, h => by
    rw [toItems, List.mem_cons] at h
    rcases h with rfl | h
    · exact ⟨v, List.mem_cons_self .., rfl⟩
    · obtain ⟨u, hu, rfl⟩ := mem_toItems h
      exact ⟨u, List.mem_cons_of_mem v hu, rfl⟩

/-- A plain operand is a plain value. -/
theorem toValue {v : Operand} (h : Plain v) : v.toValue.Plain := by
  induction h with
  | missing => exact .null
  | null => exact .null
  | bool b => exact .bool b
  | int n => exact .int n
  | float x => exact .float x
  | str text => exact .str text
  | list _ ih =>
    refine .list fun w hw => ?_
    obtain ⟨v, hv, rfl⟩ := mem_toItems hw
    exact ih v hv

/-- A number is plain. -/
theorem of_number? {v : Operand} (h : ¬v.number?.isNone = true) : Plain v := by
  cases v with
  | int n => exact .int n
  | float x => exact .float x
  | _ => exact absurd rfl h

end Plain

/-! ## Functions -/

/-- An integer, or an overflow, is a plain result. -/
theorem plain_ofInteger? (n : Option Integer) : PlainResult (ofInteger? n) := by
  cases n with
  | none => exact .error _
  | some n => exact .ok (.int n)

/-- A count is a plain result. -/
theorem plain_ofCount (count : Nat) : PlainResult (ofCount count) := plain_ofInteger? _

/-- A conversion to an integer is a plain result. -/
theorem plain_toInt (name : String) (v : Operand) : PlainResult (v.toInt name) := by
  unfold toInt
  split
  · exact .ok (.int _)
  · exact .ok (.int _)
  · split
    · exact .ok (.int _)
    · exact .error _
  · split
    · exact .ok (.int _)
    · exact .error _
  · exact .error _

/-- A conversion to a float is a plain result. -/
theorem plain_toFloat (name : String) (v : Operand) : PlainResult (v.toFloat name) := by
  unfold toFloat
  split
  · exact .ok (.float _)
  · exact .ok (.float _)
  · split
    · split
      · exact .ok (.float _)
      · exact .error _
    · exact .error _
  · exact .error _

/-- A conversion to a truth value is a plain result. -/
theorem plain_toBool (name : String) (v : Operand) : PlainResult (v.toBool name) := by
  unfold toBool
  split
  · exact .ok (.bool _)
  · exact .ok (.bool _)
  · dsimp only
    split
    · exact .ok (.bool _)
    · split
      · exact .ok (.bool _)
      · exact .error _
  · exact .error _

/-- A conversion to a text is plain. -/
theorem plain_toStr (v : Operand) : v.toStr.Plain := by
  unfold toStr
  split
  · exact .str _
  · exact .str _

/-- A length is a plain result. -/
theorem plain_length (name : String) (v : Operand) : PlainResult (v.length name) := by
  unfold length
  split
  · exact plain_ofCount _
  · exact plain_ofCount _
  · exact plain_ofCount _
  · exact .error _

/-- An absolute value is a plain result. -/
theorem plain_absolute (name : String) (v : Operand) : PlainResult (v.absolute name) := by
  unfold absolute
  split
  · exact plain_ofInteger? _
  · exact .ok (.float _)
  · exact .error _

/-- A text that is made of a text is a plain result. -/
theorem plain_mapText (name : String) (f : String → String) (v : Operand) :
    PlainResult (v.mapText name f) := by
  unfold mapText
  split
  · exact .ok (.str _)
  · exact .error _

/-- The extreme of values of which the best so far is plain, is a plain result. -/
theorem plain_among (e : Extreme) (name : String) {best : Operand} (hbest : best.Plain) :
    (args : List Operand) → PlainResult (e.among name best args)
  | [] => .ok hbest
  | v :: vs => by
    rw [Extreme.among]
    split
    · exact .error _
    · rename_i hv
      refine plain_among e name ?_ vs
      split
      · exact .of_number? hv
      · exact hbest

/-- The least or greatest of values is a plain result. -/
theorem plain_extreme (e : Extreme) (name : String) (args : List Operand) :
    PlainResult (e.apply name args) := by
  unfold Extreme.apply
  dsimp only
  split
  · exact .error _
  · split
    · exact .error _
    · rename_i hv
      exact plain_among e name (.of_number? hv) _

/-- A function of one value gives a plain result. -/
theorem plain_unary (name : String) (v : Operand) :
    (f : UnaryFunction) → PlainResult (f.apply name v)
  | .int => plain_toInt name v
  | .float => plain_toFloat name v
  | .str => .ok (plain_toStr v)
  | .bool => plain_toBool name v
  | .len => plain_length name v
  | .removeWhitespace | .lower | .upper | .trim => plain_mapText name _ v
  | .abs => plain_absolute name v

/-- A function of two values gives a plain result. -/
theorem plain_binary (f : BinaryFunction) (name : String) (whole part : Operand) :
    PlainResult (f.apply name whole part) := by
  unfold BinaryFunction.apply
  split
  · exact .ok (.bool _)
  · exact .ok (.bool _)
  · exact .ok (.bool _)
  · exact .ok (.bool _)
  · exact .error _
  · exact .error _

/-- A function of one value that is called with any arguments gives a plain result. -/
theorem plain_applyUnary (name : String) (args : List Operand) :
    PlainResult (applyUnary name args) := by
  unfold applyUnary
  split
  · split
    · exact plain_unary name _ _
    · exact .error _
  · exact .error _

/-- A function of two values that is called with any arguments gives a plain result. -/
theorem plain_applyBinary (f : BinaryFunction) (name : String) (args : List Operand) :
    PlainResult (applyBinary f name args) := by
  unfold applyBinary
  split
  · exact plain_binary f name _ _
  · exact .error _

/-- **Functions give plain results,** whatever they are applied to. -/
theorem plain_applyFunction (name : String) (args : List Operand) :
    PlainResult (applyFunction name args) := by
  unfold applyFunction
  split
  · exact plain_extreme .least _ args
  · exact plain_extreme .greatest _ args
  · exact plain_applyBinary .contains _ args
  · exact plain_applyBinary .startsWith _ args
  · exact plain_applyBinary .endsWith _ args
  · exact plain_applyUnary name args

/-! ## Operators -/

/-- An operation on one value gives a plain result. -/
theorem plain_unaryOp (op : UnaryOp) (v : Operand) : PlainResult (op.apply v) := by
  unfold UnaryOp.apply
  split
  · exact .ok .missing
  · exact .ok (.bool _)
  · exact plain_ofInteger? _
  · exact .ok (.float _)
  · exact .error _
  · exact .error _

/-- An operation on two numbers gives a plain result. -/
theorem plain_onNumbers (op : BinaryOp) (f : Double → Double → Double) (a b : Operand) :
    PlainResult (op.onNumbers f a b) := by
  unfold BinaryOp.onNumbers
  split
  · exact .ok (.float _)
  · exact .error _

/-- A division gives a plain result. -/
theorem plain_onDivisor (op : BinaryOp) (f : Double → Double → Double) (a b : Operand) :
    PlainResult (op.onDivisor f a b) := by
  unfold BinaryOp.onDivisor
  split
  · split
    · exact .error _
    · exact .ok (.float _)
  · exact .error _

/-- A comparison gives a plain result. -/
theorem plain_onOrder (op : BinaryOp) (holds : Ordering → Bool) (a b : Operand) :
    PlainResult (op.onOrder holds a b) := by
  unfold BinaryOp.onOrder
  split
  · exact .ok (.bool _)
  · exact .error _

/-- Two plain lists together are plain. -/
theorem plain_append {as bs : List Operand} (ha : Plain (.list as)) (hb : Plain (.list bs)) :
    Plain (.list (as ++ bs)) := by
  cases ha with
  | list ha =>
    cases hb with
    | list hb =>
      refine .list fun v hv => ?_
      rcases List.mem_append.1 hv with hv | hv
      · exact ha v hv
      · exact hb v hv

/-- An operation on two plain values gives a plain result. -/
theorem plain_applyPresent (op : BinaryOp) {a b : Operand} (ha : a.Plain) (hb : b.Plain) :
    PlainResult (op.applyPresent a b) := by
  cases op with
  | eq | ne => exact .ok (.bool _)
  | lt | le | gt | ge => exact plain_onOrder _ _ a b
  | add =>
    unfold BinaryOp.applyPresent
    dsimp only
    split
    · exact plain_ofInteger? _
    · exact .ok (.str _)
    · exact .ok (plain_append ha hb)
    · exact plain_onNumbers _ _ _ _
  | sub | mul =>
    unfold BinaryOp.applyPresent
    dsimp only
    split
    · exact plain_ofInteger? _
    · exact plain_onNumbers _ _ _ _
  | div => exact plain_onDivisor _ _ a b
  | rem =>
    unfold BinaryOp.applyPresent
    dsimp only
    split
    · split
      · exact .error _
      · exact plain_ofInteger? _
    · exact plain_onDivisor _ _ _ _
  | or | and => exact .error _

/-- **Operators take plain operands to plain results.** -/
theorem plain_binaryOp (op : BinaryOp) {a b : Operand} (ha : a.Plain) (hb : b.Plain) :
    PlainResult (op.apply a b) := by
  unfold BinaryOp.apply
  split
  · exact .ok .missing
  · exact .ok .missing
  · exact plain_applyPresent op ha hb

end Operand

/-! ## Expressions -/

/-- An environment in which every name stands for something plain. -/
def Environment.Plain (env : Environment) : Prop :=
  ∀ name v, env.lookup name = some v → v.Plain

namespace Environment

variable {env : Environment}

/-- A plain value is settled to a plain one, as it is no reference. -/
theorem plain_settle {v : Operand} (hv : v.Plain) : Operand.PlainResult (env.settle v) := by
  cases hv with
  | null => exact .ok .missing
  | missing => exact .ok .missing
  | list h => exact .ok (.list h)
  | bool b => exact .ok (.bool b)
  | int n => exact .ok (.int n)
  | float x => exact .ok (.float x)
  | str text => exact .ok (.str text)

/-- A field of a plain value is a plain result. -/
theorem plain_fieldOf (name : String) {v : Operand} (hv : v.Plain) :
    Operand.PlainResult (env.fieldOf name v) := by
  cases hv with
  | null | missing => exact .ok .missing
  | _ => exact .error _

end Environment

/-- The result of a logical operation is plain. -/
theorem plain_logicResult (left right : Option Bool) : (logicResult left right).Plain := by
  unfold logicResult
  split
  · exact .bool _
  · exact .bool _
  · exact .missing

namespace Expr

open Operand

variable {env : Environment}

mutual

/-- **Over plain names an expression computes something plain.** -/
theorem plain_eval (h : env.Plain) : (e : Expr) → PlainResult (e.eval env)
  | .int _ n => .ok (.int n)
  | .float _ x => .ok (.float x)
  | .str _ text => .ok (.str text)
  | .bool _ b => .ok (.bool b)
  | .null _ => .ok .null
  | .name span n => by
    simp only [eval]
    refine .locate span (Environment.plain_settle ?_)
    cases hn : env.lookup n with
    | none => exact .missing
    | some v => exact h n v hn
  | .list _ items => by
    simp only [eval]
    refine (plain_evalItems h items).bind fun values hvalues => ?_
    cases values with
    | none => exact .ok .missing
    | some vs => exact .ok (.list (hvalues vs rfl))
  | .field span base n => by
    simp only [eval]
    exact (plain_eval h base).bind fun v hv => .locate span (Environment.plain_fieldOf n hv)
  | .call span callee args => by
    simp only [eval]
    cases args.any (·.name.isSome) with
    | true => exact .error _
    | false =>
      refine Yields.bind (.trivial _) fun values _ => ?_
      cases values with
      | none => exact .ok .missing
      | some vs => exact .locate span (plain_applyFunction callee vs)
  | .unary span op operand => by
    simp only [eval]
    exact (plain_eval h operand).bind fun v _ => .locate span (plain_unaryOp op v)
  | .binary span op lhs rhs => by
    cases op with
    | and =>
      simp only [eval]
      refine Yields.bind (.trivial _) fun a _ => Yields.bind (.trivial _) fun left _ => ?_
      match left with
      | some false => exact .ok (.bool false)
      | some true | none =>
        exact Yields.bind (.trivial _) fun b _ => Yields.bind (.trivial _) fun right _ =>
          .ok (plain_logicResult _ right)
    | or =>
      simp only [eval]
      refine Yields.bind (.trivial _) fun a _ => Yields.bind (.trivial _) fun left _ => ?_
      match left with
      | some true => exact .ok (.bool true)
      | some false | none =>
        exact Yields.bind (.trivial _) fun b _ => Yields.bind (.trivial _) fun right _ =>
          .ok (plain_logicResult _ right)
    | _ =>
      simp only [eval]
      exact (plain_eval h lhs).bind fun a ha => (plain_eval h rhs).bind fun b hb =>
        .locate span (plain_binaryOp _ ha hb)

/-- Items have plain values in a plain environment. -/
theorem plain_evalItems (h : env.Plain) : (items : List Expr) →
    Yields (fun values => ∀ vs, values = some vs → ∀ v ∈ vs, v.Plain) (evalItems env items)
  | [] => .ok fun _ hvs => Option.some.inj hvs ▸ List.forall_mem_nil _
  | e :: es => by
    simp only [evalItems]
    refine (plain_eval h e).bind fun v hv => ?_
    cases v with
    | missing =>
      refine .ok fun vs hvs => ?_
      cases hvs
    | _ =>
      refine (plain_evalItems h es).bind fun values hvalues => .ok fun vs hvs => ?_
      obtain ⟨vs, rfl, rfl⟩ := Option.map_eq_some_iff.1 hvs
      exact List.forall_mem_cons.2 ⟨hv, hvalues vs rfl⟩

end

end Expr

/-- The slots of a rule are texts. -/
theorem Rule.plain_environment (captures : Captures) : (Rule.environment captures).Plain := by
  intro name v hv
  obtain ⟨text, -, rfl⟩ := Option.map_eq_some_iff.1 hv
  exact .str text

end TypedData
