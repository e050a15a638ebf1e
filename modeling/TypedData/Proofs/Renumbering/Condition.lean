import TypedData.Building.Record
import TypedData.Proofs.Condition.Plain
import TypedData.Proofs.Renumbering.Value

/-!
# Conditions over renumbered values

Over renumbered fields, in a renumbered store, a condition has the same result.  Expressions compute the
renumbered operands.  References are compared by the number of their binding among other things, so
different bindings have to keep different numbers.
-/

namespace TypedData

variable (σ : Nat → Nat)

namespace Operand

mutual

/-- The operand with other numbers for the bindings. -/
def renumber : Operand → Operand
  | missing => missing
  | null => null
  | bool b => bool b
  | int n => int n
  | float x => float x
  | str text => str text
  | list items => list (renumberItems items)
  | record ctor fields => record ctor (renumberFields fields)
  | ref r => ref (r.renumber σ)

/-- The items of a list with other numbers for the bindings. -/
def renumberItems : List Operand → List Operand
  | [] => []
  | v :: vs => v.renumber :: renumberItems vs

/-- The fields of a record with other numbers for the bindings. -/
def renumberFields : List (Field Operand) → List (Field Operand)
  | [] => []
  | ⟨name, v⟩ :: fields => ⟨name, v.renumber⟩ :: renumberFields fields

end

/-- Items are renumbered one by one. -/
theorem renumberItems_eq_map : (vs : List Operand) → renumberItems σ vs = vs.map (renumber σ)
  | [] => rfl
  | _ :: vs => congrArg _ (renumberItems_eq_map vs)

/-- Fields are renumbered one by one, each with its name. -/
theorem renumberFields_eq_map : (fields : List (Field Operand)) →
    renumberFields σ fields = fields.map fun field => ⟨field.name, field.value.renumber σ⟩
  | [] => rfl
  | _ :: fields => congrArg _ (renumberFields_eq_map fields)

/-- A plain operand has no references to renumber. -/
theorem Plain.renumber {v : Operand} (h : v.Plain) : v.renumber σ = v := by
  induction h with
  | @list items _ ih =>
    rw [Operand.renumber, renumberItems_eq_map, List.map_congr_left ih, List.map_id']
  | _ => rfl

mutual

/-- A renumbered value is given to a condition with the new numbers. -/
theorem ofValue_renumber : (v : Value) → ofValue (v.renumber σ) = (ofValue v).renumber σ
  | .null | .bool _ | .int _ | .float _ | .str _ | .ref _ => rfl
  | .list items => by
    rw [Value.renumber, ofValue, ofValue, renumber, ofItems_renumber items]
  | .record _ ctor fields => by
    rw [Value.renumber, ofValue, ofValue, renumber, ofFields_renumber fields]

/-- Renumbered items are given to a condition with the new numbers. -/
theorem ofItems_renumber : (vs : List Value) →
    ofItems (Value.renumberItems σ vs) = renumberItems σ (ofItems vs)
  | [] => rfl
  | v :: vs => by
    rw [Value.renumberItems, ofItems, ofItems, renumberItems, ofValue_renumber v, ofItems_renumber vs]

/-- Renumbered fields are given to a condition with the new numbers. -/
theorem ofFields_renumber : (fields : List (Field Value)) →
    ofFields (Value.renumberFields σ fields) = renumberFields σ (ofFields fields)
  | [] => rfl
  | ⟨name, v⟩ :: fields => by
    rw [Value.renumberFields, ofFields, ofFields, renumberFields, ofValue_renumber v,
      ofFields_renumber fields]

end

mutual

/-- A condition gives a renumbered value back with the new numbers. -/
theorem toValue_renumber : (v : Operand) → (v.renumber σ).toValue = v.toValue.renumber σ
  | missing | null | bool _ | int _ | float _ | str _ | ref _ => rfl
  | list items => by rw [renumber, toValue, toValue, Value.renumber, toItems_renumber items]
  | record ctor fields => by
    rw [renumber, toValue, toValue, Value.renumber, toFields_renumber fields]

/-- Renumbered items are given back with the new numbers. -/
theorem toItems_renumber : (vs : List Operand) →
    toItems (renumberItems σ vs) = Value.renumberItems σ (toItems vs)
  | [] => rfl
  | v :: vs => by
    rw [renumberItems, toItems, toItems, Value.renumberItems, toValue_renumber v, toItems_renumber vs]

/-- Renumbered fields are given back with the new numbers. -/
theorem toFields_renumber : (fields : List (Field Operand)) →
    toFields (renumberFields σ fields) = Value.renumberFields σ (toFields fields)
  | [] => rfl
  | ⟨name, v⟩ :: fields => by
    rw [renumberFields, toFields, toFields, Value.renumberFields, toValue_renumber v,
      toFields_renumber fields]

end

/-! ## What can be seen of an operand -/

/-- A renumbered value is of the same kind. -/
theorem kind_renumber (v : Operand) : (v.renumber σ).kind = v.kind := by cases v <;> rfl

/-- A renumbered value is the same number, or none. -/
theorem number?_renumber (v : Operand) : (v.renumber σ).number? = v.number? := by cases v <;> rfl

/-- A renumbered value is printed alike. -/
theorem print_renumber (v : Operand) : (v.renumber σ).print = v.print := by
  have hvalue : (v.renumber σ).toValue.print = v.toValue.print := by
    rw [toValue_renumber, Value.print_renumber]
  cases v with
  | missing => rfl
  | _ => exact hvalue

/-- A field is found among renumbered ones under its name, with the new numbers. -/
theorem find?_renumberFields (name : String) (fields : List (Field Operand)) :
    Field.find? name (renumberFields σ fields) = (Field.find? name fields).map (renumber σ) := by
  rw [renumberFields_eq_map, Field.find?, Field.find?, List.find?_map, Option.map_map,
    Option.map_map]
  rfl

/-- Renumbered values are in the same order. -/
theorem compare?_renumber (a b : Operand) :
    (a.renumber σ).compare? (b.renumber σ) = a.compare? b := by
  cases a <;> cases b <;> rfl

variable {σ}

/-- References are equal after a one-to-one renumbering when they were so before. -/
theorem renumber_beq (hσ : Function.Injective σ) (r s : Reference) :
    (r.renumber σ == s.renumber σ) = (r == s) := by
  rw [Bool.eq_iff_iff, beq_iff_eq, beq_iff_eq]
  refine ⟨fun h => ?_, congrArg _⟩
  obtain ⟨hbinding, hname, hpath⟩ := Reference.mk.inj h
  obtain ⟨b, name, path⟩ := r
  obtain ⟨c, name', path'⟩ := s
  obtain rfl := hσ hbinding
  obtain rfl : name = name' := hname
  obtain rfl : path = path' := hpath
  rfl

mutual

/-- Renumbered operands are the same when the operands are. -/
theorem same_renumber (hσ : Function.Injective σ) :
    (a b : Operand) → same (a.renumber σ) (b.renumber σ) = same a b
  | list as, list bs => by
    rw [renumber, renumber, same, same, sameItems_renumber hσ as bs]
  | record _ fs, record _ gs => by
    rw [renumber, renumber, same, same, sameFields_renumber hσ fs gs]
  | ref r, ref s => renumber_beq hσ r s
  | missing, b | null, b | bool _, b | int _, b | float _, b | str _, b => by cases b <;> rfl
  | list _, missing | list _, null | list _, bool _ | list _, int _ | list _, float _
  | list _, str _ | list _, record _ _ | list _, ref _ => rfl
  | record _ _, missing | record _ _, null | record _ _, bool _ | record _ _, int _
  | record _ _, float _ | record _ _, str _ | record _ _, list _ | record _ _, ref _ => rfl
  | ref _, missing | ref _, null | ref _, bool _ | ref _, int _ | ref _, float _ | ref _, str _
  | ref _, list _ | ref _, record _ _ => rfl

/-- Renumbered items are the same when they were so before, if the renumbering is one-to-one. -/
theorem sameItems_renumber (hσ : Function.Injective σ) : (as bs : List Operand) →
    sameItems (renumberItems σ as) (renumberItems σ bs) = sameItems as bs
  | [], [] | [], _ :: _ | _ :: _, [] => rfl
  | a :: as, b :: bs => by
    rw [renumberItems, renumberItems, sameItems, sameItems, same_renumber hσ a b,
      sameItems_renumber hσ as bs]

/-- Renumbered fields are the same when they were so before, if the renumbering is one-to-one. -/
theorem sameFields_renumber (hσ : Function.Injective σ) : (fs gs : List (Field Operand)) →
    sameFields (renumberFields σ fs) (renumberFields σ gs) = sameFields fs gs
  | [], [] | [], _ :: _ | _ :: _, [] => rfl
  | ⟨_, a⟩ :: fs, ⟨_, b⟩ :: gs => by
    rw [renumberFields, renumberFields, sameFields, sameFields, same_renumber hσ a b,
      sameFields_renumber hσ fs gs]

end

/-- Renumbered values are equal when they were so before, if the renumbering is one-to-one. -/
theorem equal_renumber (hσ : Function.Injective σ) (a b : Operand) :
    equal (a.renumber σ) (b.renumber σ) = equal a b := by
  rw [equal, equal, number?_renumber, number?_renumber, same_renumber hσ]

/-! ## Functions -/

/-- A function of one value gives the same for a renumbered value. -/
theorem unaryFunction_renumber (name : String) (v : Operand) (f : UnaryFunction) :
    f.apply name (v.renumber σ) = f.apply name v := by
  cases f with
  | str =>
    have htext := print_renumber σ v
    cases v with
    | list | record | ref => exact congrArg (Except.ok ∘ Operand.str) htext
    | _ => rfl
  | len =>
    cases v with
    | list items =>
      change ofCount (renumberItems σ items).length = ofCount items.length
      rw [renumberItems_eq_map, List.length_map]
    | record _ fields =>
      change ofCount (renumberFields σ fields).length = ofCount fields.length
      rw [renumberFields_eq_map, List.length_map]
    | _ => rfl
  | _ => cases v <;> rfl

/-- A function of two values gives the same for renumbered values. -/
theorem binaryFunction_renumber (hσ : Function.Injective σ) (f : BinaryFunction) (name : String)
    (whole part : Operand) :
    f.apply name (whole.renumber σ) (part.renumber σ) = f.apply name whole part := by
  have hcontains (items : List Operand) : (renumberItems σ items).any (·.equal (part.renumber σ)) =
      items.any (·.equal part) := by
    rw [renumberItems_eq_map, List.any_map]
    exact congrArg items.any (funext fun item => equal_renumber hσ item part)
  cases f with
  | contains =>
    cases whole with
    | list items => exact congrArg (Except.ok ∘ Operand.bool) (hcontains items)
    | str => cases part <;> rfl
    | _ => rfl
  | startsWith | endsWith =>
    cases whole with
    | str => cases part <;> rfl
    | _ => rfl

/-- The extreme among renumbered values and a plain one is the same. -/
theorem among_renumber (e : Extreme) (name : String) : (vs : List Operand) → {best : Operand} →
    best.Plain → e.among name best (renumberItems σ vs) = e.among name best vs
  | [], _, _ => rfl
  | v :: vs, best, hbest => by
    rw [renumberItems, Extreme.among, Extreme.among, number?_renumber, kind_renumber]
    by_cases hv : v.number?.isNone = true
    · rw [if_pos hv, if_pos hv]
    · rw [if_neg hv, if_neg hv, (Plain.of_number? hv).renumber]
      refine among_renumber e name vs ?_
      split
      · exact .of_number? hv
      · exact hbest

/-- The extreme of renumbered values is the same, since only plain values have one. -/
theorem extreme_renumber (e : Extreme) (name : String) (args : List Operand) :
    e.apply name (renumberItems σ args) = e.apply name args := by
  have hcons (v : Operand) (vs : List Operand) :
      (if (v.renumber σ).number?.isNone then .error (.badArgument name (v.renumber σ).kind)
        else e.among name (v.renumber σ) (renumberItems σ vs)) =
      (if v.number?.isNone then .error (.badArgument name v.kind) else e.among name v vs) := by
    rw [number?_renumber, kind_renumber]
    by_cases hv : v.number?.isNone = true
    · rw [if_pos hv, if_pos hv]
    · rw [if_neg hv, if_neg hv, (Plain.of_number? hv).renumber]
      exact among_renumber e name vs (.of_number? hv)
  match args with
  | [] => rfl
  | [v] =>
    have h := hcons v []
    cases v with
    | list items =>
      cases items with
      | nil => rfl
      | cons v vs => exact hcons v vs
    | _ => exact h
  | v :: w :: vs =>
    have h := hcons v (w :: vs)
    cases v <;> exact h

/-- **Functions do not depend on the numbers of the bindings.** -/
theorem applyFunction_renumber (hσ : Function.Injective σ) (name : String) (args : List Operand) :
    applyFunction name (renumberItems σ args) = applyFunction name args := by
  have hunary : applyUnary name (renumberItems σ args) = applyUnary name args := by
    match args with
    | [] => rfl
    | [v] =>
      rw [renumberItems, renumberItems, applyUnary, applyUnary]
      cases UnaryFunction.ofName? name with
      | none => rfl
      | some f => exact unaryFunction_renumber name v f
    | _ :: _ :: vs =>
      simp only [renumberItems, applyUnary, List.length_cons, renumberItems_eq_map, List.length_map]
  have hbinary (f : BinaryFunction) (name : String) :
      applyBinary f name (renumberItems σ args) = applyBinary f name args := by
    match args with
    | [] | [_] => rfl
    | [v, w] => exact binaryFunction_renumber hσ f name v w
    | _ :: _ :: _ :: vs =>
      simp only [renumberItems, applyBinary, List.length_cons, renumberItems_eq_map, List.length_map]
  unfold applyFunction
  split
  · exact extreme_renumber .least _ args
  · exact extreme_renumber .greatest _ args
  · exact hbinary .contains _
  · exact hbinary .startsWith _
  · exact hbinary .endsWith _
  · exact hunary

/-! ## Operators -/

/-- An operator gives the same for a renumbered value. -/
theorem unaryOp_renumber (op : UnaryOp) (v : Operand) : op.apply (v.renumber σ) = op.apply v := by
  cases op <;> cases v <;> rfl

/-- A division of renumbered values is the same. -/
theorem onDivisor_renumber (op : BinaryOp) (f : Double → Double → Double) (a b : Operand) :
    op.onDivisor f (a.renumber σ) (b.renumber σ) = op.onDivisor f a b := by
  rw [BinaryOp.onDivisor, BinaryOp.onDivisor, number?_renumber, number?_renumber,
    BinaryOp.typeProblem, BinaryOp.typeProblem, kind_renumber, kind_renumber]

/-- A comparison of renumbered values has the same verdict. -/
theorem onOrder_renumber (op : BinaryOp) (holds : Ordering → Bool) (a b : Operand) :
    op.onOrder holds (a.renumber σ) (b.renumber σ) = op.onOrder holds a b := by
  rw [BinaryOp.onOrder, BinaryOp.onOrder, compare?_renumber, BinaryOp.typeProblem,
    BinaryOp.typeProblem, kind_renumber, kind_renumber]

/-- A plain result has no numbers to renumber. -/
theorem PlainResult.renumber {ε : Type} {x : Except ε Operand} (h : PlainResult x) :
    x.map (renumber σ) = x := by
  cases x with
  | error e => rfl
  | ok v => exact congrArg Except.ok ((h v rfl).renumber σ)

/-- Renumbered lists are appended as the lists are. -/
theorem append_renumber (as bs : List Operand) :
    renumberItems σ as ++ renumberItems σ bs = renumberItems σ (as ++ bs) := by
  rw [renumberItems_eq_map, renumberItems_eq_map, renumberItems_eq_map, List.map_append]

/-- An operator between renumbered values gives its result with the new numbers. -/
theorem applyPresent_renumber (hσ : Function.Injective σ) (op : BinaryOp) (a b : Operand) :
    op.applyPresent (a.renumber σ) (b.renumber σ) = (op.applyPresent a b).map (renumber σ) := by
  cases op with
  | eq | ne =>
    rw [BinaryOp.applyPresent, BinaryOp.applyPresent, equal_renumber hσ]
    rfl
  | lt | le | gt | ge =>
    exact (onOrder_renumber _ _ a b).trans (plain_onOrder _ _ a b).renumber.symm
  | add =>
    cases a with
    | int m =>
      cases b with
      | int n => exact (plain_applyPresent .add (.int m) (.int n)).renumber.symm
      | _ => rfl
    | list as =>
      cases b with
      | list bs => exact congrArg (Except.ok ∘ Operand.list) (append_renumber as bs)
      | _ => rfl
    | _ => cases b <;> rfl
  | sub | mul =>
    cases a with
    | int m =>
      cases b with
      | int n => exact (plain_applyPresent _ (.int m) (.int n)).renumber.symm
      | _ => rfl
    | _ => cases b <;> rfl
  | div => exact (onDivisor_renumber _ _ a b).trans (plain_onDivisor _ _ a b).renumber.symm
  | rem =>
    have hdivisor : BinaryOp.rem.onDivisor Double.rem (a.renumber σ) (b.renumber σ) =
        (BinaryOp.rem.onDivisor Double.rem a b).map (renumber σ) :=
      (onDivisor_renumber _ _ a b).trans (plain_onDivisor _ _ a b).renumber.symm
    cases a with
    | int m =>
      cases b with
      | int n => exact (plain_applyPresent .rem (.int m) (.int n)).renumber.symm
      | _ => exact hdivisor
    | _ => exact hdivisor
  | or | and =>
    rw [BinaryOp.applyPresent, BinaryOp.applyPresent, BinaryOp.typeProblem, BinaryOp.typeProblem,
      kind_renumber, kind_renumber]
    rfl

/-- **Operators take renumbered operands to the renumbered result.** -/
theorem binaryOp_renumber (hσ : Function.Injective σ) (op : BinaryOp) (a b : Operand) :
    op.apply (a.renumber σ) (b.renumber σ) = (op.apply a b).map (renumber σ) := by
  have hpresent := applyPresent_renumber hσ op a b
  cases a with
  | missing => rfl
  | _ =>
    cases b with
    | missing => rfl
    | _ => exact hpresent

end Operand

/-! ## Expressions -/

/-- The second environment gives the renumbered operands of the first. -/
structure Environment.Renumbers (σ : Nat → Nat) (env env' : Environment) : Prop where
  lookup : ∀ name, env'.lookup name = (env.lookup name).map (Operand.renumber σ)
  follow : ∀ r : Reference, env'.follow (r.renumber σ) = (env.follow r).map (Operand.renumber σ)

variable {σ} {env env' : Environment}

namespace Environment.Renumbers

/-- A reference with a new number is followed to the same value, with the new numbers. -/
theorem settle (h : env.Renumbers σ env') (v : Operand) :
    env'.settle (v.renumber σ) = (env.settle v).map (Operand.renumber σ) := by
  cases v with
  | ref r =>
    rw [Operand.renumber, Environment.settle, Environment.settle, h.follow]
    rcases env.follow r with problem | v
    · rfl
    · cases v <;> rfl
  | _ => rfl

/-- A field of a renumbered value is what it was, with the new numbers. -/
theorem fieldOf (h : env.Renumbers σ env') (name : String) (v : Operand) :
    env'.fieldOf name (v.renumber σ) = (env.fieldOf name v).map (Operand.renumber σ) := by
  cases v with
  | record _ fields =>
    rw [Operand.renumber, Environment.fieldOf, Environment.fieldOf, ← h.settle,
      Operand.find?_renumberFields]
    cases Field.find? name fields <;> rfl
  | _ => rfl

end Environment.Renumbers

/-- A result is mapped before or after it is located. -/
theorem locate_map {α β : Type} (g : α → β) (span : Span) (x : Except EvalProblem α) :
    locate span (x.map g) = (locate span x).map g := by
  cases x <;> rfl

/-- Steps of an evaluation one after another, where the operands of the first step are changed. -/
theorem map_bind_map {α β γ δ : Type} (g : α → β) (g' : γ → δ) {x : Except EvalFault α}
    {x' : Except EvalFault β} {k : α → Except EvalFault γ} {k' : β → Except EvalFault δ}
    (hx : x' = x.map g) (hk : ∀ a, k' (g a) = (k a).map g') : x' >>= k' = (x >>= k).map g' := by
  subst hx
  cases x with
  | error e => rfl
  | ok a => exact hk a

/-- A renumbered value is as good for a side of a logical operator. -/
theorem logicSide_renumber (symbol : String) (v : Operand) :
    logicSide symbol (v.renumber σ) = logicSide symbol v := by
  cases v <;> rfl

namespace Expr

open Operand

mutual

/-- **An expression computes the renumbered operand.** -/
theorem eval_renumber (hσ : Function.Injective σ) (h : env.Renumbers σ env') :
    (e : Expr) → e.eval env' = (e.eval env).map (renumber σ)
  | .int .. | .float .. | .str .. | .bool .. | .null .. => rfl
  | .name span n => by
    rw [eval, eval, h.lookup, ← locate_map, ← h.settle]
    cases env.lookup n <;> rfl
  | .list _ items => by
    simp only [eval]
    refine map_bind_map (Option.map (renumberItems σ)) _ (evalItems_renumber hσ h items) fun vs => ?_
    cases vs <;> rfl
  | .field span base n => by
    rw [eval, eval]
    refine map_bind_map (renumber σ) _ (eval_renumber hσ h base) fun v => ?_
    rw [h.fieldOf, locate_map]
  | .call span callee args => by
    simp only [eval]
    cases args.any (·.name.isSome) with
    | true => rfl
    | false =>
      refine map_bind_map (Option.map (renumberItems σ)) _ (evalArguments_renumber hσ h args)
        fun values => ?_
      cases values with
      | none => rfl
      | some vs =>
        rw [← locate_map, (plain_applyFunction callee vs).renumber]
        exact congrArg (locate span) (applyFunction_renumber hσ callee vs)
  | .unary span op operand => by
    rw [eval, eval]
    refine map_bind_map (renumber σ) _ (eval_renumber hσ h operand) fun v => ?_
    rw [← locate_map, unaryOp_renumber, (plain_unaryOp op v).renumber]
  | .binary span op lhs rhs => by
    have hresult (left right : Option Bool) :
        (logicResult left right).renumber σ = logicResult left right :=
      (plain_logicResult left right).renumber σ
    cases op with
    | and | or =>
      simp only [eval]
      refine map_bind_map (renumber σ) _ (eval_renumber hσ h lhs) fun a => ?_
      rw [logicSide_renumber]
      refine map_bind_map id _ (Except.map_id.symm ▸ rfl) fun left => ?_
      match left with
      | some true | some false | none =>
        first
        | rfl
        | refine map_bind_map (renumber σ) _ (eval_renumber hσ h rhs) fun b => ?_
          rw [logicSide_renumber]
          refine map_bind_map id _ (Except.map_id.symm ▸ rfl) fun right => ?_
          exact congrArg Except.ok (hresult _ right).symm
    | _ =>
      simp only [eval]
      refine map_bind_map (renumber σ) _ (eval_renumber hσ h lhs) fun a => ?_
      refine map_bind_map (renumber σ) _ (eval_renumber hσ h rhs) fun b => ?_
      rw [← locate_map, binaryOp_renumber hσ]

/-- Items are evaluated in the renumbered environment to their values with the new numbers. -/
theorem evalItems_renumber (hσ : Function.Injective σ) (h : env.Renumbers σ env') :
    (items : List Expr) →
      evalItems env' items = (evalItems env items).map (Option.map (renumberItems σ))
  | [] => rfl
  | e :: es => by
    simp only [evalItems]
    refine map_bind_map (renumber σ) _ (eval_renumber hσ h e) fun v => ?_
    have hmore : (evalItems env' es >>= fun vs =>
        (pure (vs.map (v.renumber σ :: ·)) : Except EvalFault (Option (List Operand)))) =
        (evalItems env es >>= fun vs => pure (vs.map (v :: ·))).map
          (Option.map (renumberItems σ)) := by
      refine map_bind_map _ _ (evalItems_renumber hσ h es) fun vs => ?_
      cases vs <;> rfl
    cases v with
    | missing => rfl
    | _ => exact hmore

/-- Arguments are evaluated in the renumbered environment to their values with the new numbers. -/
theorem evalArguments_renumber (hσ : Function.Injective σ) (h : env.Renumbers σ env') :
    (args : List (Argument Expr)) →
      evalArguments env' args = (evalArguments env args).map (Option.map (renumberItems σ))
  | [] => rfl
  | ⟨_, e⟩ :: args => by
    simp only [evalArguments]
    refine map_bind_map (renumber σ) _ (eval_renumber hσ h e) fun v => ?_
    have hmore : (evalArguments env' args >>= fun vs =>
        (pure (vs.map (v.renumber σ :: ·)) : Except EvalFault (Option (List Operand)))) =
        (evalArguments env args >>= fun vs => pure (vs.map (v :: ·))).map
          (Option.map (renumberItems σ)) := by
      refine map_bind_map _ _ (evalArguments_renumber hσ h args) fun vs => ?_
      cases vs <;> rfl
    cases v with
    | missing => rfl
    | _ => exact hmore

end

/-- **A condition has the same result** over renumbered operands. -/
theorem check_renumber (hσ : Function.Injective σ) (h : env.Renumbers σ env') (e : Expr) :
    e.check env' = e.check env := by
  rw [check, check, eval_renumber hσ h e]
  rcases e.eval env with fault | v
  · rfl
  · have hprint := print_renumber σ v
    cases v with
    | list | record | ref =>
      exact congrArg (fun text => (Except.error ⟨.notBoolean text, e.span⟩ : Except EvalFault Bool))
        hprint
    | _ => rfl

end Expr

/-! ## Records -/

/-- A renumbered field is called by the same name or position, and has its value with the new numbers. -/
theorem calledFrom?_renumberFields (name : String) : (fields : List (Field Value)) →
    (index : Nat) → Field.calledFrom? name index (Value.renumberFields σ fields) =
      (Field.calledFrom? name index fields).map (Value.renumber σ)
  | [], _ => rfl
  | ⟨label, v⟩ :: fields, index => by
    rw [Value.renumberFields, Field.calledFrom?, Field.calledFrom?,
      show Field.isCalled index ⟨label, v.renumber σ⟩ name = Field.isCalled index ⟨label, v⟩ name from
        rfl]
    split
    · rfl
    · exact calledFrom?_renumberFields name fields (index + 1)

/-- The environment of the renumbered fields, in the renumbered store. -/
theorem recordEnvironment_renumbers {root root' : Nat → Option Value}
    (h : Value.Renumbers σ root root') (hops : Nat) (fields : List (Field Value)) :
    (recordEnvironment root hops fields).Renumbers σ
      (recordEnvironment root' hops (Value.renumberFields σ fields)) where
  lookup name := by
    simp only [recordEnvironment]
    rw [calledFrom?_renumberFields, Option.map_map, Option.map_map]
    congr 1
    funext v
    exact Operand.ofValue_renumber σ v
  follow r := by
    have hbase : root' (r.renumber σ).binding = (root r.binding).map (Value.renumber σ) := h r.binding
    simp only [recordEnvironment, hbase]
    cases root r.binding with
    | none => rfl
    | some base =>
      have hfollow := Value.follow_renumber h hops base r.path
      dsimp only [Option.map_some]
      rw [show (r.renumber σ).path = r.path from rfl, hfollow]
      rcases base.follow root hops r.path with (_ | _) | v
      · rfl
      · rfl
      · exact congrArg Except.ok (Operand.ofValue_renumber σ v)

end TypedData
