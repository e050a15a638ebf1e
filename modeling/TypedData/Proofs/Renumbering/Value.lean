import TypedData.Building.Fit
import TypedData.Proofs.Value.Walk

/-!
# Other numbers for the bindings

A reference holds the number of its binding.  `renumber σ` puts `σ b` in the place of every number `b`
and changes nothing else.  Whatever can be seen of a value without following references is the same for
the renumbered one.  In a store that is renumbered as a whole (`Renumbers`) references lead to the
renumbered values.
-/

namespace TypedData

variable (σ : Nat → Nat)

/-- The same use of a binding that has another number. -/
def Reference.renumber (r : Reference) : Reference := { r with binding := σ r.binding }

/-- A reference is printed by its name, whatever its number is. -/
theorem Reference.print_renumber (r : Reference) : (r.renumber σ).print = r.print := rfl

namespace Value

mutual

/-- The value with other numbers for the bindings. -/
def renumber : Value → Value
  | null => null
  | bool b => bool b
  | int n => int n
  | float x => float x
  | str text => str text
  | list items => list (renumberItems items)
  | record typeName ctor fields => record typeName ctor (renumberFields fields)
  | ref r => ref (r.renumber σ)

/-- The items of a list with other numbers for the bindings. -/
def renumberItems : List Value → List Value
  | [] => []
  | v :: vs => v.renumber :: renumberItems vs

/-- The fields of a record with other numbers for the bindings. -/
def renumberFields : List (Field Value) → List (Field Value)
  | [] => []
  | ⟨name, v⟩ :: fields => ⟨name, v.renumber⟩ :: renumberFields fields

end

/-- Items are renumbered one by one. -/
theorem renumberItems_eq_map : (vs : List Value) → renumberItems σ vs = vs.map (renumber σ)
  | [] => rfl
  | _ :: vs => congrArg _ (renumberItems_eq_map vs)

/-- Fields are renumbered one by one, each with its name. -/
theorem renumberFields_eq_map : (fields : List (Field Value)) →
    renumberFields σ fields = fields.map fun field => ⟨field.name, field.value.renumber σ⟩
  | [] => rfl
  | _ :: fields => congrArg _ (renumberFields_eq_map fields)

mutual

/-- A value with its own numbers is itself. -/
theorem renumber_id : (v : Value) → v.renumber id = v
  | null | bool _ | int _ | float _ | str _ | ref _ => rfl
  | list items => by rw [renumber, renumberItems_id items]
  | record _ _ fields => by rw [renumber, renumberFields_id fields]

/-- Items with their own numbers are themselves. -/
theorem renumberItems_id : (vs : List Value) → renumberItems id vs = vs
  | [] => rfl
  | v :: vs => by rw [renumberItems, renumber_id v, renumberItems_id vs]

/-- Fields with their own numbers are themselves. -/
theorem renumberFields_id : (fields : List (Field Value)) → renumberFields id fields = fields
  | [] => rfl
  | ⟨_, v⟩ :: fields => by rw [renumberFields, renumber_id v, renumberFields_id fields]

end

/-- A plain value has no references to renumber. -/
theorem Plain.renumber {v : Value} (h : v.Plain) : v.renumber σ = v := by
  induction h with
  | @list items _ ih =>
    rw [Value.renumber, renumberItems_eq_map, List.map_congr_left ih, List.map_id']
  | _ => rfl

/-! ## What can be seen of a value -/

/-- A renumbered value is described alike. -/
theorem describe_renumber (v : Value) : (v.renumber σ).describe = v.describe := by
  cases v with
  | record _ ctor _ => cases ctor <;> rfl
  | _ => rfl

mutual

/-- A renumbered value is printed alike. -/
theorem print_renumber : (v : Value) → (v.renumber σ).print = v.print
  | null | bool _ | int _ | float _ | str _ => rfl
  | ref r => r.print_renumber σ
  | list items => by rw [renumber, print, print, printItems_renumber items]
  | record _ ctor fields => by simp only [renumber, print, printFields_renumber ctor fields]

/-- Renumbered items are printed alike. -/
theorem printItems_renumber : (vs : List Value) → printItems (renumberItems σ vs) = printItems vs
  | [] => rfl
  | v :: vs => by
    rw [renumberItems, printItems, printItems, print_renumber v, printItems_renumber vs]

/-- Renumbered fields are printed alike. -/
theorem printFields_renumber (ctor : Option String) : (fields : List (Field Value)) →
    printFields ctor (renumberFields σ fields) = printFields ctor fields
  | [] => rfl
  | ⟨name, v⟩ :: fields => by
    rw [renumberFields, printFields, printFields, print_renumber v, printFields_renumber ctor fields]

end

/-- A field is found among renumbered ones under its name, with the new numbers. -/
theorem find?_renumberFields (name : String) : (fields : List (Field Value)) →
    Field.find? name (renumberFields σ fields) = (Field.find? name fields).map (renumber σ)
  | fields => by
    rw [renumberFields_eq_map, Field.find?, Field.find?, List.find?_map, Option.map_map,
      Option.map_map]
    rfl

/-- A renumbered value has the same fields, with the new numbers. -/
theorem field?_renumber (name : String) (v : Value) :
    (v.renumber σ).field? name = (v.field? name).map (renumber σ) := by
  cases v with
  | record _ _ fields => exact find?_renumberFields σ name fields
  | _ => rfl

end Value

/-- Whether a value has a type does not depend on the numbers of the bindings. -/
theorem Ty.conforms_renumber : (t : Ty) → (v : Value) → t.conforms (v.renumber σ) = t.conforms v
  | .prim p, v => by cases p <;> cases v <;> rfl
  | .param _, v => by cases v <;> rfl
  | .named _ _, v => by cases v <;> rfl
  | .optional inner, v => by
    have ih := conforms_renumber inner v
    cases v <;> first | rfl | exact ih
  | .list inner, v => by
    cases v with
    | list items =>
      change (Value.renumberItems σ items).all inner.conforms = items.all inner.conforms
      rw [Value.renumberItems_eq_map, List.all_map]
      exact congrArg items.all (funext (conforms_renumber inner))
    | _ => rfl

/-! ## Following references -/

namespace Value

variable {root root' : Nat → Option Value}

/-- The second store has the renumbered values of the first. -/
def Renumbers (root root' : Nat → Option Value) : Prop :=
  ∀ b, root' (σ b) = (root b).map (renumber σ)

variable {σ}

/-- A path through renumbered values leads to what it led to before, with the new numbers. -/
theorem walkFields_renumber {settled settled' : Value → Except PathError Value}
    (h : ∀ v, settled' (v.renumber σ) = (settled v).map (renumber σ)) (v : Value)
    (path : List String) :
    walkFields settled' (v.renumber σ) path = (walkFields settled v path).map (renumber σ) := by
  induction path generalizing v with
  | nil => exact h v
  | cons name path ih =>
    rw [walkFields_cons, walkFields_cons, h]
    cases settled v with
    | error e => rfl
    | ok u =>
      dsimp only [Except.map]
      rw [field?_renumber]
      cases u.field? name with
      | none => rfl
      | some x => exact ih x

/-- A renumbered value settles to what it settled to before, with the new numbers. -/
theorem settle_renumber (h : Renumbers σ root root') (hops : Nat) (v : Value) :
    settle root' hops (v.renumber σ) = (settle root hops v).map (renumber σ) := by
  induction hops generalizing v with
  | zero => cases v <;> rfl
  | succ hops ih =>
    cases v with
    | ref r =>
      have hbase : root' (r.renumber σ).binding = (root r.binding).map (renumber σ) := h r.binding
      rw [renumber]
      cases hr : root r.binding with
      | none =>
        rw [hr] at hbase
        rw [settle_ref_of_none hr, settle_ref_of_none hbase]
        rfl
      | some base =>
        rw [hr] at hbase
        rw [settle_ref_of_some hr, settle_ref_of_some hbase]
        exact walkFields_renumber ih base r.path
    | _ => rfl

/-- **In the renumbered store references lead to the renumbered values.** -/
theorem follow_renumber (h : Renumbers σ root root') (hops : Nat) (v : Value) (path : List String) :
    (v.renumber σ).follow root' hops path = (v.follow root hops path).map (renumber σ) :=
  walkFields_renumber (settle_renumber h hops) v path

end Value

end TypedData
