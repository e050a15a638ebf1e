import TypedData.Value

/-!
# What stands in a value

A part of a value is the value itself, an item of a list that is a part of it, or the value of a field
of a record that is.  A **plain** value has neither records nor references among its parts.
-/

namespace TypedData

namespace Value

/-- `Part x v` says that `x` stands in `v`, at any depth. -/
inductive Part : Value → Value → Prop
  | self (v : Value) : Part v v
  | item {x v : Value} {items : List Value} : v ∈ items → Part x v → Part x (.list items)
  | field {x : Value} {f : Field Value} {typeName ctor : Option String}
      {fields : List (Field Value)} :
      f ∈ fields → Part x f.value → Part x (.record typeName ctor fields)

/-- Parts of parts are parts. -/
theorem Part.trans {x y v : Value} (hxy : Part x y) (hyv : Part y v) : Part x v := by
  induction hyv with
  | self => exact hxy
  | item hv _ ih => exact .item hv ih
  | field hf _ ih => exact .field hf ih

/-- The field of a record is a part of it. -/
theorem Part.of_field? {name : String} {v w : Value} (h : v.field? name = some w) : Part w v := by
  cases v with
  | record typeName ctor fields =>
    obtain ⟨f, hf, rfl⟩ := Option.map_eq_some_iff.1 (show Field.find? name fields = some w from h)
    exact .field (List.mem_of_find?_eq_some hf) (.self _)
  | _ => cases (show none = some w from h)

/-- A value without records and references in it. -/
inductive Plain : Value → Prop
  | null : Plain .null
  | bool (b : Bool) : Plain (.bool b)
  | int (n : Integer) : Plain (.int n)
  | float (x : Double) : Plain (.float x)
  | str (text : String) : Plain (.str text)
  | list {items : List Value} : (∀ v ∈ items, Plain v) → Plain (.list items)

namespace Plain

/-- A plain value is no reference. -/
theorem isReference {v : Value} (h : Plain v) : v.isReference = false := by
  cases h <;> rfl

/-- What stands in a plain value is plain. -/
theorem part {x v : Value} (hv : Plain v) (hx : Part x v) : Plain x := by
  induction hx with
  | self => exact hv
  | item hmem _ ih =>
    cases hv with
    | list hitems => exact ih (hitems _ hmem)
  | field => cases hv

end Plain

end Value

end TypedData
