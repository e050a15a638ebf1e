import TypedData.Proofs.Typing.Widening
import TypedData.Proofs.Value.Walk

/-!
# Values of a type

`Ty.conforms` looks at a value from outside.  `Conforms` goes through the whole value: the items of a list
and the fields of a record have to be of their types, too, whatever depth they stand at.  Only where a
reference is met the value that it leads to is looked at from outside, since it may contain the
reference.
-/

namespace TypedData

namespace Value

/-- `Conforms registry root t v` says that `v` is a value of the type `t`, where the values of the
bindings are given by `root`. -/
inductive Conforms (registry : Registry) (root : Nat → Option Value) : Ty → Value → Prop
  | any {t : Ty} {v : Value} : t.isOpen = true → Conforms registry root t v
  | null {inner : Ty} : Conforms registry root (.optional inner) .null
  | optional {inner : Ty} {v : Value} :
      Conforms registry root inner v → Conforms registry root (.optional inner) v
  | int (n : Integer) : Conforms registry root (.prim .int) (.int n)
  | float (x : Double) : Conforms registry root (.prim .float) (.float x)
  | bool (b : Bool) : Conforms registry root (.prim .bool) (.bool b)
  | str (text : String) : Conforms registry root (.prim .str) (.str text)
  | list {item : Ty} {items : List Value} :
      (∀ v ∈ items, Conforms registry root item v) → Conforms registry root (.list item) (.list items)
  | record {ctor : Constructor} {args : List Ty} {fields : List (Field Value)} :
      registry.constructor? ctor.name = some ctor →
      fields.map Field.name = ctor.fields.map FieldSpec.name →
      (∀ (i : Nat) (f : Field Value) (u : Ty), fields[i]? = some f →
        (registry.fieldTypes ctor args)[i]? = some u → Conforms registry root u f.value) →
      Conforms registry root (.named ctor.typeName args)
        (.record (some ctor.typeName) (some ctor.name) fields)
  | handle {t : Ty} {r : Reference} {target : Value} :
      Walks root (.ref r) [] target → t.conforms target = true → Conforms registry root t (.ref r)

/-- **A value of a type is a value of each that it is widened to.** -/
theorem Conforms.widen {registry : Registry} {root : Nat → Option Value} {t u : Ty} {v : Value}
    (h : Conforms registry root t v) (htu : t.Widens u) : Conforms registry root u v := by
  induction h generalizing u with
  | any ht =>
    cases htu with
    | «open» hu => exact .any hu
    | prim => exact .any ht
    | _ => cases ht
  | null =>
    cases htu with
    | «open» hu => exact .any hu
    | optional => exact .null
  | optional _ ih =>
    cases htu with
    | «open» hu => exact .any hu
    | optional hinner => exact .optional (ih hinner)
  | int n =>
    cases htu with
    | «open» hu => exact .any hu
    | prim => exact .int n
  | float x =>
    cases htu with
    | «open» hu => exact .any hu
    | prim => exact .float x
  | bool b =>
    cases htu with
    | «open» hu => exact .any hu
    | prim => exact .bool b
  | str text =>
    cases htu with
    | «open» hu => exact .any hu
    | prim => exact .str text
  | list _ ih =>
    cases htu with
    | «open» hu => exact .any hu
    | list hitem => exact .list fun v hv => ih v hv hitem
  | @record ctor args fields hctor hnames _ ih =>
    cases htu with
    | «open» hu => exact .any hu
    | named hlen hargs =>
      refine .record hctor hnames fun i f u hf hu => ?_
      obtain ⟨t, ht, htu⟩ := registry.fieldTypes_widens ctor ⟨hlen, hargs⟩ hu
      exact ih i f t hf ht htu
  | handle htarget hconforms => exact .handle htarget (htu.conforms hconforms)

end Value

end TypedData
