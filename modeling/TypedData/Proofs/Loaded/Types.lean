import TypedData.Document.Canonical
import TypedData.Proofs.Loaded.Basic
import TypedData.Proofs.Value.Conforms

/-!
# Loaded values have their types

What was built at a type is a value of the type when everything is finished (`Complete.conforms`): what
was left to be checked has been checked, and every reference leads to a value of its type.
-/

namespace TypedData

open Value (Conforms)

namespace Scene

variable {scene : Scene} {p : Progress}

/-- What was built at a type, deep down, is a value of the type. -/
theorem Complete.conforms (h : scene.Complete p) {t : Ty} {v : Value} (hv : scene.Built p t v) :
    Conforms scene.registry p.value? t v := by
  induction hv with
  | @null t ht =>
    rcases ht with ht | ht
    · cases t with
      | optional inner => exact .null
      | _ => cases ht
    · exact .any ht
  | optional _ ih => exact .optional ih
  | plain ht => exact .any ht
  | int n => exact .int n
  | float x => exact .float x
  | bool b => exact .bool b
  | str text => exact .str text
  | @list t item items hitem _ ih =>
    unfold Ty.item? at hitem
    split at hitem
    · obtain rfl := Option.some.inj hitem
      exact .list ih
    · exact .any rfl
    · exact .any rfl
    · cases hitem
  | fields ht => exact .any ht
  | record hctor haccepts hnames _ _ ih =>
    rcases haccepts with rfl | ⟨ht, -⟩
    · exact .record hctor hnames ih
    · exact .any ht
  | handle hindex hreach =>
    obtain ⟨target, htarget, hconforms⟩ := h.reaches (.handle hindex hreach)
    exact .handle htarget hconforms

end Scene

namespace Loaded

variable {loaded : Loaded} {scene : Scene} {p : Progress}

namespace BuiltIn

/-- What is built for a type conforms to it when everything is finished. -/
theorem conforms (h : loaded.BuiltIn scene p) {t : Ty} {v : Value} (hv : scene.Built p t v) :
    Conforms loaded.registry loaded.root t v := by
  rw [h.root, ← h.registry]
  exact h.complete.conforms hv

/-- A binding with a type has a value that conforms to it. -/
theorem binding_conforms (h : loaded.BuiltIn scene p) {i : Nat} {binding : Binding}
    {type : TypeExpr} (hi : loaded.document.bindings[i]? = some binding)
    (htype : binding.type = some type) :
    ∃ t v, loaded.registry.resolveType [] type = .ok t ∧
      loaded.bindings[i]? = some (binding.name, v) ∧ Conforms loaded.registry loaded.root t v := by
  obtain ⟨slot, hslot, hof⟩ := (Scene.slotsOf_ok h.slots).2 i binding hi
  obtain ⟨v, hv⟩ := h.complete.value?_of_slot hslot
  refine ⟨slot.type, v, hof.type type htype, ?_, h.conforms (h.complete.sound.built i slot v hslot hv)⟩
  rw [h.bindings]
  exact h.complete.getElem?_finished.2 ⟨slot, hslot, hof.name, hv⟩

/-- A record by a constructor has its fields in order, with values that conform to their types. -/
theorem record_conforms (h : loaded.BuiltIn scene p) {typeName : Option String} {c : String}
    {fields : List (Field Value)} (hx : loaded.Contains (.record typeName (some c) fields)) :
    ∃ ctor, loaded.registry.constructor? c = some ctor ∧ typeName = some ctor.typeName ∧
      fields.map Field.name = ctor.fields.map FieldSpec.name ∧
      ∀ (i : Nat) (f : Field Value) (t : Ty), fields[i]? = some f →
        (loaded.registry.fieldTypes ctor [])[i]? = some t →
        Conforms loaded.registry loaded.root t f.value := by
  obtain ⟨t, ht⟩ := h.built hx
  obtain ⟨ctor, args, hctor, htypeName, hnames, hfields, -, -⟩ := ht.of_record
  rw [h.registry] at hctor hfields
  refine ⟨ctor, hctor, htypeName, hnames, fun i f u hf hu => ?_⟩
  obtain ⟨t, ht, htu⟩ := loaded.registry.fieldTypes_widens ctor (.nil args) hu
  exact (h.conforms (hfields i f t hf ht)).widen htu

end BuiltIn

/-- **Loaded values have their types.**  The value of a binding with a type is a value of that type.  A
record of a constructor, wherever it occurs in the result, carries the type of the constructor and has
its fields in their order, and their values are of the types that they are declared with, where
parameters accept any value. -/
theorem values_conform {source : String} (h : load source = .ok loaded) :
    (∃ d, Document.read source = .ok d ∧
      ∀ (i : Nat) (binding : Binding) (type : TypeExpr),
        d.bindings[i]? = some binding → binding.type = some type →
        ∃ t v, loaded.registry.resolveType [] type = .ok t ∧
          loaded.bindings[i]? = some (binding.name, v) ∧
          Conforms loaded.registry loaded.root t v) ∧
    ∀ (typeName : Option String) (c : String) (fields : List (Field Value)),
      loaded.Contains (.record typeName (some c) fields) →
      ∃ ctor, loaded.registry.constructor? c = some ctor ∧ typeName = some ctor.typeName ∧
        fields.map Field.name = ctor.fields.map FieldSpec.name ∧
        ∀ (i : Nat) (f : Field Value) (t : Ty), fields[i]? = some f →
          (loaded.registry.fieldTypes ctor [])[i]? = some t →
          Conforms loaded.registry loaded.root t f.value := by
  obtain ⟨d, hd, hcanonical, scene, p, hbuilt⟩ := exists_builtIn_of_load h
  refine ⟨⟨d, hd, fun i binding type hi htype => ?_⟩, fun _ _ _ hx => hbuilt.record_conforms hx⟩
  have hi' : loaded.document.bindings[i]? = some (Document.canonicalBinding binding) := by
    rw [hcanonical, Document.bindings_canonical, List.getElem?_map, hi, Option.map_some]
  obtain ⟨t, v, ht, hv, hconforms⟩ := hbuilt.binding_conforms hi' htype
  exact ⟨t, v, ht, hv, hconforms⟩

/-- A record that refers to another one of its type. -/
theorem values_conform_ring : ∃ loaded typeName fields ctor, load ring = .ok loaded ∧
    loaded.Contains (.record typeName (some "node") fields) ∧
    loaded.registry.constructor? "node" = some ctor ∧
    fields.map Field.name = ctor.fields.map FieldSpec.name := by
  obtain ⟨loaded, hload, ⟨typeName, fields, ha⟩, -⟩ := load_ring
  have hx : loaded.Contains (.record typeName (some "node") fields) := ⟨_, .inl ⟨"a", ha⟩, .self _⟩
  obtain ⟨ctor, hctor, -, hnames, -⟩ := (values_conform hload).2 typeName "node" fields hx
  exact ⟨loaded, typeName, fields, ctor, hload, hx, hctor, hnames⟩

end Loaded

end TypedData
