import TypedData.Document.Canonical
import TypedData.Proofs.Loaded.Basic

/-!
# Loaded references lead somewhere

The bindings of the result are those of the document, in its order.  A reference in the result names one
of them, and following it ends at a value that is no reference, though the bindings may refer to one
another in cycles.
-/

namespace TypedData

namespace Loaded

variable {loaded : Loaded} {scene : Scene} {p : Progress}

/-- The bindings of a loaded document have the names of the document, in order. -/
theorem BuiltIn.names_bindings (h : loaded.BuiltIn scene p) :
    loaded.bindings.map Prod.fst = loaded.document.bindings.map Binding.name := by
  obtain ⟨hlen, hslots⟩ := Scene.slotsOf_ok h.slots
  rw [h.bindings, h.complete.names_finished]
  refine List.ext_getElem? fun b => ?_
  rw [List.getElem?_map, List.getElem?_map]
  cases hb : loaded.document.bindings[b]? with
  | some binding =>
    obtain ⟨slot, hslot, hof⟩ := hslots b binding hb
    rw [hslot, Option.map_some, Option.map_some, hof.name]
  | none =>
    rw [List.getElem?_eq_none_iff] at hb
    rw [List.getElem?_eq_none (hlen ▸ hb)]
    rfl

/-- A reference that is contained has the name of the binding with its number. -/
theorem BuiltIn.names_reference (h : loaded.BuiltIn scene p) {r : Reference}
    (hr : loaded.Contains (.ref r)) : ∃ v, loaded.bindings[r.binding]? = some (r.name, v) := by
  obtain ⟨t, ht⟩ := h.built hr
  obtain ⟨slot, hslot, hname⟩ := Scene.slot_of_indexOf? ht.of_ref.1
  obtain ⟨v, hv⟩ := h.complete.value?_of_slot hslot
  refine ⟨v, ?_⟩
  rw [h.bindings]
  exact h.complete.getElem?_finished.2 ⟨slot, hslot, hname, hv⟩

/-- A reference that is contained leads somewhere. -/
theorem BuiltIn.walks_reference (h : loaded.BuiltIn scene p) {r : Reference}
    (hr : loaded.Contains (.ref r)) : ∃ w, Value.Walks loaded.root (.ref r) [] w := by
  obtain ⟨t, ht⟩ := h.built hr
  obtain ⟨w, hw, -⟩ := h.complete.reaches ht
  exact ⟨w, h.root ▸ hw⟩

/-- The hops that are allowed suffice for every walk there is. -/
theorem BuiltIn.deref?_of_walks (h : loaded.BuiltIn scene p) {v w : Value}
    (hw : Value.Walks loaded.root v [] w) : loaded.deref? v = some w := by
  rw [h.root] at hw
  have hsettle : Value.settle p.value? (Value.hopLimit loaded.bindings.length) v = .ok w :=
    h.complete.sound.settle_of_walks (by rw [h.length_bindings, Value.hopLimit]; omega) hw
  rw [deref?, Value.follow_nil, h.root, hsettle]
  rfl

/-- **No loaded reference dangles, and none is endless.**  There is one binding for each of the document,
in its order.  Wherever a reference occurs in the result, the binding at its position has its name, and
the walk from it ends at a value that is no reference and that dereferencing gives. -/
theorem references_lead {source : String} (h : load source = .ok loaded) :
    (∃ d, Document.read source = .ok d ∧
      loaded.bindings.map Prod.fst = d.bindings.map Binding.name) ∧
    ∀ r, loaded.Contains (.ref r) →
      (∃ v, loaded.bindings[r.binding]? = some (r.name, v)) ∧
      ∃ w, w.isReference = false ∧ Value.Walks loaded.root (.ref r) [] w ∧
        loaded.deref? (.ref r) = some w := by
  obtain ⟨d, hd, hcanonical, scene, p, hbuilt⟩ := exists_builtIn_of_load h
  refine ⟨⟨d, hd, ?_⟩, fun r hr => ⟨hbuilt.names_reference hr, ?_⟩⟩
  · rw [hbuilt.names_bindings, hcanonical, Document.bindings_canonical, List.map_map]
    rfl
  · obtain ⟨w, hw⟩ := hbuilt.walks_reference hr
    exact ⟨w, hw.isReference, hw, hbuilt.deref?_of_walks hw⟩

/-- A reference to a record that refers back. -/
theorem references_lead_ring : ∃ loaded r, load ring = .ok loaded ∧ loaded.Contains (.ref r) ∧
    ∃ w, w.isReference = false ∧ loaded.deref? (.ref r) = some w := by
  obtain ⟨loaded, hload, -, ⟨r, hc⟩, -⟩ := load_ring
  have hr : loaded.Contains (.ref r) := ⟨_, .inl ⟨"c", hc⟩, .self _⟩
  obtain ⟨-, w, hw, -, hderef⟩ := (references_lead hload).2 r hr
  exact ⟨loaded, r, hload, hr, w, hw, hderef⟩

end Loaded

end TypedData
