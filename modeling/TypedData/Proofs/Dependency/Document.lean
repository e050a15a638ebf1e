import TypedData.Proofs.Building.Slots
import TypedData.Proofs.Dependency.Reading

/-!
# Cycles of references in documents

What the bindings of a document refer to is written in their data, in whatever notation and at whatever
places.  Cycles of references between slots are cycles between the names of the bindings
(`Document.readsInCycle_of_slots`).
-/

namespace TypedData

/-! ## References at other places -/

namespace Data

variable (f : Span → Span)

mutual

/-- The references in data do not depend on where it stands. -/
theorem references_relocate : (d : Data) → (d.relocate f).references = d.references
  | .null _ | .bool _ _ | .int _ _ | .float _ _ | .str _ _ | .reference _ _ _ => rfl
  | .list _ items | .dashList _ items | .listBlock _ _ items => referencesOfItems_relocate items
  | .call _ _ args => referencesOfArguments_relocate args
  | .record _ entries | .fieldBlock _ entries | .dashRecord _ entries | .ctorBlock _ _ entries =>
    referencesOfEntries_relocate entries

/-- The references in items do not depend on where they stand. -/
theorem referencesOfItems_relocate : (ds : List Data) →
    referencesOfItems (relocateItems f ds) = referencesOfItems ds
  | [] => rfl
  | d :: ds => by
    rw [relocateItems, referencesOfItems, referencesOfItems, references_relocate d,
      referencesOfItems_relocate ds]

/-- The references in arguments do not depend on where they stand. -/
theorem referencesOfArguments_relocate : (args : List (Argument Data)) →
    referencesOfArguments (relocateArguments f args) = referencesOfArguments args
  | [] => rfl
  | ⟨_, d⟩ :: args => by
    rw [relocateArguments, referencesOfArguments, referencesOfArguments, references_relocate d,
      referencesOfArguments_relocate args]

/-- The references in entries do not depend on where they stand. -/
theorem referencesOfEntries_relocate : (entries : List (Entry Data)) →
    referencesOfEntries (relocateEntries f entries) = referencesOfEntries entries
  | [] => rfl
  | ⟨_, _, d⟩ :: entries => by
    rw [relocateEntries, referencesOfEntries, referencesOfEntries, references_relocate d,
      referencesOfEntries_relocate entries]

end

/-- Whether data is a reference does not depend on where it stands. -/
theorem isReference_relocate (d : Data) : (d.relocate f).isReference = d.isReference := by
  cases d <;> rfl

/-- What data reads does not depend on where it stands. -/
theorem reads_relocate (d : Data) (name : String) : (d.relocate f).Reads name ↔ d.Reads name := by
  rw [Reads, Reads, isReference_relocate, references_relocate]

end Data

/-! ## Documents -/

/-- The name of a binding. -/
def Scene.nameOf (scene : Scene) (b : Nat) : String := (scene.slots[b]?.map Slot.name).getD ""

/-- A position has the name of its slot. -/
theorem Scene.nameOf_of_slot {scene : Scene} {b : Nat} {slot : Slot}
    (h : scene.slots[b]? = some slot) : scene.nameOf b = slot.name := by
  rw [nameOf, h]
  rfl

namespace Document

open Relation (ReflTransGen)

variable {d : Document}

/-- A binding of the first name refers to the second name. -/
def Mentions (d : Document) (x y : String) : Prop :=
  ∃ b ∈ d.bindings, b.name = x ∧ ∃ path, (y, path) ∈ b.value.references

/-- A binding reads another one, from which references lead back to it. -/
def ReadsInCycle (d : Document) : Prop :=
  ∃ b ∈ d.bindings, ∃ name, b.value.Reads name ∧ ReflTransGen d.Mentions name b.name

/-- Which binding mentions which does not depend on where they stand. -/
theorem mentions_relocate (f : Span → Span) : (d.relocate f).Mentions = d.Mentions := by
  funext x y
  rw [Mentions, Mentions, bindings_relocate]
  refine propext ⟨?_, ?_⟩
  · rintro ⟨_, hmem, hname, path, hpath⟩
    obtain ⟨b, hb, rfl⟩ := List.mem_map.1 hmem
    exact ⟨b, hb, hname, path, Data.references_relocate f b.value ▸ hpath⟩
  · rintro ⟨b, hb, hname, path, hpath⟩
    refine ⟨_, List.mem_map_of_mem hb, hname, path, ?_⟩
    exact (Data.references_relocate f b.value).symm ▸ hpath

/-- Places make no difference to cycles. -/
theorem ReadsInCycle.of_relocate {f : Span → Span} (h : (d.relocate f).ReadsInCycle) :
    d.ReadsInCycle := by
  obtain ⟨_, hmem, name, hreads, hback⟩ := h
  rw [bindings_relocate] at hmem
  obtain ⟨b, hb, rfl⟩ := List.mem_map.1 hmem
  exact ⟨b, hb, name, (Data.reads_relocate f b.value name).1 hreads, mentions_relocate f ▸ hback⟩

section Slots

variable {scene : Scene}
  (h : List.Forall₂ (fun b slot => Scene.slotOf scene.registry b = .ok slot) d.bindings scene.slots)

include h

/-- Every slot comes from a binding of the document, with its name, its data and its type. -/
theorem binding_of_slot {i : Nat} {slot : Slot} (hslot : scene.slots[i]? = some slot) :
    ∃ b ∈ d.bindings, b.name = slot.name ∧ b.value = slot.data ∧
      Scene.slotType scene.registry b.type = .ok slot.type := by
  obtain ⟨b, hb, hof⟩ := exists_of_forall₂ h.flip hslot
  obtain ⟨hname, hdata, htype⟩ := Scene.slotOf_eq_ok_iff.1 hof
  exact ⟨b, List.mem_of_getElem? hb, hname.symm, hdata.symm, htype⟩

/-- Where a slot refers to another one, its name refers to the name of the other. -/
theorem mentions_of_slots {i j : Nat} (hmention : scene.Mentions i j) :
    d.Mentions (scene.nameOf i) (scene.nameOf j) := by
  obtain ⟨source, name, path, hsource, hmem, hindex⟩ := hmention
  obtain ⟨c, hc, hname, hdata, -⟩ := binding_of_slot h hsource
  obtain ⟨target, htarget, rfl⟩ := Scene.slot_of_indexOf? hindex
  exact ⟨c, hc, hname.trans (Scene.nameOf_of_slot hsource).symm, path,
    hdata ▸ (Scene.nameOf_of_slot htarget).symm ▸ hmem⟩

/-- A cycle of slots is a cycle of the bindings that they were made of. -/
theorem readsInCycle_of_slots (hcycle : scene.ReadsInCycle) : d.ReadsInCycle := by
  obtain ⟨i, slot, _, j, hslot, hreads, hindex, hback⟩ := hcycle
  obtain ⟨b, hb, hname, hdata, -⟩ := binding_of_slot h hslot
  obtain ⟨target, htarget, rfl⟩ := Scene.slot_of_indexOf? hindex
  refine ⟨b, hb, target.name, hdata ▸ hreads, ?_⟩
  rw [hname, ← Scene.nameOf_of_slot hslot, ← Scene.nameOf_of_slot htarget]
  exact hback.lift scene.nameOf fun _ _ => mentions_of_slots h

end Slots

end Document

end TypedData
