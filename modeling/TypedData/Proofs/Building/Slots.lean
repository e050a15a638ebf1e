import Mathlib.Data.List.Nodup
import TypedData.Building
import TypedData.Proofs.Lists

/-!
# From bindings to slots

Bindings make slots if no two of them have the same name and the types that are written for them exist.
The slot of a binding does not depend on the other bindings.
-/

namespace TypedData

/-- A slot has the name, the data and the type of a binding. -/
structure Slot.IsOf (slot : Slot) (registry : Registry) (binding : Binding) : Prop where
  name : slot.name = binding.name
  data : slot.data = binding.value
  type : ∀ type, binding.type = some type → registry.resolveType [] type = .ok slot.type

namespace Scene

/-- The type that the value of a binding has to have, by what is written for it. -/
def slotType (registry : Registry) : Option TypeExpr → Except Failure Ty
  | none => .ok .any
  | some type => (registry.resolveType [] type).mapError Failure.type

/-- The slot of a binding. -/
def slotOf (registry : Registry) (binding : Binding) : Except Failure Slot :=
  (slotType registry binding.type).map fun type => ⟨binding.name, binding.value, type⟩

variable {registry : Registry}

/-- The slot of a binding has its name, its data, and the type that it gives. -/
theorem slotOf_eq_ok_iff {binding : Binding} {slot : Slot} :
    slotOf registry binding = .ok slot ↔ slot.name = binding.name ∧ slot.data = binding.value ∧
      slotType registry binding.type = .ok slot.type := by
  obtain ⟨name, data, type⟩ := slot
  rw [slotOf]
  cases slotType registry binding.type with
  | error e =>
    constructor
    · rintro ⟨⟩
    · rintro ⟨-, -, ⟨⟩⟩
  | ok t =>
    constructor
    · rintro ⟨⟩
      exact ⟨rfl, rfl, rfl⟩
    · rintro ⟨rfl, rfl, h⟩
      exact h ▸ rfl

/-- The first binding has a new name and a slot, and so have those after it. -/
theorem slotsOf_cons {seen : List String} {binding : Binding} {bindings : List Binding} :
    slotsOf registry seen (binding :: bindings) =
      if seen.contains binding.name then
        .error (.reference (.duplicateBinding binding.name binding.span))
      else do
        return (← slotOf registry binding) :: (← slotsOf registry (binding.name :: seen) bindings) := by
  rw [slotsOf, slotOf]
  split
  · rfl
  · cases binding.type with
    | none => rfl
    | some type =>
      dsimp only [slotType]
      cases registry.resolveType [] type <;> rfl

/-- **Bindings make slots** exactly if their names are distinct and each of them makes a slot. -/
theorem slotsOf_eq_ok_iff : {bindings : List Binding} → {seen : List String} → {slots : List Slot} →
    (slotsOf registry seen bindings = .ok slots ↔
      (∀ b ∈ bindings, b.name ∉ seen) ∧ (bindings.map Binding.name).Nodup ∧
        List.Forall₂ (fun b slot => slotOf registry b = .ok slot) bindings slots)
  | [], seen, slots => by
    rw [slotsOf, Except.ok.injEq]
    constructor
    · rintro rfl
      exact ⟨List.forall_mem_nil _, .nil, .nil⟩
    · rintro ⟨-, -, ⟨⟩⟩
      rfl
  | binding :: bindings, seen, slots => by
    rw [slotsOf_cons, List.map_cons, List.nodup_cons, List.forall_mem_cons]
    by_cases hseen : binding.name ∈ seen
    · rw [if_pos (List.contains_iff_mem.2 hseen)]
      constructor
      · rintro ⟨⟩
      · rintro ⟨⟨h, -⟩, -⟩
        exact absurd hseen h
    · rw [if_neg (mt List.contains_iff_mem.1 hseen)]
      constructor
      · intro h
        obtain ⟨slot, hslot, h⟩ := bind_eq_ok_iff.1 h
        obtain ⟨rest, hrest, h⟩ := bind_eq_ok_iff.1 h
        obtain rfl := Except.ok.inj h
        obtain ⟨hfresh, hnodup, hslots⟩ := slotsOf_eq_ok_iff.1 hrest
        refine ⟨⟨hseen, fun b hb hmem => hfresh b hb (.tail _ hmem)⟩, ⟨?_, hnodup⟩, .cons hslot hslots⟩
        intro hmem
        obtain ⟨b, hb, hname⟩ := List.mem_map.1 hmem
        exact hfresh b hb (hname ▸ .head _)
      · rintro ⟨⟨-, hfresh⟩, ⟨hname, hnodup⟩, hslots⟩
        cases hslots with
        | @cons _ slot _ rest hslot hrest =>
          have hrest : slotsOf registry (binding.name :: seen) bindings = .ok rest := by
            refine slotsOf_eq_ok_iff.2 ⟨fun b hb hmem => ?_, hnodup, hrest⟩
            rcases List.mem_cons.1 hmem with h | h
            · exact hname (h ▸ List.mem_map_of_mem hb)
            · exact hfresh b hb h
          rw [hslot, hrest]
          rfl

/-- The slot of a binding is one for it. -/
theorem isOf_of_slotOf {binding : Binding} {slot : Slot} (h : slotOf registry binding = .ok slot) :
    slot.IsOf registry binding := by
  obtain ⟨hname, hdata, htype⟩ := slotOf_eq_ok_iff.1 h
  refine ⟨hname, hdata, fun type hwritten => ?_⟩
  rw [hwritten] at htype
  exact mapError_eq_ok_iff.1 htype

/-- There is one slot for each binding, in the order of the document. -/
theorem slotsOf_ok {bindings : List Binding} {seen : List String} {slots : List Slot}
    (h : slotsOf registry seen bindings = .ok slots) : slots.length = bindings.length ∧
      ∀ (i : Nat) (binding : Binding), bindings[i]? = some binding →
        ∃ slot, slots[i]? = some slot ∧ slot.IsOf registry binding := by
  obtain ⟨-, -, hslots⟩ := slotsOf_eq_ok_iff.1 h
  refine ⟨hslots.length_eq.symm, fun i binding hi => ?_⟩
  obtain ⟨slot, hslot, hof⟩ := exists_of_forall₂ hslots hi
  exact ⟨slot, hslot, isOf_of_slotOf hof⟩

/-- The slots have the names of the bindings, in order. -/
theorem names_of_slots {bindings : List Binding} {slots : List Slot}
    (h : List.Forall₂ (fun b slot => slotOf registry b = .ok slot) bindings slots) :
    slots.map Slot.name = bindings.map Binding.name := by
  induction h with
  | nil => rfl
  | cons hslot _ ih => rw [List.map_cons, List.map_cons, (slotOf_eq_ok_iff.1 hslot).1, ih]

/-- Where a name is bound depends on the names of the slots alone. -/
theorem indexOf?_eq (scene : Scene) (name : String) :
    scene.indexOf? name = (scene.slots.map Slot.name).findIdx? (· == name) := by
  rw [List.findIdx?_map]
  rfl

/-- Where no two slots have the same name, a name leads to its slot. -/
theorem indexOf?_eq_some_iff {scene : Scene} (hnodup : (scene.slots.map Slot.name).Nodup) {name : String}
    {b : Nat} : scene.indexOf? name = some b ↔ (scene.slots.map Slot.name)[b]? = some name := by
  rw [indexOf?_eq]
  constructor
  · intro h
    obtain ⟨hlt, hname, -⟩ := List.findIdx?_eq_some_iff_getElem.1 h
    exact List.getElem?_eq_some_iff.2 ⟨hlt, beq_iff_eq.1 hname⟩
  · intro h
    obtain ⟨hlt, rfl⟩ := List.getElem?_eq_some_iff.1 h
    refine List.findIdx?_eq_some_iff_getElem.2 ⟨hlt, beq_self_eq_true _, fun c hc hsame => ?_⟩
    have hcb := hnodup.getElem_inj_iff.1 (beq_iff_eq.1 hsame)
    omega

end Scene

end TypedData
