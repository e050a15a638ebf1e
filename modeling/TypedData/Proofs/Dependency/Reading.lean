import TypedData.Proofs.Dependency.Chain

/-!
# Bindings that read others

A binding **reads** another one if it needs the value of it when it is built: if it is nothing but a
reference to it, or holds a reference to a field of it.  Whole references inside lists and records need
nothing but the name.

Where a binding is used that is not finished, and the use cannot wait, references lead from a binding that
some binding reads back to the one that reads it (`readsInCycle_of_urgent`).
-/

namespace TypedData

namespace Data

/-- Whether the data is nothing but a reference. -/
def isReference : Data → Bool
  | reference .. => true
  | _ => false

/-- The data needs the value of the binding of a name when it is built: it is nothing but a reference to
it, or holds a reference to a field of it. -/
def Reads (d : Data) (name : String) : Prop :=
  ∃ path, (name, path) ∈ d.references ∧ (d.isReference = true ∨ path ≠ [])

end Data

namespace Value

/-- Whether the value is a list or a record. -/
def isComposite : Value → Bool
  | .list _ | .record .. => true
  | _ => false

/-- Whether a value has parts does not depend on the numbers of bindings. -/
theorem isComposite_renumber (σ : Nat → Nat) (v : Value) :
    (v.renumber σ).isComposite = v.isComposite := by
  cases v <;> rfl

end Value

/-- A value with parts conforms to no type of single values. -/
theorem Ty.conforms_of_isComposite {t : Ty} {v : Value} (ht : t.isScalar = true)
    (hv : v.isComposite = true) : t.conforms v = false := by
  cases t with
  | prim primitive =>
    cases primitive with
    | any => cases ht
    | _ =>
      cases v with
      | list | record => rfl
      | _ => cases hv
  | _ => cases ht

namespace Scene

open Relation (ReflTransGen TransGen)

variable {scene : Scene}

/-! ## Lists and records -/

/-- The step gives nothing but lists and records. -/
def Composes (m : Build Value) : Prop := ∀ p v q, m.Gives p v q → v.isComposite = true

namespace Composes

variable {α : Type}

/-- A value with parts is composed. -/
theorem pure {v : Value} (hv : v.isComposite = true) : Composes (Pure.pure v) := by
  intro p w q h
  obtain ⟨rfl, -⟩ := Build.gives_pure_iff.1 h
  exact hv

/-- A failure composes nothing else. -/
theorem failure {e : Failure} : Composes (throw e) :=
  fun _ _ _ h => absurd h Build.not_gives_throw

/-- What composes at last composes after any step. -/
theorem bind {m : Build α} {k : α → Build Value} (hk : ∀ a, Composes (k a)) :
    Composes (m >>= k) := by
  intro p v r h
  obtain ⟨a, q, -, hv⟩ := Build.gives_bind_iff.1 h
  exact hk a q v r hv

end Composes

/-- A constructor composes its record. -/
theorem composes_construct {ctorName : String} {args : List BuildArgument} {t : Ty} {span : Span} :
    Composes (scene.construct ctorName args t span) := by
  rw [construct_eq]
  split
  · exact .failure
  · refine .bind fun typeArgs => ?_
    split
    · exact .failure
    · exact .bind fun fields => .bind fun _ => .pure rfl

/-- A list is composed. -/
theorem composes_buildList {items : Ty → Build (List Value)} {t : Ty} {span : Span} :
    Composes (buildList items t span) := by
  unfold buildList
  split
  · exact .bind fun vs => .pure rfl
  · exact .failure

/-- A record is composed, by a constructor or without one. -/
theorem composes_buildRecord {args : List BuildArgument}
    {tagged : Option (String × List BuildArgument)} {fields : Build (List (Field Value))} {t : Ty}
    {span : Span} : Composes (scene.buildRecord args tagged fields t span) := by
  unfold buildRecord
  split
  · split
    · exact composes_construct
    · split
      · split
        · exact composes_construct
        · exact .failure
      · exact .failure
  · exact .bind fun _ => .pure rfl
  · exact .bind fun _ => .pure rfl
  · exact .failure

/-- Data with references in it gives a list or a record, unless it is nothing but a reference. -/
theorem composes_buildSlot {force : Nat → Build Unit} {slot : Slot}
    (hdata : slot.data.isReference = false) (hreferences : slot.data.references ≠ []) :
    Composes (scene.buildSlot force slot) := by
  obtain ⟨name, data, type⟩ := slot
  cases data with
  | null | bool | int | float | str => exact absurd rfl hreferences
  | reference => cases hdata
  | list | dashList => exact composes_buildList
  | call | ctorBlock | listBlock => exact composes_construct
  | record | fieldBlock | dashRecord => exact composes_buildRecord

/-- In a store of values, bindings with references in them have lists and records for values, unless they
are nothing but references. -/
def Shaped (scene : Scene) (root : Nat → Option Value) : Prop :=
  ∀ b slot v, scene.slots[b]? = some slot → root b = some v →
    slot.data.isReference = true ∨ slot.data.references = [] ∨ v.isComposite = true

/-- Bindings that are built again from themselves have the shape of their data. -/
theorem Rebuilt.shaped {final : Progress} (h : scene.Rebuilt final final) :
    scene.Shaped final.value? := by
  intro b slot v hslot hv
  cases hdata : slot.data.isReference with
  | true => exact .inl rfl
  | false =>
    refine .inr (Decidable.or_iff_not_imp_left.2 fun hreferences => ?_)
    exact composes_buildSlot hdata hreferences _ _ _ (h b slot v hslot hv)

/-! ## Cycles -/

/-- A binding reads another one, from which references lead back to it. -/
def ReadsInCycle (scene : Scene) : Prop :=
  ∃ b slot name c, scene.slots[b]? = some slot ∧ slot.data.Reads name ∧
    scene.indexOf? name = some c ∧ ReflTransGen scene.Mentions c b

/-- A reference that needs the value of a binding: `whole` says that it is the whole value of a binding,
and the binding that it names is itself no list and no record with references in it. -/
def Urgent (scene : Scene) (whole : Bool) (path : List String) (b : Nat) : Prop :=
  whole = true ∨ path ≠ [] ∨ ∃ slot, scene.slots[b]? = some slot ∧
    (slot.data.isReference = true ∨ slot.data.references = [])

/-- **An urgent reference from the innermost binding to one in progress** makes a cycle, one step of
which is from a binding to another that it reads: it is this reference, or the one that the binding that it
names consists of. -/
theorem readsInCycle_of_urgent {cur b c : Nat} {chain : List Nat} {slot : Slot} {whole : Bool}
    {name : String} {path : List String}
    (hchain : (cur :: chain).IsChain fun b c => scene.Mentions c b)
    (hslot : scene.slots[cur]? = some slot) (hmem : (name, path) ∈ slot.data.references)
    (hb : scene.indexOf? name = some b) (hwhole : whole = true → slot.data.isReference = true)
    (hc : c ∈ cur :: chain) (hreach : ReflTransGen scene.Mentions b c)
    (hurgent : scene.Urgent whole path b) : scene.ReadsInCycle := by
  have hmention : scene.Mentions cur b := ⟨slot, name, path, hslot, hmem, hb⟩
  have hback : ReflTransGen scene.Mentions b cur := hreach.trans (reflTransGen_of_mem hchain hc)
  rcases hurgent with htrue | hpath | ⟨slot', hslot', hdata⟩
  · exact ⟨cur, slot, name, b, hslot, ⟨path, hmem, .inl (hwhole htrue)⟩, hb, hback⟩
  · exact ⟨cur, slot, name, b, hslot, ⟨path, hmem, .inr hpath⟩, hb, hback⟩
  · have hcycle : TransGen scene.Mentions b b := .tail' hback hmention
    obtain ⟨d, ⟨slot'', name', path', hslot'', hmem', hd⟩, hrest⟩ := TransGen.head'_iff.1 hcycle
    obtain rfl := Option.some.inj (hslot'.symm.trans hslot'')
    rcases hdata with halias | hnone
    · exact ⟨b, slot', name', d, hslot', ⟨path', hmem', .inl halias⟩, hd, hrest⟩
    · -- A binding without references is on no cycle.
      rw [hnone] at hmem'
      cases hmem'

end Scene

/-- Whether the result is that a binding depends on itself. -/
def isSelfDependent {α : Type} : Except Failure α → Bool
  | .error (.reference (.selfDependency _ _)) => true
  | _ => false

/-- A result that says so is a binding that depends on itself. -/
theorem exists_of_isSelfDependent {α : Type} {result : Except Failure α}
    (h : isSelfDependent result = true) :
    ∃ name span, result = .error (.reference (.selfDependency name span)) := by
  unfold isSelfDependent at h
  split at h
  · exact ⟨_, _, rfl⟩
  · cases h

end TypedData
