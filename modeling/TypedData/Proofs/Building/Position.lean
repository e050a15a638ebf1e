import TypedData.Building
import TypedData.Proofs.Building.Record

/-!
# Where data stands

What is expected of a value decides what is expected of the values in it: a list hands the type of its items
on, and a constructor the types of its fields, each to the argument that is placed there.  `d.parts r t` lists
what stands directly in `d` with the types that are expected there, if `t` is expected of `d`;
`Data.Stands` is the same for all depths.

Data that cannot be read where a type is expected has no parts there: nothing in it is built.
-/

namespace TypedData

/-- The entry as an argument with a name. -/
def Entry.argument {α : Type} (entry : Entry α) : Argument α := ⟨some entry.key, entry.value⟩

/-- The arguments of the type that a constructor builds a record of, where a type is expected that has such
records. -/
def Constructor.typeArguments? (ctor : Constructor) : Ty → Option (List Ty)
  | .named name args => if name = ctor.typeName then some args else none
  | .prim .any | .param _ => some []
  | _ => none

/-- The arguments of a constructor, each with the type of the field that it is placed at. -/
def Registry.fitted {α : Type} (r : Registry) (ctorName : String) (args : List (Argument α)) (t : Ty) :
    List (α × Ty) :=
  match r.constructor? ctorName with
  | none => []
  | some ctor =>
    match ctor.typeArguments? t, ctor.place args with
    | some typeArgs, .ok placed =>
      ((r.fieldTypes ctor typeArgs).zip placed).filterMap fun (type, arg) => arg.map (·, type)
    | _, _ => []

/-- What a constructor is given are its arguments, and it has a type that may stand there. -/
theorem Registry.mem_of_fitted {α : Type} {r : Registry} {ctorName : String} {args : List (Argument α)}
    {t u : Ty} {a : α} (h : (a, u) ∈ r.fitted ctorName args t) : ∃ arg ∈ args, arg.value = a := by
  unfold fitted at h
  split at h
  · cases h
  · split at h
    · rename_i hplaced
      obtain ⟨⟨type, arg⟩, hmem, hpair⟩ := List.mem_filterMap.1 h
      obtain ⟨b, rfl, hb⟩ := Option.map_eq_some_iff.1 hpair
      obtain ⟨rfl, rfl⟩ := Prod.mk.inj hb
      have hgiven := (Constructor.place_ok (P := fun a => ∃ arg ∈ args, arg.value = a)
        (fun arg harg => ⟨arg, harg, rfl⟩) hplaced).1
      exact hgiven b (List.of_mem_zip hmem).2
    · cases h

namespace Data

/-- The entries of a record, in any of its notations. -/
def entries? : Data → Option (List (Entry Data))
  | record _ entries | fieldBlock _ entries | dashRecord _ entries => some entries
  | _ => none

/-- What stands in a record of these entries. -/
def partsOfEntries (r : Registry) (entries : List (Entry Data)) (t : Ty) : List (Data × Ty) :=
  match t with
  | .named typeName _ =>
    match r.soleConstructor? typeName, entries with
    | some ctor, entries => r.fitted ctor.name (entries.map Entry.argument) t
    | none, [⟨key, _, d⟩] =>
      if (r.constructor? key).map Constructor.typeName = some typeName then
        (d.entries?.map fun inner => r.fitted key (inner.map Entry.argument) t).getD []
      else []
    | none, _ => []
  | .prim .any | .param _ => entries.map fun entry => (entry.value, .any)
  | _ => []

/-- What stands in a record is the value of an entry, or of an entry of the only record in it. -/
theorem mem_of_partsOfEntries {r : Registry} {entries : List (Entry Data)} {t u : Ty} {e : Data}
    (h : (e, u) ∈ partsOfEntries r entries t) :
    (∃ arg ∈ entries.map Entry.argument, arg.value = e) ∨
      ∃ entry ∈ entries, ∃ inner, entry.value.entries? = some inner ∧
        ∃ arg ∈ inner.map Entry.argument, arg.value = e := by
  have hentries (h : (e, u) ∈ entries.map fun entry => (entry.value, Ty.any)) :
      ∃ arg ∈ entries.map Entry.argument, arg.value = e := by
    obtain ⟨entry, hentry, hpair⟩ := List.mem_map.1 h
    exact ⟨_, List.mem_map_of_mem hentry, (Prod.mk.inj hpair).1⟩
  unfold partsOfEntries at h
  split at h
  · split at h
    · exact .inl (Registry.mem_of_fitted h)
    · rename_i key span d _
      split at h
      · cases hinner : d.entries? with
        | none =>
          rw [hinner] at h
          cases h
        | some inner =>
          rw [hinner] at h
          exact .inr ⟨_, .head _, inner, hinner, Registry.mem_of_fitted h⟩
      · cases h
    · cases h
  · exact .inl (hentries h)
  · exact .inl (hentries h)
  · cases h

/-- What stands directly in the data, with the types that are expected there. -/
def parts (r : Registry) (t : Ty) : Data → List (Data × Ty)
  | null _ | bool _ _ | int _ _ | float _ _ | str _ _ | reference _ _ _ => []
  | list _ items | dashList _ items =>
    (t.required.item?.map fun item => items.map (·, item)).getD []
  | call _ ctor args => r.fitted ctor args t.required
  | ctorBlock _ ctor entries => r.fitted ctor (entries.map Entry.argument) t.required
  | listBlock span ctor items => r.fitted ctor [⟨none, list span items⟩] t.required
  | record _ entries | fieldBlock _ entries | dashRecord _ entries =>
    partsOfEntries r entries t.required

/-- `d.Stands r t x u` says that `x` stands in `d`, at any depth, and `u` is expected of it if `t` is
expected of `d`. -/
inductive Stands (r : Registry) : Data → Ty → Data → Ty → Prop
  | self (d : Data) (t : Ty) : Stands r d t d t
  | part {d e x : Data} {t s u : Ty} : (e, s) ∈ d.parts r t → Stands r e s x u → Stands r d t x u

end Data

end TypedData
