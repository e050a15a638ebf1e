import Mathlib.Data.List.Nodup
import TypedData.Typing.Registry

/-!
# Looking things up

Primitive types, declared types and constructors are looked up by their names.  What is found has the name;
and where names are distinct, everything is found by its name (`find?_key_eq_some_iff`).
-/

namespace TypedData

/-- Items with distinct keys are found by their keys. -/
theorem find?_key_eq_some_iff {α : Type} {key : α → String} {as : List α} (h : (as.map key).Nodup)
    {name : String} {a : α} : (as.find? fun a => key a == name) = some a ↔ a ∈ as ∧ key a = name := by
  constructor
  · intro hfind
    exact ⟨List.mem_of_find?_eq_some hfind, beq_iff_eq.1 (List.find?_some hfind :)⟩
  · rintro ⟨ha, rfl⟩
    cases hfind : as.find? fun b => key b == key a with
    | none => exact absurd (beq_self_eq_true _) (List.find?_eq_none.1 hfind a ha)
    | some b =>
      have hkey : key b = key a := beq_iff_eq.1 (List.find?_some hfind :)
      rw [List.inj_on_of_nodup_map h (List.mem_of_find?_eq_some hfind) ha hkey]

namespace Primitive

/-- A primitive is found under its own name. -/
theorem ofName?_eq_some_iff {name : String} {p : Primitive} : ofName? name = some p ↔ p.name = name := by
  constructor
  · intro h
    exact beq_iff_eq.1 (List.find?_some h :)
  · rintro rfl
    exact ofName?_name p

/-- Nothing is found under a name that no primitive has. -/
theorem ofName?_eq_none_iff {name : String} : ofName? name = none ↔ ∀ p : Primitive, p.name ≠ name := by
  rw [Option.eq_none_iff_forall_not_mem]
  exact forall_congr' fun p => not_congr ofName?_eq_some_iff

end Primitive

namespace Registry

variable {r : Registry}

/-- Every field of a constructor has a type. -/
theorem length_fieldTypes (r : Registry) (ctor : Constructor) (args : List Ty) :
    (r.fieldTypes ctor args).length = ctor.fields.length := List.length_map ..

/-- A constructor is found under its own name. -/
theorem name_of_constructor? {name : String} {ctor : Constructor}
    (h : r.constructor? name = some ctor) : ctor.name = name :=
  beq_iff_eq.1 (List.find?_some h :)

/-- A constructor that is found is declared. -/
theorem mem_of_constructor? {name : String} {ctor : Constructor} (h : r.constructor? name = some ctor) :
    ctor ∈ r.constructors := List.mem_of_find?_eq_some h

/-- The registry finds a declared type by its name, and no others. -/
theorem type?_eq_some_iff {decls : List TypeDecl} (htypes : r.types = decls.map typeDefOf)
    (hnodup : (decls.map TypeDecl.name).Nodup) {name : String} {type : TypeDef} :
    r.type? name = some type ↔ ∃ decl ∈ decls, decl.name = name ∧ typeDefOf decl = type := by
  have hkeys : (r.types.map TypeDef.name).Nodup := by
    rw [htypes, List.map_map]
    exact hnodup
  rw [type?, find?_key_eq_some_iff hkeys, htypes, List.mem_map]
  constructor
  · rintro ⟨⟨decl, hdecl, rfl⟩, rfl⟩
    exact ⟨decl, hdecl, rfl, rfl⟩
  · rintro ⟨decl, hdecl, rfl, rfl⟩
    exact ⟨⟨decl, hdecl, rfl⟩, rfl⟩

/-- The registry finds a constructor by its name, and no others. -/
theorem constructor?_eq_some_iff (hnodup : (r.constructors.map Constructor.name).Nodup) {name : String}
    {ctor : Constructor} : r.constructor? name = some ctor ↔ ctor ∈ r.constructors ∧ ctor.name = name :=
  find?_key_eq_some_iff hnodup

end Registry

end TypedData
