import TypedData.Proofs.Loaded.Basic
import TypedData.Document.Canonical
import TypedData.Proofs.Reading.Names
import TypedData.Proofs.Typing.Declared

/-!
# The names in loaded values

A constructor is called by a word that is not reserved, and so are its fields that have names; no two of them
have the same (`Loaded.wellNamed_of_load`).  The fields of a record without a constructor all have names, which
may be any texts, but no two have the same (`BuiltIn.untyped`).
-/

namespace TypedData

/-- The names of the constructor and of its fields are words that are not reserved, and no two fields have
the same name. -/
structure Constructor.WellNamed (ctor : Constructor) : Prop where
  name : isName ctor.name = true
  fields : ∀ name ∈ ctor.fields.filterMap FieldSpec.name, isName name = true
  nodup : (ctor.fields.filterMap FieldSpec.name).Nodup

/-- The constructors of declarations that are spelled with names have names for their fields. -/
theorem Constructor.IsOf.wellNamed {ctor : Constructor} {decl : TypeDecl} {c : CtorDecl}
    (h : ctor.IsOf decl c) (hc : c.Made .spelled) : ctor.WellNamed := by
  refine ⟨h.name ▸ hc.name, fun name hname => ?_, h.nodup⟩
  obtain ⟨spec, hspec, hspecName⟩ := List.mem_filterMap.1 hname
  have hmem : some name ∈ c.fields.map FieldDecl.name := h.fields ▸ List.mem_map.2 ⟨spec, hspec, hspecName⟩
  obtain ⟨field, hfield, hfieldName⟩ := List.mem_map.1 hmem
  exact (hc.fields field hfield).name name hfieldName

/-- The names that a document declares are words that are not reserved. -/
theorem Document.made_names {source : String} {d : Document} (h : read source = .ok d) :
    ∀ decl ∈ d.types, ∀ ctor ∈ decl.ctors, ctor.Made .spelled := by
  have hmade : d.Made .spelled := (ends_read lexical_spelled fun _ _ => trivial).yields d h
  intro decl hdecl
  obtain ⟨item, hitem, hdecl⟩ := List.mem_filterMap.1 hdecl
  split at hdecl
  · obtain rfl := Option.some.inj hdecl
    exact (hmade _ hitem).ctors
  · cases hdecl

namespace Loaded

variable {loaded : Loaded}

/-- The registry of a loaded document comes from the declarations that are written. -/
theorem exists_ofDecls_of_load {source : String} (h : load source = .ok loaded) :
    ∃ d, Document.read source = .ok d ∧
      Registry.ofDecls (d.types.map TypeDecl.canonical) = .ok loaded.registry := by
  obtain ⟨d, hd, h⟩ := bind_eq_ok_iff.1 h
  obtain ⟨-, hdeclarations, -⟩ := of_ofDocument h
  exact ⟨d, hd, d.types_canonical ▸ (declarations_eq_ok_iff.1 hdeclarations).1⟩

/-- **Constructors are well named.** -/
theorem wellNamed_of_load {source : String} (h : load source = .ok loaded) {ctor : Constructor}
    (hctor : ctor ∈ loaded.registry.constructors) : ctor.WellNamed := by
  obtain ⟨d, hd, hregistry⟩ := exists_ofDecls_of_load h
  obtain ⟨decl, hdecl, c, hc, hof⟩ := Registry.exists_decl_of_ofDecls hregistry hctor
  obtain ⟨decl', hdecl', rfl⟩ := List.mem_map.1 hdecl
  obtain ⟨c', hc', rfl⟩ := List.mem_map.1 hc
  have hnames := Document.made_names hd decl' hdecl' c' hc'
  exact hof.wellNamed ⟨hnames.name, hnames.fields, by rintro _ ⟨⟩, hnames.span⟩

/-- A record without a constructor has no type, and its fields have names of their own. -/
theorem BuiltIn.untyped {scene : Scene} {p : Progress} (h : loaded.BuiltIn scene p) {typeName : Option String}
    {fields : List (Field Value)} (hx : loaded.Contains (.record typeName none fields)) :
    typeName = none ∧ Field.Keyed fields := by
  obtain ⟨t, ht⟩ := h.built hx
  exact ht.of_untyped

/-- References by the same name and path are the same. -/
theorem BuiltIn.reference_eq {scene : Scene} {p : Progress} (h : loaded.BuiltIn scene p) {r r' : Reference}
    (hr : loaded.Contains (.ref r)) (hr' : loaded.Contains (.ref r')) (hname : r.name = r'.name)
    (hpath : r.path = r'.path) : r = r' := by
  obtain ⟨t, ht⟩ := h.built hr
  obtain ⟨t', ht'⟩ := h.built hr'
  have hbinding : some r.binding = some r'.binding := by
    rw [← ht.of_ref.1, ← ht'.of_ref.1, hname]
  cases r
  cases r'
  simp_all

end Loaded

end TypedData
