import TypedData.Proofs.Lists
import TypedData.Proofs.Typing.Denotation

/-!
# When declarations are accepted

The registry collects the names of all declarations and goes through the fields and clauses after that,
and ends at the first thing that is wrong.  `ValidDecls` says what is right about declarations with no
regard to the order of the checks.  Each check is shown to succeed exactly if what it looks for is right
(`checkNames_eq_ok_iff`, `fieldsOf_eq_ok_iff`, `declare_eq_ok_iff`), and together they make a registry
exactly if the declarations are valid (`exists_ofDecls_iff`).
-/

namespace TypedData

/-! ## Names that were not seen before -/

/-- The names are distinct from one another and from those that were seen. -/
def Fresh (seen names : List String) : Prop := names.Nodup ∧ ∀ name ∈ names, name ∉ seen

/-- The empty list of names is fresh. -/
theorem fresh_nil (seen : List String) : Fresh seen [] := ⟨.nil, List.forall_mem_nil _⟩

/-- A name and others are fresh when it has not been seen, and the others are fresh behind it. -/
theorem fresh_cons_iff {seen names : List String} {name : String} :
    Fresh seen (name :: names) ↔ name ∉ seen ∧ Fresh (name :: seen) names := by
  rw [Fresh, Fresh, List.nodup_cons, List.forall_mem_cons]
  constructor
  · rintro ⟨⟨hname, hnodup⟩, hseen, hrest⟩
    refine ⟨hseen, hnodup, fun other hother => List.not_mem_cons_of_ne_of_not_mem ?_ (hrest other hother)⟩
    rintro rfl
    exact hname hother
  · rintro ⟨hseen, hnodup, hrest⟩
    exact ⟨⟨fun hmem => hrest name hmem (.head _), hnodup⟩, hseen,
      fun other hother => List.not_mem_of_not_mem_cons (hrest other hother)⟩

/-- Names are fresh one part after another. -/
theorem fresh_append_iff {names rest : List String} : {seen : List String} →
    (Fresh seen (names ++ rest) ↔ Fresh seen names ∧ Fresh (names.reverse ++ seen) rest) := by
  induction names with
  | nil => exact (and_iff_right (fresh_nil _)).symm
  | cons name names ih =>
    intro seen
    rw [List.cons_append, fresh_cons_iff, fresh_cons_iff, ih, List.reverse_cons, List.append_assoc, and_assoc]
    rfl

/-- Where no name has been seen, names are fresh when none of them is there twice. -/
theorem fresh_nil_left_iff {names : List String} : Fresh [] names ↔ names.Nodup :=
  and_iff_left fun _ _ => List.not_mem_nil

namespace Registry

/-- Parameters are accepted when they are fresh. -/
theorem checkParameters_eq_ok_iff {span : Span} : {params seen : List String} →
    (checkParameters span seen params = .ok () ↔ Fresh seen params)
  | [], seen => iff_of_true rfl (fresh_nil seen)
  | param :: params, seen => by
    rw [checkParameters, fresh_cons_iff]
    by_cases hseen : param ∈ seen
    · rw [if_pos (List.contains_iff_mem.2 hseen)]
      exact iff_of_false (by rintro ⟨⟩) fun h => h.1 hseen
    · rw [if_neg (mt List.contains_iff_mem.1 hseen), and_iff_right hseen, checkParameters_eq_ok_iff]

/-- Names of constructors are accepted when they are fresh. -/
theorem checkConstructors_eq_ok_iff : {ctors : List CtorDecl} → {seen names : List String} →
    (checkConstructors seen ctors = .ok names ↔
      Fresh seen (ctors.map CtorDecl.name) ∧ names = (ctors.map CtorDecl.name).reverse ++ seen)
  | [], seen, names => by
    rw [checkConstructors, Except.ok.injEq, eq_comm]
    exact (and_iff_right (fresh_nil seen)).symm
  | ctor :: ctors, seen, names => by
    rw [checkConstructors, List.map_cons, fresh_cons_iff]
    by_cases hseen : ctor.name ∈ seen
    · rw [if_pos (List.contains_iff_mem.2 hseen)]
      exact iff_of_false (by rintro ⟨⟩) fun h => h.1.1 hseen
    · rw [if_neg (mt List.contains_iff_mem.1 hseen), checkConstructors_eq_ok_iff, and_iff_right hseen,
        List.reverse_cons, List.append_assoc]
      rfl

/-- The names of the constructors of declarations, in the order of the document. -/
def ctorNames (decls : List TypeDecl) : List String := decls.flatMap fun decl => decl.ctors.map CtorDecl.name

/-- Names are accepted when types and constructors are fresh, and no type has a parameter twice. -/
theorem checkNames_eq_ok_iff : {decls : List TypeDecl} → {types ctors : List String} →
    (checkNames types ctors decls = .ok () ↔
      Fresh types (decls.map TypeDecl.name) ∧ (∀ decl ∈ decls, decl.params.Nodup) ∧ Fresh ctors (ctorNames decls))
  | [], types, ctors => iff_of_true rfl ⟨fresh_nil types, List.forall_mem_nil _, fresh_nil ctors⟩
  | decl :: decls, types, ctors => by
    rw [checkNames, List.map_cons, fresh_cons_iff, List.forall_mem_cons, ctorNames, List.flatMap_cons,
      fresh_append_iff]
    by_cases htype : decl.name ∈ types
    · rw [if_pos (List.contains_iff_mem.2 htype)]
      exact iff_of_false (by rintro ⟨⟩) fun h => h.1.1 htype
    · rw [if_neg (mt List.contains_iff_mem.1 htype)]
      constructor
      · intro h
        obtain ⟨_, hparams, h⟩ := bind_eq_ok_iff.1 h
        obtain ⟨names, hctors, h⟩ := bind_eq_ok_iff.1 h
        obtain ⟨hfresh, rfl⟩ := checkConstructors_eq_ok_iff.1 hctors
        obtain ⟨htypes, hrest, hnames⟩ := checkNames_eq_ok_iff.1 h
        exact ⟨⟨htype, htypes⟩, ⟨fresh_nil_left_iff.1 (checkParameters_eq_ok_iff.1 hparams), hrest⟩,
          hfresh, hnames⟩
      · rintro ⟨⟨-, htypes⟩, ⟨hparams, hrest⟩, hfresh, hnames⟩
        refine bind_eq_ok_iff.2 ⟨(), checkParameters_eq_ok_iff.2 (fresh_nil_left_iff.2 hparams), ?_⟩
        exact bind_eq_ok_iff.2 ⟨_, checkConstructors_eq_ok_iff.2 ⟨hfresh, rfl⟩,
          checkNames_eq_ok_iff.2 ⟨htypes, hrest, hnames⟩⟩

end Registry

/-! ## What is declared -/

/-- A field as it is declared: its type is what the written type stands for. -/
structure FieldSpec.Matches (decls : List TypeDecl) (params : List String) (field : FieldDecl)
    (spec : FieldSpec) : Prop where
  name : spec.name = field.name
  type : field.type.Denotes decls params spec.type
  span : spec.span = field.span

/-- A constructor as it is declared: it belongs to the type of the declaration, and its fields stand in
the order of the declaration. -/
structure Constructor.Matches (decls : List TypeDecl) (decl : TypeDecl) (c : CtorDecl) (ctor : Constructor) :
    Prop where
  name : ctor.name = c.name
  typeName : ctor.typeName = decl.name
  fields : List.Forall₂ (FieldSpec.Matches decls decl.params) c.fields ctor.fields
  span : ctor.span = c.span

/-- The conditions of a declaration with their scopes, those after its constructors first. -/
def TypeDecl.conditions (decl : TypeDecl) : List (Expr × Scope) :=
  (Registry.clausesOf decl).flatMap fun clause => clause.1.conditions.map fun e => (e, clause.2)

/-- The constructors and conditions that a declaration makes. -/
structure TypeDecl.Makes (decls : List TypeDecl) (decl : TypeDecl) (part : List Constructor × List Constraint) :
    Prop where
  fieldNames : ∀ c ∈ decl.ctors, (c.fields.filterMap FieldDecl.name).Nodup
  ctors : List.Forall₂ (Constructor.Matches decls decl) decl.ctors part.1
  scopes : ∀ clause ∈ decl.clauses, ∀ name ∈ clause.scope.names, name ∈ decl.ctors.map CtorDecl.name
  constraints : part.2 = decl.conditions.map fun (e, scope) => ⟨decl.name, e, scope, 0⟩

/-- **What is right about the declarations of a document.** -/
structure ValidDecls (decls : List TypeDecl) : Prop where
  /-- No type is declared twice. -/
  typeNames : (decls.map TypeDecl.name).Nodup
  /-- No constructor is declared twice, be it of another type. -/
  ctorNames : (Registry.ctorNames decls).Nodup
  /-- No type has a parameter twice. -/
  params : ∀ decl ∈ decls, decl.params.Nodup
  /-- No constructor has two fields of one name. -/
  fieldNames : ∀ decl ∈ decls, ∀ c ∈ decl.ctors, (c.fields.filterMap FieldDecl.name).Nodup
  /-- The type of every field stands for something. -/
  fieldTypes : ∀ decl ∈ decls, ∀ c ∈ decl.ctors, ∀ field ∈ c.fields, ∃ t, field.type.Denotes decls decl.params t
  /-- A clause names only constructors of its own type. -/
  scopes : ∀ decl ∈ decls, ∀ clause ∈ decl.clauses, ∀ name ∈ clause.scope.names,
    name ∈ decl.ctors.map CtorDecl.name

/-- The constructor is one of a declaration, with its fields, of which no two have the same name. -/
structure Constructor.IsOf (ctor : Constructor) (decl : TypeDecl) (c : CtorDecl) : Prop where
  name : ctor.name = c.name
  typeName : ctor.typeName = decl.name
  fields : ctor.fields.map FieldSpec.name = c.fields.map FieldDecl.name
  nodup : (ctor.fields.filterMap FieldSpec.name).Nodup

namespace Registry

variable {r : Registry} {decls : List TypeDecl}

/-! ## Fields -/

/-- A field that no field before it has the name of. -/
theorem fresh_field_cons_iff {seen : List FieldSpec} {field : FieldDecl} {fields : List FieldDecl}
    {spec : FieldSpec} (hname : spec.name = field.name) :
    Fresh (seen.filterMap FieldSpec.name) ((field :: fields).filterMap FieldDecl.name) ↔
      ¬(field.name.isSome && seen.any (·.name == field.name)) = true ∧
        Fresh ((spec :: seen).filterMap FieldSpec.name) (fields.filterMap FieldDecl.name) := by
  cases hfield : field.name with
  | none =>
    rw [List.filterMap_cons_none hfield, List.filterMap_cons_none (hname.trans hfield)]
    exact (and_iff_right (by rintro ⟨⟩)).symm
  | some name =>
    rw [List.filterMap_cons_some hfield, List.filterMap_cons_some (hname.trans hfield), fresh_cons_iff,
      List.mem_filterMap]
    refine and_congr_left fun _ => not_congr ?_
    rw [Option.isSome_some, Bool.true_and, List.any_eq_true]
    exact exists_congr fun spec => and_congr_right fun _ => beq_iff_eq.symm

/-- Fields are declared when their names are fresh, as the types say that are written for them. -/
theorem fieldsOf_eq_ok_iff (htypes : r.types = decls.map typeDefOf) (hnodup : (decls.map TypeDecl.name).Nodup)
    {params : List String} {ctor : String} : {fields : List FieldDecl} → {seen specs : List FieldSpec} →
    (r.fieldsOf params ctor seen fields = .ok specs ↔
      Fresh (seen.filterMap FieldSpec.name) (fields.filterMap FieldDecl.name) ∧
        List.Forall₂ (FieldSpec.Matches decls params) fields specs)
  | [], seen, specs => by
    rw [fieldsOf, Except.ok.injEq, List.forall₂_nil_left_iff, eq_comm]
    exact (and_iff_right (fresh_nil _)).symm
  | field :: fields, seen, specs => by
    rw [fieldsOf]
    split
    · rename_i hrepeated
      refine iff_of_false (by rintro ⟨⟩) fun h => ?_
      have hname : (⟨field.name, .any, field.span⟩ : FieldSpec).name = field.name := rfl
      exact ((fresh_field_cons_iff hname).1 h.1).1 hrepeated
    · rename_i hfresh
      constructor
      · intro h
        obtain ⟨type, htype, h⟩ := bind_eq_ok_iff.1 h
        obtain ⟨rest, hrest, h⟩ := bind_eq_ok_iff.1 h
        obtain rfl := Except.ok.inj h
        obtain ⟨hnames, hmatch⟩ := (fieldsOf_eq_ok_iff htypes hnodup).1 hrest
        exact ⟨(fresh_field_cons_iff rfl).2 ⟨hfresh, hnames⟩,
          .cons ⟨rfl, (resolveType_eq_ok_iff htypes hnodup _).1 htype, rfl⟩ hmatch⟩
      · rintro ⟨hnames, _ | @⟨_, ⟨name, type, span⟩, _, rest, ⟨rfl, htype, rfl⟩, hmatch⟩⟩
        refine bind_eq_ok_iff.2 ⟨type, (resolveType_eq_ok_iff htypes hnodup _).2 htype, ?_⟩
        exact bind_eq_ok_iff.2 ⟨rest,
          (fieldsOf_eq_ok_iff htypes hnodup).2 ⟨((fresh_field_cons_iff rfl).1 hnames).2, hmatch⟩, rfl⟩

/-- A constructor is declared when no two fields have the same name, as its fields say. -/
theorem constructorOf_eq_ok_iff (htypes : r.types = decls.map typeDefOf)
    (hnodup : (decls.map TypeDecl.name).Nodup) {decl : TypeDecl} {c : CtorDecl} {ctor : Constructor} :
    r.constructorOf decl c = .ok ctor ↔
      (c.fields.filterMap FieldDecl.name).Nodup ∧ ctor.Matches decls decl c := by
  rw [constructorOf, bind_eq_ok_iff]
  constructor
  · rintro ⟨fields, hfields, h⟩
    obtain rfl := Except.ok.inj h
    obtain ⟨hnames, hmatch⟩ := (fieldsOf_eq_ok_iff htypes hnodup).1 hfields
    exact ⟨fresh_nil_left_iff.1 hnames, rfl, rfl, hmatch, rfl⟩
  · obtain ⟨name, typeName, fields, span⟩ := ctor
    rintro ⟨hnames, rfl, rfl, hmatch, rfl⟩
    exact ⟨fields, (fieldsOf_eq_ok_iff htypes hnodup).2 ⟨fresh_nil_left_iff.2 hnames, hmatch⟩, rfl⟩

/-! ## Clauses -/

/-- A scope is accepted when all of its names are constructors of the type. -/
theorem checkScope_eq_ok_iff {typeName : String} {clause : WhereClause} {scope : Scope} :
    r.checkScope typeName clause scope = .ok () ↔
      ∀ name ∈ scope.names, (r.constructor? name).map Constructor.typeName = some typeName := by
  rw [checkScope, forM_eq_ok_iff]
  refine forall₂_congr fun name _ => ?_
  split
  · rename_i h
    exact iff_of_true rfl h
  · rename_i h
    exact iff_of_false (by rintro ⟨⟩) h

/-- The registry of names knows all constructors that are declared. -/
theorem map_name_ofNames : (ofNames decls).constructors.map Constructor.name = ctorNames decls := by
  rw [ofNames, List.map_flatMap, ctorNames]
  exact congrArg (List.flatMap · decls) (funext fun decl => List.map_map ..)

/-- The names of all constructors are known with the types that they belong to. -/
theorem typeName_ofNames_iff (hnodup : (decls.map TypeDecl.name).Nodup) (hctors : (ctorNames decls).Nodup)
    {decl : TypeDecl} (hdecl : decl ∈ decls) {name : String} :
    ((ofNames decls).constructor? name).map Constructor.typeName = some decl.name ↔
      name ∈ decl.ctors.map CtorDecl.name := by
  simp only [Option.map_eq_some_iff, constructor?_eq_some_iff (map_name_ofNames ▸ hctors)]
  constructor
  · rintro ⟨ctor, ⟨hctor, rfl⟩, hname⟩
    obtain ⟨decl', hdecl', hctor⟩ := List.mem_flatMap.1 hctor
    obtain ⟨c, hc, rfl⟩ := List.mem_map.1 hctor
    obtain rfl := List.inj_on_of_nodup_map hnodup hdecl' hdecl hname
    exact List.mem_map_of_mem hc
  · intro hname
    obtain ⟨c, hc, rfl⟩ := List.mem_map.1 hname
    exact ⟨_, ⟨List.mem_flatMap.2 ⟨decl, hdecl, List.mem_map_of_mem hc⟩, rfl⟩, rfl⟩

/-- The conditions after a constructor are on that constructor alone, so that their scope is right. -/
theorem scopes_clausesOf_iff {decl : TypeDecl} :
    (∀ clause ∈ clausesOf decl, ∀ name ∈ clause.2.names, name ∈ decl.ctors.map CtorDecl.name) ↔
      ∀ clause ∈ decl.clauses, ∀ name ∈ clause.scope.names, name ∈ decl.ctors.map CtorDecl.name := by
  rw [clausesOf, List.forall_mem_append, List.forall_mem_map]
  refine and_iff_right fun clause hclause name hname => ?_
  obtain ⟨c, hc, hinline⟩ := List.mem_filterMap.1 hclause
  obtain ⟨_, -, rfl⟩ := Option.map_eq_some_iff.1 hinline
  obtain rfl := List.mem_singleton.1 hname
  exact List.mem_map_of_mem hc

/-- Conditions are accepted when their scopes are. -/
theorem conditionsOf_eq_ok_iff {decl : TypeDecl} {conditions : List (Expr × Scope)} :
    r.conditionsOf decl = .ok conditions ↔
      (∀ clause ∈ clausesOf decl, r.checkScope decl.name clause.1 clause.2 = .ok ()) ∧
        conditions = decl.conditions := by
  rw [conditionsOf, bind_eq_ok_iff, ← forM_eq_ok_iff]
  constructor
  · rintro ⟨_, hscopes, h⟩
    exact ⟨hscopes, (Except.ok.inj h).symm⟩
  · rintro ⟨hscopes, rfl⟩
    exact ⟨(), hscopes, rfl⟩

/-! ## Declarations -/

/-- A type is declared as it is written. -/
theorem declare_eq_ok_iff (hnodup : (decls.map TypeDecl.name).Nodup) (hctors : (ctorNames decls).Nodup)
    {decl : TypeDecl} (hdecl : decl ∈ decls) {part : List Constructor × List Constraint} :
    (ofNames decls).declare decl = .ok part ↔ decl.Makes decls part := by
  have hscopes : (∀ clause ∈ clausesOf decl, (ofNames decls).checkScope decl.name clause.1 clause.2 = .ok ()) ↔
      ∀ clause ∈ decl.clauses, ∀ name ∈ clause.scope.names, name ∈ decl.ctors.map CtorDecl.name := by
    rw [← scopes_clausesOf_iff]
    simp only [checkScope_eq_ok_iff, typeName_ofNames_iff hnodup hctors hdecl]
  have hfields {made : List Constructor} : decl.ctors.mapM ((ofNames decls).constructorOf decl) = .ok made ↔
      (∀ c ∈ decl.ctors, (c.fields.filterMap FieldDecl.name).Nodup) ∧
        List.Forall₂ (Constructor.Matches decls decl) decl.ctors made := by
    rw [mapM_eq_ok_iff, ← List.forall₂_and_left]
    simp only [constructorOf_eq_ok_iff (r := ofNames decls) rfl hnodup]
  rw [declare, bind_eq_ok_iff]
  constructor
  · rintro ⟨made, hmade, h⟩
    obtain ⟨conditions, hconditions, h⟩ := bind_eq_ok_iff.1 h
    obtain rfl := Except.ok.inj h
    obtain ⟨hnames, hmatch⟩ := hfields.1 hmade
    obtain ⟨hclauses, rfl⟩ := conditionsOf_eq_ok_iff.1 hconditions
    exact ⟨hnames, hmatch, hscopes.1 hclauses, rfl⟩
  · obtain ⟨made, constraints⟩ := part
    rintro ⟨hnames, hmatch, hclauses, rfl⟩
    refine ⟨made, hfields.2 ⟨hnames, hmatch⟩, bind_eq_ok_iff.2 ⟨decl.conditions, ?_, rfl⟩⟩
    exact conditionsOf_eq_ok_iff.2 ⟨hscopes.2 hclauses, rfl⟩

/-- The registry of what each declaration makes. -/
def ofParts (decls : List TypeDecl) (parts : List (List Constructor × List Constraint)) : Registry :=
  ⟨decls.map typeDefOf, parts.flatMap Prod.fst, numbered (parts.flatMap Prod.snd)⟩

/-- **Declarations are accepted when names are declared once and types are denoted,** and as what they make. -/
theorem ofDecls_eq_ok_iff : ofDecls decls = .ok r ↔
    (decls.map TypeDecl.name).Nodup ∧ (ctorNames decls).Nodup ∧ (∀ decl ∈ decls, decl.params.Nodup) ∧
      ∃ parts, List.Forall₂ (TypeDecl.Makes decls) decls parts ∧ r = ofParts decls parts := by
  have hparts {parts} (hnodup : (decls.map TypeDecl.name).Nodup) (hctors : (ctorNames decls).Nodup) :
      decls.mapM (ofNames decls).declare = .ok parts ↔ List.Forall₂ (TypeDecl.Makes decls) decls parts := by
    rw [mapM_eq_ok_iff]
    exact forall₂_iff_of_mem fun decl hdecl part => declare_eq_ok_iff hnodup hctors hdecl
  rw [ofDecls, bind_eq_ok_iff]
  constructor
  · rintro ⟨_, hnames, h⟩
    obtain ⟨parts, hmade, h⟩ := bind_eq_ok_iff.1 h
    obtain ⟨htypes, hparams, hctors⟩ := checkNames_eq_ok_iff.1 hnames
    have hnodup := fresh_nil_left_iff.1 htypes
    have hdistinct := fresh_nil_left_iff.1 hctors
    exact ⟨hnodup, hdistinct, hparams, parts, (hparts hnodup hdistinct).1 hmade, (Except.ok.inj h).symm⟩
  · rintro ⟨hnodup, hdistinct, hparams, parts, hmade, rfl⟩
    refine ⟨(), checkNames_eq_ok_iff.2 ⟨fresh_nil_left_iff.2 hnodup, hparams, fresh_nil_left_iff.2 hdistinct⟩, ?_⟩
    exact bind_eq_ok_iff.2 ⟨parts, (hparts hnodup hdistinct).2 hmade, rfl⟩

/-- Every constructor of an accepted registry is declared by some type. -/
theorem exists_decl_of_ofDecls (h : ofDecls decls = .ok r) {ctor : Constructor} (hctor : ctor ∈ r.constructors) :
    ∃ decl ∈ decls, ∃ c ∈ decl.ctors, ctor.IsOf decl c := by
  obtain ⟨-, -, -, parts, hparts, rfl⟩ := ofDecls_eq_ok_iff.1 h
  obtain ⟨part, hpart, hctor⟩ := List.mem_flatMap.1 hctor
  obtain ⟨decl, hdecl, hmakes⟩ := exists_mem_of_forall₂ hparts hpart
  obtain ⟨c, hc, hmatch⟩ := exists_mem_of_forall₂ hmakes.ctors hctor
  have hnames : ctor.fields.map FieldSpec.name = c.fields.map FieldDecl.name :=
    map_eq_of_forall₂ (hmatch.fields.imp fun _ _ h => h.name)
  have hlabels : ctor.fields.filterMap FieldSpec.name = c.fields.filterMap FieldDecl.name := by
    have hsame := congrArg (List.filterMap id) hnames
    rwa [List.filterMap_map, List.filterMap_map] at hsame
  exact ⟨decl, hdecl, c, hc, hmatch.name, hmatch.typeName, hnames, hlabels ▸ hmakes.fieldNames c hc⟩

/-! ## What can be declared -/

/-- A field can be declared when its type denotes one. -/
theorem exists_fieldMatches_iff {params : List String} {field : FieldDecl} :
    (∃ spec, FieldSpec.Matches decls params field spec) ↔ ∃ t, field.type.Denotes decls params t := by
  constructor
  · rintro ⟨spec, h⟩
    exact ⟨spec.type, h.type⟩
  · rintro ⟨t, ht⟩
    exact ⟨⟨field.name, t, field.span⟩, rfl, ht, rfl⟩

/-- A constructor can be declared when the types of all of its fields denote some. -/
theorem exists_ctorMatches_iff {decl : TypeDecl} {c : CtorDecl} :
    (∃ ctor, Constructor.Matches decls decl c ctor) ↔
      ∀ field ∈ c.fields, ∃ t, field.type.Denotes decls decl.params t := by
  simp only [← exists_fieldMatches_iff]
  rw [← exists_forall₂_iff]
  constructor
  · rintro ⟨ctor, h⟩
    exact ⟨ctor.fields, h.fields⟩
  · rintro ⟨specs, h⟩
    exact ⟨⟨c.name, decl.name, specs, c.span⟩, rfl, rfl, h, rfl⟩

/-- What a declaration needs in order to make something. -/
theorem exists_makes_iff {decl : TypeDecl} : (∃ part, decl.Makes decls part) ↔
    (∀ c ∈ decl.ctors, (c.fields.filterMap FieldDecl.name).Nodup) ∧
      (∀ c ∈ decl.ctors, ∀ field ∈ c.fields, ∃ t, field.type.Denotes decls decl.params t) ∧
      ∀ clause ∈ decl.clauses, ∀ name ∈ clause.scope.names, name ∈ decl.ctors.map CtorDecl.name := by
  simp only [← exists_ctorMatches_iff]
  rw [← exists_forall₂_iff]
  constructor
  · rintro ⟨part, h⟩
    exact ⟨h.fieldNames, ⟨part.1, h.ctors⟩, h.scopes⟩
  · rintro ⟨hnames, ⟨made, hmade⟩, hscopes⟩
    exact ⟨(made, _), hnames, hmade, hscopes, rfl⟩

/-- **Declarations make a registry exactly if they are valid.** -/
theorem exists_ofDecls_iff : (∃ r, ofDecls decls = .ok r) ↔ ValidDecls decls := by
  have hmakes : (∃ parts, List.Forall₂ (TypeDecl.Makes decls) decls parts) ↔ _ :=
    exists_forall₂_iff.trans (forall₂_congr fun decl _ => exists_makes_iff)
  constructor
  · rintro ⟨r, h⟩
    obtain ⟨htypes, hctors, hparams, parts, hparts, -⟩ := ofDecls_eq_ok_iff.1 h
    have hmade := hmakes.1 ⟨parts, hparts⟩
    exact ⟨htypes, hctors, hparams, fun decl hdecl => (hmade decl hdecl).1,
      fun decl hdecl => (hmade decl hdecl).2.1, fun decl hdecl => (hmade decl hdecl).2.2⟩
  · intro h
    obtain ⟨parts, hparts⟩ := hmakes.2 fun decl hdecl =>
      ⟨h.fieldNames decl hdecl, h.fieldTypes decl hdecl, h.scopes decl hdecl⟩
    exact ⟨_, ofDecls_eq_ok_iff.2 ⟨h.typeNames, h.ctorNames, h.params, parts, hparts, rfl⟩⟩

end Registry

end TypedData
