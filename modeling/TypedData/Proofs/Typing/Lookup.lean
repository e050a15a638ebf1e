import TypedData.Load
import TypedData.Proofs.Typing.Declared

/-!
# What the registry of a document holds

Valid declarations, and no others, make a registry (`Document.registry_holds`).  It lists what they declare
in the order of the document, and looking up a name finds the one declaration of that name.  The
constructors of a type and the conditions on a constructor are parts of these lists: each entry is
labelled with the name of its type, and these names are distinct, so that the entries of one label are
those that its declaration made (`filter_flatMap_label`).
-/

namespace TypedData

/-! ## Entries with labels -/

section Labels

variable {α β : Type} {key : α → String}

/-- Of items with distinct keys, one has the key of a given item. -/
theorem filter_key_eq_singleton {as : List α} (hnodup : (as.map key).Nodup) {a : α} (ha : a ∈ as) :
    (as.filter fun b => key b == key a) = [a] := by
  induction as with
  | nil => cases ha
  | cons b bs ih =>
    obtain ⟨hb, hrest⟩ := List.nodup_cons.1 hnodup
    rcases List.mem_cons.1 ha with rfl | ha
    · rw [List.filter_cons, if_pos (beq_self_eq_true _), List.cons_inj_right, List.filter_eq_nil_iff]
      intro c hc hkey
      exact hb (beq_iff_eq.1 hkey ▸ List.mem_map_of_mem hc)
    · rw [List.filter_cons, if_neg, ih hrest ha]
      intro hkey
      exact hb (beq_iff_eq.1 hkey ▸ List.mem_map_of_mem ha)

/-- The entries of a label are those of the items with it as their key. -/
theorem filter_flatMap_label (as : List α) (f : α → List β) (label : String) :
    ((as.flatMap fun a => (f a).map (key a, ·)).filter fun entry => entry.1 == label) =
      (as.filter fun a => key a == label).flatMap fun a => (f a).map (key a, ·) := by
  induction as with
  | nil => rfl
  | cons a as ih =>
    rw [List.flatMap_cons, List.filter_append, ih, List.filter_map, List.filter_cons]
    by_cases hkey : (key a == label) = true
    · rw [if_pos hkey, List.flatMap_cons]
      exact congrArg (List.map _ · ++ _) (List.filter_eq_self.2 fun _ _ => hkey)
    · rw [if_neg hkey]
      exact congrArg (List.map _ · ++ _) (List.filter_eq_nil_iff.2 fun _ _ => hkey)

/-- With distinct keys, these are the entries of one item. -/
theorem filter_flatMap_key {as : List α} (hnodup : (as.map key).Nodup) {a : α} (ha : a ∈ as) (f : α → List β) :
    ((as.flatMap fun a => (f a).map (key a, ·)).filter fun entry => entry.1 == key a) =
      (f a).map (key a, ·) := by
  rw [filter_flatMap_label, filter_key_eq_singleton hnodup ha, List.flatMap_singleton]

end Labels

/-! ## What is held -/

/-- The declared constructors with their declarations, in the order of the document. -/
def declaredCtors (decls : List TypeDecl) : List (TypeDecl × CtorDecl) :=
  decls.flatMap fun decl => decl.ctors.map (decl, ·)

/-- The conditions of a declaration on one of its constructors: those directly after the constructor,
and then those of the clauses that speak of it. -/
def TypeDecl.conditionsOn (decl : TypeDecl) (c : CtorDecl) : List Expr :=
  (c.inlineWhere.toList ++ decl.clauses.filter fun clause => clause.scope.appliesTo c.name).flatMap
    WhereClause.conditions

/-- A condition with the type that it is of, and its scope. -/
def Constraint.entry (constraint : Constraint) : String × Expr × Scope :=
  (constraint.typeName, constraint.condition, constraint.scope)

/-- **What a registry holds** of the declarations of a document. -/
structure Registry.Holds (r : Registry) (decls : List TypeDecl) : Prop where
  /-- The types stand in the order of their declarations. -/
  types : r.types = decls.map typeDefOf
  /-- So do the constructors, each with its type and its fields. -/
  constructors : List.Forall₂ (fun (declared : TypeDecl × CtorDecl) ctor =>
    Constructor.Matches decls declared.1 declared.2 ctor) (declaredCtors decls) r.constructors
  /-- So do the conditions, each with its type and its scope, numbered from zero. -/
  constraints : r.constraints.map Constraint.entry = decls.flatMap fun decl => decl.conditions.map (decl.name, ·)
  indices : r.constraints.map Constraint.index = List.range r.constraints.length
  /-- A name finds the one type of that name. -/
  type?_eq : ∀ name type, r.type? name = some type ↔ type ∈ r.types ∧ type.name = name
  /-- A name finds the one constructor of that name. -/
  constructor?_eq : ∀ name ctor, r.constructor? name = some ctor ↔ ctor ∈ r.constructors ∧ ctor.name = name
  /-- The constructors of a type are those that belong to it, in their order. -/
  constructorsOf_eq : ∀ name, r.constructorsOf name = r.constructors.filter fun ctor => ctor.typeName == name
  /-- The conditions on a constructor are those of its type that speak of it, in their order. -/
  constraintsFor_eq : ∀ decl ∈ decls, ∀ c ∈ decl.ctors,
    (r.constraintsFor c.name).map Constraint.condition = decl.conditionsOn c

namespace Registry

variable {decls : List TypeDecl} {parts : List (List Constructor × List Constraint)}

/-! ## Constructors -/

/-- The constructors of a registry are those that are declared, in order. -/
theorem constructors_ofParts (h : List.Forall₂ (TypeDecl.Makes decls) decls parts) :
    List.Forall₂ (fun (declared : TypeDecl × CtorDecl) ctor =>
      Constructor.Matches decls declared.1 declared.2 ctor)
      (declaredCtors decls) (ofParts decls parts).constructors := by
  refine List.rel_flatMap h fun decl part hmakes => ?_
  rw [List.forall₂_map_left_iff]
  exact hmakes.ctors

/-- Every constructor is listed with the name of its type. -/
theorem map_constructors_ofParts (h : List.Forall₂ (TypeDecl.Makes decls) decls parts) :
    (ofParts decls parts).constructors.map (fun ctor => (ctor.typeName, ctor.name)) =
      decls.flatMap fun decl => (decl.ctors.map CtorDecl.name).map (decl.name, ·) := by
  have hlabels : (ofParts decls parts).constructors.map (fun ctor => (ctor.typeName, ctor.name)) =
      (declaredCtors decls).map fun declared => (declared.1.name, declared.2.name) :=
    map_eq_of_forall₂ ((constructors_ofParts h).imp fun _ _ hmatch => by rw [hmatch.typeName, hmatch.name])
  rw [hlabels, declaredCtors, List.map_flatMap]
  simp only [List.map_map, Function.comp_def]

/-- No two constructors of a registry have the same name. -/
theorem nodup_constructors_ofParts (h : List.Forall₂ (TypeDecl.Makes decls) decls parts)
    (hctors : (ctorNames decls).Nodup) : ((ofParts decls parts).constructors.map Constructor.name).Nodup := by
  have hnames : (ofParts decls parts).constructors.map Constructor.name = ctorNames decls := by
    have hsnd := congrArg (List.map Prod.snd) (map_constructors_ofParts h)
    rw [List.map_map, List.map_flatMap] at hsnd
    rw [ctorNames]
    simpa only [List.map_map, Function.comp_def] using hsnd
  exact hnames ▸ hctors

/-- The names of the constructors that belong to a type, as it declares them. -/
theorem names_filter_constructors (h : List.Forall₂ (TypeDecl.Makes decls) decls parts)
    (hnodup : (decls.map TypeDecl.name).Nodup) {decl : TypeDecl} (hdecl : decl ∈ decls) :
    ((ofParts decls parts).constructors.filter fun ctor => ctor.typeName == decl.name).map Constructor.name =
      decl.ctors.map CtorDecl.name := by
  have hlabel := filter_flatMap_key hnodup hdecl fun decl => decl.ctors.map CtorDecl.name
  rw [← map_constructors_ofParts h, List.filter_map] at hlabel
  have hsnd := congrArg (List.map Prod.snd) hlabel
  simpa only [List.map_map, Function.comp_def, List.map_id'] using hsnd

/-- Names of constructors that are known find these constructors. -/
theorem filterMap_constructor? {r : Registry} (hnodup : (r.constructors.map Constructor.name).Nodup)
    {ctors : List Constructor} (h : ∀ ctor ∈ ctors, ctor ∈ r.constructors) :
    (ctors.map Constructor.name).filterMap r.constructor? = ctors := by
  rw [List.filterMap_map]
  refine (List.filterMap_congr fun ctor hctor => ?_).trans List.filterMap_some
  exact (constructor?_eq_some_iff hnodup).2 ⟨h ctor hctor, rfl⟩

/-- The constructors of a type are those that belong to it, in order. -/
theorem constructorsOf_ofParts (h : List.Forall₂ (TypeDecl.Makes decls) decls parts)
    (hnodup : (decls.map TypeDecl.name).Nodup) (hctors : (ctorNames decls).Nodup) (name : String) :
    (ofParts decls parts).constructorsOf name =
      (ofParts decls parts).constructors.filter fun ctor => ctor.typeName == name := by
  rw [constructorsOf]
  cases htype : (ofParts decls parts).type? name with
  | some type =>
    obtain ⟨decl, hdecl, rfl, rfl⟩ := (type?_eq_some_iff rfl hnodup).1 htype
    dsimp only [typeDefOf]
    rw [← names_filter_constructors h hnodup hdecl]
    exact filterMap_constructor? (nodup_constructors_ofParts h hctors) fun ctor => List.mem_of_mem_filter
  | none =>
    refine (List.filter_eq_nil_iff.2 fun ctor hctor hname => ?_).symm
    -- the constructor belongs to a declared type, which the name would have found
    have hlisted := List.mem_map_of_mem (f := fun ctor => (ctor.typeName, ctor.name)) hctor
    rw [map_constructors_ofParts h] at hlisted
    obtain ⟨decl, hdecl, hlisted⟩ := List.mem_flatMap.1 hlisted
    obtain ⟨_, -, hlisted⟩ := List.mem_map.1 hlisted
    have hfound := (type?_eq_some_iff (r := ofParts decls parts) rfl hnodup).2 ⟨decl, hdecl, rfl, rfl⟩
    rw [(Prod.mk.inj hlisted).1, beq_iff_eq.1 hname, htype] at hfound
    cases hfound

/-! ## Conditions -/

/-- Numbers do not change what conditions say. -/
theorem entries_numbered (constraints : List Constraint) :
    (numbered constraints).map Constraint.entry = constraints.map Constraint.entry := by
  refine List.ext_getElem? fun i => ?_
  rw [numbered, List.getElem?_map, List.getElem?_mapIdx, List.getElem?_map, Option.map_map]
  rfl

/-- Conditions are numbered from zero on, in order. -/
theorem indices_numbered (constraints : List Constraint) :
    (numbered constraints).map Constraint.index = List.range (numbered constraints).length := by
  refine List.ext_getElem (by rw [List.length_map, List.length_range]) fun i _ _ => ?_
  simp only [numbered, List.getElem_map, List.getElem_mapIdx, List.getElem_range]

/-- The conditions of a registry are those that are declared, in order. -/
theorem constraints_ofParts (h : List.Forall₂ (TypeDecl.Makes decls) decls parts) :
    (ofParts decls parts).constraints.map Constraint.entry =
      decls.flatMap fun decl => decl.conditions.map (decl.name, ·) := by
  rw [ofParts, entries_numbered, List.map_flatMap, List.flatMap_def, List.flatMap_def]
  refine congrArg List.flatten (map_eq_of_forall₂ (h.imp fun decl part hmakes => ?_))
  rw [hmakes.constraints, List.map_map]
  rfl

/-- A scope of one constructor is for this constructor only. -/
theorem appliesTo_only_singleton (ctor name : String) : (Scope.only [ctor]).appliesTo name = (ctor == name) := by
  rw [Bool.eq_iff_iff, beq_iff_eq, Scope.appliesTo, List.contains_iff_mem, List.mem_singleton, eq_comm]

/-- Of the conditions directly after constructors, those after one of them are on it. -/
theorem filter_inlineClauses (ctors : List CtorDecl) (name : String) :
    (ctors.filterMap inlineClause?).filter (fun clause => clause.2.appliesTo name) =
      (ctors.filter fun c => c.name == name).filterMap inlineClause? := by
  induction ctors with
  | nil => rfl
  | cons c ctors ih =>
    rw [List.filter_cons]
    cases hwhere : c.inlineWhere with
    | none =>
      have hinline : inlineClause? c = none := by rw [inlineClause?, hwhere, Option.map_none]
      rw [List.filterMap_cons_none hinline, ih]
      split
      · rw [List.filterMap_cons_none hinline]
      · rfl
    | some clause =>
      have hinline : inlineClause? c = some (clause, .only [c.name]) := by
        rw [inlineClause?, hwhere, Option.map_some]
      rw [List.filterMap_cons_some hinline, List.filter_cons, ih, appliesTo_only_singleton]
      split
      · rw [List.filterMap_cons_some hinline]
      · rfl

/-- The clauses of a declaration that speak of one of its constructors. -/
theorem filter_clausesOf {decl : TypeDecl} (hnodup : (decl.ctors.map CtorDecl.name).Nodup) {c : CtorDecl}
    (hc : c ∈ decl.ctors) :
    ((clausesOf decl).filter fun clause => clause.2.appliesTo c.name).map Prod.fst =
      c.inlineWhere.toList ++ decl.clauses.filter fun clause => clause.scope.appliesTo c.name := by
  rw [clausesOf, List.filter_append, List.map_append, filter_inlineClauses,
    filter_key_eq_singleton hnodup hc, List.filter_map, List.map_map]
  refine congr (congrArg _ ?_) (List.map_id' _)
  cases hwhere : c.inlineWhere with
  | none => rw [List.filterMap_cons_none (by rw [inlineClause?, hwhere, Option.map_none])]; rfl
  | some clause => rw [List.filterMap_cons_some (by rw [inlineClause?, hwhere, Option.map_some])]; rfl

/-- The conditions of a declaration whose scope applies to one of its constructors. -/
theorem filter_conditions {decl : TypeDecl} (hnodup : (decl.ctors.map CtorDecl.name).Nodup) {c : CtorDecl}
    (hc : c ∈ decl.ctors) :
    (decl.conditions.filter fun condition => condition.2.appliesTo c.name).map Prod.fst = decl.conditionsOn c := by
  rw [TypeDecl.conditionsOn, ← filter_clausesOf hnodup hc, TypeDecl.conditions]
  induction clausesOf decl with
  | nil => rfl
  | cons clause clauses ih =>
    rw [List.flatMap_cons, List.filter_append, List.map_append, ih, List.filter_map, List.map_map, List.filter_cons]
    by_cases happlies : clause.2.appliesTo c.name = true
    · rw [if_pos happlies, List.map_cons, List.flatMap_cons]
      refine congrArg (· ++ _) ?_
      exact (congrArg (List.map _) (List.filter_eq_self.2 fun _ _ => happlies)).trans (List.map_id' _)
    · rw [if_neg happlies]
      exact congrArg (List.map _ · ++ _) (List.filter_eq_nil_iff.2 fun _ _ => happlies)

/-- A declared constructor is found, as one of its type. -/
theorem exists_constructor?_ofParts (h : List.Forall₂ (TypeDecl.Makes decls) decls parts)
    (hnodup : (decls.map TypeDecl.name).Nodup) (hctors : (ctorNames decls).Nodup) {decl : TypeDecl}
    (hdecl : decl ∈ decls) {c : CtorDecl} (hc : c ∈ decl.ctors) :
    ∃ ctor, (ofParts decls parts).constructor? c.name = some ctor ∧ ctor.typeName = decl.name := by
  have hname : c.name ∈ decl.ctors.map CtorDecl.name := List.mem_map_of_mem hc
  rw [← names_filter_constructors h hnodup hdecl] at hname
  obtain ⟨ctor, hctor, hname⟩ := List.mem_map.1 hname
  obtain ⟨hmem, htype⟩ := List.mem_filter.1 hctor
  exact ⟨ctor, (constructor?_eq_some_iff (nodup_constructors_ofParts h hctors)).2 ⟨hmem, hname⟩, beq_iff_eq.1 htype⟩

/-- The conditions on a constructor are those of its own, and those of its type that are for it. -/
theorem constraintsFor_ofParts (h : List.Forall₂ (TypeDecl.Makes decls) decls parts)
    (hnodup : (decls.map TypeDecl.name).Nodup) (hctors : (ctorNames decls).Nodup) {decl : TypeDecl}
    (hdecl : decl ∈ decls) {c : CtorDecl} (hc : c ∈ decl.ctors) :
    ((ofParts decls parts).constraintsFor c.name).map Constraint.condition = decl.conditionsOn c := by
  obtain ⟨ctor, hctor, htype⟩ := exists_constructor?_ofParts h hnodup hctors hdecl hc
  have hentries : ((ofParts decls parts).constraintsFor c.name).map Constraint.entry =
      ((decls.flatMap fun decl => decl.conditions.map (decl.name, ·)).filter fun entry => entry.1 == decl.name).filter
        fun entry => entry.2.2.appliesTo c.name := by
    rw [constraintsFor, hctor, ← constraints_ofParts h, List.filter_filter, List.filter_map]
    dsimp only
    rw [htype]
    exact congrArg (List.map _) (List.filter_congr fun _ _ => Bool.and_comm ..)
  have hnames : (decl.ctors.map CtorDecl.name).Nodup := (List.nodup_flatMap.1 hctors).1 decl hdecl
  rw [← filter_conditions hnames hc]
  rw [filter_flatMap_key hnodup hdecl, List.filter_map] at hentries
  have hconditions := congrArg (List.map fun entry => entry.2.1) hentries
  rw [List.map_map, List.map_map] at hconditions
  exact hconditions

/-! ## Registries of documents -/

/-- **The registry of accepted declarations holds what they say.** -/
theorem holds_ofParts (h : List.Forall₂ (TypeDecl.Makes decls) decls parts)
    (hnodup : (decls.map TypeDecl.name).Nodup) (hctors : (ctorNames decls).Nodup) :
    (ofParts decls parts).Holds decls where
  types := rfl
  constructors := constructors_ofParts h
  constraints := constraints_ofParts h
  indices := indices_numbered _
  type?_eq name type := by
    refine find?_key_eq_some_iff ?_
    rw [ofParts, List.map_map]
    exact hnodup
  constructor?_eq name ctor := constructor?_eq_some_iff (nodup_constructors_ofParts h hctors)
  constructorsOf_eq := constructorsOf_ofParts h hnodup hctors
  constraintsFor_eq decl hdecl c hc := constraintsFor_ofParts h hnodup hctors hdecl hc

end Registry

/-- **The registry accepts exactly the valid declarations, and holds what they declare.** -/
theorem Document.registry_holds (d : Document) :
    ((∃ r, Registry.ofDecls d.types = .ok r) ↔ ValidDecls d.types) ∧
      ∀ r, Registry.ofDecls d.types = .ok r → r.Holds d.types := by
  refine ⟨Registry.exists_ofDecls_iff, fun r h => ?_⟩
  obtain ⟨hnodup, hctors, -, parts, hparts, rfl⟩ := Registry.ofDecls_eq_ok_iff.1 h
  exact Registry.holds_ofParts hparts hnodup hctors

/-- A type that uses one declared after it, and with a parameter that hides a primitive type. -/
def hiddenPrimitive : String :=
  "type u int = a \x7bx: t int\x7d where true | b \x7b\x7d\nwhere false except \x7ba\x7d\ntype t p = c \x7bp\x7d\n"

/-- A document whose types hide a primitive behind a parameter is accepted, and its registry holds what it says. -/
theorem registry_holds_hiddenPrimitive : ∃ d r, Document.read hiddenPrimitive = .ok d ∧
    Registry.ofDecls d.types = .ok r ∧ ValidDecls d.types ∧ r.Holds d.types := by
  obtain ⟨d, hread, hany⟩ := exists_ok_of_any (show (Document.read hiddenPrimitive).toOption.any (fun d =>
    (Registry.ofDecls d.types).toOption.any fun r => (r.constraintsFor "a").length == 1) = true by decide +kernel)
  obtain ⟨r, hr, -⟩ := exists_ok_of_any hany
  obtain ⟨hvalid, hholds⟩ := d.registry_holds
  exact ⟨d, r, hread, hr, hvalid.1 ⟨r, hr⟩, hholds r hr⟩

end TypedData
