import Mathlib.Data.List.Forall2
import TypedData.Proofs.Result
import TypedData.Proofs.Typing.Registry

/-!
# What a written type stands for

A name in a type stands for a parameter, a primitive type or a declared type, and in this order: a
parameter hides all else of its name.  `TypeExpr.Denotes` says by rules what a whole type stands for
among the declarations of a document, without looking anything up.  A registry that has the declared
types finds exactly this (`Registry.resolveType_eq_ok_iff`), wherever in the document they are declared.
-/

namespace TypedData

/-- **What a written type stands for** among the declarations of a document, where the given parameters
are declared.  A type that stands for something is well-formed. -/
inductive TypeExpr.Denotes (decls : List TypeDecl) (params : List String) : TypeExpr → Ty → Prop
  | param {span : Span} {name : String} (hparam : name ∈ params) :
      Denotes decls params (.named span name []) (.param name)
  | prim {span : Span} (p : Primitive) (hparam : p.name ∉ params) :
      Denotes decls params (.named span p.name []) (.prim p)
  | declared {span : Span} {args : List TypeExpr} {types : List Ty} {decl : TypeDecl} (hdecl : decl ∈ decls)
      (hparam : decl.name ∉ params) (hprim : ∀ p : Primitive, p.name ≠ decl.name)
      (hlen : args.length = decl.params.length) (hargs : List.Forall₂ (Denotes decls params) args types) :
      Denotes decls params (.named span decl.name args) (.named decl.name types)
  | optional {span : Span} {inner : TypeExpr} {t : Ty} (h : Denotes decls params inner t) :
      Denotes decls params (.optional span inner) (.optional t)
  | list {span : Span} {inner : TypeExpr} {t : Ty} (h : Denotes decls params inner t) :
      Denotes decls params (.list span inner) (.list t)

namespace Registry

variable {r : Registry} {decls : List TypeDecl} {params : List String}

/-! ## What a name stands for -/

/-- A parameter is looked up before everything else. -/
theorem typeHead?_of_mem {name : String} (h : name ∈ params) : r.typeHead? params name = some .param := by
  rw [typeHead?, if_pos (List.contains_iff_mem.2 h)]

/-- A primitive is looked up unless a parameter has its name. -/
theorem typeHead?_of_primitive {p : Primitive} (h : p.name ∉ params) :
    r.typeHead? params p.name = some (.prim p) := by
  rw [typeHead?, if_neg (mt List.contains_iff_mem.1 h), Primitive.ofName?_name]

/-- A name that is no parameter and no primitive is looked up among the declarations. -/
theorem typeHead?_of_ne {name : String} (hparam : name ∉ params) (hprim : ∀ p : Primitive, p.name ≠ name) :
    r.typeHead? params name = (r.type? name).map fun type => .declared type.params.length := by
  rw [typeHead?, if_neg (mt List.contains_iff_mem.1 hparam), Primitive.ofName?_eq_none_iff.2 hprim]

/-! ## What a type stands for -/

/-- A type is resolved when its head is known and has as many arguments, which are resolved. -/
theorem resolveType_named_eq_ok_iff {span : Span} {name : String} {args : List TypeExpr} {t : Ty} :
    r.resolveType params (.named span name args) = .ok t ↔
      ∃ head types, r.typeHead? params name = some head ∧ args.length = head.arity ∧
        r.resolveTypes params args = .ok types ∧ t = head.toTy name types := by
  rw [resolveType]
  cases r.typeHead? params name with
  | none =>
    constructor
    · rintro ⟨⟩
    · rintro ⟨_, _, ⟨⟩, -⟩
  | some head =>
    dsimp only
    by_cases hlen : args.length = head.arity
    · rw [if_neg (not_not.2 hlen)]
      constructor
      · intro h
        obtain ⟨types, htypes, h⟩ := bind_eq_ok_iff.1 h
        exact ⟨head, types, rfl, hlen, htypes, (Except.ok.inj h).symm⟩
      · rintro ⟨_, types, ⟨⟩, -, htypes, rfl⟩
        exact bind_eq_ok_iff.2 ⟨types, htypes, rfl⟩
    · rw [if_pos hlen]
      constructor
      · rintro ⟨⟩
      · rintro ⟨_, _, ⟨⟩, hlen', -⟩
        exact absurd hlen' hlen

/-- Of a name, the rules and the registry say the same if they do of its arguments. -/
theorem denotes_named_iff (htypes : r.types = decls.map typeDefOf) (hnodup : (decls.map TypeDecl.name).Nodup)
    {span : Span} {name : String} {args : List TypeExpr} {t : Ty} :
    TypeExpr.Denotes decls params (.named span name args) t ↔
      ∃ head types, r.typeHead? params name = some head ∧ args.length = head.arity ∧
        List.Forall₂ (TypeExpr.Denotes decls params) args types ∧ t = head.toTy name types := by
  constructor
  · rintro (hparam | ⟨p, hparam⟩ | ⟨hdecl, hparam, hprim, hlen, hargs⟩)
    · exact ⟨.param, [], typeHead?_of_mem hparam, rfl, .nil, rfl⟩
    · exact ⟨.prim p, [], typeHead?_of_primitive hparam, rfl, .nil, rfl⟩
    · rename_i types decl
      have hfound := (type?_eq_some_iff htypes hnodup).2 ⟨decl, hdecl, rfl, rfl⟩
      refine ⟨.declared decl.params.length, types, ?_, hlen, hargs, rfl⟩
      rw [typeHead?_of_ne hparam hprim, hfound]
      rfl
  · rintro ⟨head, types, hhead, hlen, hargs, rfl⟩
    by_cases hparam : name ∈ params
    · obtain rfl := Option.some.inj ((typeHead?_of_mem hparam).symm.trans hhead)
      obtain rfl := List.eq_nil_of_length_eq_zero hlen
      exact .param hparam
    · by_cases hprim : ∃ p : Primitive, p.name = name
      · obtain ⟨p, rfl⟩ := hprim
        obtain rfl := Option.some.inj ((typeHead?_of_primitive hparam).symm.trans hhead)
        obtain rfl := List.eq_nil_of_length_eq_zero hlen
        exact .prim p hparam
      · have hprim := not_exists.1 hprim
        rw [typeHead?_of_ne hparam hprim, Option.map_eq_some_iff] at hhead
        obtain ⟨type, hfound, rfl⟩ := hhead
        obtain ⟨decl, hdecl, rfl, rfl⟩ := (type?_eq_some_iff htypes hnodup).1 hfound
        exact .declared hdecl hparam hprim hlen hargs

mutual

/-- **A registry with the declared types finds what a type stands for**, and nothing for a type that
stands for nothing. -/
theorem resolveType_eq_ok_iff (htypes : r.types = decls.map typeDefOf)
    (hnodup : (decls.map TypeDecl.name).Nodup) : (e : TypeExpr) → {t : Ty} →
    (r.resolveType params e = .ok t ↔ e.Denotes decls params t)
  | .named span name args, t => by
    rw [resolveType_named_eq_ok_iff, denotes_named_iff htypes hnodup]
    simp only [resolveTypes_eq_ok_iff htypes hnodup args]
  | .optional span inner, t => by
    rw [resolveType, bind_eq_ok_iff]
    constructor
    · rintro ⟨type, htype, h⟩
      obtain rfl := Except.ok.inj h
      exact .optional ((resolveType_eq_ok_iff htypes hnodup inner).1 htype)
    · rintro (_ | _ | _ | h | _)
      exact ⟨_, (resolveType_eq_ok_iff htypes hnodup inner).2 h, rfl⟩
  | .list span inner, t => by
    rw [resolveType, bind_eq_ok_iff]
    constructor
    · rintro ⟨type, htype, h⟩
      obtain rfl := Except.ok.inj h
      exact .list ((resolveType_eq_ok_iff htypes hnodup inner).1 htype)
    · rintro (_ | _ | _ | _ | h)
      exact ⟨_, (resolveType_eq_ok_iff htypes hnodup inner).2 h, rfl⟩

/-- Types are resolved as what they denote, one by one. -/
theorem resolveTypes_eq_ok_iff (htypes : r.types = decls.map typeDefOf)
    (hnodup : (decls.map TypeDecl.name).Nodup) : (es : List TypeExpr) → {ts : List Ty} →
    (r.resolveTypes params es = .ok ts ↔ List.Forall₂ (TypeExpr.Denotes decls params) es ts)
  | [], ts => by
    rw [resolveTypes, List.forall₂_nil_left_iff, Except.ok.injEq, eq_comm]
  | e :: es, ts => by
    rw [resolveTypes, bind_eq_ok_iff, List.forall₂_cons_left_iff]
    constructor
    · rintro ⟨t, ht, h⟩
      obtain ⟨rest, hrest, h⟩ := bind_eq_ok_iff.1 h
      exact ⟨t, rest, (resolveType_eq_ok_iff htypes hnodup e).1 ht,
        (resolveTypes_eq_ok_iff htypes hnodup es).1 hrest, (Except.ok.inj h).symm⟩
    · rintro ⟨t, rest, ht, hrest, rfl⟩
      exact ⟨t, (resolveType_eq_ok_iff htypes hnodup e).2 ht,
        bind_eq_ok_iff.2 ⟨rest, (resolveTypes_eq_ok_iff htypes hnodup es).2 hrest, rfl⟩⟩

end

end Registry

end TypedData
