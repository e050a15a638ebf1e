import TypedData.Document.Canonical
import TypedData.Typing.Registry

/-!
# Declarations in canonical form

The registry reads the conditions directly after a constructor as a clause for it, which comes before the
clauses of the type; the canonical form writes just this clause.  So the registry of a declaration is the
same in canonical form, down to the places of its failures.
-/

namespace TypedData

namespace Registry

/-! ## Names -/

/-- Whether constructors are declared twice does not depend on the conditions after them. -/
theorem checkConstructors_canonical {ctors : List CtorDecl} {seen : List String} :
    checkConstructors seen (ctors.map fun ctor => { ctor with inlineWhere := none }) =
      checkConstructors seen ctors := by
  induction ctors generalizing seen with
  | nil => rfl
  | cons ctor ctors ih =>
    rw [List.map_cons, checkConstructors, checkConstructors, ih]

/-- Canonical declarations have the same names, or the same failure. -/
theorem checkNames_canonical {decls : List TypeDecl} {types ctors : List String} :
    checkNames types ctors (decls.map TypeDecl.canonical) = checkNames types ctors decls := by
  induction decls generalizing types ctors with
  | nil => rfl
  | cons decl decls ih =>
    rw [List.map_cons, checkNames, checkNames]
    simp only [TypeDecl.canonical, checkConstructors_canonical, ih]

/-- A canonical declaration declares the same type. -/
theorem typeDefOf_canonical (decl : TypeDecl) : typeDefOf decl.canonical = typeDefOf decl := by
  rw [typeDefOf, typeDefOf, TypeDecl.canonical, List.map_map]
  rfl

/-- A canonical declaration has the same constructors. -/
theorem bareConstructors_canonical (decl : TypeDecl) :
    bareConstructors decl.canonical = bareConstructors decl := by
  rw [bareConstructors, bareConstructors, TypeDecl.canonical, List.map_map]
  rfl

/-- Canonical declarations give the same names to start from. -/
theorem ofNames_canonical (decls : List TypeDecl) :
    ofNames (decls.map TypeDecl.canonical) = ofNames decls := by
  rw [ofNames, ofNames, List.map_map, List.flatMap_map]
  rw [show typeDefOf ∘ TypeDecl.canonical = typeDefOf from funext typeDefOf_canonical,
    show (fun decl => bareConstructors decl.canonical) = bareConstructors
      from funext bareConstructors_canonical]

/-! ## Clauses -/

/-- A clause that is written with the scope that it has. -/
def withScope (clause : WhereClause × Scope) : WhereClause × Scope :=
  ({ clause.1 with scope := clause.2 }, clause.2)

/-- The clauses of a canonical declaration are those of the declaration, each written with the scope that it has. -/
theorem clausesOf_canonical (decl : TypeDecl) :
    clausesOf decl.canonical = (clausesOf decl).map withScope := by
  have hnone : decl.canonical.ctors.filterMap inlineClause? = [] := by
    rw [TypeDecl.canonical, List.filterMap_map]
    exact List.filterMap_eq_nil_iff.2 fun _ _ => rfl
  have hlifted : (decl.ctors.filterMap CtorDecl.liftedClause?).map (fun clause => (clause, clause.scope)) =
      (decl.ctors.filterMap inlineClause?).map withScope := by
    rw [List.map_filterMap, List.map_filterMap]
    congr 1
    funext ctor
    rw [CtorDecl.liftedClause?, inlineClause?, Option.map_map, Option.map_map]
    rfl
  rw [clausesOf, clausesOf, hnone, List.nil_append, List.map_append, List.map_map, ← hlifted,
    TypeDecl.canonical, List.map_append]
  rfl

/-- A canonical declaration has the same conditions, or the same failure. -/
theorem conditionsOf_canonical (r : Registry) (decl : TypeDecl) :
    r.conditionsOf decl.canonical = r.conditionsOf decl := by
  unfold conditionsOf
  rw [clausesOf_canonical]
  dsimp only
  rw [List.forM_eq_forM, List.forM_map, List.flatMap_map]
  rfl

/-- A canonical declaration declares the same constructors and conditions, or the same failure. -/
theorem declare_canonical (r : Registry) (decl : TypeDecl) :
    r.declare decl.canonical = r.declare decl := by
  unfold declare
  rw [conditionsOf_canonical, TypeDecl.canonical, List.mapM_map]
  rfl

/-- **The registry is the same in canonical form,** or the same failure. -/
theorem ofDecls_canonical (decls : List TypeDecl) :
    ofDecls (decls.map TypeDecl.canonical) = ofDecls decls := by
  unfold ofDecls
  rw [checkNames_canonical, ofNames_canonical]
  dsimp only
  rw [List.mapM_map, show (ofNames decls).declare ∘ TypeDecl.canonical = (ofNames decls).declare
    from funext (declare_canonical _)]

end Registry

end TypedData
