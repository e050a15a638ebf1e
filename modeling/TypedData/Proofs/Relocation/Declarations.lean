import TypedData.Proofs.Relocation.Condition

/-!
# Declarations at other places

Whatever is looked up in moved declarations is what is looked up in the declarations, moved.  From moved
declarations and rules come the moved registry and the moved rules, or the moved failure.
-/

namespace TypedData

variable (f : Span → Span)

/-! ## Lookups -/

/-- A constructor at another place has its fields in the same positions. -/
theorem Constructor.fieldIndex?_relocate (ctor : Constructor) (name : String) :
    (ctor.relocate f).fieldIndex? name = ctor.fieldIndex? name := by
  unfold fieldIndex? relocate
  rw [List.findIdx?_map]
  rfl

/-- A constructor at another place has the same names of fields. -/
theorem Constructor.names_relocate (ctor : Constructor) :
    (ctor.relocate f).fields.map FieldSpec.name = ctor.fields.map FieldSpec.name := by
  rw [relocate, List.map_map]
  rfl

namespace Registry

variable (r : Registry)

/-- A registry at other places looks up the same types, at their places. -/
theorem type?_relocate (name : String) :
    (r.relocate f).type? name = (r.type? name).map (TypeDef.relocate f) := by
  rw [type?, type?, relocate, List.find?_map]
  rfl

/-- A registry at other places looks up the same constructors, at their places. -/
theorem constructor?_relocate (name : String) :
    (r.relocate f).constructor? name = (r.constructor? name).map (Constructor.relocate f) := by
  rw [constructor?, constructor?, relocate, List.find?_map]
  rfl

/-- A registry at other places knows the same constructors. -/
theorem isSome_constructor?_relocate (name : String) :
    ((r.relocate f).constructor? name).isSome = (r.constructor? name).isSome := by
  rw [constructor?_relocate, Option.isSome_map]

/-- In a registry at other places, constructors belong to the same types. -/
theorem typeName_constructor?_relocate (name : String) :
    ((r.relocate f).constructor? name).map Constructor.typeName =
      (r.constructor? name).map Constructor.typeName := by
  rw [constructor?_relocate, Option.map_map]
  rfl

/-- A type at another place has the same constructors, at their places. -/
theorem constructorsOf_relocate (typeName : String) :
    (r.relocate f).constructorsOf typeName =
      (r.constructorsOf typeName).map (Constructor.relocate f) := by
  unfold constructorsOf
  rw [type?_relocate]
  cases r.type? typeName with
  | none => rfl
  | some type =>
    change type.constructors.filterMap (r.relocate f).constructor? = _
    rw [funext (constructor?_relocate f r), ← List.map_filterMap]

/-- A type at another place has the same single constructor, at its place. -/
theorem soleConstructor?_relocate (typeName : String) :
    (r.relocate f).soleConstructor? typeName =
      (r.soleConstructor? typeName).map (Constructor.relocate f) := by
  unfold soleConstructor?
  rw [constructorsOf_relocate]
  match r.constructorsOf typeName with
  | [] | [_] | _ :: _ :: _ => rfl

/-- A constructor at another place has the same conditions, at their places. -/
theorem constraintsFor_relocate (ctor : String) :
    (r.relocate f).constraintsFor ctor =
      (r.constraintsFor ctor).map (Constraint.relocate f) := by
  unfold constraintsFor
  rw [constructor?_relocate]
  cases r.constructor? ctor with
  | none => rfl
  | some c =>
    dsimp only [Option.map_some, relocate]
    rw [List.filter_map]
    rfl

/-- Fields at other places have the same types. -/
theorem fieldTypes_relocate (ctor : Constructor) (args : List Ty) :
    (r.relocate f).fieldTypes (ctor.relocate f) args = r.fieldTypes ctor args := by
  unfold fieldTypes
  rw [type?_relocate, Option.map_map]
  dsimp only [Constructor.relocate]
  rw [List.map_map]
  rfl

end Registry

/-! ## Types -/

/-- A result at other places: its failures are at other places. -/
def relocateProblem {α β : Type} (g : α → β) (x : Except TypeError α) : Except TypeError β :=
  (x.mapError (TypeError.relocate f)).map g

/-- Relocation goes through one declaration after another. -/
theorem relocateProblem_bind {α β γ δ : Type} (g : α → β) (h : γ → δ) {x : Except TypeError α}
    {x' : Except TypeError β} {k : α → Except TypeError γ} {k' : β → Except TypeError δ}
    (hx : x' = relocateProblem f g x) (hk : ∀ a, k' (g a) = relocateProblem f h (k a)) :
    x' >>= k' = relocateProblem f h (x >>= k) := by
  subst hx
  cases x with
  | error e => rfl
  | ok a => exact hk a

/-- Relocation goes through both branches of a choice. -/
theorem relocateProblem_ite {α β : Type} (g : α → β) {c : Prop} [Decidable c]
    {x y : Except TypeError α} {x' y' : Except TypeError β} (hx : x' = relocateProblem f g x)
    (hy : y' = relocateProblem f g y) :
    (if c then x' else y') = relocateProblem f g (if c then x else y) := by
  split
  · exact hx
  · exact hy

/-- Relocation goes through checks in a row. -/
theorem relocateProblem_forM {α β : Type} (g : α → β) {step : α → Except TypeError Unit}
    {step' : β → Except TypeError Unit} (h : ∀ a, step' (g a) = relocateProblem f id (step a)) :
    (as : List α) → (as.map g).forM step' = relocateProblem f id (as.forM step)
  | [] => rfl
  | a :: as => by
    change (step' (g a) >>= fun _ => (as.map g).forM step') =
      relocateProblem f id (step a >>= fun _ => as.forM step)
    exact relocateProblem_bind f id id (h a) fun _ => relocateProblem_forM g h as

/-- Relocation goes through steps that make a list. -/
theorem relocateProblem_mapM {α β γ δ : Type} (g : α → β) (g' : γ → δ)
    {step : α → Except TypeError γ} {step' : β → Except TypeError δ}
    (h : ∀ a, step' (g a) = relocateProblem f g' (step a)) : (as : List α) →
    (as.map g).mapM step' = relocateProblem f (List.map g') (as.mapM step)
  | [] => by rw [List.map_nil, List.mapM_nil, List.mapM_nil]; rfl
  | a :: as => by
    rw [List.map_cons, List.mapM_cons, List.mapM_cons]
    refine relocateProblem_bind f g' _ (h a) fun c => ?_
    exact relocateProblem_bind f (List.map g') _ (relocateProblem_mapM g g' h as) fun _ => rfl

namespace Registry

variable (r : Registry)

/-- A name means the same type in a registry at other places. -/
theorem typeHead?_relocate (params : List String) (name : String) :
    (r.relocate f).typeHead? params name = r.typeHead? params name := by
  unfold typeHead?
  rw [type?_relocate, Option.map_map]
  rfl

mutual

/-- A moved type stands for the same type. -/
theorem resolveType_relocate (params : List String) : (t : TypeExpr) →
    (r.relocate f).resolveType params (t.relocate f) = relocateProblem f id (r.resolveType params t)
  | .optional _ inner | .list _ inner => by
    rw [TypeExpr.relocate, resolveType, resolveType]
    exact relocateProblem_bind f id id (resolveType_relocate params inner) fun _ => rfl
  | .named span name args => by
    rw [TypeExpr.relocate, resolveType, resolveType, typeHead?_relocate,
      TypeExpr.length_relocateArgs]
    cases r.typeHead? params name with
    | none => rfl
    | some head =>
      dsimp only
      split
      · rfl
      · exact relocateProblem_bind f id id (resolveTypes_relocate params args) fun _ => rfl

/-- Types at other places are resolved alike, and refused at their places. -/
theorem resolveTypes_relocate (params : List String) : (ts : List TypeExpr) →
    (r.relocate f).resolveTypes params (TypeExpr.relocateArgs f ts) =
      relocateProblem f id (r.resolveTypes params ts)
  | [] => rfl
  | t :: ts => by
    rw [TypeExpr.relocateArgs, resolveTypes, resolveTypes]
    refine relocateProblem_bind f id id (resolveType_relocate params t) fun _ => ?_
    exact relocateProblem_bind f id id (resolveTypes_relocate params ts) fun _ => rfl

end

/-! ## The registry -/

/-- Parameters at another place are refused there, for the same reasons. -/
theorem checkParameters_relocate (span : Span) : (params seen : List String) →
    checkParameters (f span) seen params = relocateProblem f id (checkParameters span seen params)
  | [], _ => rfl
  | param :: params, seen => by
    rw [checkParameters, checkParameters]
    exact relocateProblem_ite f id rfl (checkParameters_relocate span params (param :: seen))

/-- Constructors at other places are refused there, for the same reasons. -/
theorem checkConstructors_relocate : (ctors : List CtorDecl) → (seen : List String) →
    checkConstructors seen (ctors.map (CtorDecl.relocate f)) =
      relocateProblem f id (checkConstructors seen ctors)
  | [], _ => rfl
  | ctor :: ctors, seen => by
    rw [List.map_cons, checkConstructors, checkConstructors]
    exact relocateProblem_ite f id rfl (checkConstructors_relocate ctors (ctor.name :: seen))

/-- Declarations at other places are refused there for the same clashes of names. -/
theorem checkNames_relocate : (decls : List TypeDecl) → (types ctors : List String) →
    checkNames types ctors (decls.map (TypeDecl.relocate f)) =
      relocateProblem f id (checkNames types ctors decls)
  | [], _, _ => rfl
  | decl :: decls, types, ctors => by
    rw [List.map_cons, checkNames, checkNames]
    refine relocateProblem_ite f id rfl ?_
    refine relocateProblem_bind f id id (checkParameters_relocate f decl.span _ _) fun _ => ?_
    refine relocateProblem_bind f id id (checkConstructors_relocate f decl.ctors _) fun _ => ?_
    exact checkNames_relocate decls _ _

/-- The registry of names is moved when the declarations are. -/
theorem ofNames_relocate (decls : List TypeDecl) :
    ofNames (decls.map (TypeDecl.relocate f)) = (ofNames decls).relocate f := by
  have htypes : typeDefOf ∘ TypeDecl.relocate f = TypeDef.relocate f ∘ typeDefOf := by
    funext decl
    simp only [Function.comp_apply, typeDefOf, TypeDecl.relocate, TypeDef.relocate, List.map_map]
    rfl
  have hctors : (fun decl => bareConstructors (TypeDecl.relocate f decl)) =
      fun decl => (bareConstructors decl).map (Constructor.relocate f) := by
    funext decl
    simp only [bareConstructors, TypeDecl.relocate, List.map_map]
    rfl
  simp only [ofNames, relocate, List.map_map, List.flatMap_map, htypes, hctors, List.map_flatMap,
    List.map_nil]

/-- Fields at other places are declared alike, or refused at their places. -/
theorem fieldsOf_relocate (params : List String) (ctor : String) : (fields : List FieldDecl) →
    (seen : List FieldSpec) →
    (r.relocate f).fieldsOf params ctor (seen.map (FieldSpec.relocate f))
        (fields.map (FieldDecl.relocate f)) =
      relocateProblem f (List.map (FieldSpec.relocate f)) (r.fieldsOf params ctor seen fields)
  | [], _ => rfl
  | field :: fields, seen => by
    have hseen : (seen.map (FieldSpec.relocate f)).any (·.name == field.name) =
        seen.any (·.name == field.name) := List.any_map
    rw [List.map_cons, fieldsOf, fieldsOf]
    simp only [FieldDecl.relocate, hseen]
    refine relocateProblem_ite f _ rfl ?_
    refine relocateProblem_bind f id _ (resolveType_relocate f r params field.type) fun type => ?_
    exact relocateProblem_bind f (List.map (FieldSpec.relocate f)) _
      (fieldsOf_relocate params ctor fields (⟨field.name, type, field.span⟩ :: seen)) fun _ => rfl

/-- A constructor at another place is declared alike, or refused at its place. -/
theorem constructorOf_relocate (decl : TypeDecl) (ctor : CtorDecl) :
    (r.relocate f).constructorOf (decl.relocate f) (ctor.relocate f) =
      relocateProblem f (Constructor.relocate f) (r.constructorOf decl ctor) :=
  relocateProblem_bind f (List.map (FieldSpec.relocate f)) _
    (fieldsOf_relocate f r decl.params ctor.name ctor.fields []) fun _ => rfl

/-- A clause and its scope at other places. -/
def relocateClause (clause : WhereClause × Scope) : WhereClause × Scope :=
  (clause.1.relocate f, clause.2)

/-- A declaration at another place has the same clauses, at their places. -/
theorem clausesOf_relocate (decl : TypeDecl) :
    clausesOf (decl.relocate f) = (clausesOf decl).map (relocateClause f) := by
  unfold clausesOf
  simp only [TypeDecl.relocate, List.map_append, List.map_map, List.filterMap_map,
    List.map_filterMap]
  congr 2
  funext ctor
  simp only [Function.comp_apply, inlineClause?, CtorDecl.relocate, Option.map_map]
  rfl

/-- The scope of a clause at another place is refused there, for the same reasons. -/
theorem checkScope_relocate (typeName : String) (clause : WhereClause) (scope : Scope) :
    (r.relocate f).checkScope typeName (clause.relocate f) scope =
      relocateProblem f id (r.checkScope typeName clause scope) := by
  unfold checkScope
  refine (congrArg (List.forM · _) (List.map_id _).symm).trans ?_
  refine relocateProblem_forM f id (fun name => ?_) scope.names
  dsimp only [id]
  rw [typeName_constructor?_relocate]
  split <;> rfl

/-- A declaration at another place gives the same conditions, at their places. -/
theorem conditionsOf_relocate (decl : TypeDecl) :
    (r.relocate f).conditionsOf (decl.relocate f) =
      relocateProblem f (List.map fun (e, scope) => (e.relocate f, scope)) (r.conditionsOf decl) := by
  unfold conditionsOf
  rw [clausesOf_relocate]
  refine relocateProblem_bind f id _
    (relocateProblem_forM f (relocateClause f) (fun clause => ?_) _) fun _ => ?_
  · exact checkScope_relocate f r decl.name clause.1 clause.2
  · dsimp only
    simp only [List.flatMap_map, relocateClause, WhereClause.relocate, List.map_map]
    change Except.ok _ = Except.ok _
    rw [List.map_flatMap]
    simp only [List.map_map]
    rfl

/-- A type at another place is declared alike, or refused at its place. -/
theorem declare_relocate (decl : TypeDecl) :
    (r.relocate f).declare (decl.relocate f) =
      relocateProblem f
        (fun (ctors, constraints) =>
          (ctors.map (Constructor.relocate f), constraints.map (Constraint.relocate f)))
        (r.declare decl) := by
  unfold declare
  refine relocateProblem_bind f (List.map (Constructor.relocate f)) _
    (relocateProblem_mapM f (CtorDecl.relocate f) _ (constructorOf_relocate f r decl) _) fun _ => ?_
  refine relocateProblem_bind f _ _ (conditionsOf_relocate f r decl) fun conditions => ?_
  change Except.ok (_, List.map _ (List.map _ conditions)) =
    Except.ok (_, List.map _ (List.map _ conditions))
  rw [List.map_map, List.map_map]
  rfl

/-- Conditions keep their numbers when they are moved. -/
theorem numbered_relocate (constraints : List Constraint) :
    numbered (constraints.map (Constraint.relocate f)) =
      (numbered constraints).map (Constraint.relocate f) := by
  refine List.ext_getElem? fun i => ?_
  rw [numbered, numbered, List.getElem?_mapIdx, List.getElem?_map, List.getElem?_map,
    List.getElem?_mapIdx, Option.map_map, Option.map_map]
  rfl

/-- **From moved declarations comes the moved registry,** or the moved failure. -/
theorem ofDecls_relocate (decls : List TypeDecl) :
    ofDecls (decls.map (TypeDecl.relocate f)) = relocateProblem f (relocate f) (ofDecls decls) := by
  unfold ofDecls
  refine relocateProblem_bind f id _ (checkNames_relocate f decls [] []) fun _ => ?_
  rw [ofNames_relocate]
  refine relocateProblem_bind f _ _
    (relocateProblem_mapM f (TypeDecl.relocate f) _ (declare_relocate f (ofNames decls)) decls)
    fun parts => ?_
  change Except.ok _ = Except.ok _
  simp only [relocate, List.flatMap_map, List.map_flatMap, ← numbered_relocate]

end Registry

/-! ## Rules -/

namespace Rule

/-- A problem of a template is reported at the place of its rule. -/
theorem atRule_relocate {α : Type} (span : Span) (x : Except TemplateProblem α) :
    atRule (f span) x = relocateProblem f id (atRule span x) := by
  cases x <;> rfl

/-- Names of captures are checked alike in a registry at other places. -/
theorem checkNames_relocate (registry : Registry) (segments : List Segment) (names : List String) :
    checkNames (registry.relocate f) segments names = checkNames registry segments names := by
  unfold checkNames
  congr 1
  funext name
  rw [Registry.isSome_constructor?_relocate]

/-- A rule at another place is compiled alike, or refused at its place. -/
theorem ofDecl_relocate (registry : Registry) (index : Nat) (decl : RuleDecl) :
    ofDecl (registry.relocate f) index (decl.relocate f) =
      relocateProblem f (relocate f) (ofDecl registry index decl) := by
  have hnames : (decl.target.relocate f :: decl.guards.map (Expr.relocate f)).flatMap Expr.freeNames =
      (decl.target :: decl.guards).flatMap Expr.freeNames := by
    simp only [List.flatMap_cons, List.flatMap_map, Expr.freeNames_relocate]
  unfold ofDecl
  refine relocateProblem_bind f id _ (atRule_relocate f decl.span _) fun segments => ?_
  dsimp only [RuleDecl.relocate]
  rw [hnames]
  generalize htarget : decl.target = target
  cases target with
  | call span ctorName args =>
    simp only [Expr.relocate, Registry.constructor?_relocate, id]
    cases registry.constructor? ctorName with
    | none => rfl
    | some ctor =>
      simp only [Option.map_some, checkNames_relocate]
      exact relocateProblem_bind f id _ (atRule_relocate f decl.span _) fun _ => rfl
  | _ => rfl

/-- Rules at other places are compiled alike, or refused at their places. -/
theorem ofDeclsFrom_relocate (registry : Registry) : (decls : List RuleDecl) → (index : Nat) →
    ofDeclsFrom (registry.relocate f) index (decls.map (RuleDecl.relocate f)) =
      relocateProblem f (List.map (relocate f)) (ofDeclsFrom registry index decls)
  | [], _ => rfl
  | decl :: decls, index => by
    rw [List.map_cons, ofDeclsFrom, ofDeclsFrom]
    refine relocateProblem_bind f (relocate f) _ (ofDecl_relocate f registry index decl) fun _ => ?_
    exact relocateProblem_bind f (List.map (relocate f)) _
      (ofDeclsFrom_relocate registry decls (index + 1)) fun _ => rfl

/-- **From moved rules come the moved rules,** or the moved failure. -/
theorem ofDecls_relocate (registry : Registry) (decls : List RuleDecl) :
    ofDecls (registry.relocate f) (decls.map (RuleDecl.relocate f)) =
      relocateProblem f (List.map (relocate f)) (ofDecls registry decls) :=
  ofDeclsFrom_relocate f registry decls 0

end Rule

end TypedData
