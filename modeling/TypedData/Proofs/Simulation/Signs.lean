import TypedData.Load
import TypedData.Proofs.Reading.Signs
import TypedData.Proofs.Simulation.Forcing

/-!
# Loading what is read where a document is printed

What is read where a document is printed differs from it in the signs before fields of numbers.  No such field has a
value, with the sign or without, so the same declarations and rules are accepted, the same texts fit the rules, and no
step of building that gives something gives anything else (`Scene.rereading`).  So a document that loads has the same
values where it is read again (`Loaded.ofDocument_reread`).

This is said of what loads only: the message of a condition that does not hold shows the condition as it is printed.
-/

namespace TypedData

/-! ## Declarations -/

/-- What is read where the condition is printed. -/
def Constraint.reread (constraint : Constraint) : Constraint :=
  { constraint with condition := constraint.condition.reread }

/-- The declarations that are read where the declarations are printed. -/
def Registry.reread (r : Registry) : Registry := { r with constraints := r.constraints.map Constraint.reread }

/-- What is read where the rule is printed. -/
def Rule.reread (rule : Rule) : Rule :=
  { rule with target := rule.target.reread, guards := rule.guards.map Expr.reread }

/-- Where no place is moved, a failure stays as it is. -/
theorem relocateProblem_id {α β : Type} (g : α → β) (x : Except TypeError α) :
    relocateProblem id g x = x.map g := by
  cases x <;> rfl

namespace Registry

variable (r : Registry)

mutual

/-- A type stands for the same type, whatever the conditions on the declared types are. -/
theorem resolveType_reread (params : List String) : (t : TypeExpr) →
    r.reread.resolveType params t = r.resolveType params t
  | .optional _ inner | .list _ inner => by
    rw [resolveType, resolveType, resolveType_reread params inner]
  | .named _ _ args => by
    rw [resolveType, resolveType, resolveTypes_reread params args]
    rfl

/-- Types are resolved alike among declarations that are read again. -/
theorem resolveTypes_reread (params : List String) : (ts : List TypeExpr) →
    r.reread.resolveTypes params ts = r.resolveTypes params ts
  | [] => rfl
  | t :: ts => by
    rw [resolveTypes, resolveTypes, resolveType_reread params t, resolveTypes_reread params ts]

end

/-- A constructor has the same conditions, read again. -/
theorem constraintsFor_reread (ctor : String) :
    r.reread.constraintsFor ctor = (r.constraintsFor ctor).map Constraint.reread := by
  unfold constraintsFor
  rw [show r.reread.constructor? ctor = r.constructor? ctor from rfl]
  cases r.constructor? ctor with
  | none => rfl
  | some c =>
    dsimp only [reread]
    rw [List.filter_map]
    rfl

/-- Constructors that are read again clash where they did before. -/
theorem checkConstructors_reread : (ctors : List CtorDecl) → (seen : List String) →
    checkConstructors seen (ctors.map CtorDecl.reread) = checkConstructors seen ctors
  | [], _ => rfl
  | ctor :: ctors, seen => by
    rw [List.map_cons, checkConstructors, checkConstructors, checkConstructors_reread ctors]
    rfl

/-- Declarations that are read again clash where they did before. -/
theorem checkNames_reread : (decls : List TypeDecl) → (types ctors : List String) →
    checkNames types ctors (decls.map TypeDecl.reread) = checkNames types ctors decls
  | [], _, _ => rfl
  | decl :: decls, types, ctors => by
    rw [List.map_cons, checkNames, checkNames]
    simp only [TypeDecl.reread, checkConstructors_reread, checkNames_reread decls]

/-- The registry of names stays the same. -/
theorem ofNames_reread (decls : List TypeDecl) : ofNames (decls.map TypeDecl.reread) = ofNames decls := by
  have htypes : typeDefOf ∘ TypeDecl.reread = typeDefOf := by
    funext decl
    rw [Function.comp_apply, typeDefOf, typeDefOf, TypeDecl.reread, List.map_map]
    rfl
  have hctors : (fun decl => bareConstructors (TypeDecl.reread decl)) = bareConstructors := by
    funext decl
    rw [bareConstructors, bareConstructors, TypeDecl.reread, List.map_map]
    rfl
  rw [ofNames, ofNames, List.map_map, List.flatMap_map, htypes, hctors]

/-- The clause with its scope, as it is read again. -/
def rereadClause (clause : WhereClause × Scope) : WhereClause × Scope := (clause.1.reread, clause.2)

/-- A declaration has the same clauses, read again. -/
theorem clausesOf_reread (decl : TypeDecl) : clausesOf decl.reread = (clausesOf decl).map rereadClause := by
  unfold clausesOf
  simp only [TypeDecl.reread, List.map_append, List.map_map, List.filterMap_map, List.map_filterMap]
  congr 2
  funext ctor
  simp only [Function.comp_apply, inlineClause?, CtorDecl.reread, Option.map_map]
  rfl

/-- A declaration gives the same conditions, read again. -/
theorem conditionsOf_reread (decl : TypeDecl) : r.conditionsOf decl.reread =
    relocateProblem id (List.map fun (e, scope) => (e.reread, scope)) (r.conditionsOf decl) := by
  unfold conditionsOf
  rw [clausesOf_reread]
  refine relocateProblem_bind id id _
    (relocateProblem_forM id rereadClause (fun clause => ?_) _) fun _ => ?_
  · rw [relocateProblem_id, Except.map_id]
    rfl
  · dsimp only
    simp only [List.flatMap_map, rereadClause, WhereClause.reread, List.map_map]
    change Except.ok _ = Except.ok _
    rw [List.map_flatMap]
    simp only [List.map_map]
    rfl

/-- A type is declared alike, with its conditions read again. -/
theorem declare_reread (decl : TypeDecl) : r.declare decl.reread =
    relocateProblem id (fun (ctors, constraints) => (ctors, constraints.map Constraint.reread)) (r.declare decl) := by
  have hctors : decl.reread.ctors.mapM (r.constructorOf decl.reread) =
      relocateProblem id id (decl.ctors.mapM (r.constructorOf decl)) := by
    rw [relocateProblem_id, Except.map_id, TypeDecl.reread, List.mapM_map]
    rfl
  unfold declare
  refine relocateProblem_bind id id _ hctors fun _ => ?_
  refine relocateProblem_bind id _ _ (conditionsOf_reread r decl) fun conditions => ?_
  change Except.ok (_, List.map _ (List.map _ conditions)) =
    Except.ok (_, List.map _ (List.map _ conditions))
  rw [List.map_map, List.map_map]
  rfl

/-- Conditions keep their numbers when they are read again. -/
theorem numbered_reread (constraints : List Constraint) :
    numbered (constraints.map Constraint.reread) = (numbered constraints).map Constraint.reread := by
  refine List.ext_getElem? fun i => ?_
  rw [numbered, numbered, List.getElem?_mapIdx, List.getElem?_map, List.getElem?_map,
    List.getElem?_mapIdx, Option.map_map, Option.map_map]
  rfl

/-- **The declarations that are read again make the same registry,** but for its conditions, or the same failure. -/
theorem ofDecls_reread (decls : List TypeDecl) :
    ofDecls (decls.map TypeDecl.reread) = relocateProblem id reread (ofDecls decls) := by
  unfold ofDecls
  rw [ofNames_reread]
  refine relocateProblem_bind id id _ ?_ fun _ => ?_
  · rw [relocateProblem_id, Except.map_id, checkNames_reread]
    rfl
  refine relocateProblem_bind id _ _
    (relocateProblem_mapM id TypeDecl.reread _ (declare_reread (ofNames decls)) decls) fun parts => ?_
  change Except.ok _ = Except.ok _
  simp only [reread, List.flatMap_map, List.map_flatMap, ← numbered_reread]

end Registry

/-! ## Rules -/

namespace Expr

/-- What takes a sign stays a field where it is read again. -/
theorem exists_signed_eq_field {e : Expr} (h : e.takesSign = true) : ∃ span base n, e.signed = field span base n := by
  obtain ⟨hnumber, hdigit⟩ := Bool.and_eq_true_iff.1 h
  cases e with
  | field span base n => exact ⟨span, base.signed, n, rfl⟩
  | int | float => cases hnumber
  | _ => cases hdigit

/-- What does not have the form of a constructor does not get it. -/
theorem isApplied_reread {e : Expr} (h : e.isApplied = false) : e.reread.isApplied = false := by
  cases e with
  | call | name => cases h
  | unary span op operand =>
    cases op with
    | not => rfl
    | neg =>
      rw [reread]
      split
      · rename_i hsign
        obtain ⟨_, _, _, hfield⟩ := exists_signed_eq_field hsign
        rw [hfield]
        rfl
      · rfl
  | _ => rfl

/-- Reading again leaves calls and names where they are. -/
theorem moves_reread : Moves id reread where
  call span callee args := by
    rw [reread, rereadArguments_eq_map]
    rfl
  name _ _ := rfl
  other _ := isApplied_reread

end Expr

namespace Rule

/-- A guard that is read again accepts the same captures. -/
theorem accepts_reread (captures : Captures) (guard : Expr) :
    accepts captures guard.reread = accepts captures guard := by
  rw [accepts, accepts, Expr.check_reread]

/-- A rule that is read again matches the same texts. -/
theorem match?_reread (rule : Rule) (text : List Char) : rule.reread.match? text = rule.match? text := by
  unfold match? reread
  simp only [List.all_map, Function.comp_def, accepts_reread]

/-- A rule that is read again is compiled alike. -/
theorem ofDecl_reread (registry : Registry) (index : Nat) (decl : RuleDecl) :
    ofDecl registry.reread index decl.reread = relocateProblem id reread (ofDecl registry index decl) := by
  have hnames : (decl.target.reread :: decl.guards.map Expr.reread).flatMap Expr.freeNames =
      (decl.target :: decl.guards).flatMap Expr.freeNames := by
    simp only [List.flatMap_cons, List.flatMap_map, Expr.freeNames_reread]
  unfold ofDecl
  refine relocateProblem_bind id id _ ?_ fun segments => ?_
  · rw [relocateProblem_id, Except.map_id]
    rfl
  dsimp only [RuleDecl.reread]
  rw [hnames]
  generalize decl.target = target
  cases target with
  | call span ctorName args =>
    rw [Expr.reread]
    dsimp only
    rw [show registry.reread.constructor? ctorName = registry.constructor? ctorName from rfl]
    cases registry.constructor? ctorName with
    | none => rfl
    | some ctor => exact relocateProblem_bind id id _ (by rw [relocateProblem_id, Except.map_id]; rfl) fun _ => rfl
  | unary span op operand =>
    have hother := Expr.isApplied_reread (e := .unary span op operand) rfl
    generalize (Expr.unary span op operand).reread = target at hother
    cases target with
    | call | name => cases hother
    | _ => rfl
  | _ => rfl

/-- Rules that are read again are compiled alike. -/
theorem ofDeclsFrom_reread (registry : Registry) : (decls : List RuleDecl) → (index : Nat) →
    ofDeclsFrom registry.reread index (decls.map RuleDecl.reread) =
      relocateProblem id (List.map reread) (ofDeclsFrom registry index decls)
  | [], _ => rfl
  | decl :: decls, index => by
    rw [List.map_cons, ofDeclsFrom, ofDeclsFrom]
    refine relocateProblem_bind id reread _ (ofDecl_reread registry index decl) fun _ => ?_
    exact relocateProblem_bind id (List.map reread) _ (ofDeclsFrom_reread registry decls (index + 1)) fun _ => rfl

/-- **The rules that are read again are rules for the same texts,** or the same failure. -/
theorem ofDecls_reread (registry : Registry) (decls : List RuleDecl) :
    ofDecls registry.reread (decls.map RuleDecl.reread) =
      relocateProblem id (List.map reread) (ofDecls registry decls) :=
  ofDeclsFrom_reread registry decls 0

end Rule

/-! ## Conditions on records -/

/-- Conditions that hold, but for one that has to wait, do so where they are read again. -/
theorem checkConstraints_reread {env : Environment} {ctor : String} {fields : List (Field Value)} {span : Span}
    {stop : Option (Nat × String)} : {constraints : List Constraint} → {position : Nat} →
    checkConstraints env ctor fields span position constraints = .ok stop →
    checkConstraints env ctor fields span position (constraints.map Constraint.reread) = .ok stop
  | [], _, h => h
  | constraint :: constraints, position, h => by
    rw [List.map_cons, checkConstraints]
    rw [checkConstraints] at h
    dsimp only [Constraint.reread]
    rw [Expr.check_reread]
    rcases hcheck : constraint.condition.check env with ⟨problem, place⟩ | ⟨_ | _⟩
    · rw [hcheck] at h
      cases problem <;> exact h
    · rw [hcheck] at h
      cases h
    · rw [hcheck] at h
      exact checkConstraints_reread h

/-! ## Building -/

namespace Build

variable {α β γ δ : Type} {g : α → β} {g' : γ → δ}

/-- The second step gives the image of whatever the first one gives, and comes as far. -/
def Retraces (g : α → β) (m : Build α) (m' : Build β) : Prop := ∀ p a q, m.Gives p a q → m'.Gives p (g a) q

namespace Retraces

/-- A step that only gives a result is retraced. -/
theorem pure (g : α → β) (a : α) : Retraces g (Pure.pure a) (Pure.pure (g a)) := by
  intro p _ q h
  obtain ⟨rfl, rfl⟩ := gives_pure_iff.1 h
  rfl

/-- A step that only fails is retraced by any. -/
theorem throw (g : α → β) (e : Failure) (m' : Build β) : Retraces g (MonadExcept.throw e) m' :=
  fun _ _ _ h => absurd h not_gives_throw

/-- A step is retraced by itself. -/
theorem refl (m : Build α) : Retraces id m m := fun _ _ _ h => h

/-- One step after another is retraced if both are. -/
theorem bind {m : Build α} {m' : Build β} {k : α → Build γ} {k' : β → Build δ} (hm : Retraces g m m')
    (hk : ∀ a, Retraces g' (k a) (k' (g a))) : Retraces g' (m >>= k) (m' >>= k') := by
  intro p c r h
  obtain ⟨a, q, ha, hc⟩ := gives_bind_iff.1 h
  exact gives_bind_iff.2 ⟨g a, q, hm p a q ha, hk a q c r hc⟩

/-- A computation without progress is retraced by one that succeeds with the same result. -/
theorem ofExcept {x x' : Except Failure α} (h : ∀ a, x = .ok a → x' = .ok a) :
    Retraces id (Build.ofExcept x) (Build.ofExcept x') := by
  intro p a q ha
  obtain ⟨hx, hp⟩ := gives_ofExcept_iff.1 ha
  exact gives_ofExcept_iff.2 ⟨h a hx, hp⟩

end Retraces

end Build

namespace Scene

open Build (Retraces)

variable {scene : Scene}

/-- The scene over what is read where the declarations and rules are printed. -/
def reread (scene : Scene) : Scene :=
  { scene with registry := scene.registry.reread, rules := scene.rules.map Rule.reread }

/-- A record that was checked is checked with the same verdict where conditions are read again. -/
theorem checkRecord_reread {p : Progress} {ctor : String} {fields : List (Field Value)} {done : Nat} {span : Span}
    {stop : Option (Nat × String)} (h : scene.checkRecord p ctor fields done span = .ok stop) :
    scene.reread.checkRecord p ctor fields done span = .ok stop := by
  rw [checkRecord, reread, Registry.constraintsFor_reread, ← List.map_drop]
  exact checkConstraints_reread h

/-- Conditions that were settled are settled alike where they are read again. -/
theorem retraces_settleConditions (ctor : String) (fields : List (Field Value)) (span : Span) :
    Retraces id (scene.settleConditions ctor fields span) (scene.reread.settleConditions ctor fields span) :=
  .bind (.refl _) fun _ => .bind (.ofExcept fun _ => checkRecord_reread) fun _ => .refl _

variable (scene) in
/-- Building beside building from what is read again. -/
def rereading : Simulation id id scene scene.reread where
  Maps := Retraces
  registry := by
    refine ⟨scene.registry.reread.constraints, ?_⟩
    rw [Registry.relocate_id]
    rfl
  indexOf? := scene.indexOf?_eq_map_id
  pure := .pure
  throw g e _ := .throw g e _
  bind := .bind
  conditions ctor fields span := by
    rw [Value.renumberFields_id]
    exact retraces_settleConditions ctor.name fields span

/-- Rules that are read again accept the same texts, and their targets go side by side. -/
theorem sameRules_rereading : (rereading scene).SameRules Expr.reread Rule.reread where
  rules := rfl
  moves := Expr.moves_reread
  evaluates captures e := by
    rw [Expr.eval_reread]
    cases e.eval (Rule.environment captures) with
    | ok v => exact .inl ⟨v, rfl, rfl⟩
    | error fault => exact .inr ⟨fault, fault, rfl, rfl, .throw _ _ _⟩
  target _ := rfl
  typeName _ := rfl
  match? := Rule.match?_reread

/-- Texts are fitted alike by rules that are read again. -/
theorem fits_rereading (text : String) (t : Ty) (span : Span) :
    (rereading scene).FitsText scene.fitText scene.reread.fitText text t span :=
  sameRules_rereading.fitText (fun _ _ => .throw _ _ _) rfl text t span

/-- Building on the chain of a binding is retraced if the building is. -/
theorem retraces_onChain {b : Nat} {m m' : Build Value} (h : Retraces id m m') :
    Retraces id (onChain b m) (onChain b m') := by
  intro p u q hu
  obtain ⟨v, p', hv, hq⟩ := Build.gives_onChain_iff.1 hu
  exact Build.gives_onChain_iff.2 ⟨v, p', h _ v p' hv, hq⟩

/-- Building from what is read again goes over the same bindings. -/
theorem overBindings_rereading : (rereading scene).OverBindings id where
  slots := (List.map_id'' Slot.relocate_id scene.slots).symm
  get := .refl _
  states _ := rfl
  forcing _ := rfl
  useForced _ _ _ _ _ _ := .refl _
  onChain _ _ _ := retraces_onChain

/-- An item that is read again gives the same to build. -/
theorem sameData_reread (item : Item) : item.SameData id item.reread := by
  cases item with
  | value d => exact (Item.value d).sameData_self
  | _ => constructor

/-- Items that are read again are built alike. -/
theorem retraces_buildItemsFrom (items : List Item) (next : Nat) :
    Retraces id (scene.buildItemsFrom next items) (scene.reread.buildItemsFrom next (items.map Item.reread)) :=
  overBindings_rereading.buildItemsFrom (fun _ _ text _ => fits_rereading text)
    (Item.sameData_map sameData_reread items) (fun _ _ text _ => fits_rereading text) next

/-- Checks that had to wait succeed where the declarations are read again. -/
theorem runDeferred_reread {p : Progress} (h : scene.runDeferred p = .ok ()) :
    scene.reread.runDeferred p = .ok () := by
  obtain ⟨u, hchecks, hconstraints⟩ := bind_eq_ok_iff.1 h
  refine bind_eq_ok_iff.2 ⟨u, hchecks, forM_eq_ok_iff.2 fun pending hmem => ?_⟩
  have hpending := forM_eq_ok_iff.1 hconstraints pending hmem
  unfold runConstraints at hpending ⊢
  rcases hrecord : scene.checkRecord p pending.ctor pending.fields pending.done pending.span with e | _ | _
  · rw [hrecord] at hpending
    cases hpending
  · rw [checkRecord_reread hrecord]
  · rw [hrecord] at hpending
    cases hpending

/-- A document that is read again is built alike. -/
theorem retraces_buildDocument (items : List Item) :
    Retraces id (scene.buildDocument items) (scene.reread.buildDocument (items.map Item.reread)) := by
  refine .bind (retraces_buildItemsFrom items 0) fun _ => .bind (.refl _) fun p => ?_
  exact .bind (.ofExcept fun _ => runDeferred_reread) fun _ => .refl _

/-- Bindings have the same slots. -/
theorem slotsOf_reread (registry : Registry) : (bindings : List Binding) → (seen : List String) →
    slotsOf registry.reread seen bindings = slotsOf registry seen bindings
  | [], _ => rfl
  | binding :: bindings, seen => by
    rw [slotsOf, slotsOf, slotsOf_reread registry bindings]
    simp only [Registry.resolveType_reread]

end Scene

/-! ## Documents -/

namespace Document

/-- A document that is read again has its declarations read again. -/
theorem types_reread (d : Document) : d.reread.types = d.types.map TypeDecl.reread := by
  rw [types, types, reread, List.filterMap_map, List.map_filterMap]
  congr 1
  funext item
  cases item <;> rfl

/-- A document that is read again has its rules read again. -/
theorem rules_reread (d : Document) : d.reread.rules = d.rules.map RuleDecl.reread := by
  rw [rules, rules, reread, List.filterMap_map, List.map_filterMap]
  congr 1
  funext item
  cases item <;> rfl

/-- A document that is read again has the same bindings. -/
theorem bindings_reread (d : Document) : d.reread.bindings = d.bindings := by
  rw [bindings, bindings, reread, List.filterMap_map]
  congr 1
  funext item
  cases item <;> rfl

/-- **A document that is read again has the values of the document,** if this has any. -/
theorem resolve_reread {d : Document} {registry : Registry} {rules : List Rule} {resolution : Resolution}
    (h : d.resolve registry rules = .ok resolution) :
    d.reread.resolve registry.reread (rules.map Rule.reread) = .ok resolution := by
  obtain ⟨slots, hslots, hrun⟩ := bind_eq_ok_iff.1 h
  refine bind_eq_ok_iff.2 ⟨slots, ?_, ?_⟩
  · rw [bindings_reread, Scene.slotsOf_reread, hslots]
  · obtain ⟨q, hgives⟩ := Build.exists_gives hrun
    exact congrArg Prod.fst (Scene.retraces_buildDocument d.items _ resolution q hgives)

end Document

namespace Loaded

/-- The loaded document with its declarations and rules as they are read again. -/
def reread (loaded : Loaded) : Loaded :=
  ⟨loaded.document.reread, loaded.registry.reread, loaded.rules.map Rule.reread, loaded.bindings, loaded.values⟩

/-- Declarations that are accepted are accepted when they are read again. -/
theorem declarations_reread {d : Document} {registry : Registry} {rules : List Rule}
    (h : declarations d = .ok (registry, rules)) :
    declarations d.reread = .ok (registry.reread, rules.map Rule.reread) := by
  obtain ⟨registry', hregistry, h⟩ := bind_eq_ok_iff.1 h
  obtain ⟨rules', hrules, h⟩ := bind_eq_ok_iff.1 h
  obtain ⟨rfl, rfl⟩ := Prod.mk.inj (Except.ok.inj h)
  rw [mapError_eq_ok_iff] at hregistry hrules
  rw [declarations, Document.types_reread, Document.rules_reread, Registry.ofDecls_reread, hregistry]
  change (Rule.ofDecls registry'.reread _).mapError Failure.type >>= _ = _
  rw [Rule.ofDecls_reread, hrules]
  rfl

/-- **A document that loads has the same values where it is read again.** -/
theorem ofDocument_reread {d : Document} {loaded : Loaded} (h : ofDocument d = .ok loaded) :
    ofDocument d.reread = .ok loaded.reread := by
  obtain ⟨⟨registry, rules⟩, hdecls, h⟩ := bind_eq_ok_iff.1 h
  obtain ⟨resolution, hresolution, h⟩ := bind_eq_ok_iff.1 h
  obtain rfl := Except.ok.inj h
  refine bind_eq_ok_iff.2 ⟨_, declarations_reread hdecls, ?_⟩
  exact bind_eq_ok_iff.2 ⟨resolution, Document.resolve_reread hresolution, rfl⟩

end Loaded

end TypedData
