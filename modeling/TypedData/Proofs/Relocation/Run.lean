import TypedData.Load
import TypedData.Proofs.Simulation.Forcing

/-!
# Loading documents at other places

Spans are only carried along.  From a document at other places the same steps are taken, with the same
values and the same checks, and a failure has the same problem at the moved place
(`Loaded.ofDocument_relocate`).
-/

namespace TypedData

variable (f : Span → Span)

/-! ## Progress at other places -/

/-- The check at another place. -/
def DeferredCheck.relocate (check : DeferredCheck) : DeferredCheck :=
  { check with span := f check.span }

/-- The conditions to be checked, at another place. -/
def DeferredConstraints.relocate (pending : DeferredConstraints) : DeferredConstraints :=
  { pending with span := f pending.span }

/-- The progress with its checks at other places. -/
def Progress.relocate (p : Progress) : Progress :=
  { p with
    checks := p.checks.map (DeferredCheck.relocate f)
    constraints := p.constraints.map (DeferredConstraints.relocate f) }

/-- The scene at other places. -/
def Scene.relocate (scene : Scene) : Scene :=
  ⟨scene.registry.relocate f, scene.rules.map (Rule.relocate f), scene.slots.map (Slot.relocate f),
    scene.textDepth⟩

namespace Build

variable {α β γ δ : Type} {g : α → β} {g' : γ → δ}

/-- The second step does at the other places what the first one does, and gives the image of what that
gives. -/
def Mirrors (g : α → β) (m : Build α) (m' : Build β) : Prop :=
  ∀ p : Progress, m'.outcome (p.relocate f) =
    match m.outcome p with
    | (result, q) => ((relocateFailure f result).map g, q.relocate f)

namespace Mirrors

variable {f}

/-- A step that only gives a result is mirrored. -/
theorem pure (g : α → β) (a : α) : Mirrors f g (Pure.pure a) (Pure.pure (g a)) := fun _ => rfl

/-- A step that only fails is mirrored, with the failure at its place. -/
theorem throw (g : α → β) (e : Failure) :
    Mirrors f g (MonadExcept.throw e) (MonadExcept.throw (e.relocate f)) := fun _ => rfl

/-- One step after another is mirrored if both are. -/
theorem bind {m : Build α} {m' : Build β} {k : α → Build γ} {k' : β → Build δ}
    (hm : Mirrors f g m m') (hk : ∀ a, Mirrors f g' (k a) (k' (g a))) :
    Mirrors f g' (m >>= k) (m' >>= k') := by
  intro p
  rw [outcome_bind, outcome_bind, hm p]
  rcases m.outcome p with ⟨e | a, q⟩
  · rfl
  · exact hk a q

/-- Looking at the progress is mirrored. -/
theorem get : Mirrors f (Progress.relocate f) MonadState.get MonadState.get := fun _ => rfl

/-- A change of the progress is mirrored if it commutes with the relocation. -/
theorem modify {h h' : Progress → Progress} (hh : ∀ p, h' (p.relocate f) = (h p).relocate f) :
    Mirrors f id (modify h) (modify h') := fun p => Prod.ext rfl (hh p)

/-- A computation without progress is mirrored if its result is moved. -/
theorem ofExcept {x : Except Failure α} {x' : Except Failure β}
    (hx : x' = (relocateFailure f x).map g) : Mirrors f g (Build.ofExcept x) (Build.ofExcept x') := by
  subst hx
  cases x with
  | error e => exact throw g e
  | ok a => exact pure g a

end Mirrors

end Build

namespace Scene

open Build (Mirrors)

variable {f} {scene : Scene}

/-- A scene at other places allows the same number of hops. -/
theorem hops_relocate : (scene.relocate f).hops = scene.hops :=
  congrArg Value.hopLimit (List.length_map ..)

/-- A scene at other places has its bindings under the same numbers. -/
theorem indexOf?_relocate (name : String) : (scene.relocate f).indexOf? name = scene.indexOf? name := by
  rw [indexOf?, indexOf?, relocate, List.findIdx?_map]
  rfl

/-- A scene at other places has the same slots, at their places. -/
theorem getElem?_slots_relocate (b : Nat) :
    (scene.relocate f).slots[b]? = scene.slots[b]?.map (Slot.relocate f) := List.getElem?_map ..

/-- A record at another place is checked with the same verdict. -/
theorem checkRecord_relocate (p : Progress) (ctor : String) (fields : List (Field Value))
    (done : Nat) (span : Span) :
    (scene.relocate f).checkRecord (p.relocate f) ctor fields done (f span) =
      relocateFailure f (scene.checkRecord p ctor fields done span) := by
  rw [checkRecord, checkRecord, hops_relocate, relocate, Registry.constraintsFor_relocate,
    ← List.map_drop]
  exact checkConstraints_relocate f _ ctor fields span _ done

/-- The conditions of a record at another place are settled alike. -/
theorem mirrors_settleConditions (ctor : String) (fields : List (Field Value)) (span : Span) :
    Mirrors f id (scene.settleConditions ctor fields span)
      ((scene.relocate f).settleConditions ctor fields (f span)) := by
  refine .bind .get fun p => .bind (g := id) (.ofExcept ?_) fun stop => ?_
  · rw [checkRecord_relocate, Except.map_id]
    rfl
  · cases stop with
    | none => exact .pure id ()
    | some stop =>
      refine .modify fun p => ?_
      rw [Progress.deferConstraints, Progress.deferConstraints, Progress.relocate, Progress.relocate,
        List.map_append]
      rfl

variable (f scene) in
/-- The run at other places beside the run itself. -/
def mirror : Simulation f id scene (scene.relocate f) where
  Maps := Mirrors f
  registry := ⟨_, rfl⟩
  indexOf? name := (indexOf?_relocate name).trans (congrFun Option.map_id _).symm
  pure := .pure
  throw g e _ := .throw g e
  bind := .bind
  conditions ctor fields span := by
    rw [Value.renumberFields_id]
    exact mirrors_settleConditions ctor.name fields span

/-! ## References -/

/-- A use of an unfinished binding at another place is mirrored. -/
theorem mirrors_useUnfinished (binding : Nat) (name : String) (path : List String) (span : Span)
    (t : Ty) (whole : Bool) :
    Mirrors f id (useUnfinished binding name path span t whole)
      (useUnfinished binding name path (f span) t whole) := by
  have hdefer : Mirrors f id
      (if t.isOpen = true then pure () else modify (·.deferCheck ⟨binding, t, span⟩))
      (if t.isOpen = true then pure () else modify (·.deferCheck ⟨binding, t, f span⟩)) := by
    split
    · exact .pure id ()
    · refine .modify fun p => ?_
      rw [Progress.deferCheck, Progress.deferCheck, Progress.relocate, Progress.relocate,
        List.map_append]
      rfl
  unfold useUnfinished
  dsimp only
  split
  · exact .bind (g := id) (.throw id _) fun _ => hdefer
  · exact hdefer

/-- A use of a finished value at another place is mirrored. -/
theorem mirrors_useFinished (value : Value) (name : String) (path : List String) (span : Span)
    (t : Ty) :
    Mirrors f id (scene.useFinished value name path span t)
      ((scene.relocate f).useFinished value name path (f span) t) := by
  refine .bind .get fun p => ?_
  rw [hops_relocate, show (p.relocate f).value? = p.value? from rfl]
  rcases value.follow p.value? scene.hops path with (field | other) | target
  · exact .throw id _
  · exact .throw id _
  · dsimp only
    split
    · exact .pure id ()
    · exact .throw id _

/-- A use of a binding that was forced is mirrored at another place. -/
theorem mirrors_useForced (b : Nat) (name : String) (path : List String) (span : Span) (t : Ty)
    (whole : Bool) :
    Mirrors f id (scene.useForced b name path span t whole)
      ((scene.relocate f).useForced b name path (f span) t whole) := by
  refine .bind .get fun p => ?_
  rw [show (p.relocate f).states = p.states from rfl]
  cases p.states[b]? with
  | none => exact .throw id _
  | some state =>
    cases state with
    | inProgress => exact mirrors_useUnfinished b name path span t whole
    | resolved value => exact mirrors_useFinished value name path span t
    | unresolved | failed => exact .throw id _

/-- Runs that mirror one another stop alike. -/
theorem stops_mirror : (mirror f scene).Stops :=
  fun text span => .throw (Value.renumber id) (.endless text span)

/-- Text is fitted alike at other places. -/
theorem fits_mirror (text : String) (t : Ty) (span : Span) :
    (mirror f scene).FitsText scene.fitText (scene.relocate f).fitText text t span :=
  ((mirror f scene).sameRules_relocate rfl).fitText stops_mirror rfl text t span

/-! ## Bindings -/

/-- Building on the chain of a binding is mirrored if the building is. -/
theorem mirrors_onChain (b : Nat) {m m' : Build Value} (h : Mirrors f id m m') :
    Mirrors f id (onChain b m) (onChain b m') := by
  intro p
  rw [Build.outcome_onChain, Build.outcome_onChain,
    show (p.relocate f).enter b = (p.enter b).relocate f from rfl, h (p.enter b)]
  rcases m.outcome (p.enter b) with ⟨e | v, q⟩ <;> rfl

/-- The run at other places goes over the same bindings. -/
theorem overBindings_mirror : (mirror f scene).OverBindings (Progress.relocate f) where
  slots := rfl
  get := .get
  states _ := rfl
  forcing _ := rfl
  useForced := mirrors_useForced
  onChain b _ _ := mirrors_onChain b

/-! ## Documents -/

/-- Items at other places are built alike. -/
theorem mirrors_buildItemsFrom (items : List Item) (next : Nat) : Mirrors f id (scene.buildItemsFrom next items)
    ((scene.relocate f).buildItemsFrom next (items.map (Item.relocate f))) :=
  overBindings_mirror.buildItemsFrom (fun _ _ text _ => fits_mirror text)
    (Item.sameData_map Item.sameData_relocate items) (fun _ _ text _ => fits_mirror text) next

/-- A deferred check at another place has the same verdict. -/
theorem runCheck_relocate (p : Progress) (check : DeferredCheck) :
    (scene.relocate f).runCheck (p.relocate f) (check.relocate f) =
      relocateFailure f (scene.runCheck p check) := by
  obtain ⟨b, t, span⟩ := check
  change (scene.relocate f).runCheck (p.relocate f) ⟨b, t, f span⟩ = _
  unfold runCheck
  rw [getElem?_slots_relocate, hops_relocate, Option.map_map,
    show (p.relocate f).value? = p.value? from rfl]
  dsimp only
  cases (p.value? b).bind fun v => (v.follow p.value? scene.hops []).toOption with
  | none => rfl
  | some target =>
    dsimp only
    split <;> rfl

/-- Deferred conditions at another place have the same verdict. -/
theorem runConstraints_relocate (p : Progress) (pending : DeferredConstraints) :
    (scene.relocate f).runConstraints (p.relocate f) (pending.relocate f) =
      relocateFailure f (scene.runConstraints p pending) := by
  unfold runConstraints
  dsimp only [DeferredConstraints.relocate]
  rw [checkRecord_relocate]
  rcases scene.checkRecord p pending.ctor pending.fields pending.done pending.span with e | _ | _ <;>
    rfl

/-- Relocation goes through checks of a list in a row. -/
theorem forM_relocate {α : Type} {step step' : α → Except Failure Unit} (g : α → α)
    (h : ∀ a, step' (g a) = relocateFailure f (step a)) : (as : List α) →
    (as.map g).forM step' = relocateFailure f (as.forM step)
  | [] => rfl
  | a :: as => by
    change (step' (g a) >>= fun _ => (as.map g).forM step') =
      relocateFailure f (step a >>= fun _ => as.forM step)
    rw [relocateFailure_bind, h, forM_relocate g h as]

/-- What was deferred is checked alike at other places. -/
theorem runDeferred_relocate (p : Progress) :
    (scene.relocate f).runDeferred (p.relocate f) = relocateFailure f (scene.runDeferred p) := by
  rw [runDeferred, runDeferred, relocateFailure_bind]
  exact congr (congrArg _ (forM_relocate _ (runCheck_relocate p) p.checks))
    (funext fun _ => forM_relocate _ (runConstraints_relocate p) p.constraints)

/-- The values are finished alike at other places. -/
theorem finished_relocate (p : Progress) :
    (scene.relocate f).finished (p.relocate f) = scene.finished p := by
  rw [finished, finished, relocate, List.zip_map_left, List.filterMap_map]
  rfl

/-- A document at other places is built alike. -/
theorem mirrors_buildDocument (items : List Item) :
    Mirrors f id (scene.buildDocument items)
      ((scene.relocate f).buildDocument (items.map (Item.relocate f))) := by
  refine .bind (mirrors_buildItemsFrom items 0) fun values => .bind .get fun p => ?_
  refine .bind (g := id) (.ofExcept ?_) fun _ => ?_
  · rw [runDeferred_relocate, Except.map_id]
    rfl
  · rw [finished_relocate]
    exact .pure id _

/-- Slots at other places are made alike, or refused at their places. -/
theorem slotsOf_relocate (registry : Registry) : (bindings : List Binding) → (seen : List String) →
    slotsOf (registry.relocate f) seen (bindings.map (Binding.relocate f)) =
      (relocateFailure f (slotsOf registry seen bindings)).map (List.map (Slot.relocate f))
  | [], _ => rfl
  | binding :: bindings, seen => by
    obtain ⟨name, type, value, span⟩ := binding
    change slotsOf (registry.relocate f) seen (⟨name, type.map (TypeExpr.relocate f),
      value.relocate f, f span⟩ :: bindings.map (Binding.relocate f)) = _
    rw [slotsOf, slotsOf, slotsOf_relocate registry bindings]
    dsimp only
    by_cases hseen : seen.contains name = true
    · rw [if_pos hseen, if_pos hseen]
      rfl
    · rw [if_neg hseen, if_neg hseen]
      cases type with
      | none => cases slotsOf registry (name :: seen) bindings <;> rfl
      | some type =>
        dsimp only [Option.map_some]
        rw [Registry.resolveType_relocate]
        cases registry.resolveType [] type with
        | error e => rfl
        | ok t => cases slotsOf registry (name :: seen) bindings <;> rfl

end Scene

/-- **Over declarations at other places a document at other places has the same values,** or the same
failure at the moved place. -/
theorem Document.resolve_relocate (d : Document) (registry : Registry) (rules : List Rule) :
    (d.relocate f).resolve (registry.relocate f) (rules.map (Rule.relocate f)) =
      relocateFailure f (d.resolve registry rules) := by
  unfold resolve
  rw [bindings_relocate, Scene.slotsOf_relocate]
  rcases Scene.slotsOf registry [] d.bindings with e | slots
  · rfl
  · let scene : Scene := ⟨registry, rules, slots, Scene.maxTextDepth⟩
    have h : Build.Mirrors f id (scene.buildDocument d.items) _ := Scene.mirrors_buildDocument d.items
    have hresult := congrArg Prod.fst (h (.initial slots.length))
    dsimp only at hresult
    rw [Except.map_id] at hresult
    change ((Scene.buildDocument _ (d.items.map (Item.relocate f))).outcome
      (.initial (slots.map (Slot.relocate f)).length)).1 = _
    rw [List.length_map]
    exact hresult

namespace Loaded

/-- The loaded document at other places. -/
def relocate (loaded : Loaded) : Loaded :=
  ⟨loaded.document.relocate f, loaded.registry.relocate f, loaded.rules.map (Rule.relocate f),
    loaded.bindings, loaded.values⟩

/-- Declarations at other places are read alike, or refused at their places. -/
theorem declarations_relocate (d : Document) :
    declarations (d.relocate f) = (relocateFailure f (declarations d)).map
      fun (registry, rules) => (registry.relocate f, rules.map (Rule.relocate f)) := by
  unfold declarations
  rw [Document.types_relocate, Document.rules_relocate, Registry.ofDecls_relocate]
  rcases Registry.ofDecls d.types with e | registry
  · rfl
  · change ((Rule.ofDecls (registry.relocate f) (d.rules.map (RuleDecl.relocate f))).mapError
      Failure.type >>= _) = (relocateFailure f
        ((Rule.ofDecls registry d.rules).mapError Failure.type >>= _)).map _
    rw [Rule.ofDecls_relocate]
    rcases Rule.ofDecls registry d.rules with e | rules <;> rfl

/-- **Loading does not depend on places.**  The same document at other places has the same bindings and
the same values, or the same failure at the moved place. -/
theorem ofDocument_relocate (d : Document) :
    ofDocument (d.relocate f) = (relocateFailure f (ofDocument d)).map (relocate f) := by
  unfold ofDocument
  rw [declarations_relocate]
  rcases declarations d with e | ⟨registry, rules⟩
  · rfl
  · change (Document.resolve _ _ _ >>= _) = _
    rw [Document.resolve_relocate]
    change _ = (relocateFailure f (d.resolve registry rules >>= _)).map (relocate f)
    rcases d.resolve registry rules with e | resolution <;> rfl

end Loaded

end TypedData
