import TypedData.Building
import TypedData.Proofs.Building.Handing
import TypedData.Proofs.Relocation.Declarations
import TypedData.Proofs.Renumbering.Value

/-!
# Two runs side by side

Building is done twice, in two scenes: the second one has the declarations of the first at other places
(`relocate f`), and its bindings may have other numbers (`renumber σ`).  A `Simulation` is a relation
between the steps of the two runs that is kept when steps are put together.  Which relation it is, and
what is known about the progress of either run, is left open.

All building but that of references and the checking of conditions is put together from steps that do not
look at the progress.  So what a simulation says of these two it says of all data
(`Simulation.buildData`).
-/

namespace TypedData

/-! ## Placing arguments -/

/-- The argument with its value changed by a function. -/
def Argument.map {α β : Type} (g : α → β) (arg : Argument α) : Argument β := ⟨arg.name, g arg.value⟩

namespace Constructor

variable {α β : Type} (g : α → β) (ctor : Constructor)

/-- An argument is placed whatever it is. -/
theorem placeAt_map (index : Nat) (arg : α) (placed : List (Option α)) :
    ctor.placeAt index (g arg) (placed.map (Option.map g)) =
      (ctor.placeAt index arg placed).map (List.map (Option.map g)) := by
  have hset : (placed.map (Option.map g)).set index (some (g arg)) =
      (placed.set index (some arg)).map (Option.map g) := by
    rw [List.map_set]
    rfl
  unfold placeAt
  rw [List.getElem?_map, hset]
  rcases placed[index]? with _ | _ | _ <;> rfl

/-- Where arguments are placed does not depend on what they are. -/
theorem placeFrom_map (given : Nat) : (args : List (Argument α)) → (next : Nat) →
    (placed : List (Option α)) →
      ctor.placeFrom given next (placed.map (Option.map g)) (args.map (Argument.map g)) =
        (ctor.placeFrom given next placed args).map (List.map (Option.map g))
  | [], _, _ => rfl
  | ⟨none, arg⟩ :: args, next, placed => by
    rw [List.map_cons, Argument.map, placeFrom, placeFrom, List.length_map, placeAt_map]
    split
    · rfl
    · cases ctor.placeAt next arg placed with
      | error problem => rfl
      | ok placed => exact placeFrom_map given args (next + 1) placed
  | ⟨some name, arg⟩ :: args, next, placed => by
    rw [List.map_cons, Argument.map, placeFrom, placeFrom]
    cases ctor.fieldIndex? name with
    | none => rfl
    | some index =>
      dsimp only
      rw [placeAt_map]
      cases ctor.placeAt index arg placed with
      | error problem => rfl
      | ok placed => exact placeFrom_map given args next placed

/-- Arguments are placed whatever they are. -/
theorem place_map (args : List (Argument α)) :
    ctor.place (args.map (Argument.map g)) =
      (ctor.place args).map (List.map (Option.map g)) := by
  have h := placeFrom_map g ctor args.length args 0 (List.replicate ctor.fields.length none)
  rw [List.map_replicate] at h
  rw [place, List.length_map]
  exact h

/-- A constructor at another place puts an argument in the same position. -/
theorem placeAt_relocate (f : Span → Span) (index : Nat) (arg : α) (placed : List (Option α)) :
    (ctor.relocate f).placeAt index arg placed = ctor.placeAt index arg placed := by
  unfold placeAt
  rw [relocate, List.getElem?_map, Option.bind_map]
  rfl

/-- A constructor at another place puts the arguments that are left in the same positions. -/
theorem placeFrom_relocate (f : Span → Span) (given : Nat) : (args : List (Argument α)) →
    (next : Nat) → (placed : List (Option α)) →
      (ctor.relocate f).placeFrom given next placed args = ctor.placeFrom given next placed args
  | [], _, _ => rfl
  | ⟨none, arg⟩ :: args, next, placed => by
    rw [placeFrom, placeFrom, placeAt_relocate]
    simp only [placeFrom_relocate f given args]
    rfl
  | ⟨some name, arg⟩ :: args, next, placed => by
    rw [placeFrom, placeFrom, fieldIndex?_relocate]
    simp only [placeAt_relocate, placeFrom_relocate f given args]
    rfl

/-- A constructor at another place puts arguments in the same positions. -/
theorem place_relocate (f : Span → Span) (args : List (Argument α)) :
    (ctor.relocate f).place args = ctor.place args := by
  rw [place, placeFrom_relocate, relocate, List.length_map]
  rfl

end Constructor

namespace Scene

/-! ## Construction in steps -/

/-- Checks the conditions on a record that was built.  The first one that has to wait, and those after
it, are left for the end. -/
def settleConditions (scene : Scene) (ctor : String) (fields : List (Field Value)) (span : Span) :
    Build Unit := do
  match ← Build.ofExcept (scene.checkRecord (← get) ctor fields 0 span) with
  | some (done, _) => modify (·.deferConstraints ⟨ctor, fields, done, span⟩)
  | none => pure ()

/-- A constructor is looked up, and its arguments are placed, and its fields are built. -/
theorem construct_eq (scene : Scene) (ctorName : String) (args : List BuildArgument) (expected : Ty)
    (span : Span) : scene.construct ctorName args expected span =
      match scene.registry.constructor? ctorName with
      | none => Build.typeFailure (.unknownConstructor ctorName) span
      | some ctor => do
        let typeArgs ← typeArguments ctor expected span
        match ctor.place args with
        | .error problem => Build.typeFailure problem span
        | .ok placed => do
          let fields ← buildFields ctor span 0 (ctor.fields.map FieldSpec.name)
            (scene.registry.fieldTypes ctor typeArgs) placed
          scene.settleConditions ctor.name fields span
          return .record (some ctor.typeName) (some ctor.name) fields := by
  unfold construct settleConditions
  cases scene.registry.constructor? ctorName with
  | none => rfl
  | some ctor =>
    dsimp only
    congr 1
    funext typeArgs
    cases ctor.place args with
    | error problem => rfl
    | ok placed =>
      dsimp only
      congr 1
      funext fields
      simp only [bind_assoc]
      congr 1
      funext p
      congr 1
      funext stop
      cases stop <;> simp only [pure_bind]

/-- Stops where a constructor builds no record of the type that is expected. -/
def expectType (ctor : Constructor) (expected : Ty) (span : Span) : Build Unit :=
  match expected with
  | .named name _ =>
    if name = ctor.typeName then return ()
    else Build.typeFailure (.constructorMismatch ctor.name name) span
  | .prim .any | .param _ => return ()
  | expected => Build.mismatch expected ("constructor " ++ Diagnostic.name ctor.name) span

/-- A constructor builds its record at the arguments of the type that is expected, or at none. -/
theorem typeArguments_eq (ctor : Constructor) (t : Ty) (span : Span) :
    typeArguments ctor t span = do
      expectType ctor t span
      return t.arguments := by
  cases t with
  | named name args =>
    rw [typeArguments, expectType]
    split <;> rfl
  | prim p => cases p <;> rfl
  | param | optional | list => rfl

/-- Arguments of a target are built one by one. -/
theorem targetArguments_eq_map (scene : Scene) (fitText : String → Ty → Span → Build Value)
    (captures : Captures) (span : Span) (args : List (Argument Expr)) :
    scene.targetArguments fitText captures span args =
      args.map (Argument.map (scene.buildTarget fitText captures span)) := by
  induction args with
  | nil => rw [targetArguments, List.map_nil]
  | cons arg args ih =>
    rw [targetArguments, ih]
    rfl

end Scene

/-! ## Simulations -/

/-- Whether the failure depends on how far building has come, or on how deep it may go: a binding was
found to depend on itself, or a text was taken apart too often. -/
def Failure.isOfRun : Failure → Bool
  | .reference (.selfDependency _ _) | .endless _ _ => true
  | _ => false

/-- A relation between the steps of two runs.  In the second one declarations and data are at other
places, and bindings may have other numbers.  Nothing is said of failures that depend on the run. -/
structure Simulation (f : Span → Span) (σ : Nat → Nat) (scene scene' : Scene) where
  /-- Whatever the first step gives, the second one gives the image of it under a function. -/
  Maps : {α β : Type} → (α → β) → Build α → Build β → Prop
  /-- The declared types and constructors are the same.  What their conditions say is left to `conditions`. -/
  registry : ∃ constraints, scene'.registry = { scene.registry.relocate f with constraints }
  indexOf? : ∀ name, scene'.indexOf? name = (scene.indexOf? name).map σ
  pure : ∀ {α β : Type} (g : α → β) (a : α), Maps g (Pure.pure a) (Pure.pure (g a))
  throw : ∀ {α β : Type} (g : α → β) (e : Failure), e.isOfRun = false →
    Maps g (MonadExcept.throw e) (MonadExcept.throw (e.relocate f))
  bind : ∀ {α β γ δ : Type} {g : α → β} {g' : γ → δ} {m : Build α} {m' : Build β}
    {k : α → Build γ} {k' : β → Build δ}, Maps g m m' → (∀ a, Maps g' (k a) (k' (g a))) →
      Maps g' (m >>= k) (m' >>= k')
  conditions : ∀ (ctor : Constructor) (fields : List (Field Value)) (span : Span),
    Maps id (scene.settleConditions ctor.name fields span)
      (scene'.settleConditions ctor.name (Value.renumberFields σ fields) (f span))

/-! A scene goes with itself: its declarations stay as they are if no place is moved. -/

/-- A scene goes with its own declarations. -/
theorem Scene.exists_registry_eq_relocate_id (scene : Scene) :
    ∃ constraints, scene.registry = { scene.registry.relocate id with constraints } := by
  rw [Registry.relocate_id]
  exact ⟨scene.registry.constraints, rfl⟩

/-- A scene goes with its own names. -/
theorem Scene.indexOf?_eq_map_id (scene : Scene) (name : String) :
    scene.indexOf? name = (scene.indexOf? name).map id := (congrFun Option.map_id _).symm

namespace Simulation

/-- What goes side by side up to a renumbering that changes nothing goes side by side. -/
theorem of_renumber {f : Span → Span} {scene scene' : Scene} (sim : Simulation f id scene scene')
    {m m' : Build Value} (h : sim.Maps (Value.renumber id) m m') : sim.Maps id m m' :=
  (funext Value.renumber_id : Value.renumber id = id) ▸ h

variable {f : Span → Span} {σ : Nat → Nat} {scene scene' : Scene}
  (sim : Simulation f σ scene scene')

section Declarations

/-! What building reads of the declarations is the same in the two runs. -/

include sim

/-- The two runs look up the same constructors. -/
theorem constructor? (name : String) :
    scene'.registry.constructor? name = (scene.registry.constructor? name).map (Constructor.relocate f) := by
  obtain ⟨_, h⟩ := sim.registry
  rw [h, ← Registry.constructor?_relocate]
  rfl

/-- The two runs know the same constructors. -/
theorem isSome_constructor? (name : String) :
    (scene'.registry.constructor? name).isSome = (scene.registry.constructor? name).isSome := by
  rw [sim.constructor?, Option.isSome_map]

/-- In the two runs, constructors belong to the same types. -/
theorem typeName_constructor? (name : String) :
    (scene'.registry.constructor? name).map Constructor.typeName =
      (scene.registry.constructor? name).map Constructor.typeName := by
  rw [sim.constructor?, Option.map_map]
  rfl

/-- In the two runs, types have the same constructors. -/
theorem constructorsOf (typeName : String) :
    scene'.registry.constructorsOf typeName =
      (scene.registry.constructorsOf typeName).map (Constructor.relocate f) := by
  obtain ⟨_, h⟩ := sim.registry
  rw [h, ← Registry.constructorsOf_relocate]
  rfl

/-- In the two runs, types have the same single constructors. -/
theorem soleConstructor? (typeName : String) :
    scene'.registry.soleConstructor? typeName =
      (scene.registry.soleConstructor? typeName).map (Constructor.relocate f) := by
  obtain ⟨_, h⟩ := sim.registry
  rw [h, ← Registry.soleConstructor?_relocate]
  rfl

/-- In the two runs, fields have the same types. -/
theorem fieldTypes (ctor : Constructor) (args : List Ty) :
    scene'.registry.fieldTypes (ctor.relocate f) args = scene.registry.fieldTypes ctor args := by
  obtain ⟨_, h⟩ := sim.registry
  rw [h, ← Registry.fieldTypes_relocate f scene.registry]
  rfl

end Declarations

section Failures

variable {α β : Type} {g : α → β}

/-- Failures of types go side by side. -/
theorem typeFailure (problem : TypeProblem) (span : Span) :
    sim.Maps g (Build.typeFailure problem span) (Build.typeFailure problem (f span)) :=
  sim.throw g _ rfl

/-- Values that do not fit are refused side by side. -/
theorem mismatch (t : Ty) (v : Value) (span : Span) :
    sim.Maps g (Build.mismatch t v.describe span)
      (Build.mismatch t (v.renumber σ).describe (f span)) := by
  rw [Value.describe_renumber]
  exact sim.typeFailure _ span

end Failures

/-! ## Records -/

/-- Two arguments that build the same thing at two places, whatever type is expected. -/
def Fits (build build' : Ty → Build Value) : Prop :=
  ∀ t, sim.Maps (Value.renumber σ) (build t) (build' t)

/-- Arguments of the two runs, side by side. -/
def Arguments (args args' : List BuildArgument) : Prop :=
  ∃ pairs : List (Argument ((Ty → Build Value) × (Ty → Build Value))),
    args = pairs.map (Argument.map Prod.fst) ∧ args' = pairs.map (Argument.map Prod.snd) ∧
      ∀ pair ∈ pairs, sim.Fits pair.value.1 pair.value.2

variable {sim}

/-- No arguments go side by side. -/
theorem Arguments.nil : sim.Arguments [] [] := ⟨[], rfl, rfl, List.forall_mem_nil _⟩

/-- Arguments go side by side if the first ones do and the others do. -/
theorem Arguments.cons {build build' : Ty → Build Value} {args args' : List BuildArgument}
    (name : Option String) (h : sim.Fits build build') (hargs : sim.Arguments args args') :
    sim.Arguments (⟨name, build⟩ :: args) (⟨name, build'⟩ :: args') := by
  obtain ⟨pairs, rfl, rfl, hpairs⟩ := hargs
  exact ⟨⟨name, (build, build')⟩ :: pairs, rfl, rfl, List.forall_mem_cons.2 ⟨h, hpairs⟩⟩

variable (sim)

/-- The type of a constructor is expected side by side. -/
theorem expectType (ctor : Constructor) (t : Ty) (span : Span) :
    sim.Maps id (Scene.expectType ctor t span) (Scene.expectType (ctor.relocate f) t (f span)) := by
  unfold Scene.expectType
  split
  · rename_i name args
    change sim.Maps id _ (if name = ctor.typeName then _ else _)
    split
    · exact sim.pure id ()
    · exact sim.typeFailure _ span
  · exact sim.pure id ()
  · exact sim.pure id ()
  · exact sim.typeFailure _ span

/-- Fields are built side by side if their values are. -/
theorem buildFields (ctor : Constructor) (span : Span) : (names : List (Option String)) →
    (types : List Ty) → (pairs : List (Option ((Ty → Build Value) × (Ty → Build Value)))) →
    (∀ type pair, (type, some pair) ∈ types.zip pairs →
      sim.Maps (Value.renumber σ) (pair.1 type) (pair.2 type)) → (index : Nat) →
    sim.Maps (Value.renumberFields σ)
      (Scene.buildFields ctor span index names types (pairs.map (Option.map Prod.fst)))
      (Scene.buildFields (ctor.relocate f) (f span) index names types
        (pairs.map (Option.map Prod.snd)))
  | name :: names, type :: types, pair :: pairs, h, index => by
    rw [List.map_cons, List.map_cons, Scene.buildFields, Scene.buildFields]
    have hfield : sim.Maps (fun field => ⟨field.name, field.value.renumber σ⟩)
        (Scene.buildField ctor span index name type (pair.map Prod.fst))
        (Scene.buildField (ctor.relocate f) (f span) index name type (pair.map Prod.snd)) := by
      cases pair with
      | none =>
        unfold Scene.buildField
        dsimp only [Option.map_none]
        split
        · exact sim.pure _ _
        · exact sim.typeFailure _ span
      | some pair => exact sim.bind (h type pair (.head _)) fun v => sim.pure _ _
    refine sim.bind hfield fun field => ?_
    refine sim.bind (buildFields ctor span names types pairs
      (fun type pair hpair => h type pair (.tail _ hpair)) (index + 1)) fun fields => ?_
    exact sim.pure (Value.renumberFields σ) (field :: fields)
  | [], _, _, _, _ | _ :: _, [], _, _, _ | _ :: _, _ :: _, [], _, _ => by
    simp only [List.map_nil, Scene.buildFields]
    exact sim.pure (Value.renumberFields σ) []

/-- The same constructor is given the same fields, if each argument builds the same for the type of the field
that it is placed at. -/
theorem construct_of_placed (pairs : List (Argument ((Ty → Build Value) × (Ty → Build Value))))
    (ctorName : String) (t : Ty) (span : Span)
    (h : ∀ ctor placed, scene.registry.constructor? ctorName = some ctor → ctor.place pairs = .ok placed →
      ∀ type pair, (type, some pair) ∈ (scene.registry.fieldTypes ctor t.arguments).zip placed →
        sim.Maps (Value.renumber σ) (pair.1 type) (pair.2 type)) :
    sim.Maps (Value.renumber σ)
      (scene.construct ctorName (pairs.map (Argument.map Prod.fst)) t span)
      (scene'.construct ctorName (pairs.map (Argument.map Prod.snd)) t (f span)) := by
  rw [Scene.construct_eq, Scene.construct_eq, sim.constructor?]
  cases hctor : scene.registry.constructor? ctorName with
  | none => exact sim.typeFailure _ span
  | some ctor =>
    dsimp only [Option.map_some]
    rw [Scene.typeArguments_eq, Scene.typeArguments_eq, bind_assoc, bind_assoc]
    refine sim.bind (sim.expectType ctor t span) fun _ => ?_
    rw [pure_bind, pure_bind, Constructor.place_relocate, Constructor.place_map, Constructor.place_map]
    cases hplaced : ctor.place pairs with
    | error problem => exact sim.typeFailure _ span
    | ok placed =>
      dsimp only [Except.map]
      rw [Constructor.names_relocate, sim.fieldTypes]
      refine sim.bind (sim.buildFields ctor span _ _ placed (h ctor placed hctor hplaced) 0) fun fields => ?_
      refine sim.bind (sim.conditions ctor fields span) fun _ => ?_
      exact sim.pure (Value.renumber σ) (.record (some ctor.typeName) (some ctor.name) fields)

/-- **The same constructor is given the same fields,** at two places. -/
theorem construct {args args' : List BuildArgument} (hargs : sim.Arguments args args')
    (ctorName : String) (t : Ty) (span : Span) :
    sim.Maps (Value.renumber σ) (scene.construct ctorName args t span)
      (scene'.construct ctorName args' t (f span)) := by
  obtain ⟨pairs, rfl, rfl, hpairs⟩ := hargs
  refine sim.construct_of_placed pairs ctorName t span fun ctor placed _ hplaced type pair hmem => ?_
  have hfits := (Constructor.place_ok (P := fun pair => sim.Fits pair.1 pair.2) hpairs hplaced).1
  exact hfits pair (List.of_mem_zip hmem).2 type

end Simulation

end TypedData
