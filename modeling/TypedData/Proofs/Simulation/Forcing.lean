import Mathlib.Data.List.Forall2
import TypedData.Proofs.Simulation.Data

/-!
# Two runs over the same bindings

Two runs that go side by side over the same data also do so over the bindings of a document: they force them at the
same depth, and build the same items.  For this they have to look at the same progress, use a binding alike where it
has been forced, and put bindings on the chain alike (`Simulation.OverBindings`).
-/

namespace TypedData

/-- The items give the same to build: a binding stands where one stood, and the data of a value is at another place. -/
inductive Item.SameData (f : Span → Span) : Item → Item → Prop
  | type (decl decl' : TypeDecl) : SameData f (.type decl) (.type decl')
  | rule (decl decl' : RuleDecl) : SameData f (.rule decl) (.rule decl')
  | binding (b b' : Binding) : SameData f (.binding b) (.binding b')
  | value (d : Data) : SameData f (.value d) (.value (d.relocate f))

/-- An item at another place gives the same to build. -/
theorem Item.sameData_relocate {f : Span → Span} (item : Item) : item.SameData f (item.relocate f) := by
  cases item <;> constructor

/-- An item gives the same to build as it does. -/
theorem Item.sameData_self (item : Item) : item.SameData id item := by
  cases item with
  | value d =>
    have h : (Item.value d).SameData id (.value (d.relocate id)) := .value d
    rwa [Data.relocate_id] at h
  | _ => constructor

/-- Items give the same to build where each gives the same as its image. -/
theorem Item.sameData_map {f : Span → Span} {image : Item → Item} (h : ∀ item, Item.SameData f item (image item))
    (items : List Item) : List.Forall₂ (Item.SameData f) items (items.map image) :=
  List.forall₂_map_right_iff.2 (List.forall₂_same.2 fun item _ => h item)

namespace Simulation

variable {f : Span → Span} {scene scene' : Scene} {sim : Simulation f id scene scene'}
  {view : Progress → Progress}

variable (sim view) in
/-- The two runs go over the same bindings. -/
structure OverBindings : Prop where
  /-- The data of the bindings is the same, at other places. -/
  slots : scene'.slots = scene.slots.map (Slot.relocate f)
  /-- What the second run sees of the progress is a view of what the first one sees. -/
  get : sim.Maps view MonadState.get MonadState.get
  /-- In this view the bindings have come as far. -/
  states : ∀ p, (view p).states = p.states
  /-- As many of them are on the chain. -/
  forcing : ∀ p, (view p).forcing = p.forcing
  useForced : ∀ b name path span t whole, sim.Maps id (scene.useForced b name path span t whole)
    (scene'.useForced b name path (f span) t whole)
  onChain : ∀ b {m m' : Build Value}, sim.Maps id m m' → sim.Maps id (Scene.onChain b m) (Scene.onChain b m')

namespace OverBindings

/-- References go side by side if bindings are forced side by side. -/
theorem refers (h : sim.OverBindings view) {force force' : Nat → Build Unit}
    (hforce : ∀ b, sim.Maps id (force b) (force' b)) {whole : Bool} {name : String} {path : List String} :
    sim.Refers force force' whole name path :=
  Simulation.refers fun b t span _ =>
    sim.bind (hforce b) fun _ => h.useForced b name path span t whole

/-- **Bindings are forced side by side,** to any depth, if their texts are fitted so. -/
theorem forceWithin (h : sim.OverBindings view) (hfit : ∀ slot ∈ scene.slots, sim.FitsAll slot.data.texts)
    (depth b : Nat) : sim.Maps id (scene.forceWithin depth b) (scene'.forceWithin depth b) := by
  -- the recursion is on the depth, which is one less for what a binding forces from inside
  rw [Scene.forceWithin.eq_def, Scene.forceWithin.eq_def]
  refine sim.bind h.get fun p => ?_
  rw [h.states, h.forcing, h.slots, List.getElem?_map]
  cases p.states[b]? with
  | none => exact sim.pure id ()
  | some state =>
    cases hslot : scene.slots[b]? with
    | none => cases state <;> exact sim.pure id ()
    | some slot =>
      cases state with
      | unresolved =>
        have hdeep : sim.Maps id (MonadExcept.throw (.reference (.tooDeep slot.name slot.data.span)) : Build Unit)
            (MonadExcept.throw (.reference (.tooDeep slot.name (slot.data.relocate f).span))) := by
          rw [Data.span_relocate]
          exact sim.throw id _ rfl
        cases depth with
        | zero => exact hdeep
        | succ depth =>
          dsimp only [Option.map_some]
          split
          · exact hdeep
          · have hrefers : ∀ {whole name path}, sim.Refers (scene.forceWithin depth) (scene'.forceWithin depth)
                whole name path := h.refers (forceWithin h hfit depth)
            refine h.onChain b (sim.of_renumber ?_)
            exact sim.buildSlot slot (hfit slot (List.mem_of_getElem? hslot)) (fun _ _ => hrefers)
              fun _ _ _ _ => hrefers
      | _ => exact sim.pure id ()

/-- **Items are built side by side,** if texts are fitted so. -/
theorem buildItemsFrom (h : sim.OverBindings view) (hfit : ∀ slot ∈ scene.slots, sim.FitsAll slot.data.texts)
    {items items' : List Item} (hitems : List.Forall₂ (Item.SameData f) items items')
    (hvalues : ∀ d, .value d ∈ items → sim.FitsAll d.texts) (next : Nat) :
    sim.Maps id (scene.buildItemsFrom next items) (scene'.buildItemsFrom next items') := by
  induction hitems generalizing next with
  | nil => exact sim.pure id []
  | cons hitem _ ih =>
    have ih := ih fun d hd => hvalues d (.tail _ hd)
    cases hitem with
    | type | rule => exact ih next
    | binding => exact sim.bind (h.forceWithin hfit maxReferenceDepth next) fun _ => ih (next + 1)
    | value d =>
      have hdata := buildData d (hvalues d (.head _))
        (fun _ _ => h.refers (h.forceWithin hfit maxReferenceDepth)) .any
      exact sim.bind (sim.of_renumber hdata) fun v => sim.bind (ih next) fun vs => sim.pure id (v :: vs)

end OverBindings

end Simulation

end TypedData
