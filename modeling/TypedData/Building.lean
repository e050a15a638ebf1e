import TypedData.Building.Data

/-!
# The values of a document

The bindings are built in the order of the document, each of them with whatever it refers to, and the
values without a name where they stand between them.  When everything is built, the checks that had to
wait are made, types before conditions.

At most `maxReferenceDepth` bindings are built from inside one another.
-/

namespace TypedData

/-- The values of a document. -/
structure Resolution where
  /-- The bindings, in the order of the document. -/
  bindings : List (String × Value)
  /-- The values without a name, in the order of the document. -/
  values : List Value

namespace Scene

/-- How often a text that came out of a rule may be taken apart again: more often than can happen
before the memory is used up, so that rules which come to an end are not cut short. -/
def maxTextDepth : Nat := 1 <<< 60

/-! ## Bindings -/

/-- Builds the value of a binding.  A binding that is nothing but a reference is an alias. -/
def buildSlot (scene : Scene) (force : Nat → Build Unit) (slot : Slot) : Build Value :=
  match slot.data with
  | .reference span name path => scene.buildReference force name path span slot.type true
  | data => scene.buildData force data slot.type

/-- Builds a binding, which stands on the chain meanwhile. -/
def onChain (binding : Nat) (build : Build Value) : Build Unit := do
  modify (·.enter binding)
  try
    let v ← build
    modify (·.leave binding (.resolved v))
  catch e =>
    modify (·.leave binding .failed)
    throw e

/-- Builds a binding that is not built yet.  It may force others at most `depth` deep from inside, which is
what the bindings on the chain leave of `maxReferenceDepth`. -/
def forceWithin (scene : Scene) : (depth : Nat) → (binding : Nat) → Build Unit
  | depth, binding => do
    let p ← get
    match p.states[binding]?, scene.slots[binding]? with
    | some .unresolved, some slot =>
      match depth with
      | 0 => throw (.reference (.tooDeep slot.name slot.data.span))
      | depth + 1 =>
        if maxReferenceDepth ≤ p.forcing then throw (.reference (.tooDeep slot.name slot.data.span))
        else onChain binding (scene.buildSlot (scene.forceWithin depth) slot)
    | _, _ => return ()

/-- Builds a binding that is not built yet. -/
def force (scene : Scene) : Nat → Build Unit := scene.forceWithin maxReferenceDepth

/-- The slots of bindings.  `seen` holds the names before. -/
def slotsOf (registry : Registry) (seen : List String) :
    List Binding → Except Failure (List Slot)
  | [] => .ok []
  | binding :: bindings => do
    if seen.contains binding.name then
      throw (.reference (.duplicateBinding binding.name binding.span))
    let type ← match binding.type with
      | none => pure Ty.any
      | some type =>
        match registry.resolveType [] type with
        | .ok type => pure type
        | .error e => throw (.type e)
    return ⟨binding.name, binding.value, type⟩ ::
      (← slotsOf registry (binding.name :: seen) bindings)

/-! ## Documents -/

/-- Builds items in their order; the values without a name.  The first binding among them is the
binding number `next`. -/
def buildItemsFrom (scene : Scene) (next : Nat) : List Item → Build (List Value)
  | [] => return []
  | .binding _ :: items => do
    scene.force next
    buildItemsFrom scene (next + 1) items
  | .value data :: items => do
    let v ← scene.buildData scene.force data .any
    return v :: (← buildItemsFrom scene next items)
  | _ :: items => buildItemsFrom scene next items

/-- Makes a check of a type that had to wait. -/
def runCheck (scene : Scene) (p : Progress) (check : DeferredCheck) : Except Failure Unit :=
  let name := (scene.slots[check.binding]?.map Slot.name).getD ""
  match (p.value? check.binding).bind fun v => (v.follow p.value? scene.hops []).toOption with
  | some target =>
    if check.expected.conforms target then .ok ()
    else .error (.type ⟨.mismatch check.expected target.describe, check.span⟩)
  | none => .error (.reference (.selfDependency name check.span))

/-- Checks conditions that had to wait. -/
def runConstraints (scene : Scene) (p : Progress) (pending : DeferredConstraints) :
    Except Failure Unit :=
  match scene.checkRecord p pending.ctor pending.fields pending.done pending.span with
  | .ok none => .ok ()
  | .ok (some (_, name)) => .error (.reference (.selfDependency name pending.span))
  | .error e => .error e

/-- Makes the checks that had to wait. -/
def runDeferred (scene : Scene) (p : Progress) : Except Failure Unit := do
  p.checks.forM (scene.runCheck p)
  p.constraints.forM (scene.runConstraints p)

/-- The finished bindings with their names. -/
def finished (scene : Scene) (p : Progress) : List (String × Value) :=
  (scene.slots.zip p.states).filterMap fun (slot, state) =>
    match state with
    | .resolved v => some (slot.name, v)
    | _ => none

/-- Builds a whole document. -/
def buildDocument (scene : Scene) (items : List Item) : Build Resolution := do
  let values ← scene.buildItemsFrom 0 items
  let p ← get
  Build.ofExcept (scene.runDeferred p)
  return ⟨scene.finished p, values⟩

end Scene

namespace Document

/-- The values of a document, over given declarations and rules. -/
def resolve (d : Document) (registry : Registry) (rules : List Rule) :
    Except Failure Resolution := do
  let slots ← Scene.slotsOf registry [] d.bindings
  let scene : Scene := ⟨registry, rules, slots, Scene.maxTextDepth⟩
  ((scene.buildDocument d.items).run (.initial slots.length)).1

end Document

end TypedData
