import TypedData.Failure
import TypedData.Rule
import TypedData.Value.Follow

/-!
# Building the values of a document

Values are built in a `Scene`, which does not change: the declarations, the rules and the bindings of
the document.  What changes is the `Progress`: which bindings are finished, and what is left to be
checked when all of them are.

A binding is built when it is first needed.  While it is being built it stands on the **chain**, which
holds the bindings that are being built from inside one another, the innermost first; `forcing` counts them.
Each time that a binding takes another state it is written to the log.
-/

namespace TypedData

/-- A binding with the type that its value has to have; `any` where none is given. -/
structure Slot where
  name : String
  data : Data
  type : Ty

/-- What values are built from. -/
structure Scene where
  registry : Registry
  rules : List Rule
  slots : List Slot
  /-- How often a text that came out of a rule may be taken apart again. -/
  textDepth : Nat

namespace Scene

/-- The position of the binding of a name. -/
def indexOf? (scene : Scene) (name : String) : Option Nat :=
  scene.slots.findIdx? fun slot => slot.name == name

/-- A number of hops that suffices to follow any reference of the scene. -/
def hops (scene : Scene) : Nat := Value.hopLimit scene.slots.length

end Scene

/-- How far a binding has come. -/
inductive BindingState where
  | unresolved
  | inProgress
  | resolved (value : Value)
  | failed

/-- A binding has taken a state. -/
structure Transition where
  binding : Nat
  state : BindingState

/-- A type that the value of a binding has to have when it is finished. -/
structure DeferredCheck where
  binding : Nat
  expected : Ty
  span : Span

/-- A record whose conditions, but for the first `done`, are to be checked when all bindings are
finished. -/
structure DeferredConstraints where
  ctor : String
  fields : List (Field Value)
  done : Nat
  span : Span

/-- How far the bindings have come, and what is left to be checked. -/
structure Progress where
  states : List BindingState
  chain : List Nat
  /-- How many bindings are being built from inside one another. -/
  forcing : Nat
  checks : List DeferredCheck
  constraints : List DeferredConstraints
  /-- The states that bindings have taken, the latest first. -/
  log : List Transition

namespace Progress

/-- Nothing is built yet. -/
def initial (bindings : Nat) : Progress := ⟨List.replicate bindings .unresolved, [], 0, [], [], []⟩

/-- The value of a finished binding. -/
def value? (p : Progress) (binding : Nat) : Option Value :=
  match p.states[binding]? with
  | some (.resolved v) => some v
  | _ => none

/-- Puts a binding on the chain. -/
def enter (p : Progress) (binding : Nat) : Progress :=
  { p with
    states := p.states.set binding .inProgress
    chain := binding :: p.chain
    forcing := p.forcing + 1
    log := ⟨binding, .inProgress⟩ :: p.log }

/-- Takes the innermost binding off the chain, in a new state. -/
def leave (p : Progress) (binding : Nat) (state : BindingState) : Progress :=
  { p with
    states := p.states.set binding state
    chain := p.chain.tail
    forcing := p.forcing - 1
    log := ⟨binding, state⟩ :: p.log }

/-- Adds a check of a type. -/
def deferCheck (p : Progress) (check : DeferredCheck) : Progress :=
  { p with checks := p.checks ++ [check] }

/-- Adds a record whose conditions are still to be checked. -/
def deferConstraints (p : Progress) (pending : DeferredConstraints) : Progress :=
  { p with constraints := p.constraints ++ [pending] }

end Progress

/-- A step of building.  When it fails, the progress stays as it was at the failure. -/
abbrev Build (α : Type) := ExceptT Failure (StateM Progress) α

namespace Build

/-- Fails because of a type. -/
def typeFailure {α : Type} (problem : TypeProblem) (span : Span) : Build α :=
  throw (.type ⟨problem, span⟩)

/-- Fails because a value does not have the expected type. -/
def mismatch {α : Type} (expected : Ty) (found : String) (span : Span) : Build α :=
  typeFailure (.mismatch expected found) span

/-- A result that may be a failure. -/
def ofExcept {α : Type} : Except Failure α → Build α
  | .ok a => pure a
  | .error e => throw e

end Build

end TypedData
