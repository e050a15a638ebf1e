import TypedData.Value

/-!
# Following references

A reference leads to the value of a binding and from there through fields.  Where a reference is met on
the way, it is followed first, so what is reached in the end is never a reference.

Each reference that is followed inside another is a hop.  The values of a document allow only two hops
for each of its bindings, since an alias and a path lead only to bindings that were finished before;
`hopLimit` is beyond that.  A chain of more hops leads nowhere.
-/

namespace TypedData

/-- Why a reference cannot be followed. -/
inductive PathError where
  | unknownField (name : String)
  /-- The binding of a name has no value yet. -/
  | unavailable (name : String)
deriving DecidableEq, Repr

namespace Value

/-- A number of hops beyond what the references among so many bindings need. -/
def hopLimit (bindings : Nat) : Nat := 2 * bindings + 4

/-- Goes through fields, looking through references by `settle` before each and at the end. -/
def walkFields (settle : Value → Except PathError Value) :
    (v : Value) → (path : List String) → Except PathError Value
  | v, [] => settle v
  | v, name :: path => do
    match (← settle v).field? name with
    | some w => walkFields settle w path
    | none => throw (.unknownField name)

/-- The value itself, or where it leads if it is a reference.  The value of a binding is given by
`root`. -/
def settle (root : Nat → Option Value) : (hops : Nat) → Value → Except PathError Value
  | 0, ref r => .error (.unavailable r.name)
  | hops + 1, ref r =>
    match root r.binding with
    | some base => walkFields (settle root hops) base r.path
    | none => .error (.unavailable r.name)
  | _, v => .ok v

/-- Where a path leads from a value. -/
def follow (root : Nat → Option Value) (hops : Nat) (v : Value) (path : List String) :
    Except PathError Value :=
  walkFields (settle root hops) v path

end Value

end TypedData
