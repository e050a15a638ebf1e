import TypedData.Building.State

/-!
# Values and the types expected of them

`coerce` fits a computed value to a type: an integer becomes a float where one is expected, and a text
goes through the rules where a declared type is.  `conforms` only looks, and not very deep: it is asked
about values behind references, and takes references inside lists on trust.
-/

namespace TypedData

namespace Ty

/-- Whether a value has the type, as far as can be seen without following references. -/
def conforms : Ty → Value → Bool
  | prim .any, _ | param _, _ => true
  | optional _, .null => true
  | optional inner, v => inner.conforms v
  | _, .ref _ => true
  | prim .int, .int _ => true
  | prim .float, .int _ | prim .float, .float _ => true
  | prim .str, .str _ => true
  | prim .bool, .bool _ => true
  | list inner, .list items => items.all inner.conforms
  | named name _, .record typeName _ _ => typeName == some name
  | _, _ => false

/-- Whether the type is a primitive other than `any`, so that its values hold no references. -/
def isScalar : Ty → Bool
  | prim .any => false
  | prim _ => true
  | _ => false

/-- The type of the items, where a list is accepted. -/
def item? : Ty → Option Ty
  | list inner => some inner
  | prim .any | param _ => some any
  | _ => none

/-- Fits a value to the type.  `fitText` takes a text apart for a declared type. -/
def coerce (fitText : String → Ty → Span → Build Value) (span : Span) : Ty → Value → Build Value
  | prim .any, v | param _, v => return v
  | optional _, .null => return .null
  | optional inner, v => inner.coerce fitText span v
  | prim .int, .int n => return .int n
  | prim .float, .int n => return .float (.ofInt n.val)
  | prim .float, .float x => return .float x
  | prim .bool, .bool b => return .bool b
  | prim .str, .str text => return .str text
  | named name args, .str text => fitText text (named name args) span
  | named name args, .record typeName ctor fields =>
    if typeName = some name then return .record typeName ctor fields
    else Build.mismatch (named name args) (Value.record typeName ctor fields).describe span
  | list inner, .list items => return .list (← items.mapM (inner.coerce fitText span))
  | t, v => Build.mismatch t v.describe span

end Ty

end TypedData
