import TypedData.Typing.Registry
import TypedData.Value

/-!
# Exported trees

Other programs get a document as a **plain tree**: scalars, lists, and maps with texts as keys.  A
record becomes a map of its fields, with its constructor under `$ctor`; a reference becomes a map that
holds the name under `$ref` and the path, if there is one, under `$path`.  So trees are finite where
values are cyclic.

The members of a map stand in the order of their keys, and no two of them have the same key.
-/

namespace TypedData

/-- A member of a map. -/
structure Member (α : Type) where
  key : String
  value : α

/-- A tree of scalars, lists and maps. -/
inductive PlainTree where
  | null
  | bool (value : Bool)
  | int (value : Integer)
  | float (value : Double)
  | str (text : String)
  | list (items : List PlainTree)
  | map (members : List (Member PlainTree))

namespace Member

variable {α : Type}

/-- Puts a member in its place among members in the order of their keys.  It replaces a member of the
same key. -/
def put (new : Member α) : List (Member α) → List (Member α)
  | [] => [new]
  | m :: members =>
    if new.key < m.key then new :: m :: members
    else if new.key = m.key then new :: members
    else m :: put new members

/-- Members in the order of their keys.  Of several with the same key the last one stays. -/
def sorted (members : List (Member α)) : List (Member α) :=
  members.foldl (fun before new => put new before) []

end Member

namespace PlainTree

/-- A map with the given members. -/
def ofMembers (members : List (Member PlainTree)) : PlainTree := map (Member.sorted members)

/-- The tree of a reference. -/
def ofReference (r : Reference) : PlainTree :=
  let path : List (Member PlainTree) :=
    if r.path = [] then [] else [⟨"$path", list (r.path.map str)⟩]
  ofMembers (⟨"$ref", str r.name⟩ :: path)

/-- The members that tell the constructor of a record. -/
def ctorMembers : Option String → List (Member PlainTree)
  | none => []
  | some ctor => [⟨"$ctor", str ctor⟩]

mutual

/-- The tree of a value. -/
def ofValue : Value → PlainTree
  | .null => null
  | .bool b => bool b
  | .int n => int n
  | .float x => float x
  | .str text => str text
  | .list items => list (ofItems items)
  | .record _ ctor fields => ofMembers (ctorMembers ctor ++ ofFields 0 fields)
  | .ref r => ofReference r

/-- The trees of the items of a list. -/
def ofItems : List Value → List PlainTree
  | [] => []
  | v :: vs => ofValue v :: ofItems vs

/-- The members for fields of a record, the first of which has the position `index`. -/
def ofFields (index : Nat) : List (Field Value) → List (Member PlainTree)
  | [] => []
  | ⟨name, v⟩ :: fields => ⟨fieldLabel index name, ofValue v⟩ :: ofFields (index + 1) fields

end

/-- The tree of a whole document: its bindings by name, and the values without a name. -/
def ofDocument (bindings : List (String × Value)) (values : List Value) : PlainTree :=
  let binding (b : String × Value) : Member PlainTree := ⟨b.1, ofValue b.2⟩
  ofMembers [⟨"bindings", ofMembers (bindings.map binding)⟩, ⟨"values", list (ofItems values)⟩]

end PlainTree

end TypedData
