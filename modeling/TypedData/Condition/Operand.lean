import TypedData.Condition.Error
import TypedData.Value

/-!
# Operands

What conditions compute with: values, without the types of records, and a **missing** operand beside
them for what a condition asks about and the record does not have.

Two numbers are equal when they are the same double, so an integer may equal a float.  Inside lists and
records equality is structural: there an integer equals only an integer.
-/

namespace TypedData

/-- What an expression evaluates to. -/
inductive Operand where
  | missing
  | null
  | bool (value : Bool)
  | int (value : Integer)
  | float (value : Double)
  | str (text : String)
  | list (items : List Operand)
  | record (ctor : Option String) (fields : List (Field Operand))
  | ref (reference : Reference)

namespace Operand

/-- The kind of an operand. -/
def kind : Operand → OperandKind
  | missing => .missing
  | null => .null
  | bool _ => .bool
  | int _ => .int
  | float _ => .float
  | str _ => .string
  | list _ => .list
  | record .. => .record
  | ref _ => .reference

mutual

/-- A value as an operand. -/
def ofValue : Value → Operand
  | .null => null
  | .bool b => bool b
  | .int n => int n
  | .float x => float x
  | .str text => str text
  | .list items => list (ofItems items)
  | .record _ ctor fields => record ctor (ofFields fields)
  | .ref r => ref r

/-- The items of a list as operands. -/
def ofItems : List Value → List Operand
  | [] => []
  | v :: vs => ofValue v :: ofItems vs

/-- The fields of a record as operands. -/
def ofFields : List (Field Value) → List (Field Operand)
  | [] => []
  | ⟨name, v⟩ :: fields => ⟨name, ofValue v⟩ :: ofFields fields

end

mutual

/-- An operand as a value.  A missing operand counts as null. -/
def toValue : Operand → Value
  | missing => .null
  | null => .null
  | bool b => .bool b
  | int n => .int n
  | float x => .float x
  | str text => .str text
  | list items => .list (toItems items)
  | record ctor fields => .record none ctor (toFields fields)
  | ref r => .ref r

/-- Operands as the items of a list. -/
def toItems : List Operand → List Value
  | [] => []
  | v :: vs => toValue v :: toItems vs

/-- Operands as the fields of a record. -/
def toFields : List (Field Operand) → List (Field Value)
  | [] => []
  | ⟨name, v⟩ :: fields => ⟨name, toValue v⟩ :: toFields fields

end

/-- An operand as a value; a missing operand is none. -/
def toValue? : Operand → Option Value
  | missing => none
  | v => some v.toValue

/-- How an operand is written. -/
def print (v : Operand) : String :=
  match v.toValue? with
  | some value => value.print
  | none => "<missing>"

/-- The operand as a double, where it is a number. -/
def number? : Operand → Option Double
  | int n => some (.ofInt n.val)
  | float x => some x
  | _ => none

mutual

/-- Whether two operands are structurally equal; floats are compared as numbers. -/
def same : Operand → Operand → Bool
  | missing, missing => true
  | null, null => true
  | bool a, bool b => a == b
  | int a, int b => a == b
  | float x, float y => x.equal y
  | str a, str b => a == b
  | list as, list bs => sameItems as bs
  | record c fs, record d gs => c == d && sameFields fs gs
  | ref r, ref s => r == s
  | _, _ => false

/-- Whether two lists of operands are structurally equal. -/
def sameItems : List Operand → List Operand → Bool
  | [], [] => true
  | a :: as, b :: bs => same a b && sameItems as bs
  | _, _ => false

/-- Whether two lists of fields are structurally equal. -/
def sameFields : List (Field Operand) → List (Field Operand) → Bool
  | [], [] => true
  | ⟨m, a⟩ :: fs, ⟨n, b⟩ :: gs => m == n && same a b && sameFields fs gs
  | _, _ => false

end

/-- Whether two operands are equal: as numbers if both are, structurally otherwise. -/
def equal (a b : Operand) : Bool :=
  match a.number?, b.number? with
  | some x, some y => x.equal y
  | _, _ => same a b

/-- How two operands are ordered, where they are: integers exactly, other numbers as doubles, texts by
their characters. -/
def compare? : Operand → Operand → Option Ordering
  | int a, int b => some (compare a.val b.val)
  | str a, str b => some (compareOfLessAndEq a b)
  | a, b =>
    match a.number?, b.number? with
    | some x, some y => x.compare? y
    | _, _ => none

end Operand

end TypedData
