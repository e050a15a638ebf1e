import TypedData.Diagnostic
import TypedData.Document.Printer

/-!
# Values

What a document means: its values, with every constructor, default and rule resolved.  A use of a
bound name stays a `Reference`, so that values may be cyclic; it holds the position of the binding and
the fields to go through from there.
-/

namespace TypedData

/-- A use of the binding number `binding`, which is called `name`. -/
structure Reference where
  binding : Nat
  name : String
  path : List String
deriving DecidableEq, Repr

/-- A field of a record; without a name it is known by its position. -/
structure Field (α : Type) where
  name : Option String
  value : α

/-- The first field of a name. -/
def Field.find? {α : Type} (name : String) (fields : List (Field α)) : Option α :=
  (fields.find? fun field => field.name == some name).map Field.value

/-- A value. -/
inductive Value where
  | null
  | bool (value : Bool)
  | int (value : Integer)
  | float (value : Double)
  | str (text : String)
  | list (items : List Value)
  /-- A record, with the type and the constructor that it was built by, if it was. -/
  | record (typeName ctor : Option String) (fields : List (Field Value))
  | ref (reference : Reference)

/-- How a reference is written. -/
def Reference.print (r : Reference) : String := "!" ++ String.join (r.name :: r.path.map ("." ++ ·))

namespace Value

/-- What a message calls the value. -/
def describe : Value → String
  | null => "null"
  | bool _ => "a bool"
  | int _ => "an int"
  | float _ => "a float"
  | str _ => "a string"
  | list _ => "a list"
  | record _ (some ctor) _ => "constructor " ++ Diagnostic.name ctor
  | record _ none _ => "a record"
  | ref r => "a reference to " ++ Diagnostic.name r.name

/-- The value of a field, where the value is a record that has it. -/
def field? (name : String) : Value → Option Value
  | record _ _ fields => Field.find? name fields
  | _ => none

/-- The value of the field at a position, where the value is a record that has it. -/
def positional? (index : Nat) : Value → Option Value
  | record _ _ fields => fields[index]?.map Field.value
  | _ => none

/-- Whether the value is a reference. -/
def isReference : Value → Bool
  | ref _ => true
  | _ => false

/-- How the name of a field is written, with the colon after it.  A record without a constructor may
have names that need quotes. -/
def fieldLabel (ctor : Option String) : Option String → String
  | none => ""
  | some name => (if ctor.isSome then name else keyText name) ++ ": "

mutual

/-- How a value is written. -/
def print : Value → String
  | null => "null"
  | bool b => boolText b
  | int n => n.text
  | float x => x.text .value
  | str text => literal text
  | list items => "[" ++ commaSeparated (printItems items) ++ "]"
  | record _ ctor fields =>
    let inner := commaSeparated (printFields ctor fields)
    match ctor with
    | some c => c ++ "(" ++ inner ++ ")"
    | none => "\x7b" ++ inner ++ "\x7d"
  | ref r => r.print

/-- How the items of a list are written. -/
def printItems : List Value → List String
  | [] => []
  | v :: vs => v.print :: printItems vs

/-- How the fields of a record are written. -/
def printFields (ctor : Option String) : List (Field Value) → List String
  | [] => []
  | ⟨name, v⟩ :: fields => (fieldLabel ctor name ++ v.print) :: printFields ctor fields

end

end Value

end TypedData
