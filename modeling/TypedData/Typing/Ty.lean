import TypedData.Document.Printer

/-!
# Types

A type as the declarations define it: a primitive, a declared type with its arguments, a parameter of
the declaration, or an optional or a list of a type.  `any` accepts every value, and so does a
parameter that nothing is known about; these types are **open**.
-/

namespace TypedData

/-- The primitive types. -/
inductive Primitive where
  | int | float | str | bool
  /-- The type of every value. -/
  | any
deriving DecidableEq, Repr

namespace Primitive

/-- The name of a primitive type. -/
def name : Primitive → String
  | int => "int"
  | float => "float"
  | str => "str"
  | bool => "bool"
  | any => "any"

/-- Every primitive type. -/
def all : List Primitive := [int, float, str, bool, any]

/-- The primitive type of a name. -/
def ofName? (text : String) : Option Primitive := all.find? fun p => p.name == text

/-- A primitive type is found by its name. -/
theorem ofName?_name (p : Primitive) : ofName? p.name = some p := by cases p <;> decide

end Primitive

/-- A type. -/
inductive Ty where
  | prim (p : Primitive)
  | named (name : String) (args : List Ty)
  | param (name : String)
  | optional (inner : Ty)
  | list (inner : Ty)

namespace Ty

/-- The type of every value. -/
def any : Ty := prim .any

/-- Whether the type accepts every value. -/
def isOpen : Ty → Bool
  | prim .any | param _ => true
  | _ => false

/-- Whether the type is written as a single name. -/
def isAtomic : Ty → Bool
  | named _ args => args.isEmpty
  | prim _ | param _ => true
  | optional _ | list _ => false

/-- Whether a value of the type may be left out. -/
def isOptional : Ty → Bool
  | optional _ => true
  | _ => false

/-- The type without one layer of being optional. -/
def peeled : Ty → Ty
  | optional inner => inner
  | t => t

/-- The type without any layer of being optional. -/
def required : Ty → Ty
  | optional inner => inner.required
  | t => t

mutual

/-- How a type is written. -/
def print : Ty → String
  | prim p => p.name
  | param name => name
  | named name args => name ++ printArgs args
  | optional inner => "optional " ++ parenthesised (!inner.isAtomic) inner.print
  | list inner => "list " ++ parenthesised (!inner.isAtomic) inner.print

/-- How the arguments of a type are written, each after a space. -/
def printArgs : List Ty → String
  | [] => ""
  | arg :: args => " " ++ parenthesised (!arg.isAtomic) arg.print ++ printArgs args

end

mutual

/-- Puts types in the places of parameters.  A parameter that is given none becomes `any`. -/
def substitute (bindings : List (String × Ty)) : Ty → Ty
  | prim p => prim p
  | param name => (bindings.lookup name).getD any
  | named name args => named name (substituteArgs bindings args)
  | optional inner => optional (inner.substitute bindings)
  | list inner => list (inner.substitute bindings)

/-- Puts types in the places of parameters, in every argument. -/
def substituteArgs (bindings : List (String × Ty)) : List Ty → List Ty
  | [] => []
  | arg :: args => arg.substitute bindings :: substituteArgs bindings args

end

end Ty

end TypedData
