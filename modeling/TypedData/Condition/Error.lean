import TypedData.Diagnostic

/-!
# Conditions that cannot be evaluated

An evaluation stops at the first operator or function that cannot be applied.  The fault says why, and
to which part of the condition it happened.
-/

namespace TypedData

/-- The kinds of operands. -/
inductive OperandKind where
  | missing | null | bool | int | float | string | list | record | reference
deriving DecidableEq, Repr

namespace OperandKind

/-- What a message calls an operand of the kind. -/
def describe : OperandKind → String
  | missing => "a missing value"
  | null => "null"
  | bool => "bool"
  | int => "int"
  | float => "float"
  | string => "string"
  | list => "list"
  | record => "record"
  | reference => "reference"

end OperandKind

/-- How many arguments a function takes. -/
inductive ArgumentCount where
  | exactly (count : Nat)
  | atLeast (count : Nat)
deriving DecidableEq, Repr

namespace ArgumentCount

/-- What a message calls the number. -/
def describe : ArgumentCount → String
  | exactly count => toString count
  | atLeast count => "at least " ++ toString count

end ArgumentCount

/-- Why an evaluation stops. -/
inductive EvalProblem where
  | binaryType (symbol : String) (left right : OperandKind)
  | unaryType (symbol : String) (operand : OperandKind)
  | divisionByZero
  | overflow
  | unknownFunction (name : String)
  | arity (name : String) (expected : ArgumentCount) (found : Nat)
  | badArgument (name : String) (found : OperandKind)
  | conversion (value target : String)
  | notARecord (found : OperandKind)
  | notBoolean (value : String)
  | namedArgument (name : String)
  | unavailable (name : String)
deriving DecidableEq, Repr

namespace EvalProblem

/-- The message about a problem. -/
def message : EvalProblem → String
  | binaryType symbol left right =>
    "operator " ++ Diagnostic.name symbol ++ " cannot be applied to " ++ left.describe ++ " and " ++
      right.describe
  | unaryType symbol operand =>
    "operator " ++ Diagnostic.name symbol ++ " cannot be applied to " ++ operand.describe
  | divisionByZero => "division by zero"
  | overflow => "integer overflow"
  | unknownFunction name => "unknown function " ++ Diagnostic.name name
  | arity name expected found =>
    Diagnostic.name name ++ " expects " ++ expected.describe ++ " argument(s), found " ++
      toString found
  | badArgument name found => Diagnostic.name name ++ " cannot be applied to " ++ found.describe
  | conversion value target => "cannot convert " ++ value ++ " to " ++ target
  | notARecord found => found.describe ++ " has no fields"
  | notBoolean value => "condition evaluated to " ++ value ++ ", expected a bool"
  | namedArgument name => Diagnostic.name name ++ " does not take named arguments"
  | unavailable name => "the value of " ++ Diagnostic.name name ++ " is not available yet"

end EvalProblem

/-- A problem, and the expression that it arose in. -/
structure EvalFault where
  problem : EvalProblem
  span : Span
deriving DecidableEq, Repr

/-- The fault as it is shown. -/
def EvalFault.diagnostic (fault : EvalFault) : Diagnostic :=
  .single ("Evaluation error: " ++ fault.problem.message) fault.span "eval::error" none
    "while evaluating this"

end TypedData
