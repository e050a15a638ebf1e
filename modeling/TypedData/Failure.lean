import TypedData.Condition.Error
import TypedData.Document.Error
import TypedData.Token.Error
import TypedData.Typing.Error

/-!
# Failures

Loading a document stops at the first failure, of whatever stage.  This module adds the failures of
references and of conditions to those of the earlier stages, and joins them all.
-/

namespace TypedData

/-- How many bindings may be built from inside one another. -/
def maxReferenceDepth : Nat := 256

/-- A reference that cannot be used, and its place. -/
inductive ReferenceError where
  | undefined (name : String) (span : Span)
  /-- The value of a binding is needed while it is being built. -/
  | selfDependency (name : String) (span : Span)
  | unknownField (name field : String) (span : Span)
  | tooDeep (name : String) (span : Span)
  | duplicateBinding (name : String) (span : Span)
deriving DecidableEq, Repr

namespace ReferenceError

/-- The failure as it is shown. -/
def diagnostic : ReferenceError → Diagnostic
  | undefined name span =>
    .single ("Reference to undefined name " ++ Diagnostic.name name) span "reference::undefined"
      (some ("Declare it with " ++ Diagnostic.name (name ++ " := ...") ++
        " somewhere in the document."))
      "not defined"
  | selfDependency name span =>
    .single (Diagnostic.name name ++ " depends on its own value") span
      "reference::self_dependency"
      (some "A cycle may only pass through whole references used as record values.")
      ("needs the value of " ++ Diagnostic.name name ++ " while it is still being built")
  | unknownField name field span =>
    .single (Diagnostic.name name ++ " has no field " ++ Diagnostic.name field) span
      "reference::unknown_field" none "no such field"
  | tooDeep name span =>
    .single ("Resolving " ++ Diagnostic.name name ++ " follows more than " ++
        toString maxReferenceDepth ++ " nested references") span "reference::too_deep"
      (some "Reference chains this long cannot be resolved; shorten the chain.")
      "chain continues here"
  | duplicateBinding name span =>
    .single (Diagnostic.name name ++ " is bound more than once") span
      "reference::duplicate_binding" none "second binding"

end ReferenceError

/-- A condition that does not hold for a record. -/
structure ConstraintViolation where
  ctor : String
  /-- The condition as it is written. -/
  condition : String
  /-- The fields of the record with their values as they are written. -/
  fields : List (String × String)
  span : Span
  conditionSpan : Span
deriving DecidableEq, Repr

/-- The violation as it is shown. -/
def ConstraintViolation.diagnostic (v : ConstraintViolation) : Diagnostic where
  message :=
    "Constraint " ++ Diagnostic.name v.condition ++ " violated by " ++ Diagnostic.name v.ctor
  span := v.span
  code := "constraint::violation"
  help := some ("field values: " ++
    String.intercalate ", " (v.fields.map fun (name, value) => name ++ " = " ++ value))
  labels := [("this value", v.span), ("constraint declared here", v.conditionSpan)]

/-- A failure of any stage. -/
inductive Failure where
  | token (e : TokenError)
  | parse (e : ParseError)
  | type (e : TypeError)
  | constraint (v : ConstraintViolation)
  | reference (e : ReferenceError)
  | evaluation (fault : EvalFault)
  /-- The rules take a text apart into texts that have to be taken apart again, without end. -/
  | endless (text : String) (span : Span)

namespace Failure

/-- The failure as it is shown. -/
def diagnostic : Failure → Diagnostic
  | token e => e.diagnostic
  | parse e => e.diagnostic
  | type e => e.diagnostic
  | constraint v => v.diagnostic
  | reference e => e.diagnostic
  | evaluation fault => fault.diagnostic
  | endless text span =>
    .single ("The rules take " ++ quoted text ++ " apart without end") span "rules::endless" none
      "this text"

end Failure

end TypedData
