import TypedData.Diagnostic
import TypedData.Text.Quoted
import TypedData.Typing.Ty

/-!
# Declarations and values that do not fit

Failures of the declarations of types, of the rules for texts, and of values that do not have the type
that is expected of them.
-/

namespace TypedData

/-- Why a template is no left side of a rule. -/
inductive TemplateProblem where
  /-- A placeholder without a name. -/
  | emptySlot
  /-- Between two placeholders there is nothing that could separate them. -/
  | adjacentSlot (name : String)
  | repeatedSlot (name : String)
  | strayBrace (brace : Char)
  | targetIsNoCall
  /-- A name of the target or a guard is neither a placeholder nor a constructor. -/
  | unknownName (name : String)
deriving DecidableEq, Repr

namespace TemplateProblem

/-- A placeholder between grave accents. -/
def slotText (name : String) : String := Diagnostic.name ("\x7b" ++ name ++ "\x7d")

/-- The message about a problem. -/
def message : TemplateProblem → String
  | emptySlot => "empty placeholder name"
  | adjacentSlot name => "placeholder " ++ slotText name ++ " directly follows another placeholder"
  | repeatedSlot name => "placeholder " ++ slotText name ++ " appears twice"
  | strayBrace brace => "unmatched " ++ Diagnostic.name (String.singleton brace) ++ " in template"
  | targetIsNoCall => "the target must be a constructor call"
  | unknownName name => Diagnostic.name name ++ " is not a placeholder of the template"

/-- How the problem is mended. -/
def help : TemplateProblem → Option String
  | adjacentSlot _ => some "Separate placeholders with at least one literal character."
  | strayBrace _ =>
    some ("Write " ++ Diagnostic.name "\\\x7b" ++ " or " ++ Diagnostic.name "\\\x7d" ++
      " for a literal brace.")
  | _ => none

end TemplateProblem

/-- Why a declaration or a value does not fit. -/
inductive TypeProblem where
  | unknownType (name : String)
  | unknownConstructor (name : String)
  /-- A clause of a type names a constructor that the type does not have. -/
  | foreignConstructor (type name : String)
  /-- A type, or a parameter of one type, is declared twice. -/
  | duplicateName (name : String)
  | duplicateConstructor (name : String)
  | arityMismatch (name : String) (expected found : Nat)
  /-- A record may stand for several constructors of the type, `sample` among them. -/
  | ambiguousConstructor (type sample : String)
  | noRule (input : String) (expected : Ty)
  | mismatch (expected : Ty) (found : String)
  | constructorMismatch (ctor expected : String)
  | unknownField (ctor field : String)
  | duplicateField (ctor field : String)
  | missingField (ctor field : String)
  | tooManyArguments (ctor : String) (expected found : Nat)
  | invalidTemplate (problem : TemplateProblem)

namespace TypeProblem

/-- The message about a problem. -/
def message : TypeProblem → String
  | unknownType name => "unknown type " ++ Diagnostic.name name
  | unknownConstructor name | foreignConstructor _ name =>
    "unknown constructor " ++ Diagnostic.name name
  | duplicateName name | duplicateConstructor name =>
    Diagnostic.name name ++ " is declared more than once"
  | arityMismatch name expected found =>
    "type " ++ Diagnostic.name name ++ " expects " ++ toString expected ++
      " parameter(s) but was given " ++ toString found
  | ambiguousConstructor type _ =>
    "cannot infer which constructor of " ++ Diagnostic.name type ++ " this anonymous value uses"
  | noRule input expected =>
    "no pattern rule turns " ++ quoted input ++ " into a " ++ Diagnostic.name expected.print
  | mismatch expected found =>
    "expected a value of type " ++ Diagnostic.name expected.print ++ ", found " ++ found
  | constructorMismatch ctor expected =>
    "constructor " ++ Diagnostic.name ctor ++ " does not belong to type " ++
      Diagnostic.name expected
  | unknownField ctor field =>
    "constructor " ++ Diagnostic.name ctor ++ " has no field " ++ Diagnostic.name field
  | duplicateField ctor field =>
    "field " ++ Diagnostic.name field ++ " of " ++ Diagnostic.name ctor ++
      " is given more than once"
  | missingField ctor field =>
    "missing field " ++ Diagnostic.name field ++ " for constructor " ++ Diagnostic.name ctor
  | tooManyArguments ctor expected found =>
    "constructor " ++ Diagnostic.name ctor ++ " takes " ++ toString expected ++
      " argument(s) but was given " ++ toString found
  | invalidTemplate problem => "invalid pattern template: " ++ problem.message

/-- How the problem is mended. -/
def help : TypeProblem → Option String
  | foreignConstructor type name =>
    some (Diagnostic.name type ++ " has no constructor named " ++ Diagnostic.name name ++ ".")
  | duplicateConstructor _ =>
    some "Constructor names must be unique across the whole document."
  | ambiguousConstructor _ sample =>
    some ("Name the constructor, e.g. " ++ Diagnostic.name (sample ++ "(...)") ++ ".")
  | invalidTemplate problem => problem.help
  | _ => none

end TypeProblem

/-- A declaration or a value that does not fit, and its place. -/
structure TypeError where
  problem : TypeProblem
  span : Span

/-- The failure as it is shown. -/
def TypeError.diagnostic (e : TypeError) : Diagnostic :=
  .single ("Type error: " ++ e.problem.message) e.span "types::error" e.problem.help "here"

end TypedData
