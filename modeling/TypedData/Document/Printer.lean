import TypedData.Document.Precedence
import TypedData.Number.Layout

/-!
# How documents are written

The printer writes one line a declaration, rule, binding or value, and one line a constructor or
clause where a type has one a line.  Data is written between brackets whatever notation it was read
from, so a printed document has none of the indented notations.

An operand is put in parentheses when it binds less tightly than its place demands.
-/

namespace TypedData

/-- Texts with a comma and a space between them. -/
def commaSeparated (texts : List String) : String := String.intercalate ", " texts

/-- The text in parentheses, where they are needed. -/
def parenthesised (needed : Bool) (text : String) : String :=
  if needed then "(" ++ text ++ ")" else text

/-- How a truth value is written. -/
def boolText (b : Bool) : String := if b then "true" else "false"

/-- How a key is written: as a name if it is one, otherwise in quotes. -/
def keyText (key : String) : String := if isName key then key else literal key

/-- The name of an argument or a field in front of its text. -/
def labelled (name : Option String) (text : String) : String :=
  match name with
  | some n => n ++ ": " ++ text
  | none => text

/-! ## Types -/

namespace TypeExpr

mutual

/-- How a type is written. -/
def print : TypeExpr → String
  | named _ name args => name ++ printArgs args
  | optional _ inner => "optional " ++ inner.print
  | list _ inner => "list " ++ inner.print

/-- How the arguments of a type are written, each after a space. -/
def printArgs : List TypeExpr → String
  | [] => ""
  | arg :: args => " " ++ parenthesised (!arg.isAtomic) arg.print ++ printArgs args

end

end TypeExpr

/-! ## Expressions -/

namespace Expr

mutual

/-- How an expression is written. -/
def print : Expr → String
  | int _ n => n.text
  | float _ x => x.text .value
  | str _ text => literal text
  | bool _ b => boolText b
  | null _ => "null"
  | name _ n => n
  | list _ items => "[" ++ commaSeparated (printItems items) ++ "]"
  | field _ base n => parenthesised (base.precedence < atomPrecedence) base.print ++ "." ++ n
  | call _ callee args => callee ++ "(" ++ commaSeparated (printArguments args) ++ ")"
  | unary _ .not operand =>
    "not " ++ parenthesised (operand.precedence < notPrecedence) operand.print
  | unary _ .neg operand =>
    "-" ++ parenthesised (operand.isNumber || operand.precedence < negPrecedence) operand.print
  | binary _ op lhs rhs =>
    parenthesised (lhs.precedence < op.precedence) lhs.print ++ " " ++ op.symbol ++ " " ++
      parenthesised (rhs.precedence < op.precedence + 1) rhs.print

/-- How the items of a list are written. -/
def printItems : List Expr → List String
  | [] => []
  | e :: es => e.print :: printItems es

/-- How the arguments of a call are written. -/
def printArguments : List (Argument Expr) → List String
  | [] => []
  | ⟨label, e⟩ :: args => labelled label e.print :: printArguments args

end

/-- How conditions are written. -/
def printAll (es : List Expr) : String := commaSeparated (es.map print)

end Expr

/-! ## Data -/

namespace Data

mutual

/-- How data is written, between brackets. -/
def print : Data → String
  | str _ text => literal text
  | int _ n => n.text
  | float _ x => x.text .value
  | bool _ b => boolText b
  | null _ => "null"
  | list _ items | dashList _ items => "[" ++ commaSeparated (printItems items) ++ "]"
  | call _ ctor args => ctor ++ "(" ++ commaSeparated (printArguments args) ++ ")"
  | record _ entries | fieldBlock _ entries | dashRecord _ entries =>
    "\x7b" ++ commaSeparated (printEntries keyText entries) ++ "\x7d"
  | reference _ name path => "!" ++ String.join (name :: path.map ("." ++ ·))
  | ctorBlock _ ctor entries => ctor ++ "(" ++ commaSeparated (printEntries id entries) ++ ")"
  | listBlock _ ctor items => ctor ++ "([" ++ commaSeparated (printItems items) ++ "])"

/-- How the items of a list are written. -/
def printItems : List Data → List String
  | [] => []
  | d :: ds => d.print :: printItems ds

/-- How the arguments of a constructor are written. -/
def printArguments : List (Argument Data) → List String
  | [] => []
  | ⟨label, d⟩ :: args => labelled label d.print :: printArguments args

/-- How entries are written, their keys by `key`. -/
def printEntries (key : String → String) : List (Entry Data) → List String
  | [] => []
  | ⟨k, _, d⟩ :: entries => (key k ++ ": " ++ d.print) :: printEntries key entries

end

end Data

/-! ## Items -/

namespace Scope

/-- How a scope is written, after the conditions. -/
def print : Scope → String
  | all => ""
  | only ctors => " for \x7b" ++ commaSeparated ctors ++ "\x7d"
  | except ctors => " except \x7b" ++ commaSeparated ctors ++ "\x7d"

end Scope

/-- How a clause is written. -/
def WhereClause.print (clause : WhereClause) : String :=
  "where " ++ Expr.printAll clause.conditions ++ clause.scope.print

/-- How a field is written. -/
def FieldDecl.print (field : FieldDecl) : String := labelled field.name field.type.print

/-- How a constructor is written, with the conditions directly after it. -/
def CtorDecl.print (ctor : CtorDecl) : String :=
  ctor.name ++ " \x7b" ++ commaSeparated (ctor.fields.map FieldDecl.print) ++ "\x7d" ++
    match ctor.inlineWhere with
    | some clause => " where " ++ Expr.printAll clause.conditions
    | none => ""

/-- The indentation of the lines of a type. -/
def lineStart : String := "\n    "

/-- How the declaration of a type is written. -/
def TypeDecl.print (decl : TypeDecl) : String :=
  "type " ++ String.intercalate " " (decl.name :: decl.params) ++ " =" ++
    match decl.layout with
    | .piped =>
      (if decl.ctors.isEmpty then "" else " ") ++
        String.intercalate " | " (decl.ctors.map CtorDecl.print) ++
        String.join (decl.clauses.map ("\n" ++ ·.print))
    | .lines =>
      String.join (decl.ctors.map (lineStart ++ ·.print)) ++
        String.join (decl.clauses.map (lineStart ++ ·.print))

/-- How a rule for texts is written. -/
def RuleDecl.print (rule : RuleDecl) : String :=
  rule.template.print ++ " => " ++ rule.target.print ++
    if rule.guards.isEmpty then "" else " where " ++ Expr.printAll rule.guards

/-- How a binding is written. -/
def Binding.print (binding : Binding) : String :=
  binding.name ++ (match binding.type with | some type => ": " ++ type.print | none => "") ++
    " := " ++ binding.value.print

/-- How an item is written. -/
def Item.print : Item → String
  | .type decl => decl.print
  | .rule decl => decl.print
  | .binding b => b.print
  | .value data => data.print

/-- How a document is written: every item, and a line feed after it. -/
def Document.print (document : Document) : String :=
  String.join (document.items.map (·.print ++ "\n"))

end TypedData
