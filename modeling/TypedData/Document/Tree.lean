import TypedData.Number.Double
import TypedData.Number.Integer
import TypedData.Template
import TypedData.Text.Position

/-!
# Documents

A document is a sequence of items: declarations of types, rules for texts, bindings of names, and
values without a name.  Every node carries the span of the text that it was read from.

Data has several notations for the same thing.  The constructors of `Data` from `ctorBlock` on are the
indented notations; each of them stands for one of the others.
-/

namespace TypedData

/-! ## Types -/

/-- A type as it is written. -/
inductive TypeExpr where
  /-- A primitive type, a type parameter, or a declared type with its arguments. -/
  | named (span : Span) (name : String) (args : List TypeExpr)
  | optional (span : Span) (inner : TypeExpr)
  | list (span : Span) (inner : TypeExpr)

namespace TypeExpr

/-- The place of the type. -/
def span : TypeExpr → Span
  | named span .. | optional span _ | list span _ => span

/-- Whether the type is a single name. -/
def isAtomic : TypeExpr → Bool
  | named _ _ [] => true
  | _ => false

end TypeExpr

/-! ## Expressions -/

/-- The operators before an operand. -/
inductive UnaryOp where
  | not | neg
deriving DecidableEq, Repr

/-- The operators between two operands. -/
inductive BinaryOp where
  | or | and | eq | ne | lt | le | gt | ge | add | sub | mul | div | rem
deriving DecidableEq, Repr

namespace BinaryOp

/-- How an operator is written. -/
def symbol : BinaryOp → String
  | or => "or"
  | and => "and"
  | eq => "=="
  | ne => "!="
  | lt => "<"
  | le => "<="
  | gt => ">"
  | ge => ">="
  | add => "+"
  | sub => "-"
  | mul => "*"
  | div => "/"
  | rem => "%"

end BinaryOp

/-- An argument of a call, perhaps with the name of the field that it is for. -/
structure Argument (α : Type) where
  name : Option String
  value : α

/-- A condition, a guard or the target of a rule. -/
inductive Expr where
  | int (span : Span) (value : Integer)
  | float (span : Span) (value : Double)
  | str (span : Span) (text : String)
  | bool (span : Span) (value : Bool)
  | null (span : Span)
  | name (span : Span) (name : String)
  | list (span : Span) (items : List Expr)
  | field (span : Span) (base : Expr) (name : String)
  | call (span : Span) (callee : String) (args : List (Argument Expr))
  | unary (span : Span) (op : UnaryOp) (operand : Expr)
  | binary (span : Span) (op : BinaryOp) (lhs rhs : Expr)

namespace Expr

/-- The place of the expression. -/
def span : Expr → Span
  | int span _ | float span _ | str span _ | bool span _ | null span | name span _ | list span _
  | field span _ _ | call span _ _ | unary span _ _ | binary span _ _ _ => span

mutual

/-- Every name that the expression reads, in the order of the text. -/
def freeNames : Expr → List String
  | name _ n => [n]
  | list _ items => freeNamesOfItems items
  | field _ base _ => base.freeNames
  | call _ _ args => freeNamesOfArguments args
  | unary _ _ operand => operand.freeNames
  | binary _ _ lhs rhs => lhs.freeNames ++ rhs.freeNames
  | _ => []

/-- The names that the items of a list read. -/
def freeNamesOfItems : List Expr → List String
  | [] => []
  | e :: es => e.freeNames ++ freeNamesOfItems es

/-- The names that the arguments of a call read. -/
def freeNamesOfArguments : List (Argument Expr) → List String
  | [] => []
  | ⟨_, e⟩ :: args => e.freeNames ++ freeNamesOfArguments args

end

end Expr

/-! ## Data -/

/-- A key with its value, and the place of both. -/
structure Entry (α : Type) where
  key : String
  span : Span
  value : α

/-- A value as it is written. -/
inductive Data where
  | str (span : Span) (text : String)
  | int (span : Span) (value : Integer)
  | float (span : Span) (value : Double)
  | bool (span : Span) (value : Bool)
  | null (span : Span)
  | list (span : Span) (items : List Data)
  /-- A constructor with its arguments, or the bare name of a constructor. -/
  | call (span : Span) (ctor : String) (args : List (Argument Data))
  /-- Entries between braces; the constructor follows from the type that is expected. -/
  | record (span : Span) (entries : List (Entry Data))
  /-- A use of a bound name, perhaps with the fields to go through from there. -/
  | reference (span : Span) (name : String) (path : List String)
  /-- A constructor over indented entries. -/
  | ctorBlock (span : Span) (ctor : String) (entries : List (Entry Data))
  /-- A constructor over indented items. -/
  | listBlock (span : Span) (ctor : String) (items : List Data)
  /-- Indented entries under a key. -/
  | fieldBlock (span : Span) (entries : List (Entry Data))
  /-- Indented items under a key. -/
  | dashList (span : Span) (items : List Data)
  /-- An item that is an entry, with further entries indented under it. -/
  | dashRecord (span : Span) (entries : List (Entry Data))

namespace Data

/-- The place of the value. -/
def span : Data → Span
  | str span _ | int span _ | float span _ | bool span _ | null span | list span _ | call span _ _
  | record span _ | reference span _ _ | ctorBlock span _ _ | listBlock span _ _
  | fieldBlock span _ | dashList span _ | dashRecord span _ => span

end Data

/-! ## Items -/

/-- The constructors of a type that a clause speaks of. -/
inductive Scope where
  | all
  | only (ctors : List String)
  | except (ctors : List String)
deriving DecidableEq, Repr

namespace Scope

/-- Whether the clause speaks of a constructor. -/
def appliesTo (scope : Scope) (ctor : String) : Bool :=
  match scope with
  | all => true
  | only ctors => ctors.contains ctor
  | except ctors => !ctors.contains ctor

/-- The constructors that the clause names. -/
def names : Scope → List String
  | all => []
  | only ctors | except ctors => ctors

end Scope

/-- Conditions that hold for the constructors in a scope. -/
structure WhereClause where
  conditions : List Expr
  scope : Scope
  span : Span

/-- A field of a constructor; without a name it is known by its position. -/
structure FieldDecl where
  name : Option String
  type : TypeExpr
  span : Span

/-- A constructor of a type. -/
structure CtorDecl where
  name : String
  fields : List FieldDecl
  /-- The conditions written directly after the fields. -/
  inlineWhere : Option WhereClause
  span : Span

/-- How the constructors of a type are laid out: in one line with bars between them, or one a line. -/
inductive CtorLayout where
  | piped | lines
deriving DecidableEq, Repr

/-- The declaration of a type. -/
structure TypeDecl where
  name : String
  params : List String
  layout : CtorLayout
  ctors : List CtorDecl
  /-- The clauses that stand on lines of their own. -/
  clauses : List WhereClause
  span : Span

/-- A rule for texts: those that fit the template and the guards stand for the target. -/
structure RuleDecl where
  template : Template
  target : Expr
  guards : List Expr
  span : Span

/-- A name for a value, perhaps with the type that the value has to have. -/
structure Binding where
  name : String
  type : Option TypeExpr
  value : Data
  span : Span

/-- An item of a document. -/
inductive Item where
  | type (decl : TypeDecl)
  | rule (decl : RuleDecl)
  | binding (binding : Binding)
  | value (data : Data)

/-- A document. -/
structure Document where
  items : List Item

namespace Document

/-- The declarations of types, in the order of the document. -/
def types (d : Document) : List TypeDecl :=
  d.items.filterMap fun | .type decl => some decl | _ => none

/-- The rules for texts, in the order of the document. -/
def rules (d : Document) : List RuleDecl :=
  d.items.filterMap fun | .rule decl => some decl | _ => none

/-- The bindings, in the order of the document. -/
def bindings (d : Document) : List Binding :=
  d.items.filterMap fun | .binding binding => some binding | _ => none

/-- The values without a name, in the order of the document. -/
def values (d : Document) : List Data :=
  d.items.filterMap fun | .value data => some data | _ => none

end Document

end TypedData
