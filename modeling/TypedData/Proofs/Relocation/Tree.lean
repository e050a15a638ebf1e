import TypedData.Document.Precedence
import TypedData.Failure
import TypedData.Rule

/-!
# Moving trees to other places

`relocate f` puts a function of its span in the place of every span of a tree, and changes nothing else.
Two trees that are equal once all their spans are made equal (`relocate f` with a constant `f`) are the
same **up to places**; the same text written at two places of a document gives two such trees.

What is read off a tree without looking at its spans is the same for the moved one.
-/

namespace TypedData

variable (f : Span → Span)

/-! ## Types -/

namespace TypeExpr

mutual

/-- The type at other places. -/
def relocate : TypeExpr → TypeExpr
  | named span name args => named (f span) name (relocateArgs args)
  | optional span inner => optional (f span) inner.relocate
  | list span inner => list (f span) inner.relocate

/-- Type arguments at other places. -/
def relocateArgs : List TypeExpr → List TypeExpr
  | [] => []
  | t :: ts => t.relocate :: relocateArgs ts

end

/-- Arguments of a type stay as many as they were. -/
theorem length_relocateArgs : (ts : List TypeExpr) → (relocateArgs f ts).length = ts.length
  | [] => rfl
  | _ :: ts => congrArg Nat.succ (length_relocateArgs ts)

end TypeExpr

/-! ## Expressions -/

namespace Expr

mutual

/-- The expression at other places. -/
def relocate : Expr → Expr
  | int span n => int (f span) n
  | float span x => float (f span) x
  | str span text => str (f span) text
  | bool span b => bool (f span) b
  | null span => null (f span)
  | name span n => name (f span) n
  | list span items => list (f span) (relocateItems items)
  | field span base n => field (f span) base.relocate n
  | call span callee args => call (f span) callee (relocateArguments args)
  | unary span op operand => unary (f span) op operand.relocate
  | binary span op lhs rhs => binary (f span) op lhs.relocate rhs.relocate

/-- The items of a list at other places. -/
def relocateItems : List Expr → List Expr
  | [] => []
  | e :: es => e.relocate :: relocateItems es

/-- The arguments of a call at other places. -/
def relocateArguments : List (Argument Expr) → List (Argument Expr)
  | [] => []
  | ⟨label, e⟩ :: args => ⟨label, e.relocate⟩ :: relocateArguments args

end

mutual

/-- An expression at its own places is itself. -/
theorem relocate_id : (e : Expr) → e.relocate id = e
  | int .. | float .. | str .. | bool .. | null .. | name .. => rfl
  | list _ items => by rw [relocate, relocateItems_id items]; rfl
  | field _ base _ => by rw [relocate, relocate_id base]; rfl
  | call _ _ args => by rw [relocate, relocateArguments_id args]; rfl
  | unary _ _ operand => by rw [relocate, relocate_id operand]; rfl
  | binary _ _ lhs rhs => by rw [relocate, relocate_id lhs, relocate_id rhs]; rfl

/-- Items at their own places are themselves. -/
theorem relocateItems_id : (es : List Expr) → relocateItems id es = es
  | [] => rfl
  | e :: es => by rw [relocateItems, relocate_id e, relocateItems_id es]

/-- Arguments at their own places are themselves. -/
theorem relocateArguments_id : (args : List (Argument Expr)) → relocateArguments id args = args
  | [] => rfl
  | ⟨_, e⟩ :: args => by rw [relocateArguments, relocate_id e, relocateArguments_id args]

end

/-- An expression at another place stands there. -/
theorem span_relocate (e : Expr) : (e.relocate f).span = f e.span := by cases e <;> rfl

/-- An expression at another place binds as tightly. -/
theorem precedence_relocate (e : Expr) : (e.relocate f).precedence = e.precedence := by
  cases e with
  | unary span op operand => cases op <;> rfl
  | _ => rfl

/-- An expression at another place is a number if it was one. -/
theorem isNumber_relocate (e : Expr) : (e.relocate f).isNumber = e.isNumber := by cases e <;> rfl

/-- Arguments at other places have names where they had them. -/
theorem any_named_relocateArguments : (args : List (Argument Expr)) →
    (relocateArguments f args).any (·.name.isSome) = args.any (·.name.isSome)
  | [] => rfl
  | ⟨label, _⟩ :: args => congrArg (label.isSome || ·) (any_named_relocateArguments args)

mutual

/-- A moved expression is written in the same way. -/
theorem print_relocate : (e : Expr) → (e.relocate f).print = e.print
  | int .. | float .. | str .. | bool .. | null .. | name .. => rfl
  | list _ items => by rw [relocate, print, print, printItems_relocate items]
  | field _ base n => by rw [relocate, print, print, print_relocate base, precedence_relocate]
  | call _ callee args => by rw [relocate, print, print, printArguments_relocate args]
  | unary _ op operand => by
    cases op <;>
      simp only [relocate, print, print_relocate operand, precedence_relocate, isNumber_relocate]
  | binary _ op lhs rhs => by
    simp only [relocate, print, print_relocate lhs, print_relocate rhs, precedence_relocate]

/-- Items at other places are printed alike. -/
theorem printItems_relocate : (es : List Expr) → printItems (relocateItems f es) = printItems es
  | [] => rfl
  | e :: es => by rw [relocateItems, printItems, printItems, print_relocate e, printItems_relocate es]

/-- Arguments at other places are printed alike. -/
theorem printArguments_relocate : (args : List (Argument Expr)) →
    printArguments (relocateArguments f args) = printArguments args
  | [] => rfl
  | ⟨label, e⟩ :: args => by
    rw [relocateArguments, printArguments, printArguments, print_relocate e,
      printArguments_relocate args]

end

mutual

/-- A moved expression reads the same names. -/
theorem freeNames_relocate : (e : Expr) → (e.relocate f).freeNames = e.freeNames
  | int .. | float .. | str .. | bool .. | null .. | name .. => rfl
  | list _ items => by rw [relocate, freeNames, freeNames, freeNamesOfItems_relocate items]
  | field _ base n => by rw [relocate, freeNames, freeNames, freeNames_relocate base]
  | call _ callee args => by
    rw [relocate, freeNames, freeNames, freeNamesOfArguments_relocate args]
  | unary _ op operand => by rw [relocate, freeNames, freeNames, freeNames_relocate operand]
  | binary _ op lhs rhs => by
    rw [relocate, freeNames, freeNames, freeNames_relocate lhs, freeNames_relocate rhs]

/-- Items at other places have the same free names. -/
theorem freeNamesOfItems_relocate : (es : List Expr) →
    freeNamesOfItems (relocateItems f es) = freeNamesOfItems es
  | [] => rfl
  | e :: es => by
    rw [relocateItems, freeNamesOfItems, freeNamesOfItems, freeNames_relocate e,
      freeNamesOfItems_relocate es]

/-- Arguments at other places have the same free names. -/
theorem freeNamesOfArguments_relocate : (args : List (Argument Expr)) →
    freeNamesOfArguments (relocateArguments f args) = freeNamesOfArguments args
  | [] => rfl
  | ⟨_, e⟩ :: args => by
    rw [relocateArguments, freeNamesOfArguments, freeNamesOfArguments, freeNames_relocate e,
      freeNamesOfArguments_relocate args]

end

end Expr

/-! ## Data -/

namespace Data

mutual

/-- Data at other places. -/
def relocate : Data → Data
  | str span text => str (f span) text
  | int span n => int (f span) n
  | float span x => float (f span) x
  | bool span b => bool (f span) b
  | null span => null (f span)
  | list span items => list (f span) (relocateItems items)
  | call span ctor args => call (f span) ctor (relocateArguments args)
  | record span entries => record (f span) (relocateEntries entries)
  | reference span name path => reference (f span) name path
  | ctorBlock span ctor entries => ctorBlock (f span) ctor (relocateEntries entries)
  | listBlock span ctor items => listBlock (f span) ctor (relocateItems items)
  | fieldBlock span entries => fieldBlock (f span) (relocateEntries entries)
  | dashList span items => dashList (f span) (relocateItems items)
  | dashRecord span entries => dashRecord (f span) (relocateEntries entries)

/-- Items at other places. -/
def relocateItems : List Data → List Data
  | [] => []
  | d :: ds => d.relocate :: relocateItems ds

/-- Arguments at other places. -/
def relocateArguments : List (Argument Data) → List (Argument Data)
  | [] => []
  | ⟨label, d⟩ :: args => ⟨label, d.relocate⟩ :: relocateArguments args

/-- Entries at other places. -/
def relocateEntries : List (Entry Data) → List (Entry Data)
  | [] => []
  | ⟨key, span, d⟩ :: entries => ⟨key, f span, d.relocate⟩ :: relocateEntries entries

end

mutual

/-- Data at its own places is itself. -/
theorem relocate_id : (d : Data) → d.relocate id = d
  | str .. | int .. | float .. | bool .. | null .. | reference .. => rfl
  | list _ items | dashList _ items => by rw [relocate, relocateItems_id items]; rfl
  | listBlock _ _ items => by rw [relocate, relocateItems_id items]; rfl
  | call _ _ args => by rw [relocate, relocateArguments_id args]; rfl
  | record _ entries | fieldBlock _ entries | dashRecord _ entries => by
    rw [relocate, relocateEntries_id entries]; rfl
  | ctorBlock _ _ entries => by rw [relocate, relocateEntries_id entries]; rfl

/-- Items of data at their own places are themselves. -/
theorem relocateItems_id : (ds : List Data) → relocateItems id ds = ds
  | [] => rfl
  | d :: ds => by rw [relocateItems, relocate_id d, relocateItems_id ds]

/-- Arguments of data at their own places are themselves. -/
theorem relocateArguments_id : (args : List (Argument Data)) → relocateArguments id args = args
  | [] => rfl
  | ⟨_, d⟩ :: args => by rw [relocateArguments, relocate_id d, relocateArguments_id args]

/-- Entries at their own places are themselves. -/
theorem relocateEntries_id : (entries : List (Entry Data)) → relocateEntries id entries = entries
  | [] => rfl
  | ⟨_, _, d⟩ :: entries => by rw [relocateEntries, relocate_id d, relocateEntries_id entries]; rfl

end

/-- Data at another place stands there. -/
theorem span_relocate (d : Data) : (d.relocate f).span = f d.span := by cases d <;> rfl

end Data

/-! ## Items -/

/-- The clause at other places. -/
def WhereClause.relocate (clause : WhereClause) : WhereClause :=
  ⟨clause.conditions.map (Expr.relocate f), clause.scope, f clause.span⟩

/-- The field at other places. -/
def FieldDecl.relocate (field : FieldDecl) : FieldDecl :=
  ⟨field.name, field.type.relocate f, f field.span⟩

/-- The constructor at other places. -/
def CtorDecl.relocate (ctor : CtorDecl) : CtorDecl :=
  ⟨ctor.name, ctor.fields.map (FieldDecl.relocate f), ctor.inlineWhere.map (WhereClause.relocate f),
    f ctor.span⟩

/-- The declaration at other places. -/
def TypeDecl.relocate (decl : TypeDecl) : TypeDecl :=
  ⟨decl.name, decl.params, decl.layout, decl.ctors.map (CtorDecl.relocate f),
    decl.clauses.map (WhereClause.relocate f), f decl.span⟩

/-- The rule at other places. -/
def RuleDecl.relocate (rule : RuleDecl) : RuleDecl :=
  ⟨rule.template, rule.target.relocate f, rule.guards.map (Expr.relocate f), f rule.span⟩

/-- The binding at other places. -/
def Binding.relocate (b : Binding) : Binding :=
  ⟨b.name, b.type.map (TypeExpr.relocate f), b.value.relocate f, f b.span⟩

/-- The item at other places. -/
def Item.relocate : Item → Item
  | .type decl => .type (decl.relocate f)
  | .rule decl => .rule (decl.relocate f)
  | .binding b => .binding (b.relocate f)
  | .value data => .value (data.relocate f)

namespace Document

/-- The document at other places. -/
def relocate (d : Document) : Document := ⟨d.items.map (Item.relocate f)⟩

/-- A document at other places has its declarations there. -/
theorem types_relocate (d : Document) :
    (d.relocate f).types = d.types.map (TypeDecl.relocate f) := by
  rw [types, types, relocate, List.filterMap_map, List.map_filterMap]
  congr 1
  funext item
  cases item <;> rfl

/-- A document at other places has its rules there. -/
theorem rules_relocate (d : Document) :
    (d.relocate f).rules = d.rules.map (RuleDecl.relocate f) := by
  rw [rules, rules, relocate, List.filterMap_map, List.map_filterMap]
  congr 1
  funext item
  cases item <;> rfl

/-- A document at other places has its bindings there. -/
theorem bindings_relocate (d : Document) :
    (d.relocate f).bindings = d.bindings.map (Binding.relocate f) := by
  rw [bindings, bindings, relocate, List.filterMap_map, List.map_filterMap]
  congr 1
  funext item
  cases item <;> rfl

/-- A document at other places has its anonymous values there. -/
theorem values_relocate (d : Document) :
    (d.relocate f).values = d.values.map (Data.relocate f) := by
  rw [values, values, relocate, List.filterMap_map, List.map_filterMap]
  congr 1
  funext item
  cases item <;> rfl

end Document

/-! ## Declarations -/

/-- The field of a declared constructor at another place. -/
def FieldSpec.relocate (field : FieldSpec) : FieldSpec := { field with span := f field.span }

/-- The declared constructor at other places. -/
def Constructor.relocate (ctor : Constructor) : Constructor :=
  ⟨ctor.name, ctor.typeName, ctor.fields.map (FieldSpec.relocate f), f ctor.span⟩

/-- The declared type at another place. -/
def TypeDef.relocate (type : TypeDef) : TypeDef := { type with span := f type.span }

/-- The condition at other places. -/
def Constraint.relocate (constraint : Constraint) : Constraint :=
  { constraint with condition := constraint.condition.relocate f }

/-- The declarations at other places. -/
def Registry.relocate (r : Registry) : Registry :=
  ⟨r.types.map (TypeDef.relocate f), r.constructors.map (Constructor.relocate f),
    r.constraints.map (Constraint.relocate f)⟩

/-- The rule at other places. -/
def Rule.relocate (rule : Rule) : Rule :=
  { rule with
    target := rule.target.relocate f
    guards := rule.guards.map (Expr.relocate f)
    span := f rule.span }

/-- A constructor at its own place is itself. -/
theorem Constructor.relocate_id (ctor : Constructor) : ctor.relocate id = ctor := by
  rw [relocate, show FieldSpec.relocate id = id from rfl, List.map_id]
  rfl

/-- A condition at its own place is itself. -/
theorem Constraint.relocate_id (constraint : Constraint) : constraint.relocate id = constraint := by
  rw [relocate, Expr.relocate_id]

/-- A registry at its own places is itself. -/
theorem Registry.relocate_id (r : Registry) : r.relocate id = r := by
  rw [relocate, show TypeDef.relocate id = id from rfl, List.map_id,
    show Constructor.relocate id = id from funext Constructor.relocate_id, List.map_id,
    show Constraint.relocate id = id from funext Constraint.relocate_id, List.map_id]

/-- A rule at its own place is itself. -/
theorem Rule.relocate_id (rule : Rule) : rule.relocate id = rule := by
  rw [relocate, Expr.relocate_id, show Expr.relocate id = id from funext Expr.relocate_id, List.map_id]
  rfl

/-- Rules at their own places are themselves. -/
theorem Rule.map_relocate_id (rules : List Rule) : rules.map (relocate id) = rules := by
  rw [show Rule.relocate id = id from funext relocate_id, List.map_id]

/-! ## Failures -/

/-- The failure at another place. -/
def TokenError.relocate : TokenError → TokenError
  | unterminatedString span => unterminatedString (f span)
  | invalidNumber lexeme span => invalidNumber lexeme (f span)
  | unexpectedCharacter found span => unexpectedCharacter found (f span)
  | mixedIndentation span => mixedIndentation (f span)
  | inconsistentDedent column span => inconsistentDedent column (f span)

/-- The failure at another place. -/
def ParseError.relocate : ParseError → ParseError
  | unexpectedToken expected found span => unexpectedToken expected found (f span)
  | unexpectedEnd expected span => unexpectedEnd expected (f span)
  | tooDeep span => tooDeep (f span)

/-- The failure at another place. -/
def TypeError.relocate (e : TypeError) : TypeError := ⟨e.problem, f e.span⟩

/-- The violation at other places. -/
def ConstraintViolation.relocate (v : ConstraintViolation) : ConstraintViolation :=
  { v with span := f v.span, conditionSpan := f v.conditionSpan }

/-- The failure at another place. -/
def ReferenceError.relocate : ReferenceError → ReferenceError
  | undefined name span => undefined name (f span)
  | selfDependency name span => selfDependency name (f span)
  | unknownField name field span => unknownField name field (f span)
  | tooDeep name span => tooDeep name (f span)
  | duplicateBinding name span => duplicateBinding name (f span)

/-- The fault at another place. -/
def EvalFault.relocate (fault : EvalFault) : EvalFault := ⟨fault.problem, f fault.span⟩

/-- The failure at other places. -/
def Failure.relocate : Failure → Failure
  | token e => token (e.relocate f)
  | parse e => parse (e.relocate f)
  | type e => type (e.relocate f)
  | constraint v => constraint (v.relocate f)
  | reference e => reference (e.relocate f)
  | evaluation fault => evaluation (fault.relocate f)
  | endless text span => endless text (f span)

end TypedData
