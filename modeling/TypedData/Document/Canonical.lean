import TypedData.Document.Tree

/-!
# The canonical form of a document

Every shorthand stands for a form without it:

| written | stands for |
| --- | --- |
| a constructor over indented entries | a call with the entries as named arguments |
| a constructor over indented items | a call with one argument, the list of the items |
| indented entries under a key, an item with entries | a record |
| indented items under a key | a list |
| constructors in one line | constructors one a line |
| conditions directly after a constructor | a clause of the type, for that constructor only |

`canonical` writes the form out and keeps every span; `isCanonical` says that there is nothing to write
out.  The clauses that come from constructors stand before the clauses of the type, in the order of the
constructors.  There are as many declarations, rules, bindings and values as before, and bindings keep their names
and types.
-/

namespace TypedData

namespace Data

mutual

/-- The canonical form of data. -/
def canonical : Data → Data
  | str span text => str span text
  | int span n => int span n
  | float span x => float span x
  | bool span b => bool span b
  | null span => null span
  | reference span name path => reference span name path
  | list span items | dashList span items => list span (canonicalItems items)
  | call span ctor args => call span ctor (canonicalArguments args)
  | record span entries | fieldBlock span entries | dashRecord span entries =>
    record span (canonicalEntries entries)
  | ctorBlock span ctor entries => call span ctor (argumentsOfEntries entries)
  | listBlock span ctor items => call span ctor [⟨none, list span (canonicalItems items)⟩]

/-- The canonical form of items. -/
def canonicalItems : List Data → List Data
  | [] => []
  | d :: ds => d.canonical :: canonicalItems ds

/-- The canonical form of arguments. -/
def canonicalArguments : List (Argument Data) → List (Argument Data)
  | [] => []
  | ⟨label, d⟩ :: args => ⟨label, d.canonical⟩ :: canonicalArguments args

/-- The canonical form of entries. -/
def canonicalEntries : List (Entry Data) → List (Entry Data)
  | [] => []
  | ⟨key, span, d⟩ :: entries => ⟨key, span, d.canonical⟩ :: canonicalEntries entries

/-- Entries as named arguments, in canonical form. -/
def argumentsOfEntries : List (Entry Data) → List (Argument Data)
  | [] => []
  | ⟨key, _, d⟩ :: entries => ⟨some key, d.canonical⟩ :: argumentsOfEntries entries

end

mutual

/-- Whether data has no indented notation in it. -/
def isCanonical : Data → Bool
  | str .. | int .. | float .. | bool .. | null .. | reference .. => true
  | list _ items => areCanonicalItems items
  | call _ _ args => areCanonicalArguments args
  | record _ entries => areCanonicalEntries entries
  | ctorBlock .. | listBlock .. | fieldBlock .. | dashList .. | dashRecord .. => false

/-- Whether all items are canonical. -/
def areCanonicalItems : List Data → Bool
  | [] => true
  | d :: ds => d.isCanonical && areCanonicalItems ds

/-- Whether all arguments are canonical. -/
def areCanonicalArguments : List (Argument Data) → Bool
  | [] => true
  | ⟨_, d⟩ :: args => d.isCanonical && areCanonicalArguments args

/-- Whether the values of all entries are canonical. -/
def areCanonicalEntries : List (Entry Data) → Bool
  | [] => true
  | ⟨_, _, d⟩ :: entries => d.isCanonical && areCanonicalEntries entries

end

end Data

namespace CtorDecl

/-- The clause that the conditions directly after a constructor stand for. -/
def liftedClause? (ctor : CtorDecl) : Option WhereClause :=
  ctor.inlineWhere.map fun clause => { clause with scope := .only [ctor.name] }

end CtorDecl

namespace TypeDecl

/-- The canonical form of a declaration. -/
def canonical (decl : TypeDecl) : TypeDecl :=
  { decl with
    layout := .lines
    ctors := decl.ctors.map fun ctor => { ctor with inlineWhere := none }
    clauses := decl.ctors.filterMap CtorDecl.liftedClause? ++ decl.clauses }

/-- Whether the declaration has its constructors one a line and all its clauses on their own. -/
def isCanonical (decl : TypeDecl) : Bool :=
  decl.layout = .lines && decl.ctors.all fun ctor => ctor.inlineWhere.isNone

end TypeDecl

namespace Item

/-- The canonical form of an item. -/
def canonical : Item → Item
  | type decl => .type decl.canonical
  | rule decl => .rule decl
  | binding b => .binding { b with value := b.value.canonical }
  | value d => .value d.canonical

/-- Whether the item has no shorthand in it. -/
def isCanonical : Item → Bool
  | type decl => decl.isCanonical
  | rule _ => true
  | binding b => b.value.isCanonical
  | value d => d.isCanonical

end Item

namespace Document

/-- The canonical form of a document. -/
def canonical (d : Document) : Document := ⟨d.items.map Item.canonical⟩

/-- Whether the document has no shorthand in it. -/
def isCanonical (d : Document) : Bool := d.items.all Item.isCanonical

/-- The canonical form of a binding. -/
def canonicalBinding (b : Binding) : Binding := { b with value := b.value.canonical }

/-- The types of the canonical form are the types in canonical form. -/
theorem types_canonical (d : Document) : d.canonical.types = d.types.map TypeDecl.canonical := by
  rw [types, types, canonical, List.filterMap_map, List.map_filterMap]
  congr 1
  funext item
  cases item <;> rfl

/-- The rules of the canonical form are the rules. -/
theorem rules_canonical (d : Document) : d.canonical.rules = d.rules := by
  rw [rules, rules, canonical, List.filterMap_map]
  congr 1
  funext item
  cases item <;> rfl

/-- The bindings of the canonical form are the bindings in canonical form. -/
theorem bindings_canonical (d : Document) :
    d.canonical.bindings = d.bindings.map canonicalBinding := by
  rw [bindings, bindings, canonical, List.filterMap_map, List.map_filterMap]
  congr 1
  funext item
  cases item <;> rfl

end Document

end TypedData
