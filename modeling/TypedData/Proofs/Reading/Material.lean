import TypedData.Document.Parser.Item

/-!
# What trees are made of

A parser makes up nothing: each name, number and text of a tree is that of a token, and each place of it is
one where a token starts or ends.  A `Material` says which kinds and places tokens may have, and a tree is
`Made` of a material if it has only such ones.

`Made` also keeps count of the levels of nesting that were left where a part of the tree was read.  Three
things take no level of their own: a bare name as an argument of a type, an item after a dash that is a
record, and the operators and fields in front of an operand that was read before them.  The predicates
have an argument for each of these.
-/

namespace TypedData

/-- The kinds that tokens may have, and the places where they may start and end.  The end of a text and its
beginning are always among them. -/
structure Material where
  kind : TokenKind → Prop
  place : Nat → Prop
  eof : kind .eof
  origin : place 0

namespace Material

variable (M : Material)

/-- The span starts and ends at places of the material. -/
structure Covers (span : Span) : Prop where
  start : M.place span.start
  stop : M.place span.stop

/-- The token is of the material. -/
structure Holds (token : Token) : Prop where
  kind : M.kind token.kind
  span : M.Covers token.span

/-- If there is a name, it is that of a token. -/
def Labels (label : Option String) : Prop := ∀ text, label = some text → M.kind (.name text)

/-- The text is that of a literal. -/
def Quotes (text : String) : Prop := ∃ template, M.kind (.string template) ∧ template.text = text

/-- The key is the name or the text of a token. -/
def Keys (key : String) : Prop := M.kind (.name key) ∨ M.Quotes key

/-- The key and the place of an entry are of the material. -/
structure Enters {α : Type} (entry : Entry α) : Prop where
  key : M.Keys entry.key
  span : M.Covers entry.span

variable {M}

/-- The empty span at the beginning covers any material. -/
theorem Covers.zero : M.Covers .zero := ⟨M.origin, M.origin⟩

/-- From one covered span to another one the material is covered. -/
theorem Covers.through {s t : Span} (hs : M.Covers s) (ht : M.Covers t) : M.Covers (s.through t) :=
  ⟨hs.start, ht.stop⟩

/-- The material of tokens of some kinds, at any places. -/
def ofKinds (T : TokenKind → Prop) (eof : T .eof) : Material := ⟨T, fun _ => True, eof, trivial⟩

/-- No label is a label of any material. -/
theorem labels_none : M.Labels none := by rintro _ ⟨⟩

/-- A name of the material may be a label. -/
theorem labels_some {text : String} (h : M.kind (.name text)) : M.Labels (some text) := by
  rintro _ ⟨⟩
  exact h

end Material

/-! ## Types -/

/-- The type is made of the material within some levels; `argument` says whether it may be a bare name
without a level. -/
inductive TypeExpr.Made (M : Material) : (argument : Bool) → (levels : Nat) → TypeExpr → Prop
  | bare {levels : Nat} {span : Span} {name : String} :
      M.Covers span → M.kind (.name name) → Made M true levels (.named span name [])
  | argument {levels : Nat} {t : TypeExpr} : Made M false levels t → Made M true levels t
  | grouped {levels : Nat} {t : TypeExpr} : Made M false levels t → Made M false (levels + 1) t
  | named {levels : Nat} {span : Span} {name : String} {args : List TypeExpr} :
      M.Covers span → M.kind (.name name) → (∀ t ∈ args, Made M true levels t) →
      Made M false (levels + 1) (.named span name args)
  | optional {levels : Nat} {span : Span} {inner : TypeExpr} :
      M.Covers span → Made M false levels inner → Made M false (levels + 1) (.optional span inner)
  | list {levels : Nat} {span : Span} {inner : TypeExpr} :
      M.Covers span → Made M false levels inner → Made M false (levels + 1) (.list span inner)

/-! ## Expressions -/

/-- The expression is made of the material within some levels, of which `left` are not used for the
operators and fields after its first operand. -/
inductive Expr.Made (M : Material) : (levels left : Nat) → Expr → Prop
  | int {levels : Nat} {span : Span} {n : Integer} :
      M.Covers span → M.kind (.int n) → Made M (levels + 1) levels (.int span n)
  | float {levels : Nat} {span : Span} {x : Double} :
      M.Covers span → M.kind (.float x) → Made M (levels + 1) levels (.float span x)
  | str {levels : Nat} {span : Span} {text : String} :
      M.Covers span → M.Quotes text → Made M (levels + 1) levels (.str span text)
  | bool {levels : Nat} {span : Span} {b : Bool} :
      M.Covers span → Made M (levels + 1) levels (.bool span b)
  | null {levels : Nat} {span : Span} :
      M.Covers span → Made M (levels + 1) levels (.null span)
  | name {levels : Nat} {span : Span} {text : String} :
      M.Covers span → M.kind (.name text) → Made M (levels + 1) levels (.name span text)
  | list {levels : Nat} {span : Span} {items : List Expr} :
      M.Covers span → (∀ e ∈ items, Made M levels 0 e) → Made M (levels + 1) levels (.list span items)
  | call {levels : Nat} {span : Span} {callee : String} {args : List (Argument Expr)} :
      M.Covers span → M.kind (.name callee) → (∀ arg ∈ args, M.Labels arg.name) →
      (∀ arg ∈ args, Made M levels 0 arg.value) → Made M (levels + 1) levels (.call span callee args)
  | unary {levels : Nat} {span : Span} {op : UnaryOp} {operand : Expr} :
      M.Covers span → Made M levels 0 operand → Made M (levels + 1) levels (.unary span op operand)
  | grouped {levels : Nat} {e : Expr} : Made M levels 0 e → Made M (levels + 1) levels e
  | field {levels left : Nat} {span : Span} {base : Expr} {name : String} :
      M.Covers span → M.kind (.name name) → Made M levels (left + 1) base →
      Made M levels left (.field span base name)
  | binary {levels left : Nat} {span : Span} {op : BinaryOp} {lhs rhs : Expr} :
      M.Covers span → Made M levels (left + 1) lhs → Made M left 0 rhs →
      Made M levels left (.binary span op lhs rhs)
  | less {levels left : Nat} {e : Expr} : Made M levels (left + 1) e → Made M levels left e

namespace Expr.Made

variable {M : Material} {levels left : Nat} {e : Expr}

/-- Data that is made of a material stands where it covers it. -/
theorem covers (h : e.Made M levels left) : M.Covers e.span := by
  induction h with
  | grouped _ ih | less _ ih => exact ih
  | _ => assumption

/-- After its last operator, an expression has no use for the levels that are left. -/
theorem complete (h : e.Made M levels left) : e.Made M levels 0 := by
  induction left with
  | zero => exact h
  | succ left ih => exact ih h.less

end Expr.Made

/-! ## Data -/

/-- The data is made of the material within some levels; `item` says whether it may be a record after a
dash, whose own level is not counted. -/
inductive Data.Made (M : Material) : (item : Bool) → (levels : Nat) → Data → Prop
  | str {levels : Nat} {span : Span} {text : String} :
      M.Covers span → M.Quotes text → Made M false (levels + 1) (.str span text)
  | int {levels : Nat} {span : Span} {n : Integer} :
      M.Covers span → M.kind (.int n) → Made M false (levels + 1) (.int span n)
  | float {levels : Nat} {span : Span} {x : Double} :
      M.Covers span → M.kind (.float x) → Made M false (levels + 1) (.float span x)
  | bool {levels : Nat} {span : Span} {b : Bool} :
      M.Covers span → Made M false (levels + 1) (.bool span b)
  | null {levels : Nat} {span : Span} :
      M.Covers span → Made M false (levels + 1) (.null span)
  | list {levels : Nat} {span : Span} {items : List Data} :
      M.Covers span → (∀ d ∈ items, Made M false levels d) → Made M false (levels + 1) (.list span items)
  | call {levels : Nat} {span : Span} {ctor : String} {args : List (Argument Data)} :
      M.Covers span → M.kind (.name ctor) → (∀ arg ∈ args, M.Labels arg.name) →
      (∀ arg ∈ args, Made M false levels arg.value) → Made M false (levels + 1) (.call span ctor args)
  | record {levels : Nat} {span : Span} {entries : List (Entry Data)} :
      M.Covers span → (∀ e ∈ entries, M.Enters e) → (∀ e ∈ entries, Made M false levels e.value) →
      Made M false (levels + 1) (.record span entries)
  | reference {levels : Nat} {span : Span} {name : String} {path : List String} :
      M.Covers span → M.kind (.name name) → (∀ field ∈ path, M.kind (.name field)) →
      Made M false (levels + 1) (.reference span name path)
  | ctorBlock {levels : Nat} {span : Span} {ctor : String} {entries : List (Entry Data)} :
      M.Covers span → M.kind (.name ctor) → (∀ e ∈ entries, M.Enters e) →
      (∀ e ∈ entries, Made M false levels e.value) → Made M false (levels + 1) (.ctorBlock span ctor entries)
  | listBlock {levels : Nat} {span : Span} {ctor : String} {items : List Data} :
      M.Covers span → M.kind (.name ctor) → (∀ d ∈ items, Made M true levels d) →
      Made M false (levels + 1) (.listBlock span ctor items)
  | fieldBlock {levels : Nat} {span : Span} {entries : List (Entry Data)} :
      M.Covers span → (∀ e ∈ entries, M.Enters e) → (∀ e ∈ entries, Made M false levels e.value) →
      Made M false (levels + 1) (.fieldBlock span entries)
  | dashList {levels : Nat} {span : Span} {items : List Data} :
      M.Covers span → (∀ d ∈ items, Made M true levels d) → Made M false (levels + 1) (.dashList span items)
  | dashRecord {levels : Nat} {span : Span} {entries : List (Entry Data)} :
      M.Covers span → entries ≠ [] → (∀ e ∈ entries, M.Enters e) →
      (∀ e ∈ entries, Made M false levels e.value) → Made M true levels (.dashRecord span entries)
  | item {levels : Nat} {d : Data} : Made M false levels d → Made M true levels d

/-! ## Items -/

/-- The clause has conditions, and they and its scope are of the material. -/
structure WhereClause.Made (M : Material) (clause : WhereClause) : Prop where
  ne_nil : clause.conditions ≠ []
  conditions : ∀ e ∈ clause.conditions, e.Made M maxNesting 0
  scope : ∀ name ∈ clause.scope.names, M.kind (.name name)
  span : M.Covers clause.span

/-- The field is of the material. -/
structure FieldDecl.Made (M : Material) (field : FieldDecl) : Prop where
  name : M.Labels field.name
  type : field.type.Made M false maxNesting
  span : M.Covers field.span

/-- The constructor is of the material. -/
structure CtorDecl.Made (M : Material) (ctor : CtorDecl) : Prop where
  name : M.kind (.name ctor.name)
  fields : ∀ field ∈ ctor.fields, field.Made M
  inlineWhere : ∀ clause, ctor.inlineWhere = some clause → clause.Made M
  span : M.Covers ctor.span

/-- The declaration has constructors, and they and its clauses are of the material. -/
structure TypeDecl.Made (M : Material) (decl : TypeDecl) : Prop where
  name : M.kind (.name decl.name)
  params : ∀ name ∈ decl.params, M.kind (.name name)
  ne_nil : decl.ctors ≠ []
  ctors : ∀ ctor ∈ decl.ctors, ctor.Made M
  clauses : ∀ clause ∈ decl.clauses, clause.Made M
  span : M.Covers decl.span

/-- The rule is of the material, and its target is a call. -/
structure RuleDecl.Made (M : Material) (rule : RuleDecl) : Prop where
  template : M.kind (.string rule.template)
  target : rule.target.Made M maxNesting 0
  isCall : ∃ span callee args, rule.target = .call span callee args
  guards : ∀ e ∈ rule.guards, e.Made M maxNesting 0
  span : M.Covers rule.span

/-- The binding is of the material. -/
structure Binding.Made (M : Material) (b : Binding) : Prop where
  name : M.kind (.name b.name)
  type : ∀ t, b.type = some t → t.Made M false maxNesting
  value : b.value.Made M false maxNesting
  span : M.Covers b.span

/-- The item is of the material. -/
def Item.Made (M : Material) : Item → Prop
  | type decl => decl.Made M
  | rule decl => decl.Made M
  | binding b => b.Made M
  | value d => d.Made M false maxNesting

/-- The items of the document are of the material. -/
def Document.Made (M : Material) (d : Document) : Prop := ∀ item ∈ d.items, item.Made M

/-! ## The trees in an item -/

namespace Item

/-- The types in an item. -/
def typeExprs : Item → List TypeExpr
  | type decl => decl.ctors.flatMap fun ctor => ctor.fields.map FieldDecl.type
  | binding b => b.type.toList
  | rule _ | value _ => []

/-- The conditions, guards and targets in an item. -/
def exprs : Item → List Expr
  | type decl =>
    (decl.ctors.filterMap CtorDecl.inlineWhere ++ decl.clauses).flatMap WhereClause.conditions
  | rule decl => decl.target :: decl.guards
  | binding _ | value _ => []

/-- The data in an item. -/
def data : Item → List Data
  | binding b => [b.value]
  | value d => [d]
  | type _ | rule _ => []

variable {M : Material} {item : Item}

/-- The types in an item that is made of a material are made of it. -/
theorem Made.typeExprs (h : item.Made M) {t : TypeExpr} (ht : t ∈ item.typeExprs) : t.Made M false maxNesting := by
  cases item with
  | type decl =>
    obtain ⟨ctor, hctor, ht⟩ := List.mem_flatMap.1 ht
    obtain ⟨field, hfield, rfl⟩ := List.mem_map.1 ht
    exact ((TypeDecl.Made.ctors h ctor hctor).fields field hfield).type
  | binding b => exact Binding.Made.type h t (Option.mem_toList.1 ht)
  | rule _ | value _ => cases ht

/-- The expressions in an item that is made of a material are made of it. -/
theorem Made.exprs (h : item.Made M) {e : Expr} (he : e ∈ item.exprs) : e.Made M maxNesting 0 := by
  cases item with
  | type decl =>
    obtain ⟨clause, hclause, he⟩ := List.mem_flatMap.1 he
    rcases List.mem_append.1 hclause with hclause | hclause
    · obtain ⟨ctor, hctor, hinline⟩ := List.mem_filterMap.1 hclause
      exact ((TypeDecl.Made.ctors h ctor hctor).inlineWhere clause hinline).conditions e he
    · exact (TypeDecl.Made.clauses h clause hclause).conditions e he
  | rule decl =>
    rcases List.mem_cons.1 he with rfl | he
    · exact RuleDecl.Made.target h
    · exact RuleDecl.Made.guards h e he
  | binding _ | value _ => cases he

/-- The data in an item that is made of a material is made of it. -/
theorem Made.data (h : item.Made M) {d : Data} (hd : d ∈ item.data) : d.Made M false maxNesting := by
  cases item with
  | binding b =>
    obtain rfl := List.mem_singleton.1 hd
    exact Binding.Made.value h
  | value d =>
    obtain rfl := List.mem_singleton.1 hd
    exact h
  | type _ | rule _ => cases hd

end Item

end TypedData
