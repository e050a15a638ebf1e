import TypedData.Document.Tree
import TypedData.Proofs.Parsing.Cursor

/-!
# The spans of a tree

What spans say of a document is a tree again: each node has a span, and its children stand in rows
(`Document.spanTrees`).  Such a tree is well laid out if the children lie inside their parent and those of a row stand
one behind another (`SpanTree.Nested`).

The rows that a parser makes lie between the cursor where it starts and the cursor where it stops (`Cursor.Between`).
Rows are put one behind another as the parsers are (`Between.append`), and a node over rows reaches from the token
where they start to the token where they stop (`Between.node`).
-/

namespace TypedData

/-- The span of a node and those of its children, in rows of siblings. -/
inductive SpanTree where
  | node (span : Span) (rows : List (List SpanTree))

namespace SpanTree

/-- The span of the node. -/
def span : SpanTree → Span
  | node span _ => span

/-- Every span has `P` and does not end before it starts; children lie inside their parent, and siblings of a row stand
one behind another. -/
inductive Nested (P : Span → Prop) : SpanTree → Prop
  | node {span : Span} {rows : List (List SpanTree)} : P span → span.start ≤ span.stop →
      (∀ row ∈ rows, ∀ t ∈ row, Nested P t) →
      (∀ row ∈ rows, ∀ t ∈ row, span.start ≤ t.span.start ∧ t.span.stop ≤ span.stop) →
      (∀ row ∈ rows, row.Pairwise fun s t => s.span.stop ≤ t.span.start) → Nested P (.node span rows)

/-- The root of a nested tree has a place, and does not end before it starts. -/
theorem Nested.place {P : Span → Prop} {t : SpanTree} (h : t.Nested P) : P t.span ∧ t.span.start ≤ t.span.stop := by
  cases h with
  | node hplace hle _ _ _ => exact ⟨hplace, hle⟩

/-- Nested trees are so by every weaker property of places. -/
theorem Nested.mono {P Q : Span → Prop} (hPQ : ∀ span, P span → Q span) {t : SpanTree} (h : t.Nested P) :
    t.Nested Q := by
  induction h with
  | node hplace hle _ hinside hordered ih => exact .node (hPQ _ hplace) hle ih hinside hordered

end SpanTree

/-! ## The spans of documents -/

mutual

/-- The spans of a type. -/
def TypeExpr.spanTree : TypeExpr → SpanTree
  | .named span _ args => .node span [spanTreesOfArgs args]
  | .optional span inner | .list span inner => .node span [[inner.spanTree]]

/-- The spans of the arguments of a type. -/
def TypeExpr.spanTreesOfArgs : List TypeExpr → List SpanTree
  | [] => []
  | t :: ts => t.spanTree :: spanTreesOfArgs ts

end

mutual

/-- The spans of an expression. -/
def Expr.spanTree : Expr → SpanTree
  | .list span items => .node span [spanTreesOfItems items]
  | .field span base _ => .node span [[base.spanTree]]
  | .call span _ args => .node span [spanTreesOfArguments args]
  | .unary span _ operand => .node span [[operand.spanTree]]
  | .binary span _ lhs rhs => .node span [[lhs.spanTree, rhs.spanTree]]
  | .int span _ | .float span _ | .str span _ | .bool span _ | .null span | .name span _ => .node span []

/-- The spans of the items of a list. -/
def Expr.spanTreesOfItems : List Expr → List SpanTree
  | [] => []
  | e :: es => e.spanTree :: spanTreesOfItems es

/-- The spans of the arguments of a call. -/
def Expr.spanTreesOfArguments : List (Argument Expr) → List SpanTree
  | [] => []
  | ⟨_, e⟩ :: args => e.spanTree :: spanTreesOfArguments args

end

mutual

/-- The spans of data. -/
def Data.spanTree : Data → SpanTree
  | .list span items | .listBlock span _ items | .dashList span items => .node span [spanTreesOfItems items]
  | .call span _ args => .node span [spanTreesOfArguments args]
  | .record span entries | .ctorBlock span _ entries | .fieldBlock span entries | .dashRecord span entries =>
    .node span [spanTreesOfEntries entries]
  | .str span _ | .int span _ | .float span _ | .bool span _ | .null span | .reference span _ _ => .node span []

/-- The spans of the items of a list. -/
def Data.spanTreesOfItems : List Data → List SpanTree
  | [] => []
  | d :: ds => d.spanTree :: spanTreesOfItems ds

/-- The spans of the arguments of a constructor. -/
def Data.spanTreesOfArguments : List (Argument Data) → List SpanTree
  | [] => []
  | ⟨_, d⟩ :: args => d.spanTree :: spanTreesOfArguments args

/-- The spans of entries, each with its value. -/
def Data.spanTreesOfEntries : List (Entry Data) → List SpanTree
  | [] => []
  | ⟨_, span, d⟩ :: entries => .node span [[d.spanTree]] :: spanTreesOfEntries entries

end

/-- The spans of an entry. -/
def Entry.spanTree (entry : Entry Data) : SpanTree := .node entry.span [[entry.value.spanTree]]

/-- The spans of a clause. -/
def WhereClause.spanTree (clause : WhereClause) : SpanTree := .node clause.span [clause.conditions.map Expr.spanTree]

/-- The spans of a field. -/
def FieldDecl.spanTree (field : FieldDecl) : SpanTree := .node field.span [[field.type.spanTree]]

/-- The spans of a constructor, and behind it those of the conditions that stand directly after it. -/
def CtorDecl.spanTrees (ctor : CtorDecl) : List SpanTree :=
  .node ctor.span [ctor.fields.map FieldDecl.spanTree] :: ctor.inlineWhere.toList.map WhereClause.spanTree

/-- The spans of the declaration of a type: in one row the constructors, in another the clauses. -/
def TypeDecl.spanTree (decl : TypeDecl) : SpanTree :=
  .node decl.span [decl.ctors.flatMap CtorDecl.spanTrees, decl.clauses.map WhereClause.spanTree]

/-- The spans of a rule: the target and the guards behind it. -/
def RuleDecl.spanTree (rule : RuleDecl) : SpanTree :=
  .node rule.span [rule.target.spanTree :: rule.guards.map Expr.spanTree]

/-- The spans of a binding: the type, if there is one, and the value behind it. -/
def Binding.spanTree (binding : Binding) : SpanTree :=
  .node binding.span [binding.type.toList.map TypeExpr.spanTree ++ [binding.value.spanTree]]

/-- The spans of an item. -/
def Item.spanTree : Item → SpanTree
  | .type decl => decl.spanTree
  | .rule decl => decl.spanTree
  | .binding decl => decl.spanTree
  | .value data => data.spanTree

/-- The spans of the items of a document. -/
def Document.spanTrees (d : Document) : List SpanTree := d.items.map Item.spanTree

/-- The span trees of arguments are those of each, in order. -/
theorem TypeExpr.spanTreesOfArgs_eq (args : List TypeExpr) :
    spanTreesOfArgs args = args.flatMap fun t => [t.spanTree] := by
  induction args with
  | nil => rfl
  | cons t args ih => exact congrArg (t.spanTree :: ·) ih

/-- The span trees of items are those of each, in order. -/
theorem Expr.spanTreesOfItems_eq (items : List Expr) :
    spanTreesOfItems items = items.flatMap fun e => [e.spanTree] := by
  induction items with
  | nil => rfl
  | cons e items ih => exact congrArg (e.spanTree :: ·) ih

/-- The span trees of arguments are those of their values, in order. -/
theorem Expr.spanTreesOfArguments_eq (args : List (Argument Expr)) :
    spanTreesOfArguments args = args.flatMap fun arg => [arg.value.spanTree] := by
  induction args with
  | nil => rfl
  | cons arg args ih => exact congrArg (arg.value.spanTree :: ·) ih

/-- The span trees of items are those of each, in order. -/
theorem Data.spanTreesOfItems_eq (items : List Data) :
    spanTreesOfItems items = items.flatMap fun d => [d.spanTree] := by
  induction items with
  | nil => rfl
  | cons d items ih => exact congrArg (d.spanTree :: ·) ih

/-- The span trees of arguments are those of their values, in order. -/
theorem Data.spanTreesOfArguments_eq (args : List (Argument Data)) :
    spanTreesOfArguments args = args.flatMap fun arg => [arg.value.spanTree] := by
  induction args with
  | nil => rfl
  | cons arg args ih => exact congrArg (arg.value.spanTree :: ·) ih

/-- The span trees of entries are those of each, in order. -/
theorem Data.spanTreesOfEntries_eq (entries : List (Entry Data)) :
    spanTreesOfEntries entries = entries.flatMap fun entry => [entry.spanTree] := by
  induction entries with
  | nil => rfl
  | cons entry entries ih => exact congrArg (entry.spanTree :: ·) ih

/-- The span tree of an expression has the span of the expression at its root. -/
@[simp] theorem Expr.span_spanTree (e : Expr) : e.spanTree.span = e.span := by cases e <;> rfl

/-! ## Rows -/

variable {M : Material} {lo lo' mid mid' hi hi' : Nat} {row row' : List SpanTree}

/-- The trees of the row are nested, lie between two places and stand one behind another. -/
structure SpanTree.Row (M : Material) (lo hi : Nat) (row : List SpanTree) : Prop where
  nested : ∀ t ∈ row, t.Nested M.Covers
  inside : ∀ t ∈ row, lo ≤ t.span.start ∧ t.span.stop ≤ hi
  ordered : row.Pairwise fun s t => s.span.stop ≤ t.span.start

namespace SpanTree.Row

/-- No trees stand in a row. -/
theorem nil : Row M lo hi [] := ⟨List.forall_mem_nil _, List.forall_mem_nil _, .nil⟩

/-- A row between two places is one between places further apart. -/
theorem mono (h : Row M lo hi row) (hlo : lo' ≤ lo) (hhi : hi ≤ hi') : Row M lo' hi' row where
  nested := h.nested
  inside t ht := ⟨Nat.le_trans hlo (h.inside t ht).1, Nat.le_trans (h.inside t ht).2 hhi⟩
  ordered := h.ordered

/-- Two rows one behind the other are a row. -/
theorem append (h : Row M lo mid row) (h' : Row M mid' hi row') (hmid : mid ≤ mid') (hlo : lo ≤ mid') (hhi : mid ≤ hi) :
    Row M lo hi (row ++ row') where
  nested := List.forall_mem_append.2 ⟨h.nested, h'.nested⟩
  inside := List.forall_mem_append.2 ⟨(h.mono (Nat.le_refl lo) hhi).inside, (h'.mono hlo (Nat.le_refl hi)).inside⟩
  ordered := List.pairwise_append.2 ⟨h.ordered, h'.ordered, fun s hs t ht =>
    Nat.le_trans (h.inside s hs).2 (Nat.le_trans hmid (h'.inside t ht).1)⟩

/-- Some of the trees of a row are a row. -/
theorem sublist (h : Row M lo hi row) (hsub : row'.Sublist row) : Row M lo hi row' where
  nested t ht := h.nested t (hsub.subset ht)
  inside t ht := h.inside t (hsub.subset ht)
  ordered := h.ordered.sublist hsub

/-- A node over rows, which lies between the two places as they do. -/
theorem node {span : Span} {rows : List (List SpanTree)} (hspan : M.Covers span) (hle : span.start ≤ span.stop)
    (hlo : lo ≤ span.start) (hhi : span.stop ≤ hi) (hrows : ∀ row ∈ rows, Row M span.start span.stop row) :
    Row M lo hi [.node span rows] where
  nested := List.forall_mem_singleton.2 <| .node hspan hle (fun row hrow => (hrows row hrow).nested)
    (fun row hrow => (hrows row hrow).inside) fun row hrow => (hrows row hrow).ordered
  inside := List.forall_mem_singleton.2 ⟨hlo, hhi⟩
  ordered := List.pairwise_singleton _ _

/-- A node that reaches from one tree to another one behind it. -/
theorem through {s t : SpanTree} (h : Row M lo hi [s, t]) : Row M lo hi [.node (s.span.through t.span) [[s, t]]] := by
  obtain ⟨hs, ht⟩ := List.forall_mem_cons.1 h.nested
  obtain ⟨hlo, hhi⟩ := List.forall_mem_cons.1 h.inside
  have hs := hs.place
  have ht := (List.forall_mem_singleton.1 ht).place
  have hbehind : s.span.stop ≤ t.span.start := List.rel_of_pairwise_cons h.ordered (.head _)
  have hrow : Row M s.span.start t.span.stop [s, t] := by
    refine ⟨h.nested, List.forall_mem_cons.2 ⟨⟨Nat.le_refl _, ?_⟩, List.forall_mem_singleton.2 ⟨?_, Nat.le_refl _⟩⟩,
      h.ordered⟩
    · exact Nat.le_trans hbehind ht.2
    · exact Nat.le_trans hs.2 hbehind
  refine node (hs.1.through ht.1) ?_ hlo.1 (List.forall_mem_singleton.1 hhi).2 (List.forall_mem_singleton.2 hrow)
  exact Nat.le_trans hs.2 (Nat.le_trans hbehind ht.2)

/-- A node that starts with a tree and stops behind it. -/
theorem spanning {t : SpanTree} {stop : Nat} (h : Row M lo hi [t]) (hplace : M.place stop) (hstop : t.span.stop ≤ stop)
    (hhi : stop ≤ hi) : Row M lo hi [.node ⟨t.span.start, stop⟩ [[t]]] := by
  have ht := List.forall_mem_singleton.1 h.nested
  have hlo := (List.forall_mem_singleton.1 h.inside).1
  refine node ⟨ht.place.1.start, hplace⟩ (Nat.le_trans ht.place.2 hstop) hlo hhi ?_
  exact List.forall_mem_singleton.2 ⟨h.nested, List.forall_mem_singleton.2 ⟨Nat.le_refl _, hstop⟩, h.ordered⟩

/-- The node may reach further. -/
theorem extend {start stop stop' : Nat} {rows : List (List SpanTree)} (h : Row M lo hi [.node ⟨start, stop⟩ rows])
    (hplace : M.place stop') (hstop : stop ≤ stop') (hhi : stop' ≤ hi') : Row M lo hi' [.node ⟨start, stop'⟩ rows] := by
  have hlo := (List.forall_mem_singleton.1 h.inside).1
  cases List.forall_mem_singleton.1 h.nested with
  | node hspan hle hnested hinside hordered =>
    refine node ⟨hspan.start, hplace⟩ (Nat.le_trans hle hstop) hlo hhi fun row hrow => ?_
    exact ⟨hnested row hrow, fun t ht => ⟨(hinside row hrow t ht).1, Nat.le_trans (hinside row hrow t ht).2 hstop⟩,
      hordered row hrow⟩

end SpanTree.Row

/-! ## Between cursors -/

/-- The cursor goes onward, and what it passes holds the row. -/
structure Cursor.Between (M : Material) (c c' : Cursor) (row : List SpanTree) : Prop where
  step : Step M c c'
  row : SpanTree.Row M c.start c'.lastEnd row

namespace Cursor.Between

variable {c c' c'' : Cursor}

/-- A step without trees is between its cursors. -/
theorem nil (h : Step M c c') : Between M c c' [] := ⟨h, .nil⟩

/-- Two steps with their trees are a step with both. -/
theorem append (h : Between M c c' row) (h' : Between M c' c'' row') : Between M c c'' (row ++ row') where
  step := h.step.trans h'.step
  row := by
    have hfirst := h.step.order
    have hsecond := h'.step.order
    exact h.row.append h'.row hsecond.1 hfirst.2.2.1 hsecond.2.2.2

/-- Some of the trees of a step are between its cursors. -/
theorem sublist (h : Between M c c' row) (hsub : row'.Sublist row) : Between M c c' row' := ⟨h.step, h.row.sublist hsub⟩

/-- Something may be passed before the row. -/
theorem behind (h : Step M c c') (h' : Between M c' c'' row) : Between M c c'' row := (nil h).append h'

/-- Something may be passed behind the row. -/
theorem before (h : Between M c c' row) (h' : Step M c' c'') : Between M c c'' row := by
  have happend := h.append (.nil h')
  rwa [List.append_nil] at happend

/-- A node over rows, which reaches from where they start to where they stop. -/
theorem node {rows : List (List SpanTree)} (h : Step M c c') (hpast : c.Past c')
    (hrows : ∀ row ∈ rows, Between M c c' row) : Between M c c' [.node ⟨c.start, c'.lastEnd⟩ rows] where
  step := h
  row := .node ⟨h.sound.place_start, h.sound_behind.place_lastEnd⟩ (h.start_le_lastEnd hpast) (Nat.le_refl _)
    (Nat.le_refl _) fun row hrow => (hrows row hrow).row

/-- A node over one row, of which a part has passed a token. -/
theorem wrap {c₁ : Cursor} (hpast : c.Past c₁) (h : Step M c₁ c') (hrow : Between M c c' row) :
    c.Past c' ∧ Between M c c' [.node ⟨c.start, c'.lastEnd⟩ [row]] := by
  have hpast := hpast.trans_onward h.onward
  exact ⟨hpast, node hrow.step hpast (List.forall_mem_singleton.2 hrow)⟩

/-- The token here is passed, and a node without children is made of it. -/
theorem token {rows : List (List SpanTree)} (h : Step M c c') (hpast : c.Past c') (hrows : ∀ row ∈ rows, row = []) :
    Between M c c' [.node c.current.span rows] where
  step := h
  row := by
    have hmem : c.current ∈ c.around := List.mem_append_right _ (.head _)
    refine .node (h.sound.covers _ hmem) (h.sound.forward _ hmem) (Nat.le_refl _) (h.stop_le_lastEnd hpast) ?_
    intro row hrow
    rw [hrows row hrow]
    exact .nil

end Cursor.Between

end TypedData
