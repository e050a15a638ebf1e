import TypedData.Document.Canonical
import TypedData.Proofs.Canonical.Printing
import TypedData.Proofs.Lists

/-!
# The canonical form is final

Writing out the shorthands of a document leaves none, and where there are none nothing is written out: the canonical
documents are those that are their own canonical form (`Document.canonical_is_final`).

What a document says is told by its **leaves**, the values without parts, the keys, the names of constructors and the
conditions, in the order of the document.  They are the same in canonical form (`Item.leaves_canonical`), although
entries become arguments there, and conditions move away from the constructors behind which they stand.  In the leaves
of a declaration all conditions come after all constructors, since that is where they are moved to
(`TypeDecl.WritesOut`).
-/

namespace TypedData

/-- What is left of a document when its notation is taken away. -/
inductive Leaf where
  /-- A value without parts, at its place. -/
  | value (leaf : Data)
  /-- The key of an entry, or the name of an argument. -/
  | key (key : String)
  | ctor (name : String)
  | condition (condition : Expr)

/-! ## Data -/

namespace Data

mutual

/-- The leaves of data, in the order of the text. -/
def leaves : Data → List Leaf
  | str span text => [.value (.str span text)]
  | int span n => [.value (.int span n)]
  | float span x => [.value (.float span x)]
  | bool span b => [.value (.bool span b)]
  | null span => [.value (.null span)]
  | reference span name path => [.value (.reference span name path)]
  | list _ items | dashList _ items => leavesOfItems items
  | call _ ctor args => .ctor ctor :: leavesOfArguments args
  | record _ entries | fieldBlock _ entries | dashRecord _ entries => leavesOfEntries entries
  | ctorBlock _ ctor entries => .ctor ctor :: leavesOfEntries entries
  | listBlock _ ctor items => .ctor ctor :: leavesOfItems items

/-- The leaves of items. -/
def leavesOfItems : List Data → List Leaf
  | [] => []
  | d :: ds => d.leaves ++ leavesOfItems ds

/-- The leaves of arguments. -/
def leavesOfArguments : List (Argument Data) → List Leaf
  | [] => []
  | ⟨label, d⟩ :: args => label.toList.map .key ++ d.leaves ++ leavesOfArguments args

/-- The leaves of entries. -/
def leavesOfEntries : List (Entry Data) → List Leaf
  | [] => []
  | ⟨key, _, d⟩ :: entries => .key key :: d.leaves ++ leavesOfEntries entries

end

mutual

/-- No indented notation is left. -/
theorem isCanonical_canonical : (d : Data) → d.canonical.isCanonical = true
  | str .. | int .. | float .. | bool .. | null .. | reference .. => rfl
  | list _ items | dashList _ items => areCanonicalItems_canonical items
  | call _ _ args => areCanonicalArguments_canonical args
  | record _ entries | fieldBlock _ entries | dashRecord _ entries => areCanonicalEntries_canonical entries
  | ctorBlock _ _ entries => areCanonicalArguments_ofEntries entries
  | listBlock _ _ items => by
    rw [canonical, isCanonical, areCanonicalArguments, isCanonical, areCanonicalItems_canonical items]
    rfl

/-- Canonical items are in canonical form. -/
theorem areCanonicalItems_canonical : (ds : List Data) → areCanonicalItems (canonicalItems ds) = true
  | [] => rfl
  | d :: ds => by
    rw [canonicalItems, areCanonicalItems, isCanonical_canonical d, areCanonicalItems_canonical ds, Bool.and_self]

/-- Canonical arguments are in canonical form. -/
theorem areCanonicalArguments_canonical : (args : List (Argument Data)) →
    areCanonicalArguments (canonicalArguments args) = true
  | [] => rfl
  | ⟨_, d⟩ :: args => by
    rw [canonicalArguments, areCanonicalArguments, isCanonical_canonical d, areCanonicalArguments_canonical args,
      Bool.and_self]

/-- Canonical entries are in canonical form. -/
theorem areCanonicalEntries_canonical : (entries : List (Entry Data)) →
    areCanonicalEntries (canonicalEntries entries) = true
  | [] => rfl
  | ⟨_, _, d⟩ :: entries => by
    rw [canonicalEntries, areCanonicalEntries, isCanonical_canonical d, areCanonicalEntries_canonical entries,
      Bool.and_self]

/-- Entries that are written as arguments are in canonical form. -/
theorem areCanonicalArguments_ofEntries : (entries : List (Entry Data)) →
    areCanonicalArguments (argumentsOfEntries entries) = true
  | [] => rfl
  | ⟨_, _, d⟩ :: entries => by
    rw [argumentsOfEntries, areCanonicalArguments, isCanonical_canonical d, areCanonicalArguments_ofEntries entries,
      Bool.and_self]

end

mutual

/-- Data without indented notation stays as it is, with all its places. -/
theorem canonical_of_isCanonical : (d : Data) → d.isCanonical = true → d.canonical = d
  | str .., _ | int .., _ | float .., _ | bool .., _ | null .., _ | reference .., _ => rfl
  | list span items, h => congrArg (list span) (canonicalItems_of_areCanonical items h)
  | call span ctor args, h => congrArg (call span ctor) (canonicalArguments_of_areCanonical args h)
  | record span entries, h => congrArg (record span) (canonicalEntries_of_areCanonical entries h)

/-- Items in canonical form are their own canonical form. -/
theorem canonicalItems_of_areCanonical : (ds : List Data) → areCanonicalItems ds = true → canonicalItems ds = ds
  | [], _ => rfl
  | d :: ds, h => by
    obtain ⟨hd, hds⟩ := Bool.and_eq_true_iff.1 h
    rw [canonicalItems, canonical_of_isCanonical d hd, canonicalItems_of_areCanonical ds hds]

/-- Arguments in canonical form are their own canonical form. -/
theorem canonicalArguments_of_areCanonical : (args : List (Argument Data)) → areCanonicalArguments args = true →
    canonicalArguments args = args
  | [], _ => rfl
  | ⟨_, d⟩ :: args, h => by
    obtain ⟨hd, hargs⟩ := Bool.and_eq_true_iff.1 h
    rw [canonicalArguments, canonical_of_isCanonical d hd, canonicalArguments_of_areCanonical args hargs]

/-- Entries in canonical form are their own canonical form. -/
theorem canonicalEntries_of_areCanonical : (entries : List (Entry Data)) → areCanonicalEntries entries = true →
    canonicalEntries entries = entries
  | [], _ => rfl
  | ⟨_, _, d⟩ :: entries, h => by
    obtain ⟨hd, hentries⟩ := Bool.and_eq_true_iff.1 h
    rw [canonicalEntries, canonical_of_isCanonical d hd, canonicalEntries_of_areCanonical entries hentries]

end

mutual

/-- **No leaf of data is lost, doubled or moved.** -/
theorem leaves_canonical : (d : Data) → d.canonical.leaves = d.leaves
  | str .. | int .. | float .. | bool .. | null .. | reference .. => rfl
  | list _ items | dashList _ items => leavesOfItems_canonical items
  | call _ ctor args => congrArg (Leaf.ctor ctor :: ·) (leavesOfArguments_canonical args)
  | record _ entries | fieldBlock _ entries | dashRecord _ entries => leavesOfEntries_canonical entries
  | ctorBlock _ ctor entries => congrArg (Leaf.ctor ctor :: ·) (leavesOfArguments_ofEntries entries)
  | listBlock _ ctor items => by
    rw [canonical, leaves, leaves, leavesOfArguments, leavesOfArguments, leaves, leavesOfItems_canonical items,
      List.append_nil]
    rfl

/-- Canonical items have the leaves of the items, in order. -/
theorem leavesOfItems_canonical : (ds : List Data) → leavesOfItems (canonicalItems ds) = leavesOfItems ds
  | [] => rfl
  | d :: ds => by
    rw [canonicalItems, leavesOfItems, leavesOfItems, leaves_canonical d, leavesOfItems_canonical ds]

/-- Canonical arguments have the leaves of the arguments, in order. -/
theorem leavesOfArguments_canonical : (args : List (Argument Data)) →
    leavesOfArguments (canonicalArguments args) = leavesOfArguments args
  | [] => rfl
  | ⟨_, d⟩ :: args => by
    rw [canonicalArguments, leavesOfArguments, leavesOfArguments, leaves_canonical d, leavesOfArguments_canonical args]

/-- Canonical entries have the leaves of the entries, in order. -/
theorem leavesOfEntries_canonical : (entries : List (Entry Data)) →
    leavesOfEntries (canonicalEntries entries) = leavesOfEntries entries
  | [] => rfl
  | ⟨_, _, d⟩ :: entries => by
    rw [canonicalEntries, leavesOfEntries, leavesOfEntries, leaves_canonical d, leavesOfEntries_canonical entries]

/-- Entries that are written as arguments have the leaves of the entries, in order. -/
theorem leavesOfArguments_ofEntries : (entries : List (Entry Data)) →
    leavesOfArguments (argumentsOfEntries entries) = leavesOfEntries entries
  | [] => rfl
  | ⟨_, _, d⟩ :: entries => by
    rw [argumentsOfEntries, leavesOfArguments, leavesOfEntries, leaves_canonical d, leavesOfArguments_ofEntries entries]
    rfl

end

end Data

/-! ## Declarations -/

namespace TypeDecl

/-- The clauses that stand directly behind constructors, each with its constructor. -/
def inlineClauses (decl : TypeDecl) : List (CtorDecl × WhereClause) :=
  decl.ctors.filterMap fun ctor => ctor.inlineWhere.map fun clause => (ctor, clause)

/-- The conditions of a declaration: those behind constructors, and then those of the type. -/
def allConditions (decl : TypeDecl) : List Expr :=
  decl.inlineClauses.flatMap (fun found => found.2.conditions) ++ decl.clauses.flatMap WhereClause.conditions

/-- The leaves of a declaration. -/
def leaves (decl : TypeDecl) : List Leaf :=
  decl.ctors.map (fun ctor => .ctor ctor.name) ++ decl.allConditions.map .condition

/-- The clause speaks of one constructor only, and says of it what the clause behind it says, at the same place. -/
structure SpeaksFor (found : CtorDecl × WhereClause) (clause : WhereClause) : Prop where
  conditions : clause.conditions = found.2.conditions
  span : clause.span = found.2.span
  scope : ∀ ctor, clause.scope.appliesTo ctor = true ↔ ctor = found.1.name

/-- The second declaration writes out the first: its constructors stand one a line, without conditions behind them,
and for each clause behind a constructor there is a clause for that constructor before the clauses of the type, in the
order of the constructors.  Everything else is as it was. -/
structure WritesOut (decl written : TypeDecl) : Prop where
  name : written.name = decl.name
  params : written.params = decl.params
  span : written.span = decl.span
  layout : written.layout = .lines
  ctors : written.ctors = decl.ctors.map fun ctor => { ctor with inlineWhere := none }
  clauses : ∃ lifted, written.clauses = lifted ++ decl.clauses ∧ List.Forall₂ SpeaksFor decl.inlineClauses lifted

/-- The clause with the constructor as its scope says what the clause directly after the constructor does. -/
theorem speaksFor_scoped (ctor : CtorDecl) (clause : WhereClause) :
    SpeaksFor (ctor, clause) { clause with scope := .only [ctor.name] } where
  conditions := rfl
  span := rfl
  scope name := by rw [Scope.appliesTo, List.contains_iff_mem, List.mem_singleton]

/-- The clauses that are lifted are those directly after constructors, each with its constructor as its scope. -/
theorem filterMap_liftedClause? (decl : TypeDecl) : decl.ctors.filterMap CtorDecl.liftedClause? =
    decl.inlineClauses.map fun found => { found.2 with scope := .only [found.1.name] } := by
  rw [inlineClauses, List.map_filterMap]
  congr 1
  funext ctor
  rw [CtorDecl.liftedClause?, Option.map_map]
  rfl

/-- The canonical form of a declaration writes out its clauses. -/
theorem writesOut_canonical (decl : TypeDecl) : decl.WritesOut decl.canonical where
  name := rfl
  params := rfl
  span := rfl
  layout := rfl
  ctors := rfl
  clauses := by
    refine ⟨_, rfl, ?_⟩
    rw [filterMap_liftedClause?]
    exact List.forall₂_map_right_iff.2 (List.forall₂_same.2 fun found _ => speaksFor_scoped found.1 found.2)

/-- A declaration that is written out has no clause behind a constructor. -/
theorem WritesOut.inlineClauses_eq {decl written : TypeDecl} (h : decl.WritesOut written) :
    written.inlineClauses = [] := by
  rw [inlineClauses, h.ctors, List.filterMap_map]
  exact List.filterMap_eq_nil_iff.2 fun _ _ => rfl

/-- A declaration that writes out the clauses of another one has the same leaves. -/
theorem WritesOut.leaves_eq {decl written : TypeDecl} (h : decl.WritesOut written) : written.leaves = decl.leaves := by
  obtain ⟨lifted, hclauses, hlifted⟩ := h.clauses
  have hctors : written.ctors.map (fun ctor => Leaf.ctor ctor.name) = decl.ctors.map fun ctor => .ctor ctor.name := by
    rw [h.ctors, List.map_map]
    rfl
  have hconditions : lifted.flatMap WhereClause.conditions =
      decl.inlineClauses.flatMap fun found => found.2.conditions := by
    rw [List.flatMap_def, List.flatMap_def, map_eq_of_forall₂ (hlifted.imp fun _ _ hspeaks => hspeaks.conditions)]
  rw [leaves, leaves, allConditions, allConditions, hctors, h.inlineClauses_eq, hclauses,
    List.flatMap_append, hconditions]
  rfl

end TypeDecl

/-! ## Items -/

namespace Item

/-- The leaves of an item.  Of a rule only the guards are conditions. -/
def leaves : Item → List Leaf
  | type decl => decl.leaves
  | rule decl => decl.guards.map .condition
  | binding b => b.value.leaves
  | value d => d.leaves

/-- The canonical form of an item is in canonical form. -/
theorem isCanonical_canonical (item : Item) : item.canonical.isCanonical = true := by
  cases item with
  | type decl => exact decl.isCanonical_canonical
  | rule => rfl
  | binding b => exact b.value.isCanonical_canonical
  | value d => exact d.isCanonical_canonical

/-- An item in canonical form is its own canonical form. -/
theorem canonical_of_isCanonical {item : Item} (h : item.isCanonical = true) : item.canonical = item := by
  cases item with
  | type decl => exact congrArg type (TypeDecl.canonical_of_isCanonical h)
  | rule => rfl
  | binding b => exact congrArg (fun d => binding { b with value := d }) (b.value.canonical_of_isCanonical h)
  | value d => exact congrArg value (d.canonical_of_isCanonical h)

/-- The canonical form of an item has the leaves of the item. -/
theorem leaves_canonical (item : Item) : item.canonical.leaves = item.leaves := by
  cases item with
  | type decl => exact decl.writesOut_canonical.leaves_eq
  | rule => rfl
  | binding b => exact b.value.leaves_canonical
  | value d => exact d.leaves_canonical

end Item

/-! ## Documents -/

namespace Document

/-- The canonical form of a document is in canonical form. -/
theorem isCanonical_canonical (d : Document) : d.canonical.isCanonical = true := by
  refine List.all_eq_true.2 fun item hitem => ?_
  obtain ⟨source, -, rfl⟩ := List.mem_map.1 hitem
  exact source.isCanonical_canonical

/-- A document in canonical form is its own canonical form. -/
theorem canonical_of_isCanonical {d : Document} (h : d.isCanonical = true) : d.canonical = d := by
  have hitems := List.map_congr_left fun item hitem => Item.canonical_of_isCanonical (List.all_eq_true.1 h item hitem)
  exact congrArg Document.mk (hitems.trans (List.map_id _))

/-- **The canonical form is final.**  A document in canonical form has no shorthand in it, and exactly the documents
without shorthand stay as they are, with all their places; so bringing a document into canonical form once more changes
nothing.  Item by item it keeps the leaves of the document in their order, and each declaration is written out: the
clauses behind its constructors come before its own, in the order of the constructors, each for its constructor only. -/
theorem canonical_is_final (d : Document) :
    d.canonical.isCanonical = true ∧ (d.isCanonical = true ↔ d.canonical = d) ∧ d.canonical.canonical = d.canonical ∧
      d.canonical.items.map Item.leaves = d.items.map Item.leaves ∧
      List.Forall₂ TypeDecl.WritesOut d.types d.canonical.types := by
  refine ⟨d.isCanonical_canonical, ⟨canonical_of_isCanonical, fun h => h ▸ d.isCanonical_canonical⟩,
    canonical_of_isCanonical d.isCanonical_canonical, ?_, ?_⟩
  · rw [canonical, List.map_map]
    exact List.map_congr_left fun item _ => item.leaves_canonical
  · rw [types_canonical]
    exact List.forall₂_map_right_iff.2 (List.forall₂_same.2 fun decl _ => decl.writesOut_canonical)

end Document

end TypedData
