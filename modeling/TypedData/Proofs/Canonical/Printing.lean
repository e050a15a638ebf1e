import TypedData.Document.Canonical
import TypedData.Document.Printer
import TypedData.Proofs.Relocation.Tree

/-!
# What is printed

What is printed for a tree does not tell its places (`print_relocate`), nor the notation that data was written in
(`Data.print_canonical`).  So a document that is the canonical form of another, up to places, has the same canonical
form printed (`Document.print_canonical_of_relocate`).
-/

namespace TypedData

variable (f : Span → Span)

/-! ## Places -/

namespace TypeExpr

/-- Whether a type needs parentheses does not depend on where it stands. -/
theorem isAtomic_relocate (t : TypeExpr) : (t.relocate f).isAtomic = t.isAtomic := by
  cases t with
  | named span name args => cases args <;> rfl
  | optional | list => rfl

mutual

/-- A moved type is written in the same way. -/
theorem print_relocate : (t : TypeExpr) → (t.relocate f).print = t.print
  | named _ name args => by rw [relocate, print, print, printArgs_relocate args]
  | optional _ inner | list _ inner => by rw [relocate, print, print, print_relocate inner]

/-- Arguments of types are printed in the same way wherever they stand. -/
theorem printArgs_relocate : (args : List TypeExpr) → printArgs (relocateArgs f args) = printArgs args
  | [] => rfl
  | arg :: args => by
    rw [relocateArgs, printArgs, printArgs, print_relocate arg, printArgs_relocate args, isAtomic_relocate]

end

end TypeExpr

namespace Data

mutual

/-- Moved data is written in the same way. -/
theorem print_relocate : (d : Data) → (d.relocate f).print = d.print
  | str .. | int .. | float .. | bool .. | null .. | reference .. => rfl
  | list _ items | dashList _ items => by rw [relocate, print, print, printItems_relocate items]
  | call _ ctor args => by rw [relocate, print, print, printArguments_relocate args]
  | record _ entries | fieldBlock _ entries | dashRecord _ entries => by
    rw [relocate, print, print, printEntries_relocate keyText entries]
  | ctorBlock _ ctor entries => by rw [relocate, print, print, printEntries_relocate id entries]
  | listBlock _ ctor items => by rw [relocate, print, print, printItems_relocate items]

/-- Items are printed in the same way wherever they stand. -/
theorem printItems_relocate : (ds : List Data) → printItems (relocateItems f ds) = printItems ds
  | [] => rfl
  | d :: ds => by rw [relocateItems, printItems, printItems, print_relocate d, printItems_relocate ds]

/-- Arguments are printed in the same way wherever they stand. -/
theorem printArguments_relocate : (args : List (Argument Data)) →
    printArguments (relocateArguments f args) = printArguments args
  | [] => rfl
  | ⟨_, d⟩ :: args => by
    rw [relocateArguments, printArguments, printArguments, print_relocate d, printArguments_relocate args]

/-- Entries are printed in the same way wherever they stand. -/
theorem printEntries_relocate (key : String → String) : (entries : List (Entry Data)) →
    printEntries key (relocateEntries f entries) = printEntries key entries
  | [] => rfl
  | ⟨_, _, d⟩ :: entries => by
    rw [relocateEntries, printEntries, printEntries, print_relocate d, printEntries_relocate key entries]

end

end Data

/-- Conditions are printed in the same way wherever they stand. -/
theorem Expr.printAll_relocate (es : List Expr) : printAll (es.map (Expr.relocate f)) = printAll es := by
  simp only [printAll, List.map_map, Function.comp_def, Expr.print_relocate]

/-- A clause is printed in the same way wherever it stands. -/
theorem WhereClause.print_relocate (clause : WhereClause) : (clause.relocate f).print = clause.print := by
  simp only [print, relocate, Expr.printAll_relocate]

/-- A field is printed in the same way wherever it stands. -/
theorem FieldDecl.print_relocate (field : FieldDecl) : (field.relocate f).print = field.print := by
  simp only [print, relocate, TypeExpr.print_relocate]

/-- A constructor is printed in the same way wherever it stands. -/
theorem CtorDecl.print_relocate (ctor : CtorDecl) : (ctor.relocate f).print = ctor.print := by
  simp only [print, relocate, List.map_map, Function.comp_def, FieldDecl.print_relocate]
  cases ctor.inlineWhere with
  | none => rfl
  | some clause => simp only [Option.map_some, WhereClause.relocate, Expr.printAll_relocate]

/-- A declaration is printed in the same way wherever it stands. -/
theorem TypeDecl.print_relocate (decl : TypeDecl) : (decl.relocate f).print = decl.print := by
  simp only [print, relocate, List.map_map, Function.comp_def, List.isEmpty_map, CtorDecl.print_relocate,
    WhereClause.print_relocate]

/-- A rule is printed in the same way wherever it stands. -/
theorem RuleDecl.print_relocate (rule : RuleDecl) : (rule.relocate f).print = rule.print := by
  simp only [print, relocate, List.isEmpty_map, Expr.print_relocate, Expr.printAll_relocate]

/-- A binding is printed in the same way wherever it stands. -/
theorem Binding.print_relocate (b : Binding) : (b.relocate f).print = b.print := by
  simp only [print, relocate, Data.print_relocate]
  cases b.type with
  | none => rfl
  | some t => simp only [Option.map_some, TypeExpr.print_relocate]

/-- An item is printed in the same way wherever it stands. -/
theorem Item.print_relocate (item : Item) : (item.relocate f).print = item.print := by
  cases item with
  | type decl => exact decl.print_relocate f
  | rule decl => exact decl.print_relocate f
  | binding b => exact b.print_relocate f
  | value d => exact d.print_relocate f

/-- A moved document is written in the same way. -/
theorem Document.print_relocate (d : Document) : (d.relocate f).print = d.print := by
  simp only [print, relocate, List.map_map, Function.comp_def, Item.print_relocate]

/-! ## Notations -/

namespace Data

mutual

/-- Data is written between brackets, whatever notation it has. -/
theorem print_canonical : (d : Data) → d.canonical.print = d.print
  | str .. | int .. | float .. | bool .. | null .. | reference .. => rfl
  | list _ items | dashList _ items => by rw [canonical, print, print, printItems_canonical items]
  | call _ ctor args => by rw [canonical, print, print, printArguments_canonical args]
  | record _ entries | fieldBlock _ entries | dashRecord _ entries => by
    rw [canonical, print, print, printEntries_canonical keyText entries]
  | ctorBlock _ ctor entries => by rw [canonical, print, print, printArguments_ofEntries entries]
  | listBlock _ ctor items => by
    rw [canonical, print, print, printArguments, printArguments, print, printItems_canonical items]
    simp only [labelled, TypedData.commaSeparated, String.intercalate_singleton, String.append_assoc]
    rfl

/-- Canonical items are printed as the items. -/
theorem printItems_canonical : (ds : List Data) → printItems (canonicalItems ds) = printItems ds
  | [] => rfl
  | d :: ds => by rw [canonicalItems, printItems, printItems, print_canonical d, printItems_canonical ds]

/-- Canonical arguments are printed as the arguments. -/
theorem printArguments_canonical : (args : List (Argument Data)) →
    printArguments (canonicalArguments args) = printArguments args
  | [] => rfl
  | ⟨_, d⟩ :: args => by
    rw [canonicalArguments, printArguments, printArguments, print_canonical d, printArguments_canonical args]

/-- Canonical entries are printed as the entries. -/
theorem printEntries_canonical (key : String → String) : (entries : List (Entry Data)) →
    printEntries key (canonicalEntries entries) = printEntries key entries
  | [] => rfl
  | ⟨_, _, d⟩ :: entries => by
    rw [canonicalEntries, printEntries, printEntries, print_canonical d, printEntries_canonical key entries]

/-- Entries that are written as arguments are printed as the entries, with their keys as names. -/
theorem printArguments_ofEntries : (entries : List (Entry Data)) →
    printArguments (argumentsOfEntries entries) = printEntries id entries
  | [] => rfl
  | ⟨_, _, d⟩ :: entries => by
    rw [argumentsOfEntries, printArguments, printEntries, print_canonical d, printArguments_ofEntries entries]
    rfl

end

end Data

/-! ## Canonical forms -/

namespace TypeDecl

/-- A declaration in canonical form is its own canonical form. -/
theorem canonical_of_isCanonical {decl : TypeDecl} (h : decl.isCanonical = true) : decl.canonical = decl := by
  obtain ⟨hlayout, hctors⟩ := Bool.and_eq_true_iff.1 h
  have hnone : ∀ ctor ∈ decl.ctors, ctor.inlineWhere = none := fun ctor hctor =>
    Option.isNone_iff_eq_none.1 (List.all_eq_true.1 hctors ctor hctor)
  have hsame : decl.ctors.map (fun ctor => { ctor with inlineWhere := none }) = decl.ctors := by
    refine (List.map_congr_left fun ctor hctor => ?_).trans (List.map_id _)
    rw [← hnone ctor hctor]
    rfl
  have hclauses : decl.ctors.filterMap CtorDecl.liftedClause? = [] :=
    List.filterMap_eq_nil_iff.2 fun ctor hctor => by rw [CtorDecl.liftedClause?, hnone ctor hctor]; rfl
  rw [canonical, hsame, hclauses, List.nil_append, ← of_decide_eq_true hlayout]

/-- The canonical form of a declaration is in canonical form. -/
theorem isCanonical_canonical (decl : TypeDecl) : decl.canonical.isCanonical = true := by
  refine Bool.and_eq_true_iff.2 ⟨rfl, List.all_eq_true.2 fun ctor hctor => ?_⟩
  obtain ⟨_, -, rfl⟩ := List.mem_map.1 hctor
  rfl

/-- Whether a declaration is in canonical form does not depend on where it stands. -/
theorem isCanonical_relocate (decl : TypeDecl) : (decl.relocate f).isCanonical = decl.isCanonical := by
  simp only [isCanonical, relocate, List.all_map, Function.comp_def, CtorDecl.relocate, Option.isNone_map]
  rfl

end TypeDecl

/-- The canonical form of an item is printed like the item, unless it is a declaration that is not in canonical
form. -/
theorem Item.print_canonical {item : Item} (h : ∀ decl, item = .type decl → decl.isCanonical = true) :
    item.canonical.print = item.print := by
  cases item with
  | type decl => rw [canonical, TypeDecl.canonical_of_isCanonical (h decl rfl)]
  | rule => rfl
  | binding b => simp only [canonical, print, Binding.print, Data.print_canonical]
  | value d => exact d.print_canonical

/-- **The canonical form of a document is printed like that of another** that it is up to places. -/
theorem Document.print_canonical_of_relocate {d d' : Document} (h : d'.relocate f = d.canonical.relocate f) :
    d'.canonical.print = d.canonical.print := by
  have hitems : d'.items.map (Item.relocate f) = (d.items.map Item.canonical).map (Item.relocate f) :=
    congrArg Document.items h
  have hprint : d'.canonical.print = d'.print := by
    simp only [print, canonical, List.map_map]
    congr 1
    refine List.map_congr_left fun item hitem => congrArg (· ++ "\n") (Item.print_canonical fun decl hdecl => ?_)
    have hmem : item.relocate f ∈ d'.items.map (Item.relocate f) := List.mem_map_of_mem hitem
    rw [hitems, List.map_map] at hmem
    obtain ⟨source, -, hsource⟩ := List.mem_map.1 hmem
    subst hdecl
    cases source with
    | type decl' =>
      have hsame : decl'.canonical.relocate f = decl.relocate f := Item.type.inj hsource
      rw [← decl.isCanonical_relocate f, ← hsame, TypeDecl.isCanonical_relocate]
      exact decl'.isCanonical_canonical
    | rule | binding | value => cases hsource
  rw [hprint, ← print_relocate f d', h, print_relocate]

end TypedData
