import TypedData.Proofs.Reading.Material
import TypedData.Proofs.Relocation.Tree

/-!
# Trees that stay where they are

A tree that is made of a material has all its places there.  So a function of spans that leaves these places
where they are does not move the tree (`Document.Made.relocate_eq`).
-/

namespace TypedData

variable {M : Material} {f : Span → Span}

/-- The function does not move what the material covers. -/
def Material.Fixed (M : Material) (f : Span → Span) : Prop := ∀ span, M.Covers span → f span = span

/-- A list whose elements stay as they are stays as it is. -/
theorem map_of_fixed {α : Type} {g : α → α} {xs : List α} (h : ∀ x ∈ xs, g x = x) : xs.map g = xs :=
  (List.map_congr_left h).trans (List.map_id' xs)

/-- What stays as it is stays so where it may be missing. -/
theorem optionMap_of_fixed {α : Type} {g : α → α} {x : Option α} (h : ∀ a, x = some a → g a = a) : x.map g = x := by
  cases x with
  | none => rfl
  | some a => rw [Option.map_some, h a rfl]

/-! ## Types -/

namespace TypeExpr

/-- Arguments of a type are relocated one by one. -/
theorem relocateArgs_eq_map (ts : List TypeExpr) : relocateArgs f ts = ts.map (relocate f) := by
  induction ts with
  | nil => rfl
  | cons t ts ih => rw [relocateArgs, ih, List.map_cons]

/-- A type that is made of places that stay stays where it is. -/
theorem Made.relocate_eq {argument : Bool} {levels : Nat} {t : TypeExpr} (h : t.Made M argument levels)
    (hf : M.Fixed f) : t.relocate f = t := by
  induction h with
  | bare hspan _ => rw [relocate, hf _ hspan]; rfl
  | argument _ ih | grouped _ ih => exact ih
  | named hspan _ _ ih => rw [relocate, hf _ hspan, relocateArgs_eq_map, map_of_fixed ih]
  | optional hspan _ ih | list hspan _ ih => rw [relocate, hf _ hspan, ih]

end TypeExpr

/-! ## Expressions -/

namespace Expr

/-- Items are relocated one by one. -/
theorem relocateItems_eq_map (es : List Expr) : relocateItems f es = es.map (relocate f) := by
  induction es with
  | nil => rfl
  | cons e es ih => rw [relocateItems, ih, List.map_cons]

/-- Arguments stay where they are if their values do. -/
theorem relocateArguments_of_fixed {args : List (Argument Expr)}
    (h : ∀ arg ∈ args, arg.value.relocate f = arg.value) : relocateArguments f args = args := by
  induction args with
  | nil => rfl
  | cons arg args ih =>
    obtain ⟨harg, hargs⟩ := List.forall_mem_cons.1 h
    rw [relocateArguments, ih hargs, harg]

/-- An expression that is made of places that stay stays where it is. -/
theorem Made.relocate_eq {levels left : Nat} {e : Expr} (h : e.Made M levels left) (hf : M.Fixed f) :
    e.relocate f = e := by
  induction h with
  | list hspan _ ih => rw [relocate, hf _ hspan, relocateItems_eq_map, map_of_fixed ih]
  | call hspan _ _ _ ih => rw [relocate, hf _ hspan, relocateArguments_of_fixed ih]
  | unary hspan _ ih => rw [relocate, hf _ hspan, ih]
  | field hspan _ _ ih => rw [relocate, hf _ hspan, ih]
  | binary hspan _ _ ihl ihr => rw [relocate, hf _ hspan, ihl, ihr]
  | grouped _ ih | less _ ih => exact ih
  | int hspan _ | float hspan _ | str hspan _ | bool hspan | null hspan | name hspan _ =>
    rw [relocate, hf _ hspan]

end Expr

/-! ## Data -/

namespace Data

/-- Items of data are relocated one by one. -/
theorem relocateItems_eq_map (ds : List Data) : relocateItems f ds = ds.map (relocate f) := by
  induction ds with
  | nil => rfl
  | cons d ds ih => rw [relocateItems, ih, List.map_cons]

/-- Arguments of data stay where they are if their values do. -/
theorem relocateArguments_of_fixed {args : List (Argument Data)}
    (h : ∀ arg ∈ args, arg.value.relocate f = arg.value) : relocateArguments f args = args := by
  induction args with
  | nil => rfl
  | cons arg args ih =>
    obtain ⟨harg, hargs⟩ := List.forall_mem_cons.1 h
    rw [relocateArguments, ih hargs, harg]

/-- Entries stay where they are if their places and their values do. -/
theorem relocateEntries_of_fixed (hf : M.Fixed f) {entries : List (Entry Data)}
    (hspans : ∀ e ∈ entries, M.Enters e) (h : ∀ e ∈ entries, e.value.relocate f = e.value) :
    relocateEntries f entries = entries := by
  induction entries with
  | nil => rfl
  | cons e entries ih =>
    obtain ⟨he, hentries⟩ := List.forall_mem_cons.1 h
    obtain ⟨hspan, hspans⟩ := List.forall_mem_cons.1 hspans
    rw [relocateEntries, ih hspans hentries, he, hf _ hspan.span]

/-- Data that is made of places that stay stays where it is. -/
theorem Made.relocate_eq {item : Bool} {levels : Nat} {d : Data} (h : d.Made M item levels) (hf : M.Fixed f) :
    d.relocate f = d := by
  induction h with
  | list hspan _ ih | listBlock hspan _ _ ih | dashList hspan _ ih =>
    rw [relocate, hf _ hspan, relocateItems_eq_map, map_of_fixed ih]
  | call hspan _ _ _ ih => rw [relocate, hf _ hspan, relocateArguments_of_fixed ih]
  | record hspan hentries _ ih | ctorBlock hspan _ hentries _ ih | fieldBlock hspan hentries _ ih
  | dashRecord hspan _ hentries _ ih => rw [relocate, hf _ hspan, relocateEntries_of_fixed hf hentries ih]
  | item _ ih => exact ih
  | str hspan _ | int hspan _ | float hspan _ | bool hspan | null hspan | reference hspan _ _ =>
    rw [relocate, hf _ hspan]

end Data

/-! ## Items -/

/-- A clause that is made of places that stay stays where it is. -/
theorem WhereClause.Made.relocate_eq {clause : WhereClause} (h : clause.Made M) (hf : M.Fixed f) :
    clause.relocate f = clause := by
  rw [WhereClause.relocate, hf _ h.span, map_of_fixed fun e he => (h.conditions e he).relocate_eq hf]

/-- A field that is made of places that stay stays where it is. -/
theorem FieldDecl.Made.relocate_eq {field : FieldDecl} (h : field.Made M) (hf : M.Fixed f) :
    field.relocate f = field := by
  rw [FieldDecl.relocate, hf _ h.span, h.type.relocate_eq hf]

/-- A constructor that is made of places that stay stays where it is. -/
theorem CtorDecl.Made.relocate_eq {ctor : CtorDecl} (h : ctor.Made M) (hf : M.Fixed f) :
    ctor.relocate f = ctor := by
  rw [CtorDecl.relocate, hf _ h.span, map_of_fixed fun field hfield => (h.fields field hfield).relocate_eq hf,
    optionMap_of_fixed fun clause hclause => (h.inlineWhere clause hclause).relocate_eq hf]

/-- A declaration that is made of places that stay stays where it is. -/
theorem TypeDecl.Made.relocate_eq {decl : TypeDecl} (h : decl.Made M) (hf : M.Fixed f) :
    decl.relocate f = decl := by
  rw [TypeDecl.relocate, hf _ h.span, map_of_fixed fun ctor hctor => (h.ctors ctor hctor).relocate_eq hf,
    map_of_fixed fun clause hclause => (h.clauses clause hclause).relocate_eq hf]

/-- A rule that is made of places that stay stays where it is. -/
theorem RuleDecl.Made.relocate_eq {rule : RuleDecl} (h : rule.Made M) (hf : M.Fixed f) :
    rule.relocate f = rule := by
  rw [RuleDecl.relocate, hf _ h.span, h.target.relocate_eq hf,
    map_of_fixed fun e he => (h.guards e he).relocate_eq hf]

/-- A binding that is made of places that stay stays where it is. -/
theorem Binding.Made.relocate_eq {b : Binding} (h : b.Made M) (hf : M.Fixed f) : b.relocate f = b := by
  rw [Binding.relocate, hf _ h.span, h.value.relocate_eq hf,
    optionMap_of_fixed fun t ht => (h.type t ht).relocate_eq hf]

/-- An item that is made of places that stay stays where it is. -/
theorem Item.Made.relocate_eq {item : Item} (h : item.Made M) (hf : M.Fixed f) : item.relocate f = item := by
  cases item with
  | type decl => exact congrArg Item.type (TypeDecl.Made.relocate_eq h hf)
  | rule decl => exact congrArg Item.rule (RuleDecl.Made.relocate_eq h hf)
  | binding b => exact congrArg Item.binding (Binding.Made.relocate_eq h hf)
  | value d => exact congrArg Item.value (Data.Made.relocate_eq h hf)

/-- **A document is not moved when its places are not.** -/
theorem Document.Made.relocate_eq {d : Document} (h : d.Made M) (hf : M.Fixed f) : d.relocate f = d := by
  rw [Document.relocate, map_of_fixed fun item hitem => Item.Made.relocate_eq (h item hitem) hf]

end TypedData
