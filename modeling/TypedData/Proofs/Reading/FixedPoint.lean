import TypedData.Proofs.Reading.Items
import TypedData.Proofs.Reading.Legibility

/-!
# Printing is a fixed point

The canonical form of a document is written as lines, from which it is read again at other places
(`Document.read_print`).  So it is printed in the same way again, character for character (`Document.print_is_fixed`),
but for two slips of the printer: it writes a sign before a field of a number without parentheses, where the reader
takes it for that of the number, and it writes the keys of a constructor's block as names, though they may be texts.
-/

namespace TypedData

/-! ## What is read where a document is printed -/

/-- A clause is read as it is printed, if no sign stands before a digit in it. -/
theorem WhereClause.reread_eq_self {clause : WhereClause} (h : ∀ e ∈ clause.conditions, e.signsDigit = false) :
    clause.reread = clause := by
  have hconditions : clause.conditions.map Expr.reread = clause.conditions :=
    (List.map_congr_left fun e he => e.reread_eq_self (h e he)).trans (List.map_id' _)
  rw [reread, hconditions]

/-- **An item is read as it is printed,** if no sign stands before a digit in it. -/
theorem Item.reread_eq_self {item : Item} (h : ∀ e ∈ item.exprs, e.signsDigit = false) : item.reread = item := by
  cases item with
  | type decl =>
    have hclauses : ∀ clause ∈ decl.ctors.filterMap CtorDecl.inlineWhere ++ decl.clauses, clause.reread = clause :=
      fun clause hclause => WhereClause.reread_eq_self fun e he => h e (List.mem_flatMap.2 ⟨clause, hclause, he⟩)
    obtain ⟨hinline, hclauses⟩ := List.forall_mem_append.1 hclauses
    have hctor : ∀ ctor ∈ decl.ctors, ctor.reread = ctor := by
      rintro ⟨name, fields, _ | clause, span⟩ hmem
      · rfl
      · have hclause := hinline clause (List.mem_filterMap.2 ⟨_, hmem, rfl⟩)
        rw [CtorDecl.reread, Option.map_some, hclause]
    rw [reread, TypeDecl.reread, List.map_congr_left hctor, List.map_congr_left hclauses, List.map_id', List.map_id']
  | rule decl =>
    obtain ⟨htarget, hguards⟩ := List.forall_mem_cons.1 h
    rw [reread, RuleDecl.reread, decl.target.reread_eq_self htarget,
      List.map_congr_left fun e he => e.reread_eq_self (hguards e he), List.map_id']
  | binding | value => rfl

/-- The conditions that stand directly after constructors are the first ones of the canonical form. -/
theorem Item.exprs_canonical (item : Item) : item.canonical.exprs = item.exprs := by
  cases item with
  | type decl =>
    have hinline : decl.canonical.ctors.filterMap CtorDecl.inlineWhere = [] := by
      refine List.filterMap_eq_nil_iff.2 fun ctor hctor => ?_
      obtain ⟨_, -, rfl⟩ := List.mem_map.1 hctor
      rfl
    have hlifted : (decl.ctors.filterMap CtorDecl.liftedClause?).map WhereClause.conditions =
        (decl.ctors.filterMap CtorDecl.inlineWhere).map WhereClause.conditions := by
      rw [List.map_filterMap, List.map_filterMap]
      congr 1
      funext ctor
      obtain ⟨name, fields, _ | clause, span⟩ := ctor <;> rfl
    simp only [canonical, exprs, hinline, List.nil_append]
    rw [TypeDecl.canonical, List.flatMap_append, List.flatMap_append, List.flatMap_def, hlifted, ← List.flatMap_def]
  | rule | binding | value => rfl

namespace Document

/-- The sign before every field of a number can be told from that of the number, and the keys of every block of a
constructor are names. -/
def isWritable (d : Document) : Bool :=
  d.items.all fun item => item.exprs.all (!·.signsDigit) && item.data.all (·.namesArguments)

/-- **A document is read as it is printed,** if no sign stands before a digit in it. -/
theorem reread_eq_self {d : Document} (h : ∀ item ∈ d.items, ∀ e ∈ item.exprs, e.signsDigit = false) :
    d.reread = d := by
  have hitems : d.items.map Item.reread = d.items :=
    (List.map_congr_left fun item hitem => item.reread_eq_self (h item hitem)).trans (List.map_id' _)
  rw [reread, hitems]

/-- The canonical form of a document that can be written is read as it is printed. -/
theorem reread_canonical {d : Document} (h : d.isWritable = true) : d.canonical.reread = d.canonical := by
  refine reread_eq_self fun item hitem e he => ?_
  obtain ⟨item, hmem, rfl⟩ := List.mem_map.1 hitem
  have hsigns := (Bool.and_eq_true_iff.1 (List.all_eq_true.1 h item hmem)).1
  rw [item.exprs_canonical] at he
  exact Bool.not_eq_true' _ ▸ List.all_eq_true.1 hsigns e he

/-- **What is read where a document is printed** is read from the print of its canonical form, at other places, or this
is nested too deeply, if the keys in blocks of constructors are names. -/
theorem read_print {f : Span → Span} (hf : ∀ a b, f a = f b) {d : Document} (h : d.Made .legible)
    (hnames : ∀ item ∈ d.items, ∀ e ∈ item.data, e.namesArguments = true) :
    (∃ span, read d.canonical.print = .error (.parse (.tooDeep span))) ∨
      ∃ d', read d.canonical.print = .ok d' ∧ d'.relocate f = d.canonical.reread.relocate f := by
  have hreadable : ∀ line ∈ d.lines, line.Readable := by
    intro line hline
    obtain ⟨item, hitem, hline⟩ := List.mem_flatMap.1 hline
    exact Item.readable_lines (Item.Made.legible_lines (h item hitem) (hnames item hitem)) line hline
  obtain ⟨tokens, hscan, hkinds⟩ := exists_scan d.text_lines hreadable
  have hat := Cursor.at_ofTokens hkinds (Line.tokens_ne_nil _ _)
  have hread : read d.canonical.print =
      ((Parser.document.outcome (Cursor.ofTokens tokens)).1).mapError Failure.parse := by
    rw [read, hscan]
    rfl
  rcases reads_lines hf h _ hat with ⟨span, c, hdeep⟩ | ⟨d', c, hok, -, hd⟩
  · exact .inl ⟨span, by rw [hread, hdeep]; rfl⟩
  · exact .inr ⟨d', by rw [hread, hok]; rfl, hd⟩

/-- **The canonical form of a document is read back as it is printed,** character for character, or it is nested too
deeply: if all floats in the text of the document are finite, no sign stands before a field of a number, and the keys
in blocks of constructors are names. -/
theorem print_is_fixed {source : String} {d : Document} (hread : read source = .ok d)
    (hfinite : hasFiniteFloats source = true) (hwritable : d.isWritable = true) :
    (∃ span, read d.canonical.print = .error (.parse (.tooDeep span))) ∨
      ∃ d', read d.canonical.print = .ok d' ∧ d'.canonical.print = d.canonical.print := by
  have hmade := made_legible hread hfinite
  have hnames : ∀ item ∈ d.items, ∀ e ∈ item.data, e.namesArguments = true := fun item hitem =>
    List.all_eq_true.1 (Bool.and_eq_true_iff.1 (List.all_eq_true.1 hwritable item hitem)).2
  refine (read_print (f := fun _ => .zero) (fun _ _ => rfl) hmade hnames).imp_right ?_
  rintro ⟨d', hread', hd⟩
  rw [reread_canonical hwritable] at hd
  exact ⟨d', hread', print_canonical_of_relocate _ hd⟩

/-- A type with a condition after its constructor, a rule, a binding, and a block of a constructor. -/
def sampler : String :=
  "type t = t \x7bx: int\x7d where -x < 2.5\n" ++ "\"\x7bq\x7d\" => t(-1)\n" ++ "w := [1]\n" ++ "t:\n    x: 1\n"

/-- Whether the document can be written, and its canonical form is read. -/
def isReadBack (d : Document) : Bool := d.isWritable && (read d.canonical.print).toOption.isSome

/-- A condition after a constructor, a rule, a list and a block of a constructor, in one document. -/
theorem print_is_fixed_sampler : ∃ d d', read sampler = .ok d ∧ hasFiniteFloats sampler = true ∧ d.isWritable = true ∧
    read d.canonical.print = .ok d' ∧ d'.canonical.print = d.canonical.print := by
  have hfinite : hasFiniteFloats sampler = true := by decide +kernel
  have htest : (read sampler).toOption.any isReadBack = true := by decide +kernel
  obtain ⟨d, hread, htest⟩ := exists_ok_of_any htest
  obtain ⟨hwritable, hback⟩ := Bool.and_eq_true_iff.1 htest
  rcases print_is_fixed hread hfinite hwritable with ⟨span, hdeep⟩ | ⟨d', hread', hsame⟩
  · rw [hdeep] at hback
    cases hback
  · exact ⟨d, d', hread, hfinite, hwritable, hread', hsame⟩

/-- A condition with a sign before a field of a number. -/
def signed : String := "type t = t \x7bx: int\x7d where - 1 .a\n"

/-- A block of a constructor whose key is no name. -/
def quoted : String := "t:\n    \"a b\": 1\n"

/-- Whether the canonical form is read, but printed in another way. -/
def isPrintedAnew (d : Document) : Bool :=
  (read d.canonical.print).toOption.any fun d' => d'.canonical.print ≠ d.canonical.print

/-- Whether a token of the canonical form is not expected where it stands. -/
def isUnexpected (d : Document) : Bool :=
  match read d.canonical.print with
  | .error (.parse (.unexpectedToken ..)) => true
  | _ => false

/-- A sign before a field of a number is read as that of the number, and a key that is no name is not read in front
of an argument. -/
theorem print_is_not_fixed :
    (∃ d d', read signed = .ok d ∧ hasFiniteFloats signed = true ∧ read d.canonical.print = .ok d' ∧
      d'.canonical.print ≠ d.canonical.print) ∧
    ∃ d e, read quoted = .ok d ∧ hasFiniteFloats quoted = true ∧ read d.canonical.print = .error (.parse e) ∧
      ∀ span, e ≠ .tooDeep span := by
  constructor
  · have htest : (read signed).toOption.any isPrintedAnew = true := by decide +kernel
    obtain ⟨d, hread, htest⟩ := exists_ok_of_any htest
    obtain ⟨d', hread', hother⟩ := exists_ok_of_any htest
    exact ⟨d, d', hread, by decide +kernel, hread', of_decide_eq_true hother⟩
  · have htest : (read quoted).toOption.any isUnexpected = true := by decide +kernel
    obtain ⟨d, hread, htest⟩ := exists_ok_of_any htest
    unfold isUnexpected at htest
    split at htest
    · rename_i herror
      exact ⟨d, _, hread, by decide +kernel, herror, by rintro span ⟨⟩⟩
    · cases htest

end Document

end TypedData
