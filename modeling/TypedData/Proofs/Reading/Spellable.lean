import TypedData.Proofs.Reading.Operands

/-!
# Trees that can be written

Not every tree is that of a text: a name in it could be a keyword or no word at all, and a float could be infinite.
A tree without such names and floats can be spelled (`Expr.isSpellable`, `Data.isSpellable`).

An expression is written in one line, and the whole line is read as the expression (`Expr.reads_print`): the
parentheses that the printer sets by its table are those that the parser needs by its own.
-/

namespace TypedData

open Glyph (Legible)

/-- An integer that is written with a sign. -/
def Integer.minusTwo : Integer := ⟨-2, by omega, by omega⟩

namespace Expr

mutual

/-- Whether every name in the expression is one, and every float finite. -/
def isSpellable : Expr → Bool
  | float _ x => x.isFinite
  | name _ n => isName n
  | list _ items => areSpellableItems items
  | field _ base n => base.isSpellable && isName n
  | call _ callee args => isName callee && areSpellableArguments args
  | unary _ _ operand => operand.isSpellable
  | binary _ _ lhs rhs => lhs.isSpellable && rhs.isSpellable
  | _ => true

/-- Whether every name in the items is one, and every float finite. -/
def areSpellableItems : List Expr → Bool
  | [] => true
  | e :: es => e.isSpellable && areSpellableItems es

/-- Whether every name in the arguments is one, and every float finite. -/
def areSpellableArguments : List (Argument Expr) → Bool
  | [] => true
  | ⟨label, e⟩ :: args => label.all isName && e.isSpellable && areSpellableArguments args

end

/-- Items can be written when each of them can. -/
theorem areSpellableItems_iff {items : List Expr} :
    areSpellableItems items = true ↔ ∀ e ∈ items, e.isSpellable = true := by
  induction items with
  | nil => simp [areSpellableItems]
  | cons e es ih => rw [areSpellableItems, Bool.and_eq_true, ih, List.forall_mem_cons]

/-- Arguments can be written when their names are names and their values can be written. -/
theorem areSpellableArguments_iff {args : List (Argument Expr)} : areSpellableArguments args = true ↔
    ∀ arg ∈ args, arg.name.all isName = true ∧ arg.value.isSpellable = true := by
  induction args with
  | nil => simp [areSpellableArguments]
  | cons arg args ih => rw [areSpellableArguments, Bool.and_eq_true, Bool.and_eq_true, ih, List.forall_mem_cons]

/-- All tokens of an expression that can be spelled can be read. -/
theorem legible_of_isSpellable {e : Expr} (h : e.isSpellable = true) : Legible e.glyphs := by
  induction e using inductionOnParts with
  | int | null => exact List.forall_mem_singleton.2 trivial
  | bool span b => cases b <;> exact List.forall_mem_singleton.2 trivial
  | float | name => exact List.forall_mem_singleton.2 h
  | str span text => exact List.forall_mem_singleton.2 (Piece.regular_plain text)
  | list span items ih =>
    rw [glyphs, glyphsOfItems_eq_map]
    have hitems := areSpellableItems_iff.1 h
    exact Glyph.legible_bracketed_iff.2 (List.forall_mem_map.2 fun e he => ih e he (hitems e he))
  | call span callee args ih =>
    rw [glyphs, glyphsOfArguments_eq_map]
    obtain ⟨hcallee, hargs⟩ := Bool.and_eq_true_iff.1 h
    refine Glyph.legible_token_iff.2 ⟨hcallee, Glyph.legible_bracketed_iff.2 (List.forall_mem_map.2 fun arg harg => ?_)⟩
    obtain ⟨hlabel, hvalue⟩ := areSpellableArguments_iff.1 hargs arg harg
    exact Glyph.legible_labelled_iff.2 ⟨(Option.all_eq_true isName arg.name).1 hlabel, ih arg harg hvalue⟩
  | field span base n ih =>
    obtain ⟨hbase, hname⟩ := Bool.and_eq_true_iff.1 h
    exact Glyph.legible_append_iff.2 ⟨Glyph.legible_enclosed_iff.2 (ih hbase),
      Glyph.legible_token_iff.2 ⟨trivial, List.forall_mem_singleton.2 hname⟩⟩
  | unary span op operand ih =>
    exact legible_unary (ih h)
  | binary span op lhs rhs ihl ihr =>
    obtain ⟨hlhs, hrhs⟩ := Bool.and_eq_true_iff.1 h
    exact Glyph.legible_append_iff.2 ⟨Glyph.legible_enclosed_iff.2 (ihl hlhs),
      Glyph.legible_token_iff.2 ⟨op.legible_kind, Glyph.legible_enclosed_iff.2 (ihr hrhs)⟩⟩

/-- An expression is read from the tokens of a text. -/
theorem read_eq {source : String} {tokens : List Token} (hscan : scan source = .ok tokens) :
    Expr.read source = ((Parser.expr.outcome (Cursor.ofTokens tokens)).1).mapError Failure.parse := by
  rw [Expr.read, hscan]
  rfl

/-- **The line of an expression is read as the expression,** at other places, and nothing of the line is left; or the
expression is nested too deeply.  All names in it have to be names, all floats finite, and no sign may stand before a
field of a number. -/
theorem reads_print {e : Expr} (hspellable : e.isSpellable = true) (hsign : e.signsDigit = false) :
    ∃ tokens, scan e.print = .ok tokens ∧
      ((∃ span c, Parser.expr.outcome (Cursor.ofTokens tokens) = (.error (.tooDeep span), c)) ∨
        ∃ e' c, Parser.expr.outcome (Cursor.ofTokens tokens) = (.ok e', c) ∧ c.At [.newline, .eof] ∧
          e'.relocate (fun _ => .zero) = e.relocate fun _ => .zero) := by
  have hrow := row_glyphs (legible_of_isSpellable hspellable)
  obtain ⟨tokens, hscan, hkinds⟩ := exists_scan_row e.text_glyphs e.opens_glyphs.exists_cons
    (hrow.readable [] Glyph.bounded_nil) (hrow.depth 0)
  have hat := Cursor.at_ofTokens hkinds (List.append_ne_nil_of_right_ne_nil _ (List.cons_ne_nil _ _))
  have hdelimits : Parser.Delimits .newline := ⟨by rintro ⟨⟩, by rintro ⟨⟩, rfl⟩
  have hread := (reads_glyphs (f := fun _ => Span.zero) (fun _ _ => rfl) e).delimited hdelimits maxNesting [.eof]
  rw [reread_eq_self e hsign] at hread
  exact ⟨tokens, hscan, hread _ hat⟩

/-- An expression with a sign before a number, a negative number after a minus, and operands that need parentheses. -/
def crowded : Expr :=
  .unary .zero .not (.binary .zero .lt
    (.binary .zero .mul
      (.binary .zero .sub (.unary .zero .neg (.int .zero .one)) (.int .zero .minusTwo))
      (.field .zero (.call .zero "f" [⟨some "x", .unary .zero .not (.name .zero "a")⟩, ⟨none, .str .zero "b"⟩]) "y"))
    (.float .zero (.zero true)))

/-- **A crowded expression is read back:** signs before numbers and signs, a call with a label, and a field of it. -/
theorem reads_print_crowded : crowded.print = "not (-(1) - -2) * f(x: not a, \"b\").y < -0.0" ∧
    crowded.isSpellable = true ∧ crowded.signsDigit = false ∧
    ∃ tokens e c, scan crowded.print = .ok tokens ∧ Parser.expr.outcome (Cursor.ofTokens tokens) = (.ok e, c) ∧
      c.At [.newline, .eof] ∧ e.relocate (fun _ => .zero) = crowded.relocate fun _ => .zero := by
  have hspellable : crowded.isSpellable = true := by decide +kernel
  have hsign : crowded.signsDigit = false := by decide +kernel
  have hshallow : (Expr.read crowded.print).toOption.isSome = true := by decide +kernel
  obtain ⟨tokens, hscan, ⟨span, c, hdeep⟩ | ⟨e, c, hread, hend, he⟩⟩ := reads_print hspellable hsign
  · rw [read_eq hscan, hdeep] at hshallow
    cases hshallow
  · exact ⟨by decide +kernel, hspellable, hsign, tokens, e, c, hscan, hread, hend, he⟩

end Expr

namespace Data

mutual

/-- Whether every name in the data is one, and every float finite. -/
def isSpellable : Data → Bool
  | float _ x => x.isFinite
  | list _ items | dashList _ items => areSpellableItems items
  | call _ ctor args => isName ctor && areSpellableArguments args
  | record _ entries | fieldBlock _ entries | dashRecord _ entries => areSpellableEntries entries
  | reference _ name path => isName name && path.all isName
  | ctorBlock _ ctor entries => isName ctor && entries.all (isName ·.key) && areSpellableEntries entries
  | listBlock _ ctor items => isName ctor && areSpellableItems items
  | _ => true

/-- Whether every name in the items is one, and every float finite. -/
def areSpellableItems : List Data → Bool
  | [] => true
  | d :: ds => d.isSpellable && areSpellableItems ds

/-- Whether every name in the arguments is one, and every float finite. -/
def areSpellableArguments : List (Argument Data) → Bool
  | [] => true
  | ⟨label, d⟩ :: args => label.all isName && d.isSpellable && areSpellableArguments args

/-- Whether every name in the values of the entries is one, and every float finite.  The keys may be any texts. -/
def areSpellableEntries : List (Entry Data) → Bool
  | [] => true
  | ⟨_, _, d⟩ :: entries => d.isSpellable && areSpellableEntries entries

end

/-- Items of data can be written when each of them can. -/
theorem areSpellableItems_iff {items : List Data} :
    areSpellableItems items = true ↔ ∀ d ∈ items, d.isSpellable = true := by
  induction items with
  | nil => simp [areSpellableItems]
  | cons d ds ih => rw [areSpellableItems, Bool.and_eq_true, ih, List.forall_mem_cons]

/-- Arguments of data can be written when their names are names and their values can be written. -/
theorem areSpellableArguments_iff {args : List (Argument Data)} : areSpellableArguments args = true ↔
    ∀ arg ∈ args, arg.name.all isName = true ∧ arg.value.isSpellable = true := by
  induction args with
  | nil => simp [areSpellableArguments]
  | cons arg args ih => rw [areSpellableArguments, Bool.and_eq_true, Bool.and_eq_true, ih, List.forall_mem_cons]

/-- Entries can be written when their values can. -/
theorem areSpellableEntries_iff {entries : List (Entry Data)} :
    areSpellableEntries entries = true ↔ ∀ e ∈ entries, e.value.isSpellable = true := by
  induction entries with
  | nil => simp [areSpellableEntries]
  | cons e entries ih => rw [areSpellableEntries, Bool.and_eq_true, ih, List.forall_mem_cons]

end Data

end TypedData
