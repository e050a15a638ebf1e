import TypedData.Proofs.Reading.Separators
import TypedData.Proofs.Reading.Spellable

/-!
# Data with any separators

Data need not be written as it is printed: a comma in brackets may as well be one or more line breaks, there may be
line breaks around it, after the opening bracket and before the closing one, and the last part may have a comma behind
it.  `Data.LaidOut d text` says that the text is the data in one of these layouts, of which the printed text is one
(`Data.laidOut_print`).  `Data.Bracketed d text` says so too, but lets a constructor without arguments stand as its bare
name.

Whatever the layout, the text is read as the data (`Data.reads_laidOut`).
-/

namespace TypedData

namespace Data

/-- Whether the data is written without brackets. -/
def isSimple : Data → Bool
  | str .. | int .. | float .. | bool .. | null .. | reference .. => true
  | _ => false

/-- An item of a list has no label. -/
def itemLabel (_ : Data) : List Char := []

/-- The name of the field that an argument is for, and the colon after it. -/
def argumentLabel (arg : Argument Data) : List Char := (labelled arg.name "").toList

/-- The key of an entry, and the colon after it. -/
def entryLabel (e : Entry Data) : List Char := (keyText e.key ++ ": ").toList

/-- The text is the data as it is printed, but for the separators in brackets, which may be any. -/
inductive LaidOut : Data → List Char → Prop
  | simple {d : Data} : d.isSimple = true → LaidOut d d.print.toList
  | list (span : Span) {lead : List Char} {rows : List (Laid Data)} : IsWhite lead → Laid.Separated rows →
      (∀ row ∈ rows, LaidOut row.part row.text) →
      LaidOut (.list span (rows.map Laid.part)) ('[' :: (lead ++ (Laid.spread itemLabel rows ++ [']'])))
  | call (span : Span) (ctor : String) {lead : List Char} {rows : List (Laid (Argument Data))} : IsWhite lead →
      Laid.Separated rows → (∀ row ∈ rows, LaidOut row.part.value row.text) →
      LaidOut (.call span ctor (rows.map Laid.part))
        (ctor.toList ++ '(' :: (lead ++ (Laid.spread argumentLabel rows ++ [')'])))
  | record (span : Span) {lead : List Char} {rows : List (Laid (Entry Data))} : IsWhite lead → Laid.Separated rows →
      (∀ row ∈ rows, LaidOut row.part.value row.text) →
      LaidOut (.record span (rows.map Laid.part)) ('\x7b' :: (lead ++ (Laid.spread entryLabel rows ++ ['\x7d'])))

/-- The text is the data in bracket notation: in any layout, and with bare names for constructors without arguments or
not. -/
inductive Bracketed : Data → List Char → Prop
  | simple {d : Data} : d.isSimple = true → Bracketed d d.print.toList
  | bare (span : Span) (ctor : String) : Bracketed (.call span ctor []) ctor.toList
  | list (span : Span) {lead : List Char} {rows : List (Laid Data)} : IsWhite lead → Laid.Separated rows →
      (∀ row ∈ rows, Bracketed row.part row.text) →
      Bracketed (.list span (rows.map Laid.part)) ('[' :: (lead ++ (Laid.spread itemLabel rows ++ [']'])))
  | call (span : Span) (ctor : String) {lead : List Char} {rows : List (Laid (Argument Data))} : IsWhite lead →
      Laid.Separated rows → (∀ row ∈ rows, Bracketed row.part.value row.text) →
      Bracketed (.call span ctor (rows.map Laid.part))
        (ctor.toList ++ '(' :: (lead ++ (Laid.spread argumentLabel rows ++ [')'])))
  | record (span : Span) {lead : List Char} {rows : List (Laid (Entry Data))} : IsWhite lead → Laid.Separated rows →
      (∀ row ∈ rows, Bracketed row.part.value row.text) →
      Bracketed (.record span (rows.map Laid.part)) ('\x7b' :: (lead ++ (Laid.spread entryLabel rows ++ ['\x7d'])))

/-- Data that is laid out is so also where a constructor without arguments may stand as its name alone. -/
theorem LaidOut.bracketed {d : Data} {text : List Char} (h : d.LaidOut text) : d.Bracketed text := by
  induction h with
  | simple hsimple => exact .simple hsimple
  | list span hlead hseparated _ ih => exact .list span hlead hseparated ih
  | call span ctor hlead hseparated _ ih => exact .call span ctor hlead hseparated ih
  | record span hlead hseparated _ ih => exact .record span hlead hseparated ih

end Data

namespace Parser

open Cursor (At)

variable {f : Span → Span} {text : List Char} {kinds : List TokenKind} {d : Data}

/-- What is shown is conveyed, if its tokens can be read. -/
theorem Shows.conveys {α : Type} {p : Nat → Parser α} {gs : List Glyph} {text : String} {P : α → Prop}
    (h : Shows p gs text P) (hlegible : Glyph.Legible gs) (hcomma : (Glyph.tokens gs).head? ≠ some (.mark .comma)) :
    Conveys p text.toList (Glyph.tokens gs) P where
  passes st hstart hvalue := by
    rw [h.text]
    exact .row hstart fun rest hrest => hvalue ▸ (h.row hlegible).readable rest hrest
  opens := by
    obtain ⟨kind, gs, rfl, hnewline, hclosing⟩ := h.starts
    exact ⟨kind, Glyph.tokens gs, rfl, hnewline, fun hkind => hcomma (congrArg some hkind), hclosing⟩
  ends hlast := hlegible .newline (List.mem_of_getLast? hlast)
  closed := (h.row hlegible).depth
  reads levels next rest hends := h.reads levels next rest (hends.ne_mark (by rintro ⟨⟩) fun b => b.closing_ne_dot.symm)

/-- What has a label before it is conveyed if it is conveyed without, and `q` reads it with the label. -/
theorem Conveys.labelled {α β : Type} {p : Nat → Parser α} {q : Nat → Parser β} {P : α → Prop} {Q : β → Prop}
    {kind : TokenKind} (h : Conveys p text kinds P) (hlegible : kind.Legible)
    (hkind : (∃ name, kind = .name name) ∨ ∃ template, kind = .string template)
    (hq : ∀ levels first tail B, Reads (p levels) (At (first :: tail)) B P →
      Reads (q levels) (At (kind :: .mark .colon :: first :: tail)) B Q) :
    Conveys q (Glyph.text (labelGlyphs kind) ++ text) (kind :: .mark .colon :: kinds) Q where
  passes st hstart hvalue := by
    have hlabel : Passes (fun _ => True) st (Glyph.text (labelGlyphs kind)) [kind, .mark .colon] := by
      refine .row hstart fun rest _ => ⟨hlegible, ?_, fun _ => hvalue, trivial, ?_, by rintro ⟨⟩, trivial⟩
      · exact (Glyph.bounded_cons (by decide) _).endsAt kind
      · exact (Glyph.bounded_cons (by decide) _).endsAt _
    exact hlabel.append (fun st' hst' => h.passes st' hst'.atLineStart (hst'.afterValue_eq_false rfl rfl))
      fun _ _ => trivial
  opens := by
    refine ⟨_, _, rfl, ?_⟩
    rcases hkind with ⟨name, rfl⟩ | ⟨template, rfl⟩
    · exact ⟨by rintro ⟨⟩, by rintro ⟨⟩, by rintro b ⟨⟩⟩
    · exact ⟨by rintro ⟨⟩, by rintro ⟨⟩, by rintro b ⟨⟩⟩
  ends := by
    obtain ⟨first, tail, rfl, -⟩ := h.opens
    rw [List.getLast?_cons_cons, List.getLast?_cons_cons]
    exact h.ends
  closed depth := by
    rw [List.foldl_cons, List.foldl_cons]
    rcases hkind with ⟨name, rfl⟩ | ⟨template, rfl⟩ <;> exact h.closed depth
  reads levels next rest hends := by
    have hread := h.reads levels next rest hends
    obtain ⟨first, tail, rfl, -⟩ := h.opens
    exact hq levels first _ _ hread

/-- The text is passed as tokens from which data is read, at other places, and which are not taken for a label. -/
structure ConveysData (f : Span → Span) (text : List Char) (kinds : List TokenKind) (d : Data) : Prop
    extends Conveys dataWithin text kinds (SameData f d) where
  unlabelled : ∀ next rest name tail, next.EndsPart → kinds ++ next :: rest ≠ .name name :: .mark .colon :: tail

/-- An argument is conveyed if its value is. -/
theorem ConveysData.exists_argument (h : ConveysData f text kinds d) {label : Option String}
    (hlabel : label.all isName = true) :
    ∃ kinds, Conveys (fun levels => dataArgument (dataWithin levels)) ((labelled label "").toList ++ text) kinds
      (SameArgument f ⟨label, d⟩) := by
  cases label with
  | none =>
    exact ⟨kinds, h.passes, h.opens, h.ends, h.closed, fun levels next rest hends =>
      reads_unnamed (h.reads levels next rest hends) fun name tail => h.unlabelled next rest name tail hends⟩
  | some name =>
    have htext : (labelled (some name) "").toList = Glyph.text (labelGlyphs (.name name)) := by
      simp [labelled, labelGlyphs, Glyph.chars, TokenKind.spelling, Mark.spelling]
    rw [htext]
    exact ⟨_, h.toConveys.labelled hlabel (.inl ⟨name, rfl⟩) fun _ _ _ _ hvalue => reads_named hvalue name⟩

/-- An entry is conveyed if its value is. -/
theorem ConveysData.exists_entry (h : ConveysData f text kinds d) (key : String) (span : Span) :
    ∃ kinds, Conveys (fun levels => entry (dataWithin levels)) ((keyText key ++ ": ").toList ++ text) kinds
      (SameEntry f ⟨key, span, d⟩) := by
  have htext : (keyText key ++ ": ").toList = Glyph.text (labelGlyphs (keyKind key)) := by
    rw [String.toList_append, text_keyKind]
    simp [labelGlyphs, Glyph.chars, TokenKind.spelling, Mark.spelling]
  rw [htext]
  exact ⟨_, h.toConveys.labelled (legible_keyKind key) ((keyKind_eq key).imp (⟨_, ·⟩) (⟨_, ·⟩))
    fun _ _ _ _ hvalue => reads_entry hvalue (isKey_keyKind key)⟩

/-- Simple data can be written if its names can be spelled. -/
theorem legible_of_isSimple (hsimple : d.isSimple = true) (hspellable : d.isSpellable = true) :
    Glyph.Legible d.glyphs := by
  cases d with
  | str span text => exact List.forall_mem_singleton.2 (Piece.regular_plain text)
  | int | null => exact List.forall_mem_singleton.2 trivial
  | float => exact List.forall_mem_singleton.2 hspellable
  | bool span b => cases b <;> exact List.forall_mem_singleton.2 trivial
  | reference span name path =>
    obtain ⟨hname, hpath⟩ := Bool.and_eq_true_iff.1 hspellable
    exact Glyph.legible_token_iff.2 ⟨trivial,
      Glyph.legible_token_iff.2 ⟨hname, legible_path (List.all_eq_true.1 hpath)⟩⟩
  | _ => cases hsimple

/-- Data without brackets is conveyed as it is printed. -/
theorem conveys_simple (hf : ∀ a b, f a = f b) (hsimple : d.isSimple = true) (hspellable : d.isSpellable = true) :
    ConveysData f d.print.toList (Glyph.tokens d.glyphs) d := by
  have hcanonical : d.canonical = d := by
    cases d with
    | str | int | float | bool | null | reference => rfl
    | _ => cases hsimple
  have hcomma : (Glyph.tokens d.glyphs).head? ≠ some (.mark .comma) := by
    cases d with
    | bool span b => cases b <;> rintro ⟨⟩
    | str | int | float | null | reference => rintro ⟨⟩
    | _ => cases hsimple
  have hshows := shows_canonical hf d
  rw [hcanonical] at hshows
  exact ⟨hshows.conveys (legible_of_isSimple hsimple hspellable) hcomma,
    fun next rest name tail _ => hshows.unlabelled next rest name tail⟩

/-- The bare name of a constructor is read as a call without arguments, if no arguments and no block follow. -/
theorem conveys_bare (hf : ∀ a b, f a = f b) (span : Span) {ctor : String} (hctor : isName ctor = true) :
    ConveysData f ctor.toList [.name ctor] (.call span ctor []) where
  passes st hstart _ := by
    have hrow : Passes Glyph.Bounded st (Glyph.text [.token (.name ctor)]) [.name ctor] :=
      .row hstart fun rest hrest => ⟨hctor, hrest.endsAt _, by rintro ⟨⟩, trivial⟩
    rwa [Glyph.text_cons, Glyph.text_nil, List.append_nil] at hrow
  opens := ⟨_, _, rfl, by rintro ⟨⟩, by rintro ⟨⟩, by rintro b ⟨⟩⟩
  ends := by rintro ⟨⟩
  closed _ := rfl
  reads levels next rest hends := by
    have hparen : next ≠ .mark .leftParen := hends.ne_mark (by rintro ⟨⟩) (by rintro (_ | _ | _) ⟨⟩)
    have hcolon : next ≠ .mark .colon := hends.ne_mark (by rintro ⟨⟩) (by rintro (_ | _ | _) ⟨⟩)
    refine reads_dataWithin (fun levels => reads_start.bind fun start _ => reads_kind.bind_eq ?_) levels
    change Reads (constructorForm start ctor _ _) _ _ _
    refine (reads_isAhead_of_ne hparen).bind_eq ((reads_isAhead_of_ne hcolon).bind_eq ?_)
    refine Reads.glance.bind fun _ _ => reads_advance.bind fun _ _ => (reads_spanFrom start).bind fun here _ => .pure ?_
    rw [SameData, Data.relocate, Data.relocate, hf here span]
  unlabelled next rest name tail hends hlabel :=
    hends.ne_mark (by rintro ⟨⟩) (by rintro (_ | _ | _) ⟨⟩) (List.cons.inj (List.cons.inj hlabel).2).1

/-- **Data is conveyed in bracket notation,** whatever its layout. -/
theorem exists_conveys_bracketed (hf : ∀ a b, f a = f b) (h : d.Bracketed text) (hspellable : d.isSpellable = true) :
    ∃ kinds, ConveysData f text kinds d := by
  induction h with
  | simple hsimple => exact ⟨_, conveys_simple hf hsimple hspellable⟩
  | bare span ctor => exact ⟨_, conveys_bare hf span (Bool.and_eq_true_iff.1 hspellable).1⟩
  | @list span lead rows hlead hseparated _ ih =>
    have hspellable := Data.areSpellableItems_iff.1 hspellable
    have hitems : ∀ row ∈ rows, ∃ kinds,
        Conveys dataWithin (Data.itemLabel row.part ++ row.text) kinds (SameData f row.part) := by
      intro row hrow
      obtain ⟨kinds, hvalue⟩ := ih row hrow (hspellable _ (List.mem_map_of_mem hrow))
      exact ⟨kinds, hvalue.toConveys⟩
    obtain ⟨inside, hconveys⟩ := exists_conveys_brackets (opening_mark .square) hlead hseparated hitems
      fun _ _ _ hparts levels => reads_list hf hparts span levels
    exact ⟨_, hconveys, by rintro next rest name tail - ⟨⟩⟩
  | @call span ctor lead rows hlead hseparated _ ih =>
    obtain ⟨hctor, hargs⟩ := Bool.and_eq_true_iff.1 hspellable
    have hspellable := Data.areSpellableArguments_iff.1 hargs
    have hargs : ∀ row ∈ rows, ∃ kinds, Conveys (fun levels => dataArgument (dataWithin levels))
        (Data.argumentLabel row.part ++ row.text) kinds (SameArgument f row.part) := by
      intro row hrow
      obtain ⟨hlabel, hvalue⟩ := hspellable _ (List.mem_map_of_mem hrow)
      obtain ⟨kinds, hvalue⟩ := ih row hrow hvalue
      exact hvalue.exists_argument hlabel
    obtain ⟨inside, hconveys⟩ := exists_conveys_brackets (opening_call hctor) hlead hseparated hargs
      fun _ _ _ hparts levels => reads_call hf hparts span ctor levels
    have htext : Glyph.text [.token (.name ctor), .token (.mark .leftParen)] = ctor.toList ++ ['('] := rfl
    rw [htext, List.append_assoc] at hconveys
    exact ⟨_, hconveys, by rintro next rest name tail - ⟨⟩⟩
  | @record span lead rows hlead hseparated _ ih =>
    have hspellable := Data.areSpellableEntries_iff.1 hspellable
    have hentries : ∀ row ∈ rows, ∃ kinds, Conveys (fun levels => entry (dataWithin levels))
        (Data.entryLabel row.part ++ row.text) kinds (SameEntry f row.part) := by
      intro row hrow
      obtain ⟨kinds, hvalue⟩ := ih row hrow (hspellable _ (List.mem_map_of_mem hrow))
      exact hvalue.exists_entry row.part.key row.part.span
    obtain ⟨inside, hconveys⟩ := exists_conveys_brackets (opening_mark .brace) hlead hseparated hentries
      fun _ _ _ hparts levels => reads_record hf hparts span levels
    exact ⟨_, hconveys, by rintro next rest name tail - ⟨⟩⟩

/-- Data is conveyed in every layout. -/
theorem exists_conveys_laidOut (hf : ∀ a b, f a = f b) (h : d.LaidOut text) (hspellable : d.isSpellable = true) :
    ∃ kinds, ConveysData f text kinds d := exists_conveys_bracketed hf h.bracketed hspellable

end Parser

namespace Data

variable {d : Data} {text : List Char}

/-- In every layout data starts with a token. -/
theorem LaidOut.exists_cons (h : d.LaidOut text) (hspellable : d.isSpellable = true) :
    ∃ c tail, text = c :: tail ∧ Lexeme.StartsToken c tail := by
  cases h with
  | simple hsimple =>
    have hshows := Parser.shows_canonical (f := fun _ => .zero) (fun _ _ => rfl) d
    have hread := (hshows.row (Parser.legible_of_isSimple hsimple hspellable)).readable [] Glyph.bounded_nil
    obtain ⟨kind, gs, hgs, -⟩ := hshows.starts
    rw [hshows.text, ← List.append_nil (Glyph.text d.glyphs)]
    exact hread.exists_cons ⟨_, gs, hgs, by rintro ⟨⟩⟩
  | list | record => exact ⟨_, _, rfl, by constructor <;> rintro ⟨⟩⟩
  | call span ctor =>
    obtain ⟨hctor, -⟩ := Bool.and_eq_true_iff.1 hspellable
    have hword := (Bool.and_eq_true_iff.1 hctor).1
    cases hchars : ctor.toList with
    | nil =>
      rw [hchars] at hword
      cases hword
    | cons c tail =>
      rw [hchars] at hword
      exact ⟨c, _, rfl, .of_isWordChar (Lexeme.Quotation.forall_isWordChar_of_isWord hword c (.head _)) _⟩

/-- **Data is read in every layout,** at other places, and nothing of the text is left; or the data is nested too
deeply.  All names in it have to be names, and all floats finite. -/
theorem reads_laidOut {d : Data} {text : String} (h : d.LaidOut text.toList) (hspellable : d.isSpellable = true) :
    ∃ tokens, scan text = .ok tokens ∧
      ((∃ span c, Parser.data.outcome (Cursor.ofTokens tokens) = (.error (.tooDeep span), c)) ∨
        ∃ d' c, Parser.data.outcome (Cursor.ofTokens tokens) = (.ok d', c) ∧ c.At [.newline, .eof] ∧
          d'.relocate (fun _ => .zero) = d.relocate fun _ => .zero) := by
  obtain ⟨kinds, hconveys⟩ := Parser.exists_conveys_laidOut (f := fun _ => .zero) (fun _ _ => rfl) h hspellable
  obtain ⟨kind, tail, hkinds, hnewline, -⟩ := hconveys.opens
  have hkind : ∃ kind ∈ kinds, kind ≠ .newline := ⟨kind, hkinds ▸ List.mem_cons_self, hnewline⟩
  obtain ⟨tokens, hscan, htokens⟩ :=
    exists_scan_passes (h.exists_cons hspellable) hkind (hconveys.closed 0) hconveys.passes
  have hat := Cursor.at_ofTokens htokens (List.append_ne_nil_of_right_ne_nil _ (List.cons_ne_nil _ _))
  exact ⟨tokens, hscan, hconveys.reads maxNesting .newline [.eof] .newline _ hat⟩

/-- A list of integers. -/
def pair : Data := .list .zero [.int .zero .one, .int .zero .minusTwo]

/-- A record with a key that is no name. -/
def keyed : Data := .record .zero [⟨"a b", .zero, .reference .zero "x" ["y"]⟩]

/-- A constructor with a list and a record. -/
def mixed : Data := .call .zero "t" [⟨none, pair⟩, ⟨some "r", keyed⟩]

/-- A list with a line break and a comma behind the last item. -/
theorem laidOut_pair : pair.LaidOut "[1\n-2,]".toList := by
  refine @LaidOut.list .zero [] [⟨.int .zero .one, ['1'], ['\n']⟩, ⟨.int .zero .minusTwo, ['-', '2'], [',']⟩]
    (by decide) ⟨?_, .inr ?_⟩ ?_
  · exact .breaks (by decide) (by decide)
  · exact Separator.comma (List.forall_mem_nil _) (List.forall_mem_nil _)
  · exact List.forall_mem_cons.2 ⟨.simple rfl, List.forall_mem_singleton.2 (.simple rfl)⟩

/-- A record whose key is a text, with a reference in it. -/
theorem laidOut_keyed : keyed.LaidOut "\x7b\"a b\": !x.y\n\x7d".toList :=
  @LaidOut.record .zero [] [⟨⟨"a b", .zero, .reference .zero "x" ["y"]⟩, "!x.y".toList, ['\n']⟩] (by decide)
    (.inl (by decide)) (List.forall_mem_singleton.2 (.simple rfl))

/-- A text with line breaks and commas between the parts, and with both. -/
def mixedText : String := "t(\n[1\n-2,]\n,\nr: \x7b\"a b\": !x.y\n\x7d,)"

/-- A call with a list and a record, with line breaks and commas between the parts. -/
theorem laidOut_mixed : mixed.LaidOut mixedText.toList := by
  refine @LaidOut.call .zero "t" ['\n'] [⟨⟨none, pair⟩, "[1\n-2,]".toList, ['\n', ',', '\n']⟩,
    ⟨⟨some "r", keyed⟩, "\x7b\"a b\": !x.y\n\x7d".toList, [',']⟩] (by decide) ⟨?_, .inr ?_⟩ ?_
  · exact @Separator.comma ['\n'] ['\n'] (by decide) (by decide)
  · exact Separator.comma (List.forall_mem_nil _) (List.forall_mem_nil _)
  · exact List.forall_mem_cons.2 ⟨laidOut_pair, List.forall_mem_singleton.2 laidOut_keyed⟩

/-- Brackets inside brackets, with commas and line breaks in all possible places. -/
theorem reads_laidOut_mixed : mixed.LaidOut mixedText.toList ∧ mixed.isSpellable = true ∧
    ∃ tokens d c, scan mixedText = .ok tokens ∧ Parser.data.outcome (Cursor.ofTokens tokens) = (.ok d, c) ∧
      c.At [.newline, .eof] ∧ d.relocate (fun _ => .zero) = mixed.relocate fun _ => .zero := by
  have hspellable : mixed.isSpellable = true := by decide +kernel
  have hshallow : (Data.read mixedText).toOption.isSome = true := by decide +kernel
  obtain ⟨tokens, hscan, ⟨span, c, hdeep⟩ | ⟨d, c, hread, hend, hd⟩⟩ := reads_laidOut laidOut_mixed hspellable
  · rw [Data.read_eq hscan, hdeep] at hshallow
    cases hshallow
  · exact ⟨laidOut_mixed, hspellable, tokens, d, c, hscan, hread, hend, hd⟩

/-! ## The printed layout -/

/-- Items are printed one by one. -/
theorem printItems_eq_map (items : List Data) : printItems items = items.map print := by
  induction items with
  | nil => rfl
  | cons d ds ih => rw [printItems, ih, List.map_cons]

/-- Arguments are printed one by one, behind their labels. -/
theorem printArguments_eq_map (args : List (Argument Data)) :
    printArguments args = args.map fun arg => labelled arg.name arg.value.print := by
  induction args with
  | nil => rfl
  | cons arg args ih => rw [printArguments, ih, List.map_cons]

/-- Entries are printed one by one, behind their keys. -/
theorem printEntries_eq_map (entries : List (Entry Data)) :
    printEntries keyText entries = entries.map fun e => keyText e.key ++ ": " ++ e.value.print := by
  induction entries with
  | nil => rfl
  | cons e entries ih => rw [printEntries, ih, List.map_cons]

/-- Texts with labels and with commas between them are printed like parts in a layout. -/
theorem toList_commaSeparated {X : Type} (label text : X → List Char) (write : X → String)
    (h : ∀ x, (write x).toList = label x ++ text x) (xs : List X) :
    (commaSeparated (xs.map write)).toList = Laid.spread label (Laid.commas text xs) := by
  rw [commaSeparated, String.toList_intercalate, Laid.spread_commas, List.map_map]
  exact congrArg _ (List.map_congr_left fun x _ => h x)

/-- Values that are laid out are so with commas between them. -/
theorem laidOut_commas {X : Type} {value : X → Data} {xs : List X}
    (h : ∀ x ∈ xs, (value x).LaidOut (value x).print.toList) :
    ∀ row ∈ Laid.commas (fun x => (value x).print.toList) xs, (value row.part).LaidOut row.text := by
  intro row hrow
  obtain ⟨hpart, htext⟩ := Laid.of_mem_commas hrow
  rw [htext]
  exact h _ hpart

mutual

/-- **The printed text is a layout of the data,** if no indented notation is in it. -/
theorem laidOut_print : (d : Data) → d.isCanonical = true → d.LaidOut d.print.toList
  | .str .., _ | .int .., _ | .float .., _ | .bool .., _ | .null _, _ | .reference .., _ => .simple rfl
  | .list span items, h => by
    have hitems := laidOut_commas (laidOut_items items h)
    have hlayout := LaidOut.list span (List.forall_mem_nil _) (Laid.separated_commas _ items) hitems
    rw [Laid.map_part_commas] at hlayout
    rw [print, printItems_eq_map, String.toList_append, String.toList_append,
      toList_commaSeparated itemLabel (fun d => d.print.toList) print fun _ => rfl]
    exact hlayout
  | .call span ctor args, h => by
    have hargs := laidOut_commas (laidOut_arguments args h)
    have hlayout := LaidOut.call span ctor (List.forall_mem_nil _) (Laid.separated_commas _ args) hargs
    have htext : ∀ arg : Argument Data,
        (labelled arg.name arg.value.print).toList = argumentLabel arg ++ arg.value.print.toList := by
      rintro ⟨_ | name, d⟩ <;> simp [labelled, argumentLabel]
    rw [Laid.map_part_commas] at hlayout
    rw [print, printArguments_eq_map, String.toList_append, String.toList_append, String.toList_append,
      toList_commaSeparated argumentLabel (fun arg => arg.value.print.toList) _ htext, List.append_assoc,
      List.append_assoc]
    exact hlayout
  | .record span entries, h => by
    have hentries := laidOut_commas (laidOut_entries entries h)
    have hlayout := LaidOut.record span (List.forall_mem_nil _) (Laid.separated_commas _ entries) hentries
    rw [Laid.map_part_commas] at hlayout
    rw [print, printEntries_eq_map, String.toList_append, String.toList_append,
      toList_commaSeparated entryLabel (fun e => e.value.print.toList) _ fun _ => String.toList_append]
    exact hlayout

/-- Printed items are laid out. -/
theorem laidOut_items : (items : List Data) → areCanonicalItems items = true →
    ∀ d ∈ items, d.LaidOut d.print.toList
  | [], _ => List.forall_mem_nil _
  | d :: ds, h => by
    obtain ⟨hd, hds⟩ := Bool.and_eq_true_iff.1 h
    exact List.forall_mem_cons.2 ⟨laidOut_print d hd, laidOut_items ds hds⟩

/-- Printed arguments are laid out. -/
theorem laidOut_arguments : (args : List (Argument Data)) → areCanonicalArguments args = true →
    ∀ arg ∈ args, arg.value.LaidOut arg.value.print.toList
  | [], _ => List.forall_mem_nil _
  | ⟨_, d⟩ :: args, h => by
    obtain ⟨hd, hargs⟩ := Bool.and_eq_true_iff.1 h
    exact List.forall_mem_cons.2 ⟨laidOut_print d hd, laidOut_arguments args hargs⟩

/-- Printed entries are laid out. -/
theorem laidOut_entries : (entries : List (Entry Data)) → areCanonicalEntries entries = true →
    ∀ e ∈ entries, e.value.LaidOut e.value.print.toList
  | [], _ => List.forall_mem_nil _
  | ⟨_, _, d⟩ :: entries, h => by
    obtain ⟨hd, hentries⟩ := Bool.and_eq_true_iff.1 h
    exact List.forall_mem_cons.2 ⟨laidOut_print d hd, laidOut_entries entries hentries⟩

end

end Data

end TypedData
