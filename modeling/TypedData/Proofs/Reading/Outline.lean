import TypedData.Load
import TypedData.Proofs.Reading.Blocks

/-!
# Outlines

An outline is a constructor with its entries on indented lines under it.  The value of an entry stands in the same
line, in bracket notation; or it is a block of entries or of dashed items on the lines below.  An item is again a value
in the line of its dash, or a record, whose first entry is in the line of the dash and whose further entries are below
(`Outline.Field`, `Outline.Dash`).  Every block is indented deeper than what it belongs to, by any number of spaces.

At any indentation an outline is read as the call of the constructor, with named arguments, records and lists in the
place of the blocks (`Outline.read_outline`).
-/

namespace TypedData

namespace Outline

/-! ## Trees -/

/-- A value in its line, in bracket notation. -/
structure Inline where
  data : Data
  text : List Char
  isBracketed : data.Bracketed text
  isSpellable : data.isSpellable = true

/-- A key, as it is written. -/
structure Key where
  text : String
  kind : TokenKind
  isKey : IsKey text kind

mutual

/-- An entry in a block.  The block under it is indented deeper by one space and as many as are given. -/
inductive Field where
  | line (key : Key) (value : Inline)
  | fields (key : Key) (deeper : Nat) (first : Field) (further : List Field)
  | dashes (key : Key) (deeper : Nat) (first : Dash) (further : List Dash)

/-- An item after a dash.  The further entries of a record are indented deeper than the dash by one space and as many
as are given. -/
inductive Dash where
  | line (value : Inline)
  | record (key : Key) (value : Inline) (deeper : Nat) (further : List Field)

end

mutual

/-- How an entry is written in a block of this width. -/
def Field.chars (width : Nat) : Field → List Char
  | .line key value => key.kind.spelling ++ ':' :: ' ' :: (value.text ++ ['\n'])
  | .fields key deeper first further => key.kind.spelling ++ ':' :: '\n' ::
    indentedBy (width + deeper + 1) (first.chars (width + deeper + 1) :: charsOfFields (width + deeper + 1) further)
  | .dashes key deeper first further => key.kind.spelling ++ ':' :: '\n' ::
    indentedBy (width + deeper + 1) (first.chars (width + deeper + 1) :: charsOfDashes (width + deeper + 1) further)

/-- How an item is written in a block of this width. -/
def Dash.chars (width : Nat) : Dash → List Char
  | .line value => '-' :: ' ' :: (value.text ++ ['\n'])
  | .record key value deeper further => '-' :: ' ' :: (key.kind.spelling ++ ':' :: ' ' :: (value.text ++ '\n' ::
    indentedBy (width + deeper + 1) (charsOfFields (width + deeper + 1) further)))

/-- How entries are written in a block of this width. -/
def charsOfFields (width : Nat) : List Field → List (List Char)
  | [] => []
  | field :: fields => field.chars width :: charsOfFields width fields

/-- How items are written in a block of this width. -/
def charsOfDashes (width : Nat) : List Dash → List (List Char)
  | [] => []
  | dash :: dashes => dash.chars width :: charsOfDashes width dashes

end

mutual

/-- The entry in bracket notation. -/
def Field.entry : Field → Entry Data
  | .line key value => ⟨key.text, .zero, value.data⟩
  | .fields key _ first further => ⟨key.text, .zero, .record .zero (first.entry :: entries further)⟩
  | .dashes key _ first further => ⟨key.text, .zero, .list .zero (first.data :: items further)⟩

/-- The item in bracket notation. -/
def Dash.data : Dash → Data
  | .line value => value.data
  | .record key value _ further => .record .zero (⟨key.text, .zero, value.data⟩ :: entries further)

/-- Entries in bracket notation. -/
def entries : List Field → List (Entry Data)
  | [] => []
  | field :: fields => field.entry :: entries fields

/-- Items in bracket notation. -/
def items : List Dash → List Data
  | [] => []
  | dash :: dashes => dash.data :: items dashes

end

end Outline

/-- A constructor over a block of entries. -/
structure Outline where
  ctor : String
  isName_ctor : isName ctor = true
  deeper : Nat
  first : Outline.Field
  further : List Outline.Field

namespace Outline

/-- How an outline is written. -/
def text (o : Outline) : String :=
  .ofList (o.ctor.toList ++ ':' :: '\n' ::
    indentedBy (o.deeper + 1) (charsOfFields (o.deeper + 1) (o.first :: o.further)))

/-- The outline in bracket notation: a call with named arguments. -/
def data (o : Outline) : Data :=
  .call .zero o.ctor ((entries (o.first :: o.further)).map fun e => ⟨some e.key, e.value⟩)

/-- Fields are written one by one. -/
theorem charsOfFields_eq_map (width : Nat) (fields : List Field) :
    charsOfFields width fields = fields.map (Field.chars width) := by
  induction fields with
  | nil => rfl
  | cons field fields ih => rw [charsOfFields, ih, List.map_cons]

/-- Items behind dashes are written one by one. -/
theorem charsOfDashes_eq_map (width : Nat) (dashes : List Dash) :
    charsOfDashes width dashes = dashes.map (Dash.chars width) := by
  induction dashes with
  | nil => rfl
  | cons dash dashes ih => rw [charsOfDashes, ih, List.map_cons]

/-- Fields stand for their entries, one for one. -/
theorem entries_eq_map (fields : List Field) : entries fields = fields.map Field.entry := by
  induction fields with
  | nil => rfl
  | cons field fields ih => rw [entries, ih, List.map_cons]

/-- Dashes stand for their data, one for one. -/
theorem items_eq_map (dashes : List Dash) : items dashes = dashes.map Dash.data := by
  induction dashes with
  | nil => rfl
  | cons dash dashes ih => rw [items, ih, List.map_cons]

end Outline

/-! ## Reading -/

namespace Parser

open Cursor (At)

variable {f : Span → Span}

/-- What is indented more deeply is so by at least one blank. -/
theorem lt_deeper (width deeper : Nat) : width < width + deeper + 1 := Nat.lt_succ_of_le (Nat.le_add_right _ _)

mutual

/-- An entry is conveyed with all that is under it. -/
theorem exists_conveysField (hf : ∀ a b, f a = f b) : (field : Outline.Field) → (width : Nat) → ∃ kinds,
    ConveysItem (fun levels => entryLine (valueWithin levels)) false width (field.chars width) kinds
      (MeansEntry f field.entry)
  | .line key value, width => by
    obtain ⟨kinds, hvalue⟩ := exists_conveys_bracketed hf value.isBracketed value.isSpellable
    exact ⟨_, hvalue.conveysEntry value.isBracketed.canonical_eq key.isKey width⟩
  | .fields key deeper first further, width => by
    obtain ⟨kinds, hblock⟩ := exists_conveysBlock (List.cons_ne_nil first further) (List.forall_mem_cons.2
      ⟨exists_conveysField hf first (width + deeper + 1), exists_conveysFields hf further (width + deeper + 1)⟩)
    rw [Outline.Field.chars, Outline.Field.entry, Outline.charsOfFields_eq_map, Outline.entries_eq_map]
    exact ⟨_, hblock.conveysEntry (lt_deeper width deeper) key.isKey (hblock.reads_record hf)⟩
  | .dashes key deeper first further, width => by
    obtain ⟨kinds, hblock⟩ := exists_conveysBlock (List.cons_ne_nil first further) (List.forall_mem_cons.2
      ⟨exists_conveysDash hf first (width + deeper + 1), exists_conveysDashes hf further (width + deeper + 1)⟩)
    rw [Outline.Field.chars, Outline.Field.entry, Outline.charsOfDashes_eq_map, Outline.items_eq_map]
    exact ⟨_, hblock.conveysEntry (lt_deeper width deeper) key.isKey (hblock.reads_list hf)⟩

/-- An item is conveyed with all that is under it. -/
theorem exists_conveysDash (hf : ∀ a b, f a = f b) : (dash : Outline.Dash) → (width : Nat) → ∃ kinds,
    ConveysItem (fun levels => dashItem (dataWithin levels) (valueWithin levels)) true width (dash.chars width) kinds
      (MeansData f dash.data)
  | .line value, width => by
    obtain ⟨kinds, hvalue⟩ := exists_conveys_bracketed hf value.isBracketed value.isSpellable
    exact ⟨_, hvalue.conveysDash value.isBracketed.canonical_eq width⟩
  | .record key value deeper further, width => by
    obtain ⟨kinds, hvalue⟩ := exists_conveys_bracketed hf value.isBracketed value.isSpellable
    obtain ⟨underKinds, hunder⟩ := exists_conveysFurther (lt_deeper width deeper)
      (exists_conveysFields hf further (width + deeper + 1))
    rw [Outline.Dash.chars, Outline.Dash.data, Outline.charsOfFields_eq_map, Outline.entries_eq_map]
    exact ⟨_, hvalue.conveysDashRecord hf value.isBracketed.canonical_eq key.isKey hunder⟩

/-- Each field is read as its entry. -/
theorem exists_conveysFields (hf : ∀ a b, f a = f b) : (fields : List Outline.Field) → (width : Nat) →
    ∀ field ∈ fields, ∃ kinds, ConveysItem (fun levels => entryLine (valueWithin levels)) false width
      (field.chars width) kinds (MeansEntry f field.entry)
  | [], _ => List.forall_mem_nil _
  | field :: fields, width =>
    List.forall_mem_cons.2 ⟨exists_conveysField hf field width, exists_conveysFields hf fields width⟩

/-- Each item behind a dash is read as its data. -/
theorem exists_conveysDashes (hf : ∀ a b, f a = f b) : (dashes : List Outline.Dash) → (width : Nat) →
    ∀ dash ∈ dashes, ∃ kinds, ConveysItem (fun levels => dashItem (dataWithin levels) (valueWithin levels)) true width
      (dash.chars width) kinds (MeansData f dash.data)
  | [], _ => List.forall_mem_nil _
  | dash :: dashes, width =>
    List.forall_mem_cons.2 ⟨exists_conveysDash hf dash width, exists_conveysDashes hf dashes width⟩

end

/-- A constructor over a block of entries is read as a call with named arguments. -/
theorem reads_outline (hf : ∀ a b, f a = f b) {ctor : String} {width : Nat} {text : List Char} {kinds : List TokenKind}
    {entries : List (Entry Data)}
    (h : ConveysBlock (fun levels => entryLine (valueWithin levels)) false width text kinds
      (List.Forall₂ (MeansEntry f) entries)) (next : TokenKind) (rest : List TokenKind) :
    Reads data (At (.name ctor :: .mark .colon :: .newline :: .indent :: (kinds ++ .dedent :: next :: rest)))
      (AtAfter .dedent (next :: rest))
      (MeansData f (.call .zero ctor (entries.map fun e => ⟨some e.key, e.value⟩))) := by
  refine reads_dataWithin (fun levels => ?_) maxNesting
  have hdash := h.opens.reads_isAt (.dedent :: next :: rest)
  have hlines := h.reads levels next rest
  obtain ⟨first, tail, rfl, -⟩ := h.opens
  refine reads_start.bind fun start _ => reads_kind.bind_eq ?_
  change Reads (constructorForm start ctor _ _) _ _ _
  refine (reads_isAhead_of_ne (by rintro ⟨⟩)).bind_eq (reads_isAhead_self.bind_eq ?_)
  refine reads_isFurtherAhead_self.bind_eq (reads_advance.bind fun _ _ => reads_advance.bind fun _ _ => ?_)
  refine reads_advance.bind fun _ _ => reads_expect.bind fun _ _ => hdash.bind_eq ?_
  refine hlines.bind fun entries' hentries => (reads_spanFrom start).bind fun here _ => .pure ?_
  rw [MeansData, SameData, Data.canonical, Data.relocate, Data.relocate, relocateArguments_of_means hentries,
    hf here .zero]

/-- A document of a single value, which starts with the name of a constructor over a block. -/
theorem reads_singleValue {d : Data} {ctor : String} {tail : List TokenKind}
    (h : Reads data (At (.name ctor :: .mark .colon :: .newline :: tail)) (AtAfter .dedent [.eof]) (MeansData f d)) :
    Reads document (At (.name ctor :: .mark .colon :: .newline :: tail)) (At [.eof]) fun doc =>
      ∃ d', doc.canonical = ⟨[.value d']⟩ ∧ SameData f d d' := by
  have hitem : Reads item (At (.name ctor :: .mark .colon :: .newline :: tail)) (AtAfter .dedent [.eof])
      fun item => ∃ d', item.canonical = .value d' ∧ SameData f d d' := by
    refine reads_kind.bind_eq ?_
    refine (reads_isAhead_of_ne (by rintro ⟨⟩)).bind_eq (reads_isAhead_self.bind_eq ?_)
    refine reads_isFurtherAhead_self.bind_eq ?_
    exact h.map fun d' hd => ⟨_, rfl, hd⟩
  have hline : Reads (do
      let item ← item
      endLine
      return item) (At (.name ctor :: .mark .colon :: .newline :: tail)) (At [.eof])
      fun item => ∃ d', item.canonical = .value d' ∧ SameData f d d' :=
    hitem.bind fun item hitem => (reads_endLine_of_dedent (by rintro ⟨⟩)).bind fun _ _ => .pure hitem
  have hmore : Reads moreItems (At (.name ctor :: .mark .colon :: .newline :: tail))
      (At (.name ctor :: .mark .colon :: .newline :: tail)) (· = true) :=
    (reads_skipNewlines (by rintro ⟨⟩)).bind fun _ _ => (reads_isAt_of_ne (by rintro ⟨⟩)).bind_eq (.pure rfl)
  have hend : Reads moreItems (At [.eof]) (At [.eof]) (· = false) :=
    (reads_skipNewlines (by rintro ⟨⟩)).bind fun _ _ => reads_isAt_self.bind_eq (.pure rfl)
  refine (reads_rounds_singleton hmore hline hend).bind fun items hitems => .pure ?_
  obtain ⟨item, rfl, d', hcanonical, hd⟩ := hitems
  exact ⟨d', by rw [Document.canonical, List.map_singleton, hcanonical], hd⟩

end Parser

namespace Outline

open TypedData.Parser

/-- The text of an outline is read as the tokens of its block behind the name of the constructor. -/
theorem exists_scan {α : Type} {p : Nat → Parser α} {kinds : List TokenKind} {P : List α → Prop} (o : Outline)
    (h : ConveysBlock p false (o.deeper + 1) (indentedBy (o.deeper + 1) ((o.first :: o.further).map
      (Field.chars (o.deeper + 1)))) kinds P) :
    ∃ tokens, scan o.text = .ok tokens ∧
      tokens.map Token.kind = .name o.ctor :: .mark .colon :: .newline :: .indent :: (kinds ++ [.dedent, .eof]) := by
  have hkey : IsKey o.ctor (.name o.ctor) := .name o.isName_ctor
  have hitem := hkey.leads.passesLine_nil.item (h.passes [] (Nat.succ_pos _)) [] [.eof] resumes_nil
  have hinitial : ScanState.initial.AtLine [] := ⟨rfl, rfl, rfl, rfl, rfl⟩
  obtain ⟨tokens, hscan, hkinds⟩ := hitem.scans_first hinitial
  rw [text_key, List.append_nil, List.append_assoc] at hscan
  rw [scan, text, String.toList_ofList, charsOfFields_eq_map]
  exact ⟨tokens, hscan, by simpa using hkinds⟩

/-- **An outline is read as the call of its constructor,** at any indentation: with the entries as named arguments,
records and lists in the place of the blocks, at other places.  Or it is nested too deeply. -/
theorem read_outline (o : Outline) :
    (∃ span, Document.read o.text = .error (.parse (.tooDeep span))) ∨
      ∃ doc d, Document.read o.text = .ok doc ∧ doc.canonical = ⟨[.value d]⟩ ∧
        d.relocate (fun _ => .zero) = o.data.relocate fun _ => .zero := by
  obtain ⟨kinds, hblock⟩ := exists_conveysBlock (List.cons_ne_nil o.first o.further)
    (exists_conveysFields (f := fun _ => .zero) (fun _ _ => rfl) (o.first :: o.further) (o.deeper + 1))
  obtain ⟨tokens, hscan, hkinds⟩ := o.exists_scan hblock
  have hat := Cursor.at_ofTokens hkinds (List.cons_ne_nil _ _)
  have hread : Document.read o.text =
      ((Parser.document.outcome (Cursor.ofTokens tokens)).1).mapError Failure.parse := by
    rw [Document.read, hscan]
    rfl
  rcases reads_singleValue (reads_outline (fun _ _ => rfl) hblock .eof []) _ hat with
    ⟨span, c, hdeep⟩ | ⟨doc, c, hok, -, d, hcanonical, hd⟩
  · exact .inl ⟨span, by rw [hread, hdeep]; rfl⟩
  · refine .inr ⟨doc, d, by rw [hread, hok]; rfl, hcanonical, ?_⟩
    rw [Outline.data, entries_eq_map]
    exact hd

/-- A value as it is printed. -/
def Inline.printed (d : Data) (hcanonical : d.isCanonical = true) (hspellable : d.isSpellable = true) : Inline :=
  ⟨d, d.print.toList, (d.laidOut_print hcanonical).bracketed, hspellable⟩

/-- A key that is a name. -/
def Key.named (name : String) (h : isName name = true) : Key := ⟨name, .name name, .name h⟩

/-- An outline with a list, a block of items with a record among them, and a block of entries in the record. -/
def nested : Outline where
  ctor := "t"
  isName_ctor := by decide
  deeper := 1
  first := .line (.named "a" (by decide)) (.printed Data.pair rfl rfl)
  further := [.dashes ⟨"b c", _, .text⟩ 2
    (.record (.named "x" (by decide)) (.printed (.reference .zero "r" ["s"]) rfl (by decide)) 0
      [.fields (.named "y" (by decide)) 1 (.line (.named "z" (by decide)) ⟨_, _, .bare .zero "u", by decide⟩) []])
    [.line (.printed (.int .zero .minusTwo) rfl rfl)]]

/-- Two blocks end at once before the last line, and two at the end of the text. -/
theorem read_outline_nested :
    nested.text = "t:\n  a: [1, -2]\n  \"b c\":\n     - x: !r.s\n      y:\n        z: u\n     - -2\n" ∧
      ∃ doc d, Document.read nested.text = .ok doc ∧ doc.canonical = ⟨[.value d]⟩ ∧
        d.relocate (fun _ => .zero) = nested.data.relocate fun _ => .zero := by
  have htext : nested.text =
      "t:\n  a: [1, -2]\n  \"b c\":\n     - x: !r.s\n      y:\n        z: u\n     - -2\n" := by decide +kernel
  have hshallow : (Document.read nested.text).toOption.isSome = true := by
    rw [htext]
    decide +kernel
  refine ⟨htext, ?_⟩
  rcases read_outline nested with ⟨span, hdeep⟩ | hread
  · rw [hdeep] at hshallow
    cases hshallow
  · exact hread

end Outline

end TypedData
