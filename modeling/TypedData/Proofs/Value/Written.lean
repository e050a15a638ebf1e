import TypedData.Proofs.Reading.Data
import TypedData.Proofs.Value.Part

/-!
# Values as data

A value is written like data (`Value.written`): the record of a constructor like a call with its fields as
arguments, and a record without one like its entries.  If every part of the value can be read at all
(`Value.IsLegible`), the data is written as the value is (`Value.print_written`), and its tokens can be read
(`Value.legible_written`).
-/

namespace TypedData

namespace Value

mutual

/-- The data that a value is written like. -/
def written : Value → Data
  | null => .null .zero
  | bool b => .bool .zero b
  | int n => .int .zero n
  | float x => .float .zero x
  | str text => .str .zero text
  | list items => .list .zero (writtenItems items)
  | record _ (some ctor) fields => .call .zero ctor (writtenArguments fields)
  | record _ none fields => .record .zero (writtenEntries fields)
  | ref r => .reference .zero r.name r.path

/-- The data of the items of a list. -/
def writtenItems : List Value → List Data
  | [] => []
  | v :: vs => v.written :: writtenItems vs

/-- The fields of a constructor as arguments. -/
def writtenArguments : List (Field Value) → List (Argument Data)
  | [] => []
  | ⟨name, v⟩ :: fields => ⟨name, v.written⟩ :: writtenArguments fields

/-- The fields of a record without a constructor as entries. -/
def writtenEntries : List (Field Value) → List (Entry Data)
  | [] => []
  | ⟨name, v⟩ :: fields => ⟨name.getD "", .zero, v.written⟩ :: writtenEntries fields

end

mutual

/-- Data that is written for a value is canonical. -/
theorem canonical_written : (v : Value) → v.written.canonical = v.written
  | null | bool _ | int _ | float _ | str _ | ref _ => rfl
  | list items => by rw [written, Data.canonical, canonicalItems_written items]
  | record _ (some _) fields => by rw [written, Data.canonical, canonicalArguments_written fields]
  | record _ none fields => by rw [written, Data.canonical, canonicalEntries_written fields]

/-- Items that are written for values are canonical. -/
theorem canonicalItems_written : (vs : List Value) → Data.canonicalItems (writtenItems vs) = writtenItems vs
  | [] => rfl
  | v :: vs => by rw [writtenItems, Data.canonicalItems, canonical_written v, canonicalItems_written vs]

/-- Arguments that are written for fields are canonical. -/
theorem canonicalArguments_written : (fields : List (Field Value)) →
    Data.canonicalArguments (writtenArguments fields) = writtenArguments fields
  | [] => rfl
  | ⟨_, v⟩ :: fields => by
    rw [writtenArguments, Data.canonicalArguments, canonical_written v, canonicalArguments_written fields]

/-- Entries that are written for fields are canonical. -/
theorem canonicalEntries_written : (fields : List (Field Value)) →
    Data.canonicalEntries (writtenEntries fields) = writtenEntries fields
  | [] => rfl
  | ⟨_, v⟩ :: fields => by
    rw [writtenEntries, Data.canonicalEntries, canonical_written v, canonicalEntries_written fields]

end

/-- Whether a value can be read, as far as can be seen without looking at its parts: it is neither a reference nor a
float that is not a number, a constructor and its fields are called by names, and the fields of a record without a
constructor all have keys. -/
def IsLegible : Value → Prop
  | float x => x.isFinite = true
  | record _ (some ctor) fields =>
    isName ctor = true ∧ ∀ f ∈ fields, ∀ name, f.name = some name → isName name = true
  | record _ none fields => ∀ f ∈ fields, f.name ≠ none
  | ref _ => False
  | _ => True

/-- Every part of the value has a property. -/
abbrev Throughout (P : Value → Prop) (v : Value) : Prop := ∀ x, Part x v → P x

variable {P : Value → Prop}

/-- What holds throughout a list holds throughout its items. -/
theorem Throughout.item {items : List Value} (h : Throughout P (list items)) : ∀ v ∈ items, Throughout P v :=
  fun _ hv _ hx => h _ (.item hv hx)

/-- What holds throughout a record holds throughout its fields. -/
theorem Throughout.field {typeName ctor : Option String} {fields : List (Field Value)}
    (h : Throughout P (record typeName ctor fields)) : ∀ f ∈ fields, Throughout P f.value :=
  fun _ hf _ hx => h _ (.field hf hx)

/-- What holds of null holds throughout it. -/
theorem Throughout.null (h : P null) : Throughout P null := by
  rintro _ ⟨⟩
  exact h

/-- What holds of an integer holds throughout it. -/
theorem Throughout.int {n : Integer} (h : P (int n)) : Throughout P (int n) := by
  rintro _ ⟨⟩
  exact h

/-- What holds of a record and throughout its fields holds throughout the record. -/
theorem Throughout.of_fields {typeName ctor : Option String} {fields : List (Field Value)}
    (h : P (record typeName ctor fields)) (hfields : ∀ f ∈ fields, Throughout P f.value) :
    Throughout P (record typeName ctor fields) := by
  intro x hx
  cases hx with
  | self => exact h
  | field hf hx => exact hfields _ hf x hx

mutual

/-- **A value is written like its data.** -/
theorem print_written : (v : Value) → Throughout IsLegible v → v.written.print = v.print
  | null, _ | bool _, _ | int _, _ | float _, _ | str _, _ => rfl
  | list items, h => by rw [written, Data.print, print, printItems_written items h.item]
  | record typeName (some ctor) fields, h => by
    rw [written, Data.print, print, printArguments_written ctor fields h.field]
  | record typeName none fields, h => by
    rw [written, Data.print, print, printEntries_written fields (h _ (.self _)) h.field]
  | ref r, h => (h _ (.self _)).elim

/-- Items that can be written are printed like the data that is written for them. -/
theorem printItems_written : (vs : List Value) → (∀ v ∈ vs, Throughout IsLegible v) →
    Data.printItems (writtenItems vs) = printItems vs
  | [], _ => rfl
  | v :: vs, h => by
    obtain ⟨hv, hvs⟩ := List.forall_mem_cons.1 h
    rw [writtenItems, Data.printItems, printItems, print_written v hv, printItems_written vs hvs]

/-- Fields of a constructor that can be written are printed like the arguments that are written for them. -/
theorem printArguments_written (ctor : String) : (fields : List (Field Value)) →
    (∀ f ∈ fields, Throughout IsLegible f.value) →
      Data.printArguments (writtenArguments fields) = printFields (some ctor) fields
  | [], _ => rfl
  | ⟨name, v⟩ :: fields, h => by
    obtain ⟨hv, hfields⟩ := List.forall_mem_cons.1 h
    rw [writtenArguments, Data.printArguments, printFields, print_written v hv,
      printArguments_written ctor fields hfields]
    cases name with
    | none => rw [labelled, fieldLabel, String.empty_append]
    | some name => rfl

/-- Fields without a constructor that can be written are printed like the entries that are written for them. -/
theorem printEntries_written : (fields : List (Field Value)) → (∀ f ∈ fields, f.name ≠ none) →
    (∀ f ∈ fields, Throughout IsLegible f.value) →
      Data.printEntries keyText (writtenEntries fields) = printFields none fields
  | [], _, _ => rfl
  | ⟨none, _⟩ :: fields, hnames, _ => absurd rfl (hnames _ (.head _))
  | ⟨some name, v⟩ :: fields, hnames, h => by
    obtain ⟨-, hnames⟩ := List.forall_mem_cons.1 hnames
    obtain ⟨hv, hfields⟩ := List.forall_mem_cons.1 h
    rw [writtenEntries, Data.printEntries, printFields, print_written v hv,
      printEntries_written fields hnames hfields]
    rfl

end

mutual

/-- The tokens of a value can be read. -/
theorem legible_written : (v : Value) → Throughout IsLegible v → Glyph.Legible v.written.glyphs
  | null, _ | bool false, _ | bool true, _ | int _, _ => List.forall_mem_singleton.2 trivial
  | float _, h => List.forall_mem_singleton.2 (h _ (.self _))
  | str text, _ => List.forall_mem_singleton.2 (Piece.regular_plain text)
  | list items, h => Glyph.legible_bracketed_iff.2 (legible_writtenItems items h.item)
  | record typeName (some ctor) fields, h => by
    obtain ⟨hctor, hnames⟩ := h _ (.self _)
    exact Glyph.legible_token_iff.2
      ⟨hctor, Glyph.legible_bracketed_iff.2 (legible_writtenArguments fields hnames h.field)⟩
  | record typeName none fields, h => Glyph.legible_bracketed_iff.2 (legible_writtenEntries fields h.field)
  | ref r, h => (h _ (.self _)).elim

/-- Items that are written for values are legible. -/
theorem legible_writtenItems : (vs : List Value) → (∀ v ∈ vs, Throughout IsLegible v) →
    ∀ part ∈ Data.glyphsOfItems (writtenItems vs), Glyph.Legible part
  | [], _ => List.forall_mem_nil _
  | v :: vs, h => by
    obtain ⟨hv, hvs⟩ := List.forall_mem_cons.1 h
    exact List.forall_mem_cons.2 ⟨legible_written v hv, legible_writtenItems vs hvs⟩

/-- Arguments that are written for fields are legible, if their names are names. -/
theorem legible_writtenArguments : (fields : List (Field Value)) →
    (∀ f ∈ fields, ∀ name, f.name = some name → isName name = true) →
    (∀ f ∈ fields, Throughout IsLegible f.value) →
      ∀ part ∈ Data.glyphsOfArguments (writtenArguments fields), Glyph.Legible part
  | [], _, _ => List.forall_mem_nil _
  | ⟨none, v⟩ :: fields, hnames, h => by
    obtain ⟨-, hnames⟩ := List.forall_mem_cons.1 hnames
    obtain ⟨hv, hfields⟩ := List.forall_mem_cons.1 h
    exact List.forall_mem_cons.2 ⟨legible_written v hv, legible_writtenArguments fields hnames hfields⟩
  | ⟨some name, v⟩ :: fields, hnames, h => by
    obtain ⟨hname, hnames⟩ := List.forall_mem_cons.1 hnames
    obtain ⟨hv, hfields⟩ := List.forall_mem_cons.1 h
    have hfield : Glyph.Legible (labelGlyphs (.name name) ++ v.written.glyphs) :=
      Glyph.legible_token_iff.2 ⟨hname name rfl, Glyph.legible_token_iff.2 ⟨trivial, legible_written v hv⟩⟩
    exact List.forall_mem_cons.2 ⟨hfield, legible_writtenArguments fields hnames hfields⟩

/-- Entries that are written for fields are legible. -/
theorem legible_writtenEntries : (fields : List (Field Value)) → (∀ f ∈ fields, Throughout IsLegible f.value) →
    ∀ part ∈ Data.glyphsOfEntries keyKind (writtenEntries fields), Glyph.Legible part
  | [], _ => List.forall_mem_nil _
  | ⟨name, v⟩ :: fields, h => by
    obtain ⟨hv, hfields⟩ := List.forall_mem_cons.1 h
    have hfield : Glyph.Legible (labelGlyphs (keyKind (name.getD "")) ++ v.written.glyphs) :=
      Glyph.legible_token_iff.2
        ⟨legible_keyKind _, Glyph.legible_token_iff.2 ⟨trivial, legible_written v hv⟩⟩
    exact List.forall_mem_cons.2 ⟨hfield, legible_writtenEntries fields hfields⟩

end

/-- **A value that is written is read as its data,** at other places, or it is nested too deeply. -/
theorem read_print {f : Span → Span} (hf : ∀ a b, f a = f b) {v : Value} (h : Throughout IsLegible v) :
    (∃ span, Data.read v.print = .error (.parse (.tooDeep span))) ∨
      ∃ d, Data.read v.print = .ok d ∧ d.relocate f = v.written.relocate f := by
  have hread := Data.read_print hf (legible_written v h)
  rwa [print_written v h, canonical_written v] at hread

end Value

end TypedData
