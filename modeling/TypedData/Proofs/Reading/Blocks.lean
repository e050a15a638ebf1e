import TypedData.Proofs.Reading.Indentation
import TypedData.Proofs.Reading.Items
import TypedData.Proofs.Reading.LaidOut

/-!
# Blocks that are read

A block is read line by line up to the mark of its end (`Parser.reads_blockLines`), and a line that has a block under
it ends where the block does.  `Parser.ConveysItem` says of a line, with what is under it, that it is passed as tokens
from which it is read; `Parser.ConveysBlock` says so of the lines of a block, which are read if each of them is
(`Parser.exists_conveysBlock`).

What is read is meant up to notation: its canonical form is the data in bracket notation, at other places
(`Parser.MeansData`).
-/

namespace TypedData

/-! ## Up to notation -/

namespace Data

variable (f : Span → Span)

mutual

/-- Data may be moved before or after its shorthands are written out. -/
theorem canonical_relocate : (d : Data) → (d.relocate f).canonical = d.canonical.relocate f
  | str .. | int .. | float .. | bool .. | null .. | reference .. => rfl
  | list _ items | dashList _ items => by
    rw [relocate, canonical, canonical, relocate, canonicalItems_relocate items]
  | call _ _ args => by rw [relocate, canonical, canonical, relocate, canonicalArguments_relocate args]
  | record _ entries | fieldBlock _ entries | dashRecord _ entries => by
    rw [relocate, canonical, canonical, relocate, canonicalEntries_relocate entries]
  | ctorBlock _ _ entries => by rw [relocate, canonical, canonical, relocate, argumentsOfEntries_relocate entries]
  | listBlock _ _ items => by
    rw [relocate, canonical, canonical, relocate, canonicalItems_relocate items]
    rfl

/-- Canonical items at other places are the items at other places in canonical form. -/
theorem canonicalItems_relocate : (items : List Data) →
    canonicalItems (relocateItems f items) = relocateItems f (canonicalItems items)
  | [] => rfl
  | d :: ds => by
    rw [relocateItems, canonicalItems, canonicalItems, relocateItems, canonical_relocate d, canonicalItems_relocate ds]

/-- Canonical arguments at other places are the arguments at other places in canonical form. -/
theorem canonicalArguments_relocate : (args : List (Argument Data)) →
    canonicalArguments (relocateArguments f args) = relocateArguments f (canonicalArguments args)
  | [] => rfl
  | ⟨_, d⟩ :: args => by
    rw [relocateArguments, canonicalArguments, canonicalArguments, relocateArguments, canonical_relocate d,
      canonicalArguments_relocate args]

/-- Canonical entries at other places are the entries at other places in canonical form. -/
theorem canonicalEntries_relocate : (entries : List (Entry Data)) →
    canonicalEntries (relocateEntries f entries) = relocateEntries f (canonicalEntries entries)
  | [] => rfl
  | ⟨_, _, d⟩ :: entries => by
    rw [relocateEntries, canonicalEntries, canonicalEntries, relocateEntries, canonical_relocate d,
      canonicalEntries_relocate entries]

/-- Entries that are written as arguments at other places are those at other places, written so. -/
theorem argumentsOfEntries_relocate : (entries : List (Entry Data)) →
    argumentsOfEntries (relocateEntries f entries) = relocateArguments f (argumentsOfEntries entries)
  | [] => rfl
  | ⟨_, _, d⟩ :: entries => by
    rw [relocateEntries, argumentsOfEntries, argumentsOfEntries, relocateArguments, canonical_relocate d,
      argumentsOfEntries_relocate entries]

end

variable {f}

/-- Items that are their own canonical form are so together. -/
theorem canonicalItems_eq_self {items : List Data} (h : ∀ d ∈ items, d.canonical = d) :
    canonicalItems items = items := by
  induction items with
  | nil => rfl
  | cons d ds ih =>
    obtain ⟨hd, hds⟩ := List.forall_mem_cons.1 h
    rw [canonicalItems, hd, ih hds]

/-- Arguments that are their own canonical form are so together. -/
theorem canonicalArguments_eq_self {args : List (Argument Data)} (h : ∀ arg ∈ args, arg.value.canonical = arg.value) :
    canonicalArguments args = args := by
  induction args with
  | nil => rfl
  | cons arg args ih =>
    obtain ⟨harg, hargs⟩ := List.forall_mem_cons.1 h
    rw [canonicalArguments, harg, ih hargs]

/-- Entries that are their own canonical form are so together. -/
theorem canonicalEntries_eq_self {entries : List (Entry Data)} (h : ∀ e ∈ entries, e.value.canonical = e.value) :
    canonicalEntries entries = entries := by
  induction entries with
  | nil => rfl
  | cons e entries ih =>
    obtain ⟨he, hentries⟩ := List.forall_mem_cons.1 h
    rw [canonicalEntries, he, ih hentries]

/-- In bracket notation there are no shorthands to write out. -/
theorem Bracketed.canonical_eq {d : Data} {text : List Char} (h : d.Bracketed text) : d.canonical = d := by
  induction h with
  | @simple d hsimple =>
    cases d with
    | str | int | float | bool | null | reference => rfl
    | _ => cases hsimple
  | bare => rfl
  | list span _ _ _ ih => rw [canonical, canonicalItems_eq_self (List.forall_mem_map.2 ih)]
  | call span ctor _ _ _ ih => rw [canonical, canonicalArguments_eq_self (List.forall_mem_map.2 ih)]
  | record span _ _ _ ih => rw [canonical, canonicalEntries_eq_self (List.forall_mem_map.2 ih)]

end Data

/-! ## How a line starts -/

section Leads

open Glyph (Leads)

variable {key : String} {kind : TokenKind}

/-- No key is a line break. -/
theorem IsKey.ne_newline (h : IsKey key kind) : kind ≠ .newline := by cases h <;> rintro ⟨⟩

/-- No key opens or closes a bracket. -/
theorem IsKey.depthAfter_eq (h : IsKey key kind) (depth : Nat) : ScanState.depthAfter depth kind = depth := by
  cases h <;> rfl

/-- A key in a line is written with a colon behind it. -/
theorem text_key (kind : TokenKind) : Glyph.text [.token kind, .token (.mark .colon)] = kind.spelling ++ [':'] := rfl

/-- A key over a block. -/
theorem IsKey.leads (h : IsKey key kind) : Leads [.token kind, .token (.mark .colon)] [] where
  readable rest hrest := ⟨h.legible, (Glyph.bounded_cons (by decide) _).endsAt kind, fun _ => rfl, trivial,
    hrest.endsAt _, by rintro ⟨⟩, trivial⟩
  starts := ⟨_, _, rfl, h.ne_newline⟩
  ends := ⟨_, rfl, rfl⟩
  depth depth := h.depthAfter_eq depth

/-- A label is written with a colon and a blank behind it. -/
theorem text_labelGlyphs (kind : TokenKind) : Glyph.text (labelGlyphs kind) = kind.spelling ++ [':', ' '] := rfl

/-- A key before its value. -/
theorem IsKey.leads_label (h : IsKey key kind) (text : List Char) : Leads (labelGlyphs kind) text where
  readable _ _ := ⟨h.legible, (Glyph.bounded_cons (by decide) _).endsAt kind, fun _ => rfl, trivial,
    (Glyph.bounded_cons (by decide) _).endsAt _, by rintro ⟨⟩, trivial⟩
  starts := ⟨_, _, rfl, h.ne_newline⟩
  ends := ⟨_, rfl, rfl⟩
  depth depth := h.depthAfter_eq depth

/-- A dash before an item. -/
theorem leads_dash (text : List Char) : Leads [.token (.mark .minus), .space] text where
  readable _ _ := ⟨trivial, (Glyph.bounded_cons (by decide) _).endsAt _, by rintro ⟨⟩, trivial⟩
  starts := ⟨_, _, rfl, by rintro ⟨⟩⟩
  ends := ⟨_, rfl, rfl⟩
  depth _ := rfl

/-- A dash before an entry. -/
theorem IsKey.leads_dashed (h : IsKey key kind) (text : List Char) :
    Leads (.token (.mark .minus) :: .space :: labelGlyphs kind) text where
  readable rest hrest := ⟨trivial, (Glyph.bounded_cons (by decide) _).endsAt _, by rintro ⟨⟩,
    (h.leads_label text).readable rest hrest⟩
  starts := ⟨_, _, rfl, by rintro ⟨⟩⟩
  ends := ⟨_, rfl, rfl⟩
  depth depth := h.depthAfter_eq depth

end Leads

namespace Parser

open Cursor (At)

variable {f : Span → Span} {d d' : Data}

/-- Data that means the same, perhaps at other places: it is the same with all shorthands written out. -/
def MeansData (f : Span → Span) (d d' : Data) : Prop := SameData f d d'.canonical

/-- An entry that means the same, perhaps at other places. -/
def MeansEntry (f : Span → Span) (e e' : Entry Data) : Prop := e'.key = e.key ∧ MeansData f e.value e'.value

/-- The same data means the same, if it is in canonical form. -/
theorem SameData.means (h : SameData f d d') (hcanonical : d.canonical = d) : MeansData f d d' := by
  have hmoved := congrArg Data.canonical h
  rwa [Data.canonical_relocate, Data.canonical_relocate, hcanonical] at hmoved

/-- Items that mean the same have the same canonical form, at other places. -/
theorem relocateItems_of_means {items items' : List Data} (h : List.Forall₂ (MeansData f) items items') :
    Data.relocateItems f (Data.canonicalItems items') = Data.relocateItems f items := by
  induction h with
  | nil => rfl
  | cons hd _ ih => rw [Data.canonicalItems, Data.relocateItems, Data.relocateItems, ih, hd]

/-- Entries that mean the same have the same canonical form, at other places. -/
theorem relocateEntries_of_means (hf : ∀ a b, f a = f b) {entries entries' : List (Entry Data)}
    (h : List.Forall₂ (MeansEntry f) entries entries') :
    Data.relocateEntries f (Data.canonicalEntries entries') = Data.relocateEntries f entries := by
  induction h with
  | nil => rfl
  | @cons e e' _ _ he _ ih =>
    rw [Data.canonicalEntries, Data.relocateEntries, Data.relocateEntries, ih, he.1, he.2, hf e'.span e.span]

/-- Entries that mean the same are the same when they are written as arguments, at other places. -/
theorem relocateArguments_of_means {entries entries' : List (Entry Data)}
    (h : List.Forall₂ (MeansEntry f) entries entries') :
    Data.relocateArguments f (Data.argumentsOfEntries entries') =
      Data.relocateArguments f (entries.map fun e => ⟨some e.key, e.value⟩) := by
  induction h with
  | nil => rfl
  | cons he _ ih =>
    rw [Data.argumentsOfEntries, Data.relocateArguments, List.map_cons, Data.relocateArguments, ih, he.1, he.2]

/-! ## Lines -/

/-- An entry and the end of its line. -/
def entryLine (value : Parser Data) : Parser (Entry Data) := do
  let entry ← entry value
  endLine
  return entry

/-- The tokens start a line of a block, with a dash or without one. -/
def OpensLine (isDash : Bool) (kinds : List TokenKind) : Prop :=
  ∃ first tail, kinds = first :: tail ∧ first.Legible ∧ (first = .mark .minus ↔ isDash = true)

variable {isDash : Bool} {width : Nat} {text : List Char} {kinds rest : List TokenKind} {next : TokenKind}

/-- At the beginning of a line it can be told whether a dash is there. -/
theorem OpensLine.reads_isAt (h : OpensLine isDash kinds) (rest : List TokenKind) :
    Reads (isAt (.mark .minus)) (At (kinds ++ rest)) (At (kinds ++ rest)) (· = isDash) := by
  obtain ⟨first, tail, rfl, -, hdash⟩ := h
  refine .look fun c hc => ?_
  rw [kind_of_at hc]
  cases isDash with
  | true => exact decide_eq_true (hdash.2 rfl)
  | false => exact decide_eq_false fun hfirst => Bool.false_ne_true (hdash.1 hfirst)

/-- A line of a block, with what is under it, is passed as the tokens, and the parser reads from them something with
`P`, with the end of the line. -/
structure ConveysItem {α : Type} (p : Nat → Parser α) (isDash : Bool) (width : Nat) (text : List Char)
    (kinds : List TokenKind) (P : α → Prop) : Prop where
  passes : ∀ outer, PassesItem (width :: outer) text kinds
  opens : OpensLine isDash kinds
  reads : ∀ levels next rest, next ≠ .newline → next ≠ .indent →
    Reads (p levels) (At (kinds ++ next :: rest)) (At (next :: rest)) P

/-- The lines of a block are passed as the tokens, between the marks of a block, and read up to its end. -/
structure ConveysBlock {α : Type} (p : Nat → Parser α) (isDash : Bool) (width : Nat) (text : List Char)
    (kinds : List TokenKind) (P : List α → Prop) : Prop where
  passes : ∀ outer, outer.headD 0 < width → PassesBlock outer text (.indent :: (kinds ++ [.dedent]))
  opens : OpensLine isDash kinds
  reads : ∀ levels next rest, Reads (rounds moreLines (p levels)) (At (kinds ++ .dedent :: next :: rest))
    (AtAfter .dedent (next :: rest)) P

section Lines

variable {X α β : Type} {xs : List X} {tokens : X → List TokenKind} {P : X → α → Prop}

/-- The tokens of lines, and of what follows. -/
def lineTokens (tokens : X → List TokenKind) (after : List TokenKind) (xs : List X) : List TokenKind :=
  xs.flatMap tokens ++ after

/-- The tokens of lines are those of the first line, and those of the others behind it. -/
theorem lineTokens_cons (after : List TokenKind) (x : X) (xs : List X) :
    lineTokens tokens after (x :: xs) = tokens x ++ lineTokens tokens after xs := by
  rw [lineTokens, List.flatMap_cons, List.append_assoc]
  rfl

/-- What follows a line in a block is another line or the end of the block. -/
theorem exists_lineTokens (hopens : ∀ x ∈ xs, OpensLine isDash (tokens x)) (rest : List TokenKind) :
    ∃ first others, lineTokens tokens (.dedent :: rest) xs = first :: others ∧ first ≠ .newline ∧ first ≠ .indent ∧
      first ≠ .eof ∧ (xs ≠ [] → first ≠ .dedent) := by
  cases xs with
  | nil => exact ⟨_, _, rfl, by rintro ⟨⟩, by rintro ⟨⟩, by rintro ⟨⟩, fun hne => absurd rfl hne⟩
  | cons x xs =>
    obtain ⟨first, others, hx, hlegible, -⟩ := hopens x (.head _)
    refine ⟨first, _, by rw [lineTokens_cons, hx, List.cons_append], ?_⟩
    exact ⟨by rintro rfl; exact hlegible, by rintro rfl; exact hlegible, by rintro rfl; exact hlegible,
      fun _ => by rintro rfl; exact hlegible⟩

/-- The lines of a block are read one by one, up to the mark of its end. -/
theorem reads_blockLines {p : Parser α} (hopens : ∀ x ∈ xs, OpensLine isDash (tokens x))
    (hreads : ∀ x ∈ xs, ∀ next rest, next ≠ .newline → next ≠ .indent →
      Reads p (At (tokens x ++ next :: rest)) (At (next :: rest)) (P x)) (next : TokenKind) (rest : List TokenKind) :
    Reads (rounds moreLines p) (At (lineTokens tokens (.dedent :: next :: rest) xs)) (AtAfter .dedent (next :: rest))
      (List.Forall₂ P xs) := by
  have hsuffix : ∀ {tail : List X}, tail <:+ xs → ∀ x ∈ tail, OpensLine isDash (tokens x) := fun htail x hx =>
    hopens x (htail.subset hx)
  refine reads_rounds (fun x tail htail => ?_) reads_moreLines_end (length_le_shown fun x tail htail => ?_)
  · obtain ⟨first, others, hfirst, -, -, heof, hdedent⟩ := exists_lineTokens (hsuffix htail) (next :: rest)
    obtain ⟨first', others', hothers, hnewline, hindent, -⟩ :=
      exists_lineTokens (hsuffix ((List.suffix_cons x tail).trans htail)) (next :: rest)
    refine ⟨At (lineTokens tokens (.dedent :: next :: rest) (x :: tail)), ?_, ?_⟩
    · rw [hfirst]
      exact reads_moreLines (hdedent (List.cons_ne_nil _ _)) heof
    · rw [lineTokens_cons, hothers]
      exact hreads x (htail.subset (.head _)) first' others' hnewline hindent
  · obtain ⟨first, others, hx, -⟩ := hsuffix htail x (.head _)
    rw [lineTokens_cons, hx, List.cons_append]
    exact Nat.lt_succ_of_le (List.suffix_append _ _).length_le

/-- **A block is conveyed if each of its lines is,** and there are any. -/
theorem exists_conveysBlock {p : Nat → Parser α} {texts : X → List Char} {part : X → β} {P : β → α → Prop}
    (hne : xs ≠ [])
    (h : ∀ x ∈ xs, ∃ kinds, ConveysItem p isDash width (texts x) kinds (P (part x))) :
    ∃ kinds, ConveysBlock p isDash width (indentedBy width (xs.map texts)) kinds (List.Forall₂ P (xs.map part)) := by
  choose! kinds hconveys using h
  refine ⟨xs.flatMap kinds, fun outer hwidth => ?_, ?_, fun levels next rest => ?_⟩
  · obtain ⟨x, xs, rfl⟩ := List.exists_cons_of_ne_nil hne
    exact .cons (fun y hy => (hconveys y hy).passes outer) hwidth
  · obtain ⟨x, xs, rfl⟩ := List.exists_cons_of_ne_nil hne
    obtain ⟨first, tail, hx, hfirst⟩ := (hconveys x (.head _)).opens
    exact ⟨first, tail ++ xs.flatMap kinds, by rw [List.flatMap_cons, hx, List.cons_append], hfirst⟩
  · have hlines := reads_blockLines (fun x hx => (hconveys x hx).opens) (fun x hx => (hconveys x hx).reads levels)
      next rest
    exact hlines.mono fun _ => List.forall₂_map_left_iff.2

end Lines

/-! ## Values -/

/-- Canonical data that is conveyed is read with the same meaning. -/
theorem ConveysData.reads_isCanonical {kinds : List TokenKind} (h : ConveysData f text kinds d)
    (hcanonical : d.canonical = d) (levels : Nat) (rest : List TokenKind) :
    Reads (dataWithin levels) (At (kinds ++ .newline :: rest)) (At (.newline :: rest)) (MeansData f d) :=
  (h.reads levels .newline rest .newline).mono fun _ hd => hd.means hcanonical

/-- Data in bracket notation is read as a value in its line. -/
theorem ConveysData.reads_value (h : ConveysData f text kinds d) (hcanonical : d.canonical = d) (levels : Nat)
    (rest : List TokenKind) :
    Reads (valueWithin levels) (At (kinds ++ .newline :: rest)) (At (.newline :: rest)) (MeansData f d) := by
  cases levels with
  | zero => exact .tooDeep
  | succ levels =>
    have hread := h.reads_isCanonical hcanonical (levels + 1) rest
    obtain ⟨first, tail, rfl, hnewline, -⟩ := h.opens
    exact (reads_isAt_of_ne hnewline).bind_eq hread

/-- A block of entries is read as a record. -/
theorem ConveysBlock.reads_record (hf : ∀ a b, f a = f b) {entries : List (Entry Data)}
    (h : ConveysBlock (fun levels => entryLine (valueWithin levels)) false width text kinds
      (List.Forall₂ (MeansEntry f) entries)) (levels : Nat) (next : TokenKind) (rest : List TokenKind) :
    Reads (valueWithin levels) (At (.newline :: .indent :: (kinds ++ .dedent :: next :: rest)))
      (AtAfter .dedent (next :: rest)) (MeansData f (.record .zero entries)) := by
  cases levels with
  | zero => exact .tooDeep
  | succ levels =>
    have hdash := h.opens.reads_isAt (.dedent :: next :: rest)
    have hlines := h.reads levels next rest
    obtain ⟨first, tail, rfl, -⟩ := h.opens
    refine reads_isAt_self.bind_eq (reads_start.bind fun start _ => ?_)
    refine reads_advance.bind fun _ _ => reads_expect.bind fun _ _ => hdash.bind_eq ?_
    refine hlines.bind fun entries' hentries => (reads_spanFrom start).bind fun here _ => .pure ?_
    rw [MeansData, SameData, Data.canonical, Data.relocate, Data.relocate, relocateEntries_of_means hf hentries,
      hf here .zero]

/-- A block of items is read as a list. -/
theorem ConveysBlock.reads_list (hf : ∀ a b, f a = f b) {items : List Data}
    (h : ConveysBlock (fun levels => dashItem (dataWithin levels) (valueWithin levels)) true width text kinds
      (List.Forall₂ (MeansData f) items)) (levels : Nat) (next : TokenKind) (rest : List TokenKind) :
    Reads (valueWithin levels) (At (.newline :: .indent :: (kinds ++ .dedent :: next :: rest)))
      (AtAfter .dedent (next :: rest)) (MeansData f (.list .zero items)) := by
  cases levels with
  | zero => exact .tooDeep
  | succ levels =>
    have hdash := h.opens.reads_isAt (.dedent :: next :: rest)
    have hlines := h.reads levels next rest
    obtain ⟨first, tail, rfl, -⟩ := h.opens
    refine reads_isAt_self.bind_eq (reads_start.bind fun start _ => ?_)
    refine reads_advance.bind fun _ _ => reads_expect.bind fun _ _ => hdash.bind_eq ?_
    refine hlines.bind fun items' hitems => (reads_spanFrom start).bind fun here _ => .pure ?_
    rw [MeansData, SameData, Data.canonical, Data.relocate, Data.relocate, relocateItems_of_means hitems, hf here .zero]

/-! ## Entries -/

section Entries

variable {kind : TokenKind} {key : String}

/-- An entry is read with the end of its line, if its value is. -/
theorem reads_entryLine {value : Parser Data} {first : TokenKind} (hkey : IsKey key kind)
    (hvalue : Reads value (At (first :: kinds)) (At (.newline :: next :: rest)) (MeansData f d)) :
    Reads (entryLine value) (At (kind :: .mark .colon :: first :: kinds)) (At (next :: rest))
      (MeansEntry f ⟨key, .zero, d⟩) :=
  (reads_entry hvalue hkey).bind fun _ he => reads_endLine.bind fun _ _ => .pure he

/-- An entry is read whose line ends with the block under its key. -/
theorem reads_entryLine_of_dedent {value : Parser Data} {first : TokenKind} (hkey : IsKey key kind)
    (hnext : next ≠ .newline)
    (hvalue : Reads value (At (first :: kinds)) (AtAfter .dedent (next :: rest)) (MeansData f d)) :
    Reads (entryLine value) (At (kind :: .mark .colon :: first :: kinds)) (At (next :: rest))
      (MeansEntry f ⟨key, .zero, d⟩) :=
  (reads_entry hvalue hkey).bind fun _ he => (reads_endLine_of_dedent hnext).bind fun _ _ => .pure he

/-- A line that begins with a key begins with no dash. -/
theorem opensLine_of_isKey (hkey : IsKey key kind) (kinds : List TokenKind) : OpensLine false (kind :: kinds) := by
  refine ⟨kind, kinds, rfl, hkey.legible, fun hminus => ?_, fun hfalse => absurd hfalse Bool.false_ne_true⟩
  cases hkey <;> cases hminus

/-- An entry with its value in its line. -/
theorem ConveysData.conveysEntry (h : ConveysData f text kinds d) (hcanonical : d.canonical = d) (hkey : IsKey key kind)
    (width : Nat) : ConveysItem (fun levels => entryLine (valueWithin levels)) false width
      (kind.spelling ++ ':' :: ' ' :: (text ++ ['\n'])) (kind :: .mark .colon :: (kinds ++ [.newline]))
      (MeansEntry f ⟨key, .zero, d⟩) where
  passes outer := by
    have hitem : PassesItem (width :: outer) _ _ := ((hkey.leads_label text).passesLine h.passes h.closed).item .nil
    rwa [text_labelGlyphs, List.append_assoc, List.append_assoc, List.append_assoc] at hitem
  opens := opensLine_of_isKey hkey _
  reads levels next rest _ _ := by
    have hvalue := h.reads_value hcanonical levels (next :: rest)
    obtain ⟨first, tail, rfl, -⟩ := h.opens
    rw [List.cons_append, List.cons_append, List.append_assoc, List.singleton_append]
    exact reads_entryLine hkey hvalue

/-- An entry with a block under its key, from which its value is read. -/
theorem ConveysBlock.conveysEntry {α : Type} {p : Nat → Parser α} {P : List α → Prop} {deeper : Nat}
    (h : ConveysBlock p isDash deeper text kinds P) (hdeeper : width < deeper) (hkey : IsKey key kind)
    (hvalue : ∀ levels next rest,
      Reads (valueWithin levels) (At (.newline :: .indent :: (kinds ++ .dedent :: next :: rest)))
      (AtAfter .dedent (next :: rest)) (MeansData f d)) :
    ConveysItem (fun levels => entryLine (valueWithin levels)) false width (kind.spelling ++ ':' :: '\n' :: text)
      (kind :: .mark .colon :: .newline :: .indent :: (kinds ++ [.dedent])) (MeansEntry f ⟨key, .zero, d⟩) where
  passes outer := by
    have hitem := hkey.leads.passesLine_nil.item (h.passes (width :: outer) hdeeper)
    rwa [text_key, List.append_assoc] at hitem
  opens := opensLine_of_isKey hkey _
  reads levels next rest hnext _ := by
    have hread := hvalue levels next rest
    rw [List.cons_append, List.cons_append, List.cons_append, List.cons_append, List.append_assoc,
      List.singleton_append]
    exact reads_entryLine_of_dedent hkey hnext hread

end Entries

/-! ## Items -/

section Items

variable {kind : TokenKind} {key : String}

/-- An item that starts with no key. -/
theorem reads_isEntryAhead_false (hname : ∀ name tail, kinds ≠ .name name :: .mark .colon :: tail)
    (hstring : ∀ template tail, kinds ≠ .string template :: .mark .colon :: tail) :
    Reads isEntryAhead (At kinds) (At kinds) (· = false) := by
  cases kinds with
  | nil => exact fun c hc => absurd hc (List.cons_ne_nil _ _)
  | cons first tail =>
    refine reads_kind.bind_eq ?_
    cases first with
    | name name => exact reads_isAhead_false fun more hmore => hname name more (by rw [hmore])
    | string template => exact reads_isAhead_false fun more hmore => hstring template more (by rw [hmore])
    | _ => exact .pure rfl

/-- An item that starts with a key. -/
theorem reads_isEntryAhead (hkey : IsKey key kind) (rest : List TokenKind) :
    Reads isEntryAhead (At (kind :: .mark .colon :: rest)) (At (kind :: .mark .colon :: rest)) (· = true) := by
  refine reads_kind.bind_eq ?_
  cases hkey <;> exact reads_isAhead_self

/-- A text is the whole of the data that it starts: no colon comes after it. -/
theorem ConveysData.ne_string (h : ConveysData f text kinds d) (rest : List TokenKind) (template : Template)
    (tail : List TokenKind) : kinds ++ .newline :: rest ≠ .string template :: .mark .colon :: tail := by
  intro hkinds
  -- the text is read alone, and the cursor would be at the colon and not at the newline
  have hread := h.reads 1 .newline rest .newline
  rw [hkinds] at hread
  rcases hread ⟨none, ⟨.string template, .zero⟩, (TokenKind.mark .colon :: tail).map (⟨·, .zero⟩), 0⟩
    (by simp [Cursor.At, Cursor.ahead, Cursor.kind, Function.comp_def]) with ⟨span, c, hdeep⟩ | ⟨x, c, hok, hat, -⟩
  · cases hdeep
  · cases hok
    cases hat

/-- An item in its line. -/
theorem ConveysData.conveysDash (h : ConveysData f text kinds d) (hcanonical : d.canonical = d) (width : Nat) :
    ConveysItem (fun levels => dashItem (dataWithin levels) (valueWithin levels)) true width
      ('-' :: ' ' :: (text ++ ['\n'])) (.mark .minus :: (kinds ++ [.newline])) (MeansData f d) where
  passes outer := by
    have hitem : PassesItem (width :: outer) _ _ := ((leads_dash text).passesLine h.passes h.closed).item .nil
    rwa [List.append_assoc] at hitem
  opens := ⟨_, _, rfl, trivial, fun _ => rfl, fun _ => rfl⟩
  reads levels next rest _ _ := by
    have hvalue := h.reads_isCanonical hcanonical levels (next :: rest)
    have hahead := reads_isEntryAhead_false (fun name tail => h.unlabelled .newline _ name tail .newline)
      (h.ne_string (next :: rest))
    obtain ⟨first, tail, rfl, -⟩ := h.opens
    rw [List.cons_append, List.append_assoc, List.singleton_append]
    refine reads_start.bind fun start _ => reads_expect.bind fun _ _ => hahead.bind_eq ?_
    exact hvalue.bind fun item hitem => reads_endLine.bind fun _ _ => .pure hitem

/-- Entries under the first entry of an item, if there are any. -/
def furtherEntries (value : Parser Data) : Parser (List (Entry Data)) := do
  if ← accept .indent then entryLines value else pure []

/-- The lines under the first entry of an item are passed as the tokens, and read up to their end. -/
structure ConveysFurther (width : Nat) (text : List Char) (kinds : List TokenKind) (P : List (Entry Data) → Prop) :
    Prop where
  passes : ∀ outer, PassesBlock (width :: outer) text kinds
  reads : ∀ levels next rest, next ≠ .newline → next ≠ .indent →
    Reads (furtherEntries (valueWithin levels)) (At (kinds ++ next :: rest)) (At (next :: rest)) P

/-- Further entries are conveyed if each of them is. -/
theorem exists_conveysFurther {X : Type} {xs : List X} {texts : X → List Char} {entry : X → Entry Data}
    {P : Entry Data → Entry Data → Prop} {deeper : Nat} (hdeeper : width < deeper) (h : ∀ x ∈ xs, ∃ kinds,
      ConveysItem (fun levels => entryLine (valueWithin levels)) false deeper (texts x) kinds (P (entry x))) :
    ∃ kinds, ConveysFurther width (indentedBy deeper (xs.map texts)) kinds (List.Forall₂ P (xs.map entry)) := by
  by_cases hne : xs = []
  · subst hne
    refine ⟨[], fun _ => .nil, fun levels next rest _ hindent => ?_⟩
    exact (reads_accept_of_ne hindent).bind_eq (.pure .nil)
  · obtain ⟨kinds, hblock⟩ := exists_conveysBlock hne h
    refine ⟨_, fun outer => hblock.passes (width :: outer) hdeeper, fun levels next rest _ _ => ?_⟩
    have hlines := hblock.reads levels next rest
    obtain ⟨first, tail, rfl, -⟩ := hblock.opens
    rw [List.cons_append, List.append_assoc, List.singleton_append]
    refine reads_accept.bind_eq ?_
    exact hlines.weaken fun _ hc => hc.here

/-- An item of entries, the first of which is in the line of the dash. -/
theorem ConveysData.conveysDashRecord (hf : ∀ a b, f a = f b) (h : ConveysData f text kinds d)
    (hcanonical : d.canonical = d) (hkey : IsKey key kind) {entries : List (Entry Data)} {under : List Char}
    {underKinds : List TokenKind}
    (hunder : ConveysFurther width under underKinds (List.Forall₂ (MeansEntry f) entries)) :
    ConveysItem (fun levels => dashItem (dataWithin levels) (valueWithin levels)) true width
      ('-' :: ' ' :: (kind.spelling ++ ':' :: ' ' :: (text ++ '\n' :: under)))
      (.mark .minus :: kind :: .mark .colon :: (kinds ++ .newline :: underKinds))
      (MeansData f (.record .zero (⟨key, .zero, d⟩ :: entries))) where
  passes outer := by
    have hitem := ((hkey.leads_dashed text).passesLine h.passes h.closed).item (hunder.passes outer)
    rw [Glyph.text_cons, Glyph.text_cons, text_labelGlyphs, List.append_assoc, List.append_assoc, List.append_assoc,
      List.append_assoc] at hitem
    exact hitem
  opens := ⟨_, _, rfl, trivial, fun _ => rfl, fun _ => rfl⟩
  reads levels next rest hnewline hindent := by
    have hfurther := hunder.reads levels next rest hnewline hindent
    have hvalue := h.reads_value hcanonical levels (underKinds ++ next :: rest)
    obtain ⟨first, tail, rfl, -⟩ := h.opens
    obtain ⟨first', tail', hunder⟩ : ∃ first tail, underKinds ++ next :: rest = first :: tail :=
      List.exists_cons_of_ne_nil (List.append_ne_nil_of_right_ne_nil _ (List.cons_ne_nil _ _))
    rw [List.cons_append, List.cons_append, List.cons_append, List.append_assoc, List.cons_append, List.cons_append,
      hunder]
    rw [hunder] at hvalue hfurther
    refine reads_start.bind fun start _ => reads_expect.bind fun _ _ => (reads_isEntryAhead hkey _).bind_eq ?_
    refine (reads_entry hvalue hkey).bind fun e he => reads_endLine.bind fun _ _ => ?_
    refine hfurther.bind_branches fun entries' hentries => (reads_spanFrom start).bind fun here _ => .pure ?_
    have hmeans : List.Forall₂ (MeansEntry f) (⟨key, .zero, d⟩ :: entries) (e :: entries') := .cons he hentries
    rw [MeansData, SameData, Data.canonical, Data.relocate, Data.relocate, relocateEntries_of_means hf hmeans,
      hf here .zero]

end Items

end Parser

end TypedData
