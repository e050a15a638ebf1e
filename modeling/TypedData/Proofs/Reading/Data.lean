import TypedData.Load
import TypedData.Proofs.Reading.Row
import TypedData.Proofs.Relocation.Tree

/-!
# Data that is read back

Data is written as a row of tokens (`Data.glyphs`), between brackets whatever notation it was read from.  What is
read from the tokens is its canonical form, at other places (`Data.shows_canonical`).  There is a lemma for each
form that data may be written in, which says so of the form if its parts are shown.
-/

namespace TypedData

/-- How a key is written: as a name if it is one, otherwise as a text. -/
def keyKind (key : String) : TokenKind := if isName key then .name key else .string (.plain key)

/-- The token is the key, written as a name or as a text. -/
inductive IsKey (key : String) : TokenKind → Prop
  | name : isName key = true → IsKey key (.name key)
  | text : IsKey key (.string (.plain key))

/-- A key is written as the token for a key. -/
theorem isKey_keyKind (key : String) : IsKey key (keyKind key) := by
  unfold keyKind
  split
  · exact .name ‹_›
  · exact .text

/-- The token for a key can be written. -/
theorem IsKey.legible {key : String} {kind : TokenKind} (h : IsKey key kind) : kind.Legible := by
  cases h with
  | name h => exact h
  | text => exact Piece.regular_plain key

/-- The token for a key can be written, whatever the key is. -/
theorem legible_keyKind (key : String) : (keyKind key).Legible := (isKey_keyKind key).legible

/-- The name or the key in front of a value, and the colon after it. -/
def labelGlyphs (kind : TokenKind) : List Glyph := [.token kind, .token (.mark .colon), .space]

namespace Data

mutual

/-- The row of tokens that data is written as. -/
def glyphs : Data → List Glyph
  | str _ text => [.token (.string (.plain text))]
  | int _ n => [.token (.int n)]
  | float _ x => [.token (.float x)]
  | bool _ b => [.token (.keyword (if b then .true else .false))]
  | null _ => [.token (.keyword .null)]
  | list _ items | dashList _ items => Glyph.bracketed .square (glyphsOfItems items)
  | call _ ctor args => .token (.name ctor) :: Glyph.bracketed .paren (glyphsOfArguments args)
  | record _ entries | fieldBlock _ entries | dashRecord _ entries =>
    Glyph.bracketed .brace (glyphsOfEntries keyKind entries)
  | reference _ name path =>
    .token (.mark .bang) :: .token (.name name) ::
      path.flatMap fun field => [.token (.mark .dot), .token (.name field)]
  | ctorBlock _ ctor entries =>
    .token (.name ctor) :: Glyph.bracketed .paren (glyphsOfEntries .name entries)
  | listBlock _ ctor items =>
    .token (.name ctor) :: Glyph.bracketed .paren [Glyph.bracketed .square (glyphsOfItems items)]

/-- The rows of the items of a list. -/
def glyphsOfItems : List Data → List (List Glyph)
  | [] => []
  | d :: ds => d.glyphs :: glyphsOfItems ds

/-- The rows of the arguments of a constructor. -/
def glyphsOfArguments : List (Argument Data) → List (List Glyph)
  | [] => []
  | ⟨none, d⟩ :: args => d.glyphs :: glyphsOfArguments args
  | ⟨some name, d⟩ :: args => (labelGlyphs (.name name) ++ d.glyphs) :: glyphsOfArguments args

/-- The rows of entries, with their keys as `key` has them. -/
def glyphsOfEntries (key : String → TokenKind) : List (Entry Data) → List (List Glyph)
  | [] => []
  | ⟨k, _, d⟩ :: entries => (labelGlyphs (key k) ++ d.glyphs) :: glyphsOfEntries key entries

end

end Data

namespace Parser

open Cursor (At)

variable {f : Span → Span}

/-- The same data, perhaps at other places. -/
def SameData (f : Span → Span) (d d' : Data) : Prop := d'.relocate f = d.relocate f

/-- The same argument, perhaps at other places. -/
def SameArgument (f : Span → Span) (arg arg' : Argument Data) : Prop :=
  arg'.name = arg.name ∧ SameData f arg.value arg'.value

/-- The same entry, perhaps at other places. -/
def SameEntry (f : Span → Span) (e e' : Entry Data) : Prop := e'.key = e.key ∧ SameData f e.value e'.value

/-- The text is written for data, which is read from the tokens of the row at other places, and which is not taken
for a label. -/
structure ShowsData (f : Span → Span) (gs : List Glyph) (text : String) (d : Data) : Prop
    extends Shows dataWithin gs text (SameData f d) where
  unlabelled : ∀ next rest name tail, Glyph.tokens gs ++ next :: rest ≠ .name name :: .mark .colon :: tail

/-- The text is written for an argument. -/
abbrev ShowsArgument (f : Span → Span) (gs : List Glyph) (text : String) (arg : Argument Data) : Prop :=
  Shows (fun levels => dataArgument (dataWithin levels)) gs text (SameArgument f arg)

/-- The text is written for an entry. -/
abbrev ShowsEntry (f : Span → Span) (gs : List Glyph) (text : String) (e : Entry Data) : Prop :=
  Shows (fun levels => entry (dataWithin levels)) gs text (SameEntry f e)

/-- Data is read if its form is, or it is nested too deeply. -/
theorem reads_dataWithin {A B : Cursor → Prop} {P : Data → Prop}
    (h : ∀ levels, Reads (dataForm (dataWithin levels) (valueWithin levels)) A B P) (levels : Nat) :
    Reads (dataWithin levels) A B P := by
  cases levels with
  | zero => exact .tooDeep
  | succ levels => exact h levels

/-! ## Single tokens -/

/-- The token stands for the data. -/
inductive Leaf : TokenKind → Data → Prop
  | str (span : Span) (text : String) : Leaf (.string (.plain text)) (.str span text)
  | int (span : Span) (n : Integer) : Leaf (.int n) (.int span n)
  | float (span : Span) (x : Double) : Leaf (.float x) (.float span x)
  | bool (span : Span) (b : Bool) : Leaf (.keyword (if b then .true else .false)) (.bool span b)
  | null (span : Span) : Leaf (.keyword .null) (.null span)

/-- A plain template is its text. -/
theorem text_plain (text : String) : (Template.plain text).text = text := by
  unfold Template.plain Template.text
  split
  · rename_i h
    rw [h]
    rfl
  · simp [Piece.asText]

/-- A plain template is printed as a literal of its text. -/
theorem print_plain (text : String) : (Template.plain text).print = literal text := by
  unfold Template.plain Template.print literal
  split
  · rename_i h
    rw [h]
    rfl
  · simp [Piece.print]

/-- A token that stands for data is written like it, and read as it. -/
theorem Leaf.shows (hf : ∀ a b, f a = f b) {kind : TokenKind} {d : Data} (h : Leaf kind d) :
    ShowsData f [.token kind] d.print d where
  text := by
    rw [Glyph.text_cons, Glyph.text_nil, List.append_nil, Glyph.chars]
    cases h with
    | str span text => rw [Data.print, TokenKind.spelling, print_plain]
    | bool span b => cases b <;> rfl
    | _ => rfl
  row hlegible := by
    refine .token (Glyph.legible_token_iff.1 hlegible).1 fun depth => ?_
    cases h <;> rfl
  starts := ⟨kind, [], rfl, by cases h <;> rintro ⟨⟩, by cases h <;> rintro b ⟨⟩⟩
  unlabelled := by cases h <;> rintro next rest name tail ⟨⟩
  reads levels next rest _ := by
    refine reads_dataWithin (fun levels => ?_) levels
    refine reads_start.bind fun _ _ => reads_kind.bind_eq ?_
    cases h with
    | str span text =>
      refine reads_advance.bind fun _ _ => (reads_spanFrom _).bind fun here _ => .pure ?_
      rw [SameData, Data.relocate, Data.relocate, text_plain, hf here span]
    | bool span b =>
      cases b <;>
        exact reads_advance.bind fun _ _ => (reads_spanFrom _).bind fun here _ => .pure (by
          rw [SameData, Data.relocate, Data.relocate, hf here span])
    | int span | float span | null span =>
      refine reads_advance.bind fun _ _ => (reads_spanFrom _).bind fun here _ => .pure ?_
      rw [SameData, Data.relocate, Data.relocate, hf here span]

/-! ## Brackets -/

section Brackets

variable {rows : List (List Glyph)} {texts : List String}

/-- Items that are the same up to places are so together. -/
theorem relocateItems_of_forall₂ {ds ds' : List Data}
    (h : List.Forall₂ (fun d d' => d'.relocate f = d.relocate f) ds ds') :
    Data.relocateItems f ds' = Data.relocateItems f ds := by
  induction h with
  | nil => rfl
  | cons hd _ ih => rw [Data.relocateItems, Data.relocateItems, hd, ih]

/-- Arguments that are the same up to places are so together. -/
theorem relocateArguments_of_forall₂ {args args' : List (Argument Data)}
    (h : List.Forall₂ (SameArgument f) args args') :
    Data.relocateArguments f args' = Data.relocateArguments f args := by
  induction h with
  | nil => rfl
  | cons harg _ ih => rw [Data.relocateArguments, Data.relocateArguments, harg.1, harg.2, ih]

/-- Entries that are the same up to places are so together. -/
theorem relocateEntries_of_forall₂ (hf : ∀ a b, f a = f b) {entries entries' : List (Entry Data)}
    (h : List.Forall₂ (SameEntry f) entries entries') :
    Data.relocateEntries f entries' = Data.relocateEntries f entries := by
  induction h with
  | nil => rfl
  | @cons e e' _ _ he _ ih =>
    rw [Data.relocateEntries, Data.relocateEntries, he.1, he.2, ih, hf e'.span e.span]

section Forms

variable {B : Cursor → Prop} {first : TokenKind} {tail : List TokenKind}

/-- A list is read if its items are. -/
theorem reads_list (hf : ∀ a b, f a = f b) {ds : List Data} (h : ∀ levels,
      Reads (separatedUntil .rightBracket (dataWithin levels)) (At (first :: tail)) B (List.Forall₂ (SameData f) ds))
    (span : Span) (levels : Nat) :
    Reads (dataWithin levels) (At (.mark .leftBracket :: first :: tail)) B (SameData f (.list span ds)) := by
  refine reads_dataWithin (fun levels => ?_) levels
  refine reads_start.bind fun _ _ => reads_kind.bind_eq ?_
  refine reads_advance.bind fun _ _ => (h levels).bind fun ds' hds => ?_
  refine (reads_spanFrom _).bind fun here _ => .pure ?_
  rw [SameData, Data.relocate, Data.relocate, relocateItems_of_forall₂ hds, hf here span]

/-- A record is read if its entries are. -/
theorem reads_record (hf : ∀ a b, f a = f b) {entries : List (Entry Data)} (h : ∀ levels,
      Reads (separatedUntil .rightBrace (entry (dataWithin levels))) (At (first :: tail)) B
        (List.Forall₂ (SameEntry f) entries))
    (span : Span) (levels : Nat) :
    Reads (dataWithin levels) (At (.mark .leftBrace :: first :: tail)) B (SameData f (.record span entries)) := by
  refine reads_dataWithin (fun levels => ?_) levels
  refine reads_start.bind fun _ _ => reads_kind.bind_eq ?_
  refine reads_advance.bind fun _ _ => (h levels).bind fun entries' hentries => ?_
  refine (reads_spanFrom _).bind fun here _ => .pure ?_
  rw [SameData, Data.relocate, Data.relocate, relocateEntries_of_forall₂ hf hentries, hf here span]

/-- A constructor is read if its arguments are. -/
theorem reads_call (hf : ∀ a b, f a = f b) {args : List (Argument Data)} (h : ∀ levels,
      Reads (separatedUntil .rightParen (dataArgument (dataWithin levels))) (At (first :: tail)) B
        (List.Forall₂ (SameArgument f) args))
    (span : Span) (ctor : String) (levels : Nat) :
    Reads (dataWithin levels) (At (.name ctor :: .mark .leftParen :: first :: tail)) B
      (SameData f (.call span ctor args)) := by
  refine reads_dataWithin (fun levels => ?_) levels
  refine reads_start.bind fun start _ => reads_kind.bind_eq ?_
  change Reads (constructorForm start ctor _ _) _ _ _
  refine reads_isAhead_self.bind_eq ?_
  refine reads_advance.bind fun _ _ => reads_expect.bind fun _ _ => (h levels).bind fun args' hargs => ?_
  refine (reads_spanFrom _).bind fun here _ => .pure ?_
  rw [SameData, Data.relocate, Data.relocate, relocateArguments_of_forall₂ hargs, hf here span]

end Forms

/-- A list is written between square brackets. -/
theorem shows_list (hf : ∀ a b, f a = f b) {ds : List Data} (h : ShowsAll dataWithin (SameData f) rows texts ds)
    (span : Span) : ShowsData f (Glyph.bracketed .square rows)
      ("[" ++ TypedData.commaSeparated texts ++ "]") (.list span ds) where
  text := h.text_bracketed .square
  row hlegible := .bracketed _ (h.row_of_mem (Glyph.legible_bracketed_iff.1 hlegible))
  starts := ⟨_, _, rfl, by rintro ⟨⟩, by rintro (_ | _ | _) ⟨⟩⟩
  unlabelled := by rintro next rest name tail ⟨⟩
  reads levels next rest _ := by
    obtain ⟨first, tail, htokens, hitems⟩ := h.reads_bracketed .square next rest
    rw [htokens]
    exact reads_list hf hitems span levels

/-- A record is written between braces. -/
theorem shows_record (hf : ∀ a b, f a = f b) {entries : List (Entry Data)}
    (h : ShowsAll (fun levels => entry (dataWithin levels)) (SameEntry f) rows texts entries) (span : Span) :
    ShowsData f (Glyph.bracketed .brace rows) ("\x7b" ++ TypedData.commaSeparated texts ++ "\x7d")
      (.record span entries) where
  text := h.text_bracketed .brace
  row hlegible := .bracketed _ (h.row_of_mem (Glyph.legible_bracketed_iff.1 hlegible))
  starts := ⟨_, _, rfl, by rintro ⟨⟩, by rintro (_ | _ | _) ⟨⟩⟩
  unlabelled := by rintro next rest name tail ⟨⟩
  reads levels next rest _ := by
    obtain ⟨first, tail, htokens, hentries⟩ := h.reads_bracketed .brace next rest
    rw [htokens]
    exact reads_record hf hentries span levels

/-- A constructor is written before its arguments, which stand between parentheses. -/
theorem shows_call (hf : ∀ a b, f a = f b) {args : List (Argument Data)}
    (h : ShowsAll (fun levels => dataArgument (dataWithin levels)) (SameArgument f) rows texts args) (span : Span)
    (ctor : String) : ShowsData f (.token (.name ctor) :: Glyph.bracketed .paren rows)
      (ctor ++ "(" ++ TypedData.commaSeparated texts ++ ")") (.call span ctor args) where
  text := by
    rw [Glyph.text_cons, ← h.text_bracketed .paren]
    simp [Glyph.chars, TokenKind.spelling, Bracket.opening, Bracket.closing, Mark.spelling]
  row hlegible := by
    obtain ⟨hname, hargs⟩ := Glyph.legible_token_iff.1 hlegible
    exact .call hname (h.row_of_mem (Glyph.legible_bracketed_iff.1 hargs))
  starts := ⟨_, _, rfl, by rintro ⟨⟩, by rintro b ⟨⟩⟩
  unlabelled := by rintro next rest name tail ⟨⟩
  reads levels next rest _ := by
    obtain ⟨first, tail, htokens, hargs⟩ := h.reads_bracketed .paren next rest
    rw [Glyph.tokens_token, List.cons_append, htokens]
    exact reads_call hf hargs span ctor levels

end Brackets

/-! ## Labels -/

section Labels

variable {gs : List Glyph} {text : String} {d : Data}

section Values

variable {value : Parser Data} {B : Cursor → Prop} {kinds : List TokenKind} {first : TokenKind}

/-- An argument without a name is read like its value, if this is not taken for a label. -/
theorem reads_unnamed (h : Reads value (At kinds) B (SameData f d))
    (hunlabelled : ∀ name tail, kinds ≠ .name name :: .mark .colon :: tail) :
    Reads (dataArgument value) (At kinds) B (SameArgument f ⟨none, d⟩) := by
  refine (reads_acceptLabel_none hunlabelled).bind_eq ?_
  exact h.bind fun d' hd => .pure ⟨rfl, hd⟩

/-- An argument with a name is read if its value is. -/
theorem reads_named (h : Reads value (At (first :: kinds)) B (SameData f d)) (name : String) :
    Reads (dataArgument value) (At (.name name :: .mark .colon :: first :: kinds)) B
      (SameArgument f ⟨some name, d⟩) := by
  refine reads_acceptLabel.bind_eq ?_
  exact h.bind fun d' hd => .pure ⟨rfl, hd⟩

end Values

/-- An argument without a name is written like its value. -/
theorem ShowsData.argument (h : ShowsData f gs text d) : ShowsArgument f gs text ⟨none, d⟩ where
  text := h.text
  row := h.row
  starts := h.starts
  reads levels next rest hnext := reads_unnamed (h.reads levels next rest hnext) (h.unlabelled next rest)

/-- An argument with a name has the name and a colon before its value. -/
theorem ShowsData.named (h : ShowsData f gs text d) (name : String) :
    ShowsArgument f (labelGlyphs (.name name) ++ gs) (name ++ ": " ++ text) ⟨some name, d⟩ where
  text := by
    rw [String.toList_append, h.text, Glyph.text_append]
    simp [labelGlyphs, Glyph.chars, TokenKind.spelling, Mark.spelling]
  row hlegible := by
    obtain ⟨hlabel, hvalue⟩ := Glyph.legible_append_iff.1 hlegible
    exact .labelled (hlabel _ (.head _)) (fun _ => rfl) (h.row hvalue)
  starts := ⟨_, _, rfl, by rintro ⟨⟩, by rintro b ⟨⟩⟩
  reads levels next rest hnext := by
    have hvalue := h.reads levels next rest hnext
    obtain ⟨kind, gs, rfl, -, -⟩ := h.starts
    exact reads_named hvalue name

/-- The text of a key is the spelling of its token. -/
theorem text_keyKind (key : String) : (keyText key).toList = (keyKind key).spelling := by
  unfold keyText keyKind
  split
  · rfl
  · rw [TokenKind.spelling, print_plain]

/-- A key is a name or a text. -/
theorem keyKind_eq (key : String) : keyKind key = .name key ∨ keyKind key = .string (.plain key) := by
  unfold keyKind
  split
  · exact .inl rfl
  · exact .inr rfl

/-- A key is read, whether it is written as a name or as a text. -/
theorem reads_key {k : String} {kind next : TokenKind} {rest : List TokenKind} (h : IsKey k kind) :
    Reads key (At (kind :: next :: rest)) (At (next :: rest)) (· = k) := by
  cases h with
  | name =>
    refine reads_kind.bind_eq ?_
    exact reads_advance.bind fun _ _ => .pure rfl
  | text =>
    refine reads_kind.bind_eq ?_
    exact reads_advance.bind fun _ _ => .pure (text_plain k)

/-- An entry is read if its value is. -/
theorem reads_entry {value : Parser Data} {B : Cursor → Prop} {P : Data → Prop} {kind first : TokenKind}
    {kinds : List TokenKind} (h : Reads value (At (first :: kinds)) B P) {key : String} (hkey : IsKey key kind) :
    Reads (Parser.entry value) (At (kind :: .mark .colon :: first :: kinds)) B fun e => e.key = key ∧ P e.value := by
  refine reads_start.bind fun start _ => (reads_key hkey).bind fun k hk => ?_
  refine reads_expect.bind fun _ _ => h.bind fun d' hd => ?_
  exact (reads_spanFrom start).bind fun here _ => .pure ⟨hk, hd⟩

/-- An entry has its key and a colon before its value. -/
theorem ShowsData.entry (h : ShowsData f gs text d) (key : String) (span : Span) :
    ShowsEntry f (labelGlyphs (keyKind key) ++ gs) (keyText key ++ ": " ++ text) ⟨key, span, d⟩ where
  text := by
    rw [String.toList_append, h.text, Glyph.text_append, String.toList_append, text_keyKind]
    simp [labelGlyphs, Glyph.chars, TokenKind.spelling, Mark.spelling]
  row hlegible := by
    obtain ⟨hlabel, hvalue⟩ := Glyph.legible_append_iff.1 hlegible
    refine .labelled (hlabel _ (.head _)) (fun _ => ?_) (h.row hvalue)
    rcases keyKind_eq key with hkey | hkey <;> rw [hkey] <;> rfl
  starts := by
    refine ⟨_, _, rfl, ?_⟩
    rcases keyKind_eq key with hkey | hkey <;>
      (rw [hkey]; exact ⟨by rintro ⟨⟩, by rintro b ⟨⟩⟩)
  reads levels next rest hnext := by
    have hvalue := h.reads levels next rest hnext
    obtain ⟨kind, gs, rfl, -, -⟩ := h.starts
    exact reads_entry hvalue (isKey_keyKind key)

end Labels

/-! ## References -/

/-- The tokens of a path. -/
def pathTokens (path : List String) (after : List TokenKind) : List TokenKind :=
  path.foldr (fun field tokens => .mark .dot :: .name field :: tokens) after

/-- Something follows a path. -/
theorem exists_pathTokens_eq_cons (path : List String) (next : TokenKind) (rest : List TokenKind) :
    ∃ kind tail, pathTokens path (next :: rest) = kind :: tail := by
  cases path with
  | nil => exact ⟨_, _, rfl⟩
  | cons field path => exact ⟨_, _, rfl⟩

/-- A path has no fewer tokens than fields. -/
theorem length_le_pathTokens (path : List String) (after : List TokenKind) :
    path.length ≤ (pathTokens path after).length := by
  induction path with
  | nil => exact Nat.zero_le _
  | cons field path ih =>
    change path.length + 1 ≤ (pathTokens path after).length + 1 + 1
    omega

/-- A path is read up to its end. -/
theorem reads_path (path : List String) {next : TokenKind} (hnext : next ≠ .mark .dot) (rest : List TokenKind) :
    Reads (rounds (accept (.mark .dot)) (expectName .fieldName)) (At (pathTokens path (next :: rest)))
      (At (next :: rest)) (· = path) := by
  have hround : ∀ field tail, field :: tail <:+ path → ∃ M,
      Reads (accept (.mark .dot)) (At (pathTokens (field :: tail) (next :: rest))) M (· = true) ∧
        Reads (expectName .fieldName) M (At (pathTokens tail (next :: rest))) (· = field) := by
    intro field tail _
    obtain ⟨kind, more, htail⟩ := exists_pathTokens_eq_cons tail next rest
    refine ⟨At (.name field :: pathTokens tail (next :: rest)), reads_accept, ?_⟩
    rw [htail]
    exact reads_expectName _
  have hend : Reads (accept (.mark .dot)) (At (pathTokens [] (next :: rest))) (At (next :: rest)) (· = false) :=
    reads_accept_of_ne hnext
  exact (reads_rounds hround hend (length_le_pathTokens path _)).mono fun _ => eq_of_forall₂

/-- The tokens of a path are a dot and a name for each field. -/
theorem tokens_path (path : List String) (after : List TokenKind) :
    Glyph.tokens (path.flatMap fun field => [.token (.mark .dot), .token (.name field)]) ++ after =
      pathTokens path after := by
  induction path with
  | nil => rfl
  | cons field path ih =>
    rw [List.flatMap_cons, Glyph.tokens_append, List.append_assoc, ih]
    rfl

/-- A name ends before a path and whatever bounds it. -/
theorem endsAt_path {rest : List Char} (hrest : Glyph.Bounded rest) (name : String) (path : List String) :
    (TokenKind.name name).EndsAt
      (Glyph.text (path.flatMap fun field => [.token (.mark .dot), .token (.name field)]) ++ rest) := by
  cases path with
  | nil => exact hrest.endsAt _
  | cons field path =>
    rintro c ⟨⟩
    decide

/-- A path of names can be read. -/
theorem readable_path {rest : List Char} (hrest : Glyph.Bounded rest) {path : List String}
    (h : ∀ field ∈ path, isName field = true) (before : Bool) :
    Glyph.Readable before rest (path.flatMap fun field => [.token (.mark .dot), .token (.name field)]) := by
  induction path generalizing before with
  | nil => trivial
  | cons field path ih =>
    obtain ⟨hfield, hpath⟩ := List.forall_mem_cons.1 h
    refine ⟨trivial, ?_, by rintro ⟨⟩, hfield, endsAt_path hrest field path, by rintro ⟨⟩, ih hpath _⟩
    intro d _
    exact ⟨by rintro c ⟨⟩; rfl, by rintro ⟨⟩, by rintro ⟨⟩⟩

/-- A path opens and closes no bracket. -/
theorem depthAfter_path (depth : Nat) (path : List String) :
    Glyph.depthAfter depth (path.flatMap fun field => [.token (.mark .dot), .token (.name field)]) = depth := by
  induction path with
  | nil => rfl
  | cons field path ih => exact ih

/-- A path of names can be written. -/
theorem legible_path {path : List String} (h : ∀ field ∈ path, isName field = true) :
    Glyph.Legible (path.flatMap fun field => [.token (.mark .dot), .token (.name field)]) := by
  induction path with
  | nil => exact List.forall_mem_nil _
  | cons field path ih =>
    obtain ⟨hfield, hpath⟩ := List.forall_mem_cons.1 h
    exact Glyph.legible_token_iff.2 ⟨trivial, Glyph.legible_token_iff.2 ⟨hfield, ih hpath⟩⟩

/-- A reference is written with the fields of its path after its name. -/
theorem row_reference {name : String} {path : List String} (hname : isName name = true)
    (hpath : ∀ field ∈ path, isName field = true) :
    Glyph.Row (.token (.mark .bang) :: .token (.name name) ::
      path.flatMap fun field => [.token (.mark .dot), .token (.name field)]) where
  readable rest hrest := by
    refine ⟨trivial, fun d hd => ⟨?_, by rintro ⟨⟩, by rintro ⟨⟩⟩, by rintro ⟨⟩, hname,
      endsAt_path hrest name path, by rintro ⟨⟩, readable_path hrest hpath _⟩
    rintro c ⟨⟩
    have hword := (Bool.and_eq_true_iff.1 hname).1
    rw [Glyph.text_cons, List.append_assoc, Glyph.chars, TokenKind.spelling] at hd
    cases hchars : name.toList with
    | nil =>
      rw [hchars] at hword
      cases hword
    | cons first chars =>
      rw [hchars] at hd hword
      obtain rfl := Option.some.inj hd
      have hfirst := Lexeme.Quotation.forall_isWordChar_of_isWord hword _ (.head _)
      unfold Lexeme.markOfTwo?
      split <;> first | rfl | cases hfirst
  depth depth := depthAfter_path depth path

/-- A reference is written with the fields of its path after its name, and read as it is written. -/
theorem shows_reference (hf : ∀ a b, f a = f b) (span : Span) (name : String) (path : List String) :
    ShowsData f (Data.reference span name path).glyphs (Data.reference span name path).print
      (.reference span name path) where
  text := by
    rw [Data.print, Data.glyphs, String.toList_append, String.toList_join]
    simp [Glyph.text, Glyph.chars, TokenKind.spelling, Mark.spelling, List.flatMap_map, List.flatMap_assoc]
  row hlegible := by
    refine row_reference (hlegible _ (.tail _ (.head _))) fun field hfield => ?_
    have hmem : Glyph.token (.name field) ∈
        path.flatMap fun field => [.token (.mark .dot), .token (.name field)] :=
      List.mem_flatMap.2 ⟨field, hfield, .tail _ (.head _)⟩
    exact hlegible _ (.tail _ (.tail _ (List.mem_filterMap.2 ⟨_, hmem, rfl⟩)))
  starts := ⟨_, _, rfl, by rintro ⟨⟩, by rintro (_ | _ | _) ⟨⟩⟩
  unlabelled := by rintro next rest name tail ⟨⟩
  reads levels next rest hnext := by
    refine reads_dataWithin (fun levels => ?_) levels
    rw [Data.glyphs, Glyph.tokens_token, Glyph.tokens_token, List.cons_append, List.cons_append, tokens_path]
    have hpath := reads_path path hnext rest
    obtain ⟨kind, tail, htokens⟩ := exists_pathTokens_eq_cons path next rest
    rw [htokens] at hpath ⊢
    refine reads_start.bind fun start _ => reads_kind.bind_eq ?_
    have hreference : Reads reference (At (.mark .bang :: .name name :: kind :: tail)) (At (next :: rest))
        (· = (name, path)) := by
      refine reads_expect.bind fun _ _ => (reads_expectName _).bind_eq ?_
      exact hpath.bind fun fields hfields => .pure (by rw [hfields])
    refine hreference.bind_eq ?_
    refine (reads_spanFrom start).bind fun here _ => .pure ?_
    rw [SameData, Data.relocate, Data.relocate, hf here span]

/-! ## Data -/

mutual

/-- **What is written for data is read as its canonical form,** at other places. -/
theorem shows_canonical (hf : ∀ a b, f a = f b) : (d : Data) → ShowsData f d.glyphs d.print d.canonical
  | .str span text => (Leaf.str span text).shows hf
  | .int span n => (Leaf.int span n).shows hf
  | .float span x => (Leaf.float span x).shows hf
  | .bool span b => (Leaf.bool span b).shows hf
  | .null span => (Leaf.null span).shows hf
  | .reference span name path => shows_reference hf span name path
  | .list span items | .dashList span items => shows_list hf (shows_items hf items) span
  | .call span ctor args => shows_call hf (shows_arguments hf args) span ctor
  | .record span entries | .fieldBlock span entries | .dashRecord span entries =>
    shows_record hf (shows_entries hf entries) span
  | .ctorBlock span ctor entries => shows_call hf (shows_argumentsOfEntries hf entries) span ctor
  | .listBlock span ctor items => by
    have hlist := shows_list hf (shows_items hf items) span
    have hcall := shows_call hf (.cons hlist.argument .nil) span ctor
    have htext : (Data.listBlock span ctor items).print = ctor ++ "(" ++ TypedData.commaSeparated
        ["[" ++ TypedData.commaSeparated (Data.printItems items) ++ "]"] ++ ")" := by
      rw [Data.print, TypedData.commaSeparated, TypedData.commaSeparated, String.intercalate_singleton]
      simp only [String.append_assoc]
      rfl
    rw [htext]
    exact hcall

/-- Items show as they are printed, and are read in canonical form. -/
theorem shows_items (hf : ∀ a b, f a = f b) : (items : List Data) →
    ShowsAll dataWithin (SameData f) (Data.glyphsOfItems items) (Data.printItems items) (Data.canonicalItems items)
  | [] => .nil
  | d :: ds => .cons (shows_canonical hf d).toShows (shows_items hf ds)

/-- Arguments show as they are printed, and are read in canonical form. -/
theorem shows_arguments (hf : ∀ a b, f a = f b) : (args : List (Argument Data)) →
    ShowsAll (fun levels => dataArgument (dataWithin levels)) (SameArgument f) (Data.glyphsOfArguments args)
      (Data.printArguments args) (Data.canonicalArguments args)
  | [] => .nil
  | ⟨none, d⟩ :: args => .cons (shows_canonical hf d).argument (shows_arguments hf args)
  | ⟨some name, d⟩ :: args => .cons ((shows_canonical hf d).named name) (shows_arguments hf args)

/-- Entries show as they are printed, and are read in canonical form. -/
theorem shows_entries (hf : ∀ a b, f a = f b) : (entries : List (Entry Data)) →
    ShowsAll (fun levels => entry (dataWithin levels)) (SameEntry f) (Data.glyphsOfEntries keyKind entries)
      (Data.printEntries keyText entries) (Data.canonicalEntries entries)
  | [] => .nil
  | ⟨key, span, d⟩ :: entries => .cons ((shows_canonical hf d).entry key span) (shows_entries hf entries)

/-- Entries of a constructor are written like named arguments. -/
theorem shows_argumentsOfEntries (hf : ∀ a b, f a = f b) : (entries : List (Entry Data)) →
    ShowsAll (fun levels => dataArgument (dataWithin levels)) (SameArgument f)
      (Data.glyphsOfEntries .name entries) (Data.printEntries id entries) (Data.argumentsOfEntries entries)
  | [] => .nil
  | ⟨key, _, d⟩ :: entries => .cons ((shows_canonical hf d).named key) (shows_argumentsOfEntries hf entries)

end

end Parser

/-- Data is read from the tokens of a text. -/
theorem Data.read_eq {source : String} {tokens : List Token} (hscan : scan source = .ok tokens) :
    Data.read source = ((Parser.data.outcome (Cursor.ofTokens tokens)).1).mapError Failure.parse := by
  rw [Data.read, hscan]
  rfl

/-- **Data that is written is read back in canonical form,** at other places, or it is nested too deeply. -/
theorem Data.read_print {f : Span → Span} (hf : ∀ a b, f a = f b) {d : Data} (hlegible : Glyph.Legible d.glyphs) :
    (∃ span, Data.read d.print = .error (.parse (.tooDeep span))) ∨
      ∃ d', Data.read d.print = .ok d' ∧ d'.relocate f = d.canonical.relocate f := by
  have hshows := Parser.shows_canonical hf d
  have hrow := hshows.row hlegible
  obtain ⟨kind, gs, hgs, -, -⟩ := hshows.starts
  obtain ⟨tokens, hscan, hkinds⟩ := exists_scan_row hshows.text ⟨_, gs, hgs, by rintro ⟨⟩⟩
    (hrow.readable [] Glyph.bounded_nil) (hrow.depth 0)
  have hat := Cursor.at_ofTokens hkinds (List.append_ne_nil_of_right_ne_nil _ (List.cons_ne_nil _ _))
  have hread := Data.read_eq hscan
  rcases hshows.reads maxNesting .newline [.eof] (by rintro ⟨⟩) _ hat with ⟨span, c, hdeep⟩ | ⟨d', c, hok, -, hd⟩
  · exact .inl ⟨span, by rw [hread, Parser.data, hdeep]; rfl⟩
  · exact .inr ⟨d', by rw [hread, Parser.data, hok]; rfl, hd⟩

end TypedData
