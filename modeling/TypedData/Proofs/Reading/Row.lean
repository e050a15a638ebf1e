import TypedData.Document.Printer
import TypedData.Proofs.Reading.Line
import TypedData.Proofs.Reading.Parser

/-!
# Rows that are read back

Data is written as a row of tokens in which every bracket is closed (`Glyph.Row`), and so are the parts of it,
with commas between them and brackets around them (`Glyph.bracketed`).  A row is read as its tokens whatever
follows that no token goes on with (`Glyph.Bounded`).

`Parser.Shows p gs text P` says that the text is written for a row of tokens, and that the parser `p` reads from these
tokens something with `P`.  Parts that are shown make a whole that is shown (`ShowsAll.text_bracketed`,
`ShowsAll.row_of_mem`, `ShowsAll.reads_bracketed`).
-/

namespace TypedData

/-- A pair of brackets. -/
inductive Bracket where
  | paren | square | brace

namespace Bracket

/-- The mark that opens the brackets. -/
def opening : Bracket → Mark
  | paren => .leftParen
  | square => .leftBracket
  | brace => .leftBrace

/-- The mark that closes the brackets. -/
def closing : Bracket → Mark
  | paren => .rightParen
  | square => .rightBracket
  | brace => .rightBrace

variable (b : Bracket)

/-- No bracket is closed by a comma. -/
theorem closing_ne_comma : b.closing ≠ .comma := by cases b <;> decide

/-- No bracket is closed by a dot. -/
theorem closing_ne_dot : b.closing ≠ .dot := by cases b <;> decide

/-- No value ends with an opening bracket. -/
theorem endsValue_opening : (TokenKind.mark b.opening).endsValue = false := by cases b <;> rfl

/-- Behind an opening bracket the depth is one more. -/
theorem depthAfter_opening (depth : Nat) : ScanState.depthAfter depth (.mark b.opening) = depth + 1 := by
  cases b <;> rfl

/-- Behind a closing bracket the depth is one less. -/
theorem depthAfter_closing (depth : Nat) : ScanState.depthAfter (depth + 1) (.mark b.closing) = depth := by
  cases b <;> rfl

end Bracket

namespace Glyph

/-- Parts with a comma and a space between them. -/
def commas (parts : List (List Glyph)) : List Glyph := [.token (.mark .comma), .space].intercalate parts

/-- Parts between brackets. -/
def bracketed (b : Bracket) (parts : List (List Glyph)) : List Glyph :=
  .token (.mark b.opening) :: (commas parts ++ [.token (.mark b.closing)])

/-! ## Texts -/

/-- Rows with commas between them are written as their texts, with commas and blanks between them. -/
theorem text_commas (parts : List (List Glyph)) : text (commas parts) = [',', ' '].intercalate (parts.map text) := by
  induction parts with
  | nil => rfl
  | cons part parts ih =>
    cases parts with
    | nil => simp [commas, text]
    | cons next parts =>
      rw [commas, List.intercalate_cons_cons, text_append, text_append, ← commas, ih, List.map_cons, List.map_cons,
        List.map_cons, List.intercalate_cons_cons]
      rfl

/-- Texts with commas between them are written like rows, if each of them is. -/
theorem text_commaSeparated {texts : List String} {parts : List (List Glyph)}
    (h : texts.map String.toList = parts.map text) :
    (TypedData.commaSeparated texts).toList = text (commas parts) := by
  rw [TypedData.commaSeparated, String.toList_intercalate, h, text_commas]
  rfl

/-- Texts between brackets are written like rows between them. -/
theorem text_bracketed (b : Bracket) {texts : List String} {parts : List (List Glyph)}
    (h : texts.map String.toList = parts.map text) :
    (b.opening.spelling ++ TypedData.commaSeparated texts ++ b.closing.spelling).toList = text (bracketed b parts) := by
  rw [bracketed, text_cons, text_append, String.toList_append, String.toList_append, text_commaSeparated h,
    List.append_assoc]
  simp [chars, TokenKind.spelling]

/-! ## Tokens -/

/-- Rows with commas between them have the tokens of the parts, with commas between them. -/
theorem tokens_commas {X : Type} (gs : X → List Glyph) (rest : List TokenKind) (xs : List X) :
    tokens (commas (xs.map gs)) ++ rest = Parser.commas (fun x => tokens (gs x)) rest xs := by
  fun_induction Parser.commas (fun x => tokens (gs x)) rest xs with
  | case1 => rfl
  | case2 x => simp [commas]
  | case3 x y xs ih =>
    rw [← ih, List.map_cons, List.map_cons, commas, List.intercalate_cons_cons, tokens_append, tokens_append,
      List.append_assoc, List.append_assoc]
    rfl

/-- Rows between brackets have the tokens of the parts, with commas between them and the brackets around them. -/
theorem tokens_bracketed {X : Type} (b : Bracket) (gs : X → List Glyph) (rest : List TokenKind) (xs : List X) :
    tokens (bracketed b (xs.map gs)) ++ rest =
      .mark b.opening :: Parser.commas (fun x => tokens (gs x)) (.mark b.closing :: rest) xs := by
  rw [← tokens_commas, bracketed, tokens_token, tokens_append, List.cons_append, List.append_assoc]
  rfl

/-- Whether every token of the row is one that a reader gives. -/
def Legible (gs : List Glyph) : Prop := ∀ kind ∈ tokens gs, kind.Legible

/-- A token and a row behind it are legible when each of them is. -/
theorem legible_token_iff {kind : TokenKind} {gs : List Glyph} :
    Legible (.token kind :: gs) ↔ kind.Legible ∧ Legible gs := List.forall_mem_cons

/-- Two rows, one behind the other, are legible when each of them is. -/
theorem legible_append_iff {gs gs' : List Glyph} : Legible (gs ++ gs') ↔ Legible gs ∧ Legible gs' := by
  simp only [Legible, tokens_append, List.forall_mem_append]

/-- Rows with commas between them are legible when each of them is. -/
theorem legible_commas_iff {parts : List (List Glyph)} :
    Legible (commas parts) ↔ ∀ part ∈ parts, Legible part := by
  induction parts with
  | nil => simp [commas, Legible]
  | cons part parts ih =>
    rw [List.forall_mem_cons, ← ih]
    cases parts with
    | nil => simp [commas, Legible]
    | cons next parts =>
      have hcomma : Legible [.token (.mark .comma), .space] := List.forall_mem_singleton.2 trivial
      rw [commas, List.intercalate_cons_cons, legible_append_iff, legible_append_iff, and_iff_left hcomma]
      rfl

/-- The tokens between brackets are legible when those of all parts are. -/
theorem legible_bracketed_iff {b : Bracket} {parts : List (List Glyph)} :
    Legible (bracketed b parts) ↔ ∀ part ∈ parts, Legible part := by
  have hclosing : Legible [.token (.mark b.closing)] := List.forall_mem_singleton.2 trivial
  rw [bracketed, legible_token_iff, legible_append_iff, legible_commas_iff, and_iff_left hclosing]
  exact and_iff_right trivial

/-! ## Rows -/

/-- A character that no token goes on with. -/
def isBoundary (c : Char) : Bool := [' ', '\t', '\r', '\n', ',', ':', '(', ')', ']', '}'].contains c

/-- Nothing follows that a token could go on with.  A dot may follow, but not with a digit behind it. -/
def Bounded : List Char → Prop
  | [] => True
  | '.' :: d :: _ => d.isDigit = false
  | c :: _ => isBoundary c = true

/-- At the end of a text, every token ends. -/
theorem bounded_nil : Bounded [] := trivial

/-- Before a boundary, every token ends. -/
theorem bounded_cons {c : Char} (h : isBoundary c = true) (rest : List Char) : Bounded (c :: rest) := by
  unfold Bounded
  split
  · trivial
  · rename_i heq
    obtain ⟨rfl, rfl⟩ := List.cons.inj heq
    cases h
  · rename_i heq
    obtain ⟨rfl, rfl⟩ := List.cons.inj heq
    exact h

/-- Before a dot without a digit behind it, every token ends. -/
theorem bounded_dot {d : Char} (h : d.isDigit = false) (rest : List Char) : Bounded ('.' :: d :: rest) := h

/-- What follows starts with a boundary or with a dot. -/
theorem Bounded.head {c : Char} {rest : List Char} (h : Bounded (c :: rest)) : isBoundary c = true ∨ c = '.' := by
  unfold Bounded at h
  split at h
  · rename_i heq
    cases heq
  · rename_i heq
    exact .inr (List.cons.inj heq).1
  · rename_i heq
    obtain ⟨rfl, rfl⟩ := List.cons.inj heq
    exact .inl h

/-- No boundary is a character of a word. -/
theorem isWordChar_of_isBoundary {c : Char} (h : isBoundary c = true) : isWordChar c = false := by
  simp only [isBoundary, List.contains_iff_mem, List.mem_cons, List.not_mem_nil, or_false] at h
  rcases h with rfl | rfl | rfl | rfl | rfl | rfl | rfl | rfl | rfl | rfl <;> decide

/-- No mark of two characters ends with a boundary. -/
theorem markOfTwo?_of_isBoundary {c d : Char} (h : isBoundary d = true) : Lexeme.markOfTwo? c d = none := by
  unfold Lexeme.markOfTwo?
  split <;> first | rfl | cases h

/-- No mark of two characters ends with a dot. -/
theorem markOfTwo?_dot (c : Char) : Lexeme.markOfTwo? c '.' = none := by
  unfold Lexeme.markOfTwo?
  split <;> first | rfl | (rename_i hdot; cases hdot)

/-- Every token ends where nothing follows that a token could go on with. -/
theorem Bounded.endsAt {rest : List Char} (h : Bounded rest) (kind : TokenKind) : kind.EndsAt rest := by
  have hword : ∀ c ∈ rest.head?, isWordChar c = false := by
    intro c hc
    obtain ⟨tail, rfl⟩ := List.head?_eq_some_iff.1 hc
    rcases h.head with hboundary | rfl
    · exact isWordChar_of_isBoundary hboundary
    · decide
  have hnumber : EndsNumber rest := by
    refine ⟨hword, fun d tail hrest => ?_⟩
    subst hrest
    exact h
  cases kind with
  | name | keyword => exact hword
  | int | float => exact hnumber
  | mark m =>
    intro d hd
    obtain ⟨tail, rfl⟩ := List.head?_eq_some_iff.1 hd
    refine ⟨fun c _ => ?_, fun _ => isDigit_eq_false (hword d hd), ?_⟩
    · rcases h.head with hboundary | rfl
      · exact markOfTwo?_of_isBoundary hboundary
      · exact markOfTwo?_dot c
    · rintro - rfl
      rcases h.head with hboundary | hdot
      · cases hboundary
      · cases hdot
  | _ => trivial

/-- An opening bracket ends before whatever follows. -/
theorem endsAt_opening (b : Bracket) (rest : List Char) : (TokenKind.mark b.opening).EndsAt rest := by
  intro d _
  refine ⟨fun c hc => ?_, by cases b <;> rintro ⟨⟩, by cases b <;> rintro ⟨⟩⟩
  cases b <;> (obtain rfl := (List.cons.inj hc).1; rfl)

/-- A row of tokens that is read as it is written, and in which every bracket is closed. -/
structure Row (gs : List Glyph) : Prop where
  readable : ∀ rest, Bounded rest → Readable false rest gs
  depth : ∀ depth, depthAfter depth gs = depth

namespace Row

variable {kind : TokenKind} {gs : List Glyph} {parts : List (List Glyph)}

/-- A token in front of a row that it does not run into. -/
theorem cons (hkind : kind.Legible) (hdepth : ∀ depth, ScanState.depthAfter depth kind = depth)
    (hends : ∀ rest, Bounded rest → Bounded (text gs ++ rest))
    (hread : ∀ rest, Bounded rest → Readable kind.endsValue rest gs)
    (hclosed : ∀ depth, depthAfter depth gs = depth) : Row (.token kind :: gs) where
  readable rest hrest := ⟨hkind, (hends rest hrest).endsAt kind, fun _ => rfl, hread rest hrest⟩
  depth depth := by
    change depthAfter (ScanState.depthAfter depth kind) gs = depth
    rw [hdepth, hclosed]

/-- A token that is no bracket is a row. -/
theorem token (hkind : kind.Legible) (hdepth : ∀ depth, ScanState.depthAfter depth kind = depth) :
    Row [.token kind] :=
  .cons hkind hdepth (fun _ => id) (fun _ _ => trivial) fun _ => rfl

/-- A row after a label. -/
theorem labelled (hkind : kind.Legible) (hdepth : ∀ depth, ScanState.depthAfter depth kind = depth)
    (h : Row gs) : Row (.token kind :: .token (.mark .colon) :: .space :: gs) := by
  refine .cons hkind hdepth (fun _ _ => bounded_cons (by decide) _) (fun rest hrest => ?_) h.depth
  exact ⟨trivial, (bounded_cons (by decide) _).endsAt _, by rintro ⟨⟩, h.readable rest hrest⟩

/-! ### Brackets -/

/-- Rows with commas between them are read as they are written. -/
theorem readable_commas (h : ∀ part ∈ parts, Row part) {rest : List Char} (hrest : Bounded rest) :
    Readable false rest (commas parts) := by
  induction parts with
  | nil => trivial
  | cons part parts ih =>
    obtain ⟨hpart, hparts⟩ := List.forall_mem_cons.1 h
    cases parts with
    | nil =>
      rw [commas, List.intercalate_singleton]
      exact hpart.readable rest hrest
    | cons next parts =>
      rw [commas, List.intercalate_cons_cons, List.append_assoc, readable_append]
      refine ⟨hpart.readable _ (bounded_cons (by decide) _), trivial, ?_, by rintro ⟨⟩, ih hparts⟩
      exact (bounded_cons (by decide) _).endsAt _

/-- Rows with commas between them leave the depth as it is. -/
theorem depthAfter_commas (h : ∀ part ∈ parts, Row part) (depth : Nat) :
    depthAfter depth (commas parts) = depth := by
  induction parts with
  | nil => rfl
  | cons part parts ih =>
    obtain ⟨hpart, hparts⟩ := List.forall_mem_cons.1 h
    cases parts with
    | nil =>
      rw [commas, List.intercalate_singleton]
      exact hpart.depth depth
    | cons next parts =>
      rw [commas, List.intercalate_cons_cons, depthAfter_append, depthAfter_append, hpart.depth]
      exact ih hparts

variable (b : Bracket)

/-- Rows between brackets are read as they are written. -/
theorem readable_bracketed (h : ∀ part ∈ parts, Row part) (before : Bool) {rest : List Char}
    (hrest : Bounded rest) : Readable before rest (Glyph.bracketed b parts) := by
  refine ⟨trivial, endsAt_opening b _, by rintro ⟨⟩, ?_⟩
  rw [b.endsValue_opening, readable_append]
  have hclosing : Bounded (text [.token (.mark b.closing)] ++ rest) := by
    cases b <;> exact bounded_cons (by decide) rest
  exact ⟨readable_commas h hclosing, trivial, hrest.endsAt _, by rintro ⟨⟩, trivial⟩

/-- Rows between brackets leave the depth as it is. -/
theorem depthAfter_bracketed (h : ∀ part ∈ parts, Row part) (depth : Nat) :
    depthAfter depth (Glyph.bracketed b parts) = depth := by
  change depthAfter (ScanState.depthAfter depth (.mark b.opening)) _ = depth
  rw [depthAfter_append, depthAfter_commas h, b.depthAfter_opening]
  exact b.depthAfter_closing depth

/-- Rows with commas between them and brackets around them are a row. -/
theorem bracketed (h : ∀ part ∈ parts, Row part) : Row (Glyph.bracketed b parts) :=
  ⟨fun _ hrest => readable_bracketed b h false hrest, depthAfter_bracketed b h⟩

/-- A name before parentheses. -/
theorem call {name : String} (hname : isName name = true) (h : ∀ part ∈ parts, Row part) :
    Row (.token (.name name) :: Glyph.bracketed .paren parts) :=
  .cons hname (fun _ => rfl) (fun _ _ => bounded_cons (by decide) _)
    (fun _ hrest => readable_bracketed .paren h true hrest) (depthAfter_bracketed .paren h)

end Row

end Glyph

/-! ## What is shown -/

namespace Parser

open Cursor (At)

/-- **Parts are read that have commas between them and brackets around them,** up to the closing bracket. -/
theorem exists_reads_bracketed {X α : Type} {item : Parser α} {gs : X → List Glyph} {P : X → α → Prop} {xs : List X}
    (b : Bracket) (hstarts : ∀ x ∈ xs, Starts b.closing (Glyph.tokens (gs x)))
    (hitem : ∀ x ∈ xs, ∀ m tail, m = .comma ∨ m = b.closing →
      Reads item (At (Glyph.tokens (gs x) ++ .mark m :: tail)) (At (.mark m :: tail)) (P x))
    (next : TokenKind) (rest : List TokenKind) : ∃ first tail,
      Glyph.tokens (Glyph.bracketed b (xs.map gs)) ++ next :: rest = .mark b.opening :: first :: tail ∧
        Reads (separatedUntil b.closing item) (At (first :: tail)) (At (next :: rest)) (List.Forall₂ P xs) := by
  obtain ⟨first, tail, hcommas⟩ := exists_commas_eq_cons (fun x => Glyph.tokens (gs x))
    (List.cons_ne_nil (TokenKind.mark b.closing) (next :: rest)) xs
  refine ⟨first, tail, by rw [Glyph.tokens_bracketed, hcommas], ?_⟩
  rw [← hcommas]
  exact reads_separatedUntil b.closing_ne_comma hstarts hitem

/-- The text is written for the row of tokens, and the parser reads from the tokens something with `P`, however
deeply it may be nested. -/
structure Shows {α : Type} (p : Nat → Parser α) (gs : List Glyph) (text : String) (P : α → Prop) : Prop where
  text : text.toList = Glyph.text gs
  row : Glyph.Legible gs → Glyph.Row gs
  starts : ∃ kind gs', gs = .token kind :: gs' ∧ kind ≠ .newline ∧ ∀ b : Bracket, kind ≠ .mark b.closing
  reads : ∀ levels next rest, next ≠ .mark .dot →
    Reads (p levels) (At (Glyph.tokens gs ++ next :: rest)) (At (next :: rest)) P

/-- The texts are written for the rows of tokens, and what is read from each row is related to what stands
for it. -/
inductive ShowsAll {α β : Type} (p : Nat → Parser α) (P : β → α → Prop) :
    List (List Glyph) → List String → List β → Prop
  | nil : ShowsAll p P [] [] []
  | cons {gs : List Glyph} {text : String} {b : β} {rows : List (List Glyph)} {texts : List String} {bs : List β} :
      Shows p gs text (P b) → ShowsAll p P rows texts bs → ShowsAll p P (gs :: rows) (text :: texts) (b :: bs)

namespace ShowsAll

variable {α β : Type} {p : Nat → Parser α} {P : β → α → Prop} {rows : List (List Glyph)} {texts : List String}
  {bs : List β}

/-- Parts that are shown are written with commas between them and brackets around them. -/
theorem text_bracketed (h : ShowsAll p P rows texts bs) (b : Bracket) :
    (b.opening.spelling ++ TypedData.commaSeparated texts ++ b.closing.spelling).toList =
      Glyph.text (Glyph.bracketed b rows) := by
  have hparts : texts.map String.toList = rows.map Glyph.text := by
    induction h with
    | nil => rfl
    | cons h _ ih => rw [List.map_cons, List.map_cons, h.text, ih]
  exact Glyph.text_bracketed b hparts

/-- The parts can be read if their tokens can. -/
theorem row_of_mem (h : ShowsAll p P rows texts bs) (hlegible : ∀ part ∈ rows, Glyph.Legible part) :
    ∀ part ∈ rows, Glyph.Row part := by
  induction h with
  | nil => exact List.forall_mem_nil _
  | cons h _ ih =>
    obtain ⟨hpart, hparts⟩ := List.forall_mem_cons.1 hlegible
    exact List.forall_mem_cons.2 ⟨h.row hpart, ih hparts⟩

/-- Parts that are shown are a list of rows with what is read from each of them. -/
theorem exists_list (h : ShowsAll p P rows texts bs) : ∃ xs : List (List Glyph × β),
    rows = xs.map Prod.fst ∧ bs = xs.map Prod.snd ∧ ∀ x ∈ xs, ∃ text, Shows p x.1 text (P x.2) := by
  induction h with
  | nil => exact ⟨[], rfl, rfl, List.forall_mem_nil _⟩
  | @cons gs text b _ _ _ h _ ih =>
    obtain ⟨xs, rfl, rfl, hxs⟩ := ih
    exact ⟨(gs, b) :: xs, rfl, rfl, List.forall_mem_cons.2 ⟨⟨text, h⟩, hxs⟩⟩

/-- **Parts that are shown are read,** up to the closing bracket. -/
theorem reads_bracketed (h : ShowsAll p P rows texts bs) (b : Bracket) (next : TokenKind)
    (rest : List TokenKind) : ∃ first tail,
      Glyph.tokens (Glyph.bracketed b rows) ++ next :: rest = .mark b.opening :: first :: tail ∧ ∀ levels,
        Reads (separatedUntil b.closing (p levels)) (At (first :: tail)) (At (next :: rest))
          (List.Forall₂ P bs) := by
  obtain ⟨xs, rfl, rfl, hxs⟩ := h.exists_list
  have hstarts : ∀ x ∈ xs, Starts b.closing (Glyph.tokens x.1) := by
    intro x hx
    obtain ⟨text, h⟩ := hxs x hx
    obtain ⟨kind, gs, hgs, hnewline, hclosing⟩ := h.starts
    exact ⟨kind, Glyph.tokens gs, by rw [hgs, Glyph.tokens_token], hnewline, hclosing b⟩
  have hitem : ∀ levels, ∀ x ∈ xs, ∀ m tail, m = .comma ∨ m = b.closing →
      Reads (p levels) (At (Glyph.tokens x.1 ++ .mark m :: tail)) (At (.mark m :: tail)) (P x.2) := by
    intro levels x hx m tail hm
    obtain ⟨text, h⟩ := hxs x hx
    refine h.reads levels (.mark m) tail ?_
    rcases hm with rfl | rfl
    · rintro ⟨⟩
    · exact fun hdot => b.closing_ne_dot (TokenKind.mark.inj hdot)
  obtain ⟨first, tail, hcommas⟩ := exists_commas_eq_cons (fun x : List Glyph × β => Glyph.tokens x.1)
    (List.cons_ne_nil (TokenKind.mark b.closing) (next :: rest)) xs
  refine ⟨first, tail, by rw [Glyph.tokens_bracketed, hcommas], fun levels => ?_⟩
  rw [← hcommas]
  exact (reads_separatedUntil b.closing_ne_comma hstarts (hitem levels)).mono fun as has =>
    List.forall₂_map_left_iff.2 has

end ShowsAll

end Parser

end TypedData
