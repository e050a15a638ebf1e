import TypedData.Proofs.Reading.Data

/-!
# Rows next to one another

Two rows with a space between them are a row (`Glyph.Row.spaced`).  Only where a value ends at the end of the first
must the second not start with a negative number, whose sign would be taken for an operator.  A row may stand in
parentheses (`Glyph.enclosed`) or after a label (`Glyph.labelled`).
-/

namespace TypedData

namespace TokenKind

/-- Whether the token is a number. -/
def isNumber : TokenKind → Bool
  | int _ | float _ => true
  | _ => false

/-- What is no number is no negative number. -/
theorem isNegative_of_isNumber {kind : TokenKind} (h : kind.isNumber = false) : kind.isNegative = false := by
  cases kind <;> first | rfl | cases h

/-- Only numbers start with a digit. -/
theorem isDigit_of_mem_head?_spelling {kind : TokenKind} (hlegible : kind.Legible) (hnumber : kind.isNumber = false)
    {d : Char} (hd : d ∈ kind.spelling.head?) : d.isDigit = false := by
  have hword : ∀ {t : List Char}, isWord t = true → d ∈ t.head? → d.isDigit = false := by
    intro t ht hd
    obtain ⟨tail, rfl⟩ := List.head?_eq_some_iff.1 hd
    exact Lexeme.isDigit_of_isWordStart (Lexeme.isWordStart_of_isWord ht)
  cases kind with
  | name text => exact hword (Bool.and_eq_true_iff.1 hlegible).1 hd
  | keyword word => exact hword (Lexeme.isWord_spelling word) hd
  | string template =>
    rw [spelling, Template.print, String.toList_append, String.toList_append] at hd
    obtain rfl := Option.some.inj hd
    decide
  | mark m => cases m <;> (cases hd; decide)
  | int | float => cases hnumber
  | eof | newline | indent | dedent => cases hlegible

end TokenKind

namespace Glyph

variable {gs gs' : List Glyph} {parts : List (List Glyph)} {rest : List Char} {before : Bool}

/-- Parts, each after a space. -/
def spaced (parts : List (List Glyph)) : List Glyph := parts.flatMap (.space :: ·)

/-- A row in parentheses, where they are needed. -/
def enclosed (needed : Bool) (gs : List Glyph) : List Glyph := if needed then bracketed .paren [gs] else gs

/-- A row after the name that it is for, if there is one. -/
def labelled (label : Option String) (gs : List Glyph) : List Glyph :=
  match label with
  | some name => labelGlyphs (.name name) ++ gs
  | none => gs

/-- The row starts with a token that no group ends with. -/
def Opens (gs : List Glyph) : Prop :=
  ∃ g gs' kind, gs = g :: gs' ∧ g.token? = some kind ∧ kind ≠ .newline ∧ ∀ b : Bracket, kind ≠ .mark b.closing

/-- The row starts with a token that is no number. -/
def Unnumbered (gs : List Glyph) : Prop := ∃ kind gs', gs = .token kind :: gs' ∧ kind.isNumber = false

/-- A row that starts with a token that is no number is unnumbered. -/
theorem unnumbered_token {kind : TokenKind} (h : kind.isNumber = false) (gs : List Glyph) :
    Unnumbered (.token kind :: gs) := ⟨kind, gs, rfl, h⟩

/-- A row that starts with no number does not start with a digit. -/
theorem Unnumbered.exists_text (h : Unnumbered gs) (hlegible : Legible gs) :
    ∃ c tail, text gs = c :: tail ∧ c.isDigit = false := by
  obtain ⟨kind, gs, rfl, hnumber⟩ := h
  have hkind := hlegible kind (.head _)
  obtain ⟨c, tail, hspelling, -⟩ := Lexeme.exists_spelling hkind (bounded_nil.endsAt kind)
  have hdigit := TokenKind.isDigit_of_mem_head?_spelling (d := c) hkind hnumber (by rw [hspelling]; rfl)
  exact ⟨c, tail ++ text gs, by rw [text_cons, chars, hspelling]; rfl, hdigit⟩

/-- A row stays unnumbered when more is written behind it. -/
theorem Unnumbered.append (h : Unnumbered gs) (gs' : List Glyph) : Unnumbered (gs ++ gs') := by
  obtain ⟨kind, more, rfl, hkind⟩ := h
  exact ⟨kind, more ++ gs', rfl, hkind⟩

/-- An unnumbered row stays so in parentheses. -/
theorem Unnumbered.enclosed (needed : Bool) (h : Unnumbered gs) : Unnumbered (enclosed needed gs) := by
  unfold Glyph.enclosed
  split
  · exact unnumbered_token rfl _
  · exact h

namespace Opens

/-- A row opens with a token that is no newline and closes no brackets. -/
theorem token {kind : TokenKind} (hnewline : kind ≠ .newline) (hclosing : ∀ b : Bracket, kind ≠ .mark b.closing)
    (gs : List Glyph) : Opens (.token kind :: gs) := ⟨_, gs, kind, rfl, rfl, hnewline, hclosing⟩

/-- The row starts with no space. -/
theorem exists_cons (h : Opens gs) : ∃ g gs', gs = g :: gs' ∧ g ≠ .space := by
  obtain ⟨g, gs', kind, hgs, hkind, -⟩ := h
  refine ⟨g, gs', hgs, ?_⟩
  rintro rfl
  cases hkind

/-- The first token of the row is no newline. -/
theorem exists_tokens (h : Opens gs) : ∃ kind kinds, tokens gs = kind :: kinds ∧ kind ≠ .newline := by
  obtain ⟨g, gs', kind, rfl, hkind, hnewline, -⟩ := h
  exact ⟨kind, tokens gs', List.filterMap_cons_some hkind, hnewline⟩

/-- A row opens with what its first part opens with. -/
theorem append (h : Opens gs) (gs' : List Glyph) : Opens (gs ++ gs') := by
  obtain ⟨g, more, kind, rfl, hkind⟩ := h
  exact ⟨g, more ++ gs', kind, rfl, hkind⟩

/-- A row that opens a part opens one in parentheses too. -/
theorem enclosed (needed : Bool) (h : Opens gs) : Opens (enclosed needed gs) := by
  unfold Glyph.enclosed
  split
  · exact token (by rintro ⟨⟩) (by rintro (_ | _ | _) ⟨⟩) _
  · exact h

/-- A row that opens a part opens one after a label too. -/
theorem labelled (label : Option String) (h : Opens gs) : Opens (labelled label gs) := by
  cases label with
  | none => exact h
  | some name => exact token (by rintro ⟨⟩) (by rintro b ⟨⟩) _

/-- Parts with commas between them open with the first of them. -/
theorem commas (h : Opens gs) (parts : List (List Glyph)) : Opens (commas (gs :: parts)) := by
  cases parts with
  | nil => rwa [Glyph.commas, List.intercalate_singleton]
  | cons next parts =>
    rw [Glyph.commas, List.intercalate_cons_cons, List.append_assoc]
    exact h.append _

/-- What a row opens with is no end of brackets. -/
theorem starts (h : Opens gs) (b : Bracket) : Parser.Starts b.closing (tokens gs) := by
  obtain ⟨g, more, kind, rfl, hkind, hnewline, hclosing⟩ := h
  exact ⟨kind, tokens more, List.filterMap_cons_some hkind, hnewline, hclosing b⟩

end Opens

/-! ## Texts and tokens -/

/-- No parts are written as nothing. -/
@[simp] theorem spaced_nil : spaced [] = [] := rfl

/-- The first of several parts is written after a space, then the others. -/
@[simp] theorem spaced_cons (part : List Glyph) (parts : List (List Glyph)) :
    spaced (part :: parts) = .space :: (part ++ spaced parts) := rfl

/-- Parts after spaces are written as their texts, each after a blank. -/
theorem text_spaced (parts : List (List Glyph)) : text (spaced parts) = (parts.map text).flatMap (' ' :: ·) := by
  induction parts with
  | nil => rfl
  | cons part parts ih =>
    rw [spaced_cons, text_cons, text_append, ih]
    rfl

/-- Parentheses around a text are written as parentheses around its row. -/
theorem text_enclosed {text : String} (needed : Bool) (h : text.toList = Glyph.text gs) :
    (parenthesised needed text).toList = Glyph.text (enclosed needed gs) := by
  unfold parenthesised enclosed
  split
  · simp [bracketed, commas, chars, TokenKind.spelling, Bracket.opening, Bracket.closing, Mark.spelling, h]
  · exact h

/-- A label before a text is written as a label before its row. -/
theorem text_labelled {text : String} (label : Option String) (h : text.toList = Glyph.text gs) :
    (TypedData.labelled label text).toList = Glyph.text (labelled label gs) := by
  cases label with
  | none => exact h
  | some name =>
    rw [TypedData.labelled, labelled, String.toList_append, h, text_append]
    simp [labelGlyphs, chars, TokenKind.spelling, Mark.spelling]

/-- Things that are written as their rows are so in a list. -/
theorem map_toList_eq {X : Type} {print : X → String} {gs : X → List Glyph} {xs : List X}
    (h : ∀ x ∈ xs, (print x).toList = Glyph.text (gs x)) : (xs.map print).map String.toList = (xs.map gs).map text := by
  rw [List.map_map, List.map_map]
  exact List.map_congr_left h

/-- Spaces are no tokens: parts after spaces have the tokens of the parts. -/
theorem tokens_spaced (parts : List (List Glyph)) : tokens (spaced parts) = parts.flatMap tokens := by
  induction parts with
  | nil => rfl
  | cons part parts ih => rw [spaced_cons, tokens_space, tokens_append, ih, List.flatMap_cons]

/-- A row in parentheses has its own tokens between those of the parentheses. -/
theorem tokens_enclosed (gs : List Glyph) (kinds : List TokenKind) : tokens (enclosed true gs) ++ kinds =
    .mark .leftParen :: (tokens gs ++ .mark .rightParen :: kinds) := by
  simp [enclosed, bracketed, commas, Bracket.opening, Bracket.closing]

/-- A row with a token behind it has a first token. -/
theorem exists_tokens_eq_cons (gs : List Glyph) (next : TokenKind) (rest : List TokenKind) :
    ∃ kind tail, tokens gs ++ next :: rest = kind :: tail :=
  List.exists_cons_of_ne_nil (List.append_ne_nil_of_right_ne_nil _ (List.cons_ne_nil _ _))

/-- A row is as legible as it is behind a space. -/
theorem legible_space_iff : Legible (.space :: gs) ↔ Legible gs := Iff.rfl

/-- No glyphs are legible. -/
theorem legible_nil : Legible [] := List.forall_mem_nil _

/-- A row is as legible as it is in parentheses. -/
theorem legible_enclosed_iff {needed : Bool} : Legible (enclosed needed gs) ↔ Legible gs := by
  unfold enclosed
  split
  · rw [legible_bracketed_iff, List.forall_mem_singleton]
  · rfl

/-- A row after a label is legible when the label is a name and the row is legible. -/
theorem legible_labelled_iff {label : Option String} :
    Legible (labelled label gs) ↔ (∀ name, label = some name → isName name = true) ∧ Legible gs := by
  cases label with
  | none => simp [labelled]
  | some name =>
    rw [labelled, legible_append_iff]
    simp [labelGlyphs, Legible, TokenKind.Legible]

/-- Parts after spaces are legible when each of them is. -/
theorem legible_spaced_iff : Legible (spaced parts) ↔ ∀ part ∈ parts, Legible part := by
  induction parts with
  | nil => simp [legible_nil]
  | cons part parts ih => rw [spaced_cons, legible_space_iff, legible_append_iff, ih, List.forall_mem_cons]

/-! ## Rows -/

namespace Row

/-- An unnumbered row is read as it is written, whatever stands before it. -/
theorem readable_of_unnumbered (h : Row gs) (hunnumbered : Unnumbered gs) (before : Bool) (hrest : Bounded rest) :
    Readable before rest gs := by
  obtain ⟨kind, gs, rfl, hnumber⟩ := hunnumbered
  obtain ⟨hlegible, hends, -, hread⟩ := h.readable rest hrest
  refine ⟨hlegible, hends, fun hnegative => ?_, hread⟩
  rw [TokenKind.isNegative_of_isNumber hnumber] at hnegative
  cases hnegative

/-- Rows with commas between them are a row. -/
theorem commas (h : ∀ part ∈ parts, Row part) : Row (Glyph.commas parts) :=
  ⟨fun _ => readable_commas h, depthAfter_commas h⟩

/-- A row in parentheses is a row. -/
theorem enclosed (needed : Bool) (h : Row gs) : Row (Glyph.enclosed needed gs) := by
  unfold Glyph.enclosed
  split
  · exact .bracketed _ (List.forall_mem_singleton.2 h)
  · exact h

/-- No mark of two characters starts with a minus. -/
theorem markOfTwo?_minus (d : Char) : Lexeme.markOfTwo? '-' d = none := by
  unfold Lexeme.markOfTwo?
  split <;> first | rfl | (rename_i hminus; cases hminus)

/-- A sign before a row that starts with no digit. -/
theorem minus (h : Row gs) (hfirst : ∃ c tail, text gs = c :: tail ∧ c.isDigit = false) :
    Row (.token (.mark .minus) :: gs) where
  readable rest hrest := by
    refine ⟨trivial, ?_, by rintro ⟨⟩, h.readable rest hrest⟩
    obtain ⟨c, tail, htext, hdigit⟩ := hfirst
    intro d hd
    rw [htext] at hd
    obtain rfl := Option.some.inj hd
    refine ⟨fun m hm => ?_, fun _ => hdigit, by rintro ⟨⟩⟩
    change ['-'] = [m] at hm
    obtain rfl := (List.cons.inj hm).1
    exact markOfTwo?_minus c
  depth depth := h.depth depth

/-- A number with a sign that is part of it. -/
theorem signed {kind : TokenKind} (h : kind.isUnsigned = true) : Row [.signed kind] where
  readable _ hrest := ⟨h, hrest.endsAt (.int .zero), rfl, trivial⟩
  depth depth := by
    cases kind with
    | int | float => rfl
    | _ => cases h

/-- A field of what the row stands for. -/
theorem field {name : String} (h : Row gs) (hname : isName name = true) :
    Row (gs ++ [.token (.mark .dot), .token (.name name)]) where
  readable rest hrest := by
    have hword := (Bool.and_eq_true_iff.1 hname).1
    have hdot : Bounded (text [.token (.mark .dot), .token (.name name)] ++ rest) := by
      cases hchars : name.toList with
      | nil =>
        rw [hchars] at hword
        cases hword
      | cons c chars =>
        rw [hchars] at hword
        change Bounded ('.' :: (name.toList ++ [] ++ rest))
        rw [hchars]
        exact bounded_dot (Lexeme.isDigit_of_isWordStart (Lexeme.isWordStart_of_isWord hword)) _
    exact (readable_append _ _ _).2 ⟨h.readable _ hdot,
      Parser.readable_path hrest (List.forall_mem_singleton.2 hname) _⟩
  depth depth := by
    rw [depthAfter_append, h.depth]
    rfl

/-- A row after a label that is a name is a row. -/
theorem labelledBy (label : Option String) (hlabel : ∀ name, label = some name → isName name = true) (h : Row gs) :
    Row (Glyph.labelled label gs) := by
  cases label with
  | none => exact h
  | some name => exact .labelled (hlabel name rfl) (fun _ => rfl) h

/-- **Two rows with a space between them are a row,** if no sign comes after a value. -/
theorem spaced (h : Row gs) (h' : Row gs') (hsign : Unnumbered gs' ∨ endsValue false gs = false) :
    Row (gs ++ .space :: gs') where
  readable rest hrest := by
    refine (readable_append gs _ false).2 ⟨h.readable _ (bounded_cons (by decide) _), ?_⟩
    change Readable _ rest gs'
    rcases hsign with hunnumbered | hends
    · exact h'.readable_of_unnumbered hunnumbered _ hrest
    · rw [hends]
      exact h'.readable rest hrest
  depth depth := by
    rw [depthAfter_append, h.depth]
    exact h'.depth depth

/-- A row with unnumbered rows behind it, each after a space, is a row. -/
theorem spacedAll (h : Row gs) (hparts : ∀ part ∈ parts, Row part ∧ Unnumbered part) :
    Row (gs ++ Glyph.spaced parts) := by
  induction parts generalizing gs with
  | nil => rwa [spaced_nil, List.append_nil]
  | cons part parts ih =>
    obtain ⟨hpart, hparts⟩ := List.forall_mem_cons.1 hparts
    have hmore := ih (h.spaced hpart.1 (.inl hpart.2)) hparts
    rwa [List.append_assoc, List.cons_append] at hmore

end Row

end Glyph

/-- A label is read where there is one. -/
theorem Parser.reads_label (label : Option String) {gs : List Glyph} {next : TokenKind} {rest : List TokenKind}
    (h : ∀ name tail, Glyph.tokens gs ++ next :: rest ≠ .name name :: .mark .colon :: tail) :
    Reads acceptLabel (Cursor.At (Glyph.tokens (Glyph.labelled label gs) ++ next :: rest))
      (Cursor.At (Glyph.tokens gs ++ next :: rest)) (· = label) := by
  cases label with
  | none => exact reads_acceptLabel_none h
  | some name =>
    obtain ⟨first, others, hothers⟩ := Glyph.exists_tokens_eq_cons gs next rest
    rw [hothers]
    change Reads _ (Cursor.At (.name name :: .mark .colon :: (Glyph.tokens gs ++ next :: rest))) _ _
    rw [hothers]
    exact reads_acceptLabel

end TypedData
