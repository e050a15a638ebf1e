import TypedData.Proofs.Reading.Passing

/-!
# Parts with any separators between them

Between two parts in brackets there may be line breaks, a comma, or a comma with line breaks before or after it
(`Separator`).  After the last part there may be a separator as well, and after the opening bracket there may be line
breaks.  Between brackets a run of line breaks is one newline, so a separator is at most three tokens
(`SeparatorKinds`), all of which the parser takes for it (`SeparatorKinds.reads`).

`Parser.Conveys p text kinds P` says that the text is passed as the tokens, and that the parser `p` reads from these
tokens something with `P`.  If the parts of a bracket are conveyed, then so is the bracket, whichever separators there
are between its parts (`Parser.exists_conveys_brackets`).
-/

namespace TypedData

/-! ## Separators -/

/-- What separates two parts: white space with a line break, or a comma, perhaps with white space around it. -/
inductive Separator : List Char → Prop
  | breaks {cs : List Char} : IsWhite cs → '\n' ∈ cs → Separator cs
  | comma {before after : List Char} : IsWhite before → IsWhite after → Separator (before ++ ',' :: after)

/-- The tokens of a separator. -/
inductive SeparatorKinds : List TokenKind → Prop
  | breaks : SeparatorKinds [.newline]
  | comma (before after : Bool) : SeparatorKinds (breaks before ++ .mark .comma :: breaks after)

/-- The tokens that may follow a part: those that a separator starts with, and the ends of brackets. -/
inductive TokenKind.EndsPart : TokenKind → Prop
  | newline : EndsPart .newline
  | comma : EndsPart (.mark .comma)
  | closing (b : Bracket) : EndsPart (.mark b.closing)

/-- What may follow a part is no mark other than a comma or a closing one. -/
theorem TokenKind.EndsPart.ne_mark {kind : TokenKind} (h : kind.EndsPart) {m : Mark} (hcomma : m ≠ .comma)
    (hclosing : ∀ b : Bracket, m ≠ b.closing) : kind ≠ .mark m := by
  cases h with
  | newline => rintro ⟨⟩
  | comma => exact fun hm => hcomma (TokenKind.mark.inj hm).symm
  | closing b => exact fun hm => hclosing b (TokenKind.mark.inj hm).symm

namespace SeparatorKinds

variable {kinds : List TokenKind}

/-- The tokens of a separator start with one that ends a part. -/
theorem exists_cons (h : SeparatorKinds kinds) : ∃ first others, kinds = first :: others ∧ first.EndsPart := by
  cases h with
  | breaks => exact ⟨_, _, rfl, .newline⟩
  | comma before after =>
    cases before with
    | false => exact ⟨_, _, rfl, .comma⟩
    | true => exact ⟨_, _, rfl, .newline⟩

/-- No value ends with a separator. -/
theorem exists_getLast? (h : SeparatorKinds kinds) : ∃ last, kinds.getLast? = some last ∧ last.endsValue = false := by
  cases h with
  | breaks => exact ⟨_, rfl, rfl⟩
  | comma before after =>
    cases after with
    | false => exact ⟨.mark .comma, by rw [List.getLast?_append]; rfl, rfl⟩
    | true => exact ⟨.newline, by rw [List.getLast?_append]; rfl, rfl⟩

/-- A separator opens and closes no bracket. -/
theorem closed (h : SeparatorKinds kinds) (depth : Nat) : kinds.foldl ScanState.depthAfter depth = depth := by
  cases h with
  | breaks => rfl
  | comma before after => cases before <;> cases after <;> rfl

end SeparatorKinds

/-- Between brackets, the text is passed as the tokens whatever follows it. -/
def PassesInside (text : List Char) (kinds : List TokenKind) : Prop :=
  ∀ st : ScanState, st.atLineStart = false → 0 < st.depth → st.previous ≠ some .newline →
    Passes (fun _ => True) st text kinds

/-- Between brackets, white space is passed as one newline if a line break is in it, and as nothing otherwise. -/
theorem passesInside_white {cs : List Char} (h : IsWhite cs) : PassesInside cs (breaks (cs.contains '\n')) :=
  fun _ hstart hdepth hprevious => .white hstart hdepth hprevious h

/-- A newline, or none, leaves the depth as it is. -/
theorem foldl_depthAfter_breaks (broken : Bool) (depth : Nat) :
    (breaks broken).foldl ScanState.depthAfter depth = depth := by cases broken <;> rfl

namespace Separator

variable {gap : List Char}

/-- A separator is passed as the tokens of one. -/
theorem exists_kinds (h : Separator gap) : ∃ kinds, SeparatorKinds kinds ∧ PassesInside gap kinds := by
  cases h with
  | breaks hwhite hbreak =>
    refine ⟨[.newline], .breaks, ?_⟩
    have hpasses := passesInside_white hwhite
    rwa [List.contains_iff_mem.2 hbreak] at hpasses
  | @comma before after hbefore hafter =>
    refine ⟨_, .comma (before.contains '\n') (after.contains '\n'), fun st hstart hdepth hprevious => ?_⟩
    refine (passesInside_white hbefore st hstart hdepth hprevious).append (fun st' hst' => ?_) fun _ _ => trivial
    have hdepth' : 0 < st'.depth := by rwa [hst'.depth, foldl_depthAfter_breaks]
    have hcomma : Passes (fun _ => True) st' (Glyph.text [.token (.mark .comma)]) [.mark .comma] := by
      refine .row hst'.atLineStart fun rest _ => ⟨trivial, fun d _ => ?_, by rintro ⟨⟩, trivial⟩
      exact ⟨by rintro c ⟨⟩; rfl, by rintro ⟨⟩, by rintro ⟨⟩⟩
    refine hcomma.append (fun st'' hst'' => ?_) fun _ _ => trivial
    refine passesInside_white hafter st'' hst''.atLineStart (hst''.depth ▸ hdepth') ?_
    rw [hst''.previous_eq rfl]
    rintro ⟨⟩

/-- A separator is not empty. -/
theorem ne_nil (h : Separator gap) : gap ≠ [] := by
  cases h with
  | breaks _ hbreak => exact List.ne_nil_of_mem hbreak
  | comma => exact List.append_ne_nil_of_right_ne_nil _ (List.cons_ne_nil _ _)

end Separator

/-- White space is a boundary. -/
theorem isBoundary_of_isWhite {c : Char} (h : isWhite c = true) : Glyph.isBoundary c = true := by
  simp only [isWhite, List.contains_iff_mem, List.mem_cons, List.not_mem_nil, or_false] at h
  rcases h with rfl | rfl | rfl | rfl <;> decide

/-- No token goes on with white space or with a separator. -/
theorem bounded_gap {gap : List Char} (h : IsWhite gap ∨ Separator gap) (hne : gap ≠ []) (rest : List Char) :
    Glyph.Bounded (gap ++ rest) := by
  have hwhite : ∀ {cs rest : List Char}, IsWhite cs → (cs = [] → Glyph.Bounded rest) → Glyph.Bounded (cs ++ rest) := by
    intro cs rest hcs hrest
    cases cs with
    | nil => exact hrest rfl
    | cons c cs => exact Glyph.bounded_cons (isBoundary_of_isWhite (hcs c (.head _))) _
  rcases h with hgap | ⟨hgap, -⟩ | ⟨hbefore, -⟩
  · exact hwhite hgap fun hnil => absurd hnil hne
  · exact hwhite hgap fun hnil => absurd hnil hne
  · rw [List.append_assoc]
    exact hwhite hbefore fun _ => Glyph.bounded_cons (by decide) _

/-- What stands behind a part is passed as the tokens of a separator, if it is one, and as nothing otherwise. -/
theorem exists_gapKinds {gap : List Char} (h : IsWhite gap ∨ Separator gap) : ∃ kinds, PassesInside gap kinds ∧
    (Separator gap → SeparatorKinds kinds) ∧ (SeparatorKinds kinds ∨ kinds = []) := by
  by_cases hseparator : Separator gap
  · obtain ⟨kinds, hkinds, hpasses⟩ := hseparator.exists_kinds
    exact ⟨kinds, hpasses, fun _ => hkinds, .inl hkinds⟩
  · have hwhite := h.resolve_right hseparator
    have hnobreak : gap.contains '\n' = false :=
      Bool.eq_false_iff.2 fun hbreak => hseparator (.breaks hwhite (List.contains_iff_mem.1 hbreak))
    have hpasses := passesInside_white hwhite
    rw [hnobreak] at hpasses
    exact ⟨[], hpasses, fun h => absurd h hseparator, .inr rfl⟩

/-- A part with the text that is written for it, and what stands behind the text. -/
structure Laid (α : Type) where
  part : α
  text : List Char
  gap : List Char

namespace Laid

variable {α : Type} {rows tail : List (Laid α)} {row : Laid α}

/-- A separator stands behind every part but the last.  Behind the last one there may be white space instead. -/
def Separated : List (Laid α) → Prop
  | [] => True
  | [row] => IsWhite row.gap ∨ Separator row.gap
  | row :: row' :: rows => Separator row.gap ∧ Separated (row' :: rows)

/-- The text of parts with labels before them. -/
def spread (label : α → List Char) (rows : List (Laid α)) : List Char :=
  rows.flatMap fun row => label row.part ++ (row.text ++ row.gap)

/-- Parts are written one after the other, each with what stands behind it. -/
theorem spread_cons (label : α → List Char) (row : Laid α) (rows : List (Laid α)) :
    spread label (row :: rows) = label row.part ++ row.text ++ (row.gap ++ spread label rows) := by
  rw [spread, List.flatMap_cons, ← List.append_assoc, List.append_assoc _ row.gap]
  rfl

/-- Of separated parts, the first has white space or a separator behind it, and a separator if others follow. -/
theorem Separated.of_cons (h : Separated (row :: rows)) :
    (IsWhite row.gap ∨ Separator row.gap) ∧ (Separator row.gap ∨ rows = []) ∧ Separated rows := by
  cases rows with
  | nil => exact ⟨h, .inr rfl, trivial⟩
  | cons row' rows => exact ⟨.inr h.1, .inl h.1, h.2⟩

/-- A part with a separator behind it may stand before separated parts. -/
theorem Separated.cons (hgap : Separator row.gap) (h : Separated rows) : Separated (row :: rows) := by
  cases rows with
  | nil => exact .inr hgap
  | cons row' rows => exact ⟨hgap, h⟩

/-- Behind each of separated parts stands white space or a separator. -/
theorem Separated.gap_of_mem (h : Separated rows) (hrow : row ∈ rows) : IsWhite row.gap ∨ Separator row.gap := by
  induction rows with
  | nil => cases hrow
  | cons row' rows ih =>
    rcases List.mem_cons.1 hrow with rfl | hrow
    · exact h.of_cons.1
    · exact ih h.of_cons.2.2 hrow

/-- Separated parts stay so when the first of them are left out. -/
theorem Separated.of_suffix (h : Separated rows) (hsuffix : row :: tail <:+ rows) : Separated (row :: tail) := by
  induction rows with
  | nil => exact absurd (List.suffix_nil.1 hsuffix) (List.cons_ne_nil _ _)
  | cons row' rows ih =>
    rcases List.suffix_cons_iff.1 hsuffix with heq | hsuffix
    · rwa [heq]
    · exact ih h.of_cons.2.2 hsuffix

/-! ### Commas -/

variable {text : α → List Char} {xs : List α}

/-- Parts with a comma and a space between them. -/
def commas (text : α → List Char) : List α → List (Laid α)
  | [] => []
  | [x] => [⟨x, text x, []⟩]
  | x :: y :: xs => ⟨x, text x, [',', ' ']⟩ :: commas text (y :: xs)

/-- Parts with commas between them are the parts. -/
theorem map_part_commas (text : α → List Char) (xs : List α) : (commas text xs).map part = xs := by
  fun_induction commas text xs with
  | case1 | case2 => rfl
  | case3 x y xs ih => rw [List.map_cons, ih]

/-- Each of several parts with commas between them is one of the parts, written as its text. -/
theorem of_mem_commas (h : row ∈ commas text xs) : row.part ∈ xs ∧ row.text = text row.part := by
  fun_induction commas text xs with
  | case1 => cases h
  | case2 x =>
    obtain rfl := List.mem_singleton.1 h
    exact ⟨.head _, rfl⟩
  | case3 x y xs ih =>
    rcases List.mem_cons.1 h with rfl | h
    · exact ⟨.head _, rfl⟩
    · exact (ih h).imp_left (List.mem_cons_of_mem _)

/-- Commas are separators. -/
theorem separated_commas (text : α → List Char) (xs : List α) : Separated (commas text xs) := by
  fun_induction commas text xs with
  | case1 => trivial
  | case2 => exact .inl (List.forall_mem_nil _)
  | case3 x y xs ih => exact .cons (.comma (List.forall_mem_nil _) (List.forall_mem_singleton.2 rfl)) ih

/-- Parts with commas between them are written as the printer writes them. -/
theorem spread_commas (label text : α → List Char) (xs : List α) :
    spread label (commas text xs) = [',', ' '].intercalate (xs.map fun x => label x ++ text x) := by
  fun_induction commas text xs with
  | case1 => rfl
  | case2 x =>
    rw [spread_cons, List.map_singleton, List.intercalate_singleton]
    exact List.append_nil _
  | case3 x y xs ih =>
    rw [spread_cons, ih, List.map_cons, List.map_cons, List.map_cons, List.intercalate_cons_cons]
    simp only [List.append_assoc]

end Laid

/-! ## Reading -/

namespace Parser

open Cursor (At)

variable {kind next : TokenKind} {rest kinds : List TokenKind}

/-- Newlines are passed, if there are any. -/
theorem reads_skipNewlines_breaks (broken : Bool) (h : kind ≠ .newline) :
    Reads skipNewlines (At (breaks broken ++ kind :: rest)) (At (kind :: rest)) fun _ => True := by
  cases broken with
  | false => exact reads_skipNewlines h
  | true =>
    intro c hc
    have hskip : c.skipNewlines = c.advance.skipNewlines := by
      obtain ⟨previous, current, upcoming, groups⟩ := c
      cases upcoming with
      | nil => cases (List.cons.inj hc).2
      | cons token tokens =>
        have hnewline : current.kind = .newline := kind_of_at hc
        rw [Cursor.skipNewlines, Cursor.skipNewlinesFrom]
        exact if_pos hnewline
    refine .inr ⟨(), c.skipNewlines, rfl, ?_, trivial⟩
    rw [hskip]
    exact skipNewlines_of_at (advance_of_at hc).1 h

/-- **A separator is there and is passed,** whichever it is. -/
theorem reads_acceptSeparator_of_kinds (h : SeparatorKinds kinds) (hnewline : kind ≠ .newline)
    (hcomma : kind ≠ .mark .comma) :
    Reads acceptSeparator (At (kinds ++ kind :: rest)) (At (kind :: rest)) (· = true) := by
  cases h with
  | breaks =>
    refine reads_isAt_self.bind_eq ?_
    refine (reads_skipNewlines_breaks true hnewline).bind fun _ _ => ?_
    exact (reads_accept_of_ne hcomma).bind_eq (.pure rfl)
  | comma before after =>
    rw [List.append_assoc, List.cons_append]
    have hbroken : Reads (isAt .newline) (At (breaks before ++ .mark .comma :: (breaks after ++ kind :: rest)))
        (At (breaks before ++ .mark .comma :: (breaks after ++ kind :: rest))) (· = before) := by
      cases before with
      | false => exact reads_isAt_of_ne (by rintro ⟨⟩)
      | true => exact reads_isAt_self
    have hcomma : Reads (accept (.mark .comma)) (At (.mark .comma :: (breaks after ++ kind :: rest)))
        (At (breaks after ++ kind :: rest)) (· = true) := by
      cases after with
      | false => exact reads_accept
      | true => exact reads_accept
    refine hbroken.bind_eq ?_
    refine (reads_skipNewlines_breaks before (by rintro ⟨⟩)).bind fun _ _ => hcomma.bind_eq ?_
    exact (reads_skipNewlines_breaks after hnewline).bind fun _ _ => .pure rfl

/-! ## Parts -/

/-- The text is passed as the tokens, and the parser reads from these tokens something with `P`, however deeply it may
be nested. -/
structure Conveys {α : Type} (p : Nat → Parser α) (text : List Char) (kinds : List TokenKind) (P : α → Prop) :
    Prop where
  passes : ∀ st : ScanState, st.atLineStart = false → st.afterValue = false → Passes Glyph.Bounded st text kinds
  opens : ∃ kind tail, kinds = kind :: tail ∧ kind ≠ .newline ∧ kind ≠ .mark .comma ∧
    ∀ b : Bracket, kind ≠ .mark b.closing
  ends : kinds.getLast? ≠ some .newline
  closed : ∀ depth, kinds.foldl ScanState.depthAfter depth = depth
  reads : ∀ levels next rest, next.EndsPart → Reads (p levels) (At (kinds ++ next :: rest)) (At (next :: rest)) P

/-- A part is conveyed, and what stands behind it is passed as the tokens of a separator, if it is one. -/
structure ConveysRow {X α : Type} (p : Nat → Parser α) (label : X → List Char) (P : X → α → Prop) (row : Laid X)
    (kinds gapKinds : List TokenKind) : Prop where
  part : Conveys p (label row.part ++ row.text) kinds (P row.part)
  gap : PassesInside row.gap gapKinds
  separator : Separator row.gap → SeparatorKinds gapKinds
  separatorOrNone : SeparatorKinds gapKinds ∨ gapKinds = []

section Rows

variable {X α : Type} {p : Nat → Parser α} {label : X → List Char} {P : X → α → Prop} {rows : List (Laid X)}
  {row : Laid X} {kinds gapKinds : Laid X → List TokenKind}

/-- What stands behind a part leaves the depth as it is. -/
theorem ConveysRow.gap_closed {kinds gapKinds : List TokenKind} (h : ConveysRow p label P row kinds gapKinds)
    (depth : Nat) : gapKinds.foldl ScanState.depthAfter depth = depth := by
  rcases h.separatorOrNone with hseparator | rfl
  · exact hseparator.closed depth
  · rfl

/-- Parts, with what stands behind each, leave the depth as it is. -/
theorem foldl_depthAfter_rows (h : ∀ row ∈ rows, ConveysRow p label P row (kinds row) (gapKinds row)) (depth : Nat) :
    (rows.flatMap fun row => kinds row ++ gapKinds row).foldl ScanState.depthAfter depth = depth := by
  induction rows with
  | nil => rfl
  | cons row rows ih =>
    obtain ⟨hrow, hrows⟩ := List.forall_mem_cons.1 h
    rw [List.flatMap_cons, List.foldl_append, List.foldl_append, hrow.part.closed, hrow.gap_closed, ih hrows]

/-- **Parts are passed,** whatever separators there are between them. -/
theorem passes_spread (h : ∀ row ∈ rows, ConveysRow p label P row (kinds row) (gapKinds row))
    (hseparated : Laid.Separated rows) {st : ScanState} (hstart : st.atLineStart = false) (hdepth : 0 < st.depth)
    (hvalue : rows ≠ [] → st.afterValue = false) :
    Passes Glyph.Bounded st (Laid.spread label rows) (rows.flatMap fun row => kinds row ++ gapKinds row) := by
  induction rows generalizing st with
  | nil => exact .nil hstart
  | cons row rows ih =>
    obtain ⟨hrow, hrows⟩ := List.forall_mem_cons.1 h
    obtain ⟨hgap, hmore, hseparated⟩ := hseparated.of_cons
    rw [Laid.spread_cons, List.flatMap_cons, List.append_assoc (kinds row)]
    have hpart := hrow.part.passes st hstart (hvalue (List.cons_ne_nil _ _))
    refine hpart.append (fun st' hst' => ?_) fun rest hrest => ?_
    · have hdepth' : 0 < st'.depth := by rwa [hst'.depth, hrow.part.closed]
      have hprevious : st'.previous ≠ some .newline := by
        obtain ⟨kind, tail, hkinds, -⟩ := hrow.part.opens
        have hlast : (kinds row).getLast? = some ((kind :: tail).getLast (List.cons_ne_nil _ _)) := by
          rw [hkinds, List.getLast?_eq_some_getLast]
        rw [hst'.previous_eq hlast, ← hlast]
        exact hrow.part.ends
      refine (hrow.gap st' hst'.atLineStart hdepth' hprevious).append (fun st'' hst'' => ?_) fun _ _ => trivial
      refine ih hrows hseparated hst''.atLineStart (by rwa [hst''.depth, hrow.gap_closed]) fun hne => ?_
      obtain ⟨last, hlast, hends⟩ := (hrow.separator (hmore.resolve_right hne)).exists_getLast?
      exact hst''.afterValue_eq_false hlast hends
    · rw [List.append_assoc]
      by_cases hnil : row.gap = []
      · obtain rfl := hmore.resolve_left fun hseparator => hseparator.ne_nil hnil
        rw [hnil]
        exact hrest
      · exact bounded_gap hgap hnil _

/-- The tokens of parts and of what stands behind each of them, up to the end of the bracket. -/
def spreadTokens (kinds gapKinds : Laid X → List TokenKind) (after : List TokenKind) (rows : List (Laid X)) :
    List TokenKind := rows.flatMap (fun row => kinds row ++ gapKinds row) ++ after

/-- The tokens of the parts are those of the first, of what stands behind it, and of the others. -/
theorem spreadTokens_cons (after : List TokenKind) (row : Laid X) (rows : List (Laid X)) :
    spreadTokens kinds gapKinds after (row :: rows) =
      kinds row ++ (gapKinds row ++ spreadTokens kinds gapKinds after rows) := by
  rw [spreadTokens, List.flatMap_cons, List.append_assoc, List.append_assoc]
  rfl

/-- The tokens in a bracket start with the first part or with the end of the bracket. -/
theorem exists_spreadTokens_eq_cons (b : Bracket)
    (h : ∀ row ∈ rows, ConveysRow p label P row (kinds row) (gapKinds row)) (after : List TokenKind) :
    ∃ kind more, spreadTokens kinds gapKinds (.mark b.closing :: after) rows = kind :: more ∧ kind ≠ .newline ∧
      kind ≠ .mark .comma := by
  cases rows with
  | nil => exact ⟨_, _, rfl, by rintro ⟨⟩, fun hcomma => b.closing_ne_comma (TokenKind.mark.inj hcomma)⟩
  | cons row rows =>
    obtain ⟨kind, tail, hkinds, hnewline, hcomma, -⟩ := (h row (.head _)).part.opens
    exact ⟨kind, _, by rw [spreadTokens_cons, hkinds, List.cons_append], hnewline, hcomma⟩

/-- A part is read, and the separator behind it is passed; only behind the last part there may be none. -/
theorem exists_reads_part (b : Bracket)
    (h : ∀ row' ∈ row :: rows, ConveysRow p label P row' (kinds row') (gapKinds row'))
    (hseparated : Laid.Separated (row :: rows)) (levels : Nat) (after : List TokenKind) :
    ∃ behind found,
      Reads (p levels) (At (spreadTokens kinds gapKinds (.mark b.closing :: after) (row :: rows))) (At behind)
        (P row.part) ∧
      Reads acceptSeparator (At behind) (At (spreadTokens kinds gapKinds (.mark b.closing :: after) rows)) (· = found) ∧
      (found = true ∨ rows = []) := by
  obtain ⟨hrow, hrows⟩ := List.forall_mem_cons.1 h
  rw [spreadTokens_cons]
  rcases hrow.separatorOrNone with hkinds | hnone
  · obtain ⟨first, others, hfirst, hends⟩ := hkinds.exists_cons
    obtain ⟨kind, more, htokens, hnewline, hcomma⟩ := exists_spreadTokens_eq_cons b hrows after
    rw [htokens]
    refine ⟨gapKinds row ++ kind :: more, true, ?_, reads_acceptSeparator_of_kinds hkinds hnewline hcomma, .inl rfl⟩
    rw [hfirst, List.cons_append]
    exact hrow.part.reads levels first _ hends
  · have hlast : rows = [] := by
      refine hseparated.of_cons.2.1.resolve_left fun hseparator => ?_
      have hkinds := hrow.separator hseparator
      rw [hnone] at hkinds
      obtain ⟨first, others, hfirst, -⟩ := hkinds.exists_cons
      cases hfirst
    subst hlast
    rw [hnone]
    refine ⟨_, false, hrow.part.reads levels _ _ (.closing b), ?_, .inr rfl⟩
    exact reads_acceptSeparator_close b.closing_ne_comma

/-- **Parts are read,** whatever separators there are between them, up to the end of the bracket. -/
theorem reads_spread (b : Bracket) (h : ∀ row ∈ rows, ConveysRow p label P row (kinds row) (gapKinds row))
    (hseparated : Laid.Separated rows) (broken : Bool) (levels : Nat) (next : TokenKind) (rest : List TokenKind) :
    Reads (separatedUntil b.closing (p levels))
      (At (breaks broken ++ spreadTokens kinds gapKinds (.mark b.closing :: next :: rest) rows)) (At (next :: rest))
      (List.Forall₂ (fun row => P row.part) rows) := by
  have hsuffix : ∀ {tail : List (Laid X)}, tail <:+ rows →
      ∀ row ∈ tail, ConveysRow p label P row (kinds row) (gapKinds row) := fun htail row hrow =>
    h row (htail.subset hrow)
  refine reads_separated ?_ (fun row tail htail => ?_)
    (fun row tail htail => exists_reads_part b (hsuffix htail) (hseparated.of_suffix htail) levels _) rfl
    (length_le_shown fun row tail htail => ?_)
  · obtain ⟨kind, more, htokens, hnewline, -⟩ := exists_spreadTokens_eq_cons b h (next :: rest)
    rw [htokens]
    exact reads_skipNewlines_breaks broken hnewline
  · obtain ⟨kind, more, hkinds, hnewline, -, hclosing⟩ := (hsuffix htail row (.head _)).part.opens
    exact ⟨kind, _, by rw [spreadTokens_cons, hkinds, List.cons_append], hnewline, hclosing b⟩
  · obtain ⟨kind, more, hkinds, -⟩ := (hsuffix htail row (.head _)).part.opens
    rw [spreadTokens_cons, hkinds, List.length_append, List.length_append, List.length_cons]
    omega

end Rows

/-- A row that ends with the mark that opens the brackets. -/
structure Opening (b : Bracket) (front : List Glyph) : Prop where
  readable : ∀ rest, Glyph.Readable false rest front
  opens : ∃ kind tail, Glyph.tokens front = kind :: tail ∧ kind ≠ .newline ∧ kind ≠ .mark .comma ∧
    ∀ b : Bracket, kind ≠ .mark b.closing
  ends : (Glyph.tokens front).getLast? = some (.mark b.opening)
  depth : ∀ depth, Glyph.depthAfter depth front = depth + 1

/-- An opening bracket opens parts. -/
theorem opening_mark (b : Bracket) : Opening b [.token (.mark b.opening)] where
  readable rest := ⟨trivial, Glyph.endsAt_opening b rest, by rintro ⟨⟩, trivial⟩
  opens := ⟨_, _, rfl, by rintro ⟨⟩, by cases b <;> rintro ⟨⟩, by cases b <;> rintro (_ | _ | _) ⟨⟩⟩
  ends := rfl
  depth := b.depthAfter_opening

/-- A name and a parenthesis open parts. -/
theorem opening_call {ctor : String} (h : isName ctor = true) :
    Opening .paren [.token (.name ctor), .token (.mark .leftParen)] where
  readable rest := by
    refine ⟨h, ?_, by rintro ⟨⟩, trivial, Glyph.endsAt_opening .paren rest, by rintro ⟨⟩, trivial⟩
    rintro c ⟨⟩
    decide
  opens := ⟨_, _, rfl, by rintro ⟨⟩, by rintro ⟨⟩, by rintro b ⟨⟩⟩
  ends := rfl
  depth _ := rfl

section Brackets

variable {X α β : Type} {p : Nat → Parser α} {q : Nat → Parser β} {label : X → List Char} {P : X → α → Prop}
  {Q : β → Prop} {b : Bracket} {front : List Glyph} {lead : List Char} {rows : List (Laid X)}
  {kinds gapKinds : Laid X → List TokenKind} {st : ScanState}

/-- The opening of a bracket is passed, with the white space behind it.  A number that follows may have a sign. -/
theorem Opening.passes (hfront : Opening b front) (hlead : IsWhite lead) (hstart : st.atLineStart = false)
    (hvalue : st.afterValue = false) :
    Passes (fun _ => True) st (Glyph.text front ++ lead) (Glyph.tokens front ++ breaks (lead.contains '\n')) := by
  have hopening : Passes (fun _ => True) st (Glyph.text front) (Glyph.tokens front) :=
    .row hstart fun rest _ => hvalue ▸ hfront.readable rest
  refine hopening.append (fun st' hst' => ?_) fun _ _ => trivial
  have hdepth : st'.depth = st.depth + 1 := hst'.depth.trans (hfront.depth st.depth)
  refine passesInside_white hlead st' hst'.atLineStart (hdepth ▸ Nat.succ_pos _) ?_
  rw [hst'.previous_eq hfront.ends]
  rintro ⟨⟩

/-- Behind what opens the parts, with or without a line break, the depth is one more. -/
theorem Opening.depth_breaks (hfront : Opening b front) (broken : Bool) (depth : Nat) :
    (Glyph.tokens front ++ breaks broken).foldl ScanState.depthAfter depth = depth + 1 := by
  rw [List.foldl_append, foldl_depthAfter_breaks]
  exact hfront.depth depth

/-- No value ends with the opening of a bracket. -/
theorem Opening.exists_getLast? (hfront : Opening b front) (broken : Bool) :
    ∃ last, (Glyph.tokens front ++ breaks broken).getLast? = some last ∧ last.endsValue = false := by
  cases broken with
  | false => exact ⟨_, by rw [breaks, if_neg Bool.false_ne_true, List.append_nil, hfront.ends], b.endsValue_opening⟩
  | true => exact ⟨.newline, List.getLast?_concat, rfl⟩

/-- A bracket is passed if its parts are. -/
theorem passes_brackets (hfront : Opening b front) (hlead : IsWhite lead)
    (h : ∀ row ∈ rows, ConveysRow p label P row (kinds row) (gapKinds row)) (hseparated : Laid.Separated rows)
    (hstart : st.atLineStart = false) (hvalue : st.afterValue = false) :
    Passes Glyph.Bounded st (Glyph.text front ++ lead ++ (Laid.spread label rows ++ b.closing.spelling.toList))
      (Glyph.tokens front ++ breaks (lead.contains '\n') ++ spreadTokens kinds gapKinds [.mark b.closing] rows) := by
  refine (hfront.passes hlead hstart hvalue).append (fun st' hst' => ?_) fun _ _ => trivial
  have hdepth : 0 < st'.depth := by
    rw [hst'.depth, hfront.depth_breaks]
    exact Nat.succ_pos _
  obtain ⟨last, hlast, hends⟩ := hfront.exists_getLast? (lead.contains '\n')
  have hvalue' := hst'.afterValue_eq_false hlast hends
  refine (passes_spread h hseparated hst'.atLineStart hdepth fun _ => hvalue').append
    (fun st'' hst'' => ?_) fun rest _ => ?_
  · have hclosing : Passes Glyph.Bounded st'' (Glyph.text [.token (.mark b.closing)]) [.mark b.closing] :=
      .row hst''.atLineStart fun rest hrest => ⟨trivial, hrest.endsAt _, by rintro ⟨⟩, trivial⟩
    rwa [Glyph.text_cons, Glyph.text_nil, List.append_nil] at hclosing
  · cases b <;> exact Glyph.bounded_cons (by decide) rest

/-- The end of a bracket closes what its opening has opened. -/
theorem foldl_depthAfter_brackets (hfront : Opening b front) (broken : Bool)
    (h : ∀ row ∈ rows, ConveysRow p label P row (kinds row) (gapKinds row)) (depth : Nat) :
    (Glyph.tokens front ++ breaks broken ++ spreadTokens kinds gapKinds [.mark b.closing] rows).foldl
      ScanState.depthAfter depth = depth := by
  rw [List.foldl_append, hfront.depth_breaks, spreadTokens, List.foldl_append, foldl_depthAfter_rows h]
  exact b.depthAfter_closing depth

/-- **A bracket is conveyed if its parts are,** whatever separators there are between them: if `q` reads the bracket
where `p` reads its parts. -/
theorem exists_conveys_brackets (hfront : Opening b front) (hlead : IsWhite lead) (hseparated : Laid.Separated rows)
    (hrows : ∀ row ∈ rows, ∃ kinds, Conveys p (label row.part ++ row.text) kinds (P row.part))
    (hq : ∀ first tail B, (∀ levels, Reads (separatedUntil b.closing (p levels)) (At (first :: tail)) B
        (List.Forall₂ P (rows.map Laid.part))) →
      ∀ levels, Reads (q levels) (At (Glyph.tokens front ++ first :: tail)) B Q) :
    ∃ inside, Conveys q (Glyph.text front ++ (lead ++ (Laid.spread label rows ++ b.closing.spelling.toList)))
      (Glyph.tokens front ++ inside) Q := by
  have hexists : ∀ row ∈ rows, ∃ kinds, ∃ gapKinds, ConveysRow p label P row kinds gapKinds := by
    intro row hrow
    obtain ⟨kinds, hpart⟩ := hrows row hrow
    obtain ⟨gapKinds, hpasses, hseparator, hnone⟩ := exists_gapKinds (hseparated.gap_of_mem hrow)
    exact ⟨kinds, gapKinds, hpart, hpasses, hseparator, hnone⟩
  choose! kinds gapKinds hconveys using hexists
  refine ⟨breaks (lead.contains '\n') ++ spreadTokens kinds gapKinds [.mark b.closing] rows, ?_⟩
  rw [← List.append_assoc (Glyph.text front), ← List.append_assoc (Glyph.tokens front)]
  constructor
  case passes => exact fun st hstart hvalue => passes_brackets hfront hlead hconveys hseparated hstart hvalue
  case opens =>
    obtain ⟨kind, tail, htokens, hkind⟩ := hfront.opens
    exact ⟨kind, _, by rw [htokens, List.cons_append, List.cons_append], hkind⟩
  case ends =>
    rw [spreadTokens, ← List.append_assoc, List.getLast?_append]
    rintro ⟨⟩
  case closed => exact foldl_depthAfter_brackets hfront _ hconveys
  case reads =>
    intro levels next rest _
    obtain ⟨first, others, hspread, -⟩ := exists_spreadTokens_eq_cons b hconveys (next :: rest)
    obtain ⟨first, others, hinside⟩ := List.exists_cons_of_ne_nil (List.append_ne_nil_of_right_ne_nil
      (breaks (lead.contains '\n')) (hspread ▸ List.cons_ne_nil first others))
    have hparts : ∀ levels, Reads (separatedUntil b.closing (p levels)) (At (first :: others)) (At (next :: rest))
        (List.Forall₂ P (rows.map Laid.part)) := by
      intro levels
      rw [← hinside]
      exact (reads_spread b hconveys hseparated _ levels next rest).mono fun _ => List.forall₂_map_left_iff.2
    have hread := hq first others _ hparts levels
    rw [← hinside] at hread
    rwa [List.append_assoc, List.append_assoc, spreadTokens, List.append_assoc]

end Brackets

end Parser

end TypedData
