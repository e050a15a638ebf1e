import TypedData.Proofs.Reading.Passing

/-!
# Blocks of indented lines

A block is indented deeper than what is around it, by any number of spaces.  Its mark comes before its first line; but
that it has ended is known only at the next line that is not part of it, where all blocks end that are deeper than
this line (`Resumes`).  So what is scanned behind a line does not depend on how many blocks there are under it, but for
the marks of their ends, and a line can be said to be passed with all that is under it (`PassesItem`): in it every
block ends that starts in it (`PassesBlock.cons`).
-/

namespace TypedData

/-- The spaces before a line. -/
def spaces (width : Nat) : List Char := List.replicate width ' '

/-- Open blocks of these widths, the innermost first. -/
def blocksOf (widths : List Nat) : List Indentation := widths.map fun width => ⟨width, ' '⟩

/-- The state is one at the beginning of a line, behind blocks of these widths. -/
structure ScanState.AtLine (widths : List Nat) (st : ScanState) : Prop where
  atLineStart : st.atLineStart = true
  lineHasTokens : st.lineHasTokens = false
  depth : st.depth = 0
  blocks : st.blocks = blocksOf widths
  afterValue : st.afterValue = false

variable {widths inner : List Nat} {width : Nat} {text rest : List Char} {kinds more : List TokenKind}

/-- Blanks are one unit of indentation. -/
theorem indentUnit_spaces (span : Span) (h : 0 < width) : indentUnit span (spaces width) = .ok (some ' ') := by
  have hspace : (spaces width).contains ' ' = true :=
    List.contains_iff_mem.2 (List.mem_replicate.2 ⟨Nat.ne_of_gt h, rfl⟩)
  have htab : (spaces width).contains '\t' = false := by
    refine Bool.eq_false_iff.2 fun htab => ?_
    cases List.eq_of_mem_replicate (List.contains_iff_mem.1 htab)
  rw [indentUnit, hspace, htab]

/-- A line that is indented deeper opens a block. -/
theorem indentBlocks_deeper (span : Span) (h : widths.headD 0 < width) :
    (indentBlocks span (blocksOf widths) (spaces width)).map (fun found => (found.1.map Token.kind, found.2)) =
      .ok ([.indent], blocksOf (width :: widths)) := by
  have hlength : (spaces width).length = width := List.length_replicate
  rw [indentBlocks, indentUnit_spaces span (Nat.zero_lt_of_lt h)]
  change Except.map _ (ite _ _ _) = _
  rw [hlength, if_pos (by cases widths <;> exact h)]
  cases widths <;> rfl

/-- A line that is indented like a block ends the blocks in it. -/
theorem indentBlocks_again (span : Span) (hinner : ∀ deeper ∈ inner, width < deeper) (h : 0 < width) :
    (indentBlocks span (blocksOf (inner ++ width :: widths)) (spaces width)).map
        (fun found => (found.1.map Token.kind, found.2)) =
      .ok (List.replicate inner.length .dedent, blocksOf (width :: widths)) := by
  have hlength : (spaces width).length = width := List.length_replicate
  have hrun : ∀ block ∈ blocksOf inner, decide (width < block.width) = true := by
    intro block hblock
    obtain ⟨deeper, hdeeper, rfl⟩ := List.mem_map.1 hblock
    exact decide_eq_true (hinner deeper hdeeper)
  have hstop : ∀ block ∈ (blocksOf (width :: widths)).head?, decide (width < block.width) = false := by
    rintro block ⟨⟩
    exact decide_eq_false (Nat.lt_irrefl _)
  have htop : ¬ ((blocksOf (inner ++ width :: widths)).head?.map Indentation.width).getD 0 < width := by
    cases inner with
    | nil => exact Nat.lt_irrefl _
    | cons deeper inner => exact Nat.not_lt.2 (Nat.le_of_lt (hinner deeper (.head _)))
  have hwidth : ¬ ((blocksOf (width :: widths)).head?.map Indentation.width).getD 0 ≠ width := not_not.2 rfl
  have hunit : ¬ (blocksOf (width :: widths)).head?.map Indentation.unit ≠ some ' ' := not_not.2 rfl
  have hblocks : blocksOf (inner ++ width :: widths) = blocksOf inner ++ blocksOf (width :: widths) := List.map_append
  rw [indentBlocks, indentUnit_spaces span h]
  change Except.map _ (ite _ _ _) = _
  rw [hlength, if_neg htop, hblocks, takeWhile_run hrun hstop, dropWhile_run hrun hstop, if_neg hwidth]
  change Except.map _ (ite _ _ _) = _
  rw [if_neg hunit]
  refine congrArg (fun marks => Except.ok (marks, blocksOf (width :: widths))) ?_
  rw [List.map_map, blocksOf, List.map_map]
  exact List.map_const' ..

/-! ## The beginning of a line -/

/-- The text starts with a token, and in a line of the innermost of these blocks it is read as the tokens. -/
structure Begins (widths : List Nat) (text : List Char) (kinds : List TokenKind) : Prop where
  starts : ∃ c tail, text = c :: tail ∧ Lexeme.StartsToken c tail
  scans : ∀ st : ScanState, st.Within (blocksOf widths) → Scans st text kinds

/-- At the beginning of the text all blocks end that are deeper than these, and then come the tokens. -/
def Resumes (widths : List Nat) (text : List Char) (kinds : List TokenKind) : Prop :=
  ∀ inner : List Nat, (∀ deeper ∈ inner, widths.headD 0 < deeper) → ∀ st : ScanState, st.AtLine (inner ++ widths) →
    Scans st text (List.replicate inner.length .dedent ++ kinds)

/-- Another line of a block. -/
theorem Resumes.line (h : Begins (width :: widths) text kinds) (hwidth : 0 < width) :
    Resumes (width :: widths) (spaces width ++ text) kinds := by
  intro inner hinner st hst
  refine .layout hst.atLineStart hst.depth hst.afterValue (fun _ => isIndentChar_of_mem_replicate)
    (fun kind hkind => ?_)
    (fun span => ?_) h.starts h.scans
  · rw [List.eq_of_mem_replicate hkind]
    rfl
  · rw [hst.blocks]
    exact indentBlocks_again span hinner hwidth

/-- A block ends before what follows the block around it. -/
theorem Resumes.deeper (h : Resumes widths text kinds) (hwidth : widths.headD 0 < width) :
    Resumes (width :: widths) text (.dedent :: kinds) := by
  intro inner hinner st hst
  -- the block is one more of those that end here, the outermost
  have hmore : ∀ deeper ∈ inner ++ [width], widths.headD 0 < deeper :=
    List.forall_mem_append.2 ⟨fun deeper hdeeper => hwidth.trans (hinner deeper hdeeper),
      List.forall_mem_singleton.2 hwidth⟩
  have hscan := h (inner ++ [width]) hmore st (by rwa [List.append_assoc])
  rwa [List.length_append, List.length_singleton, List.replicate_succ', List.append_assoc] at hscan

/-- The first line of a block. -/
theorem Begins.scans_deeper {st : ScanState} (h : Begins (width :: widths) text kinds)
    (hwidth : widths.headD 0 < width) (hst : st.AtLine widths) :
    Scans st (spaces width ++ text) (.indent :: kinds) := by
  refine .layout hst.atLineStart hst.depth hst.afterValue (fun _ => isIndentChar_of_mem_replicate)
    (List.forall_mem_singleton.2 rfl) (fun span => ?_) h.starts h.scans
  rw [hst.blocks]
  exact indentBlocks_deeper span hwidth

/-- A line that is not indented, behind no block. -/
theorem Begins.scans_first {st : ScanState} (h : Begins [] text kinds) (hst : st.AtLine []) : Scans st text kinds := by
  refine .layout hst.atLineStart hst.depth hst.afterValue (List.forall_mem_nil _) (List.forall_mem_nil _)
    (fun span => ?_)
    h.starts h.scans
  rw [hst.blocks]
  rfl

/-- At the end of the text all blocks end. -/
theorem resumes_nil : Resumes [] [] [.eof] := by
  intro inner _ st hst
  have hlayout : readLayout st [] = .ok ([], st.skip [], []) := by
    rw [readLayout, hst.atLineStart, hst.depth]
    rfl
  refine ⟨_, scanFrom_nil hlayout, ?_⟩
  have hblocks : (st.skip []).blocks = blocksOf inner := hst.blocks.trans (by rw [List.append_nil])
  have htokens : (st.skip []).lineHasTokens = false := hst.lineHasTokens
  rw [finish, hblocks, htokens]
  simp [blocksOf, Function.comp_def, List.map_const']

/-! ## Lines with the blocks under them -/

/-- The text of a line is passed as the tokens, and all brackets in it are closed. -/
structure PassesLine (text : List Char) (kinds : List TokenKind) : Prop where
  starts : ∀ rest, Glyph.Bounded rest → ∃ c tail, text ++ rest = c :: tail ∧ Lexeme.StartsToken c tail
  passes : ∀ st : ScanState, st.atLineStart = false → st.afterValue = false → Passes Glyph.Bounded st text kinds
  closed : ∀ depth, kinds.foldl ScanState.depthAfter depth = depth
  marked : ∃ kind ∈ kinds, kind ≠ .newline

/-- A row that a line may start with, before the text. -/
structure Glyph.Leads (gs : List Glyph) (text : List Char) : Prop where
  readable : ∀ rest, Bounded rest → Readable false (text ++ rest) gs
  starts : ∃ kind gs', gs = .token kind :: gs' ∧ kind ≠ .newline
  ends : ∃ last, (tokens gs).getLast? = some last ∧ last.endsValue = false
  depth : ∀ depth, depthAfter depth gs = depth

/-- A text is passed in a line behind a row that may lead it. -/
theorem Glyph.Leads.passesLine {gs : List Glyph} (h : Leads gs text)
    (hpasses : ∀ st : ScanState, st.atLineStart = false → st.afterValue = false →
      Passes Glyph.Bounded st text kinds)
    (hclosed : ∀ depth, kinds.foldl ScanState.depthAfter depth = depth) :
    PassesLine (Glyph.text gs ++ text) (Glyph.tokens gs ++ kinds) where
  starts rest hrest := by
    obtain ⟨kind, gs', hgs, -⟩ := h.starts
    rw [List.append_assoc]
    exact (h.readable rest hrest).exists_cons ⟨_, gs', hgs, by rintro ⟨⟩⟩
  passes st hstart hvalue := by
    obtain ⟨last, hlast, hends⟩ := h.ends
    intro rest more hrest hscan
    have hrow : Passes (· = text ++ rest) st (Glyph.text gs) (Glyph.tokens gs) := by
      refine .row hstart fun _ heq => ?_
      rw [heq, hvalue]
      exact h.readable rest hrest
    rw [List.append_assoc, List.append_assoc]
    refine hrow _ _ rfl fun st' hst' => ?_
    refine hpasses st' hst'.atLineStart (hst'.afterValue_eq_false hlast hends) _ _ hrest fun st'' hst'' => ?_
    exact hscan st'' (hst'.trans hst'')
  closed depth := by
    rw [List.foldl_append, hclosed]
    exact h.depth depth
  marked := by
    obtain ⟨kind, gs', rfl, hkind⟩ := h.starts
    exact ⟨kind, List.mem_append_left _ (.head _), hkind⟩

/-- A row alone is passed in a line. -/
theorem Glyph.Leads.passesLine_nil {gs : List Glyph} (h : Leads gs []) :
    PassesLine (Glyph.text gs) (Glyph.tokens gs) := by
  have hline := h.passesLine (fun _ hstart _ => .nil hstart) fun _ => rfl
  rwa [List.append_nil, List.append_nil] at hline

/-- In these blocks, the text is passed as the tokens from the beginning of a line on, with the ends of the blocks
that start in it. -/
def PassesBlock (widths : List Nat) (text : List Char) (kinds : List TokenKind) : Prop :=
  ∀ rest more, Resumes widths rest more → ∀ st : ScanState, st.AtLine widths → Scans st (text ++ rest) (kinds ++ more)

/-- In these blocks, the text of a line and of what is under it is passed as the tokens. -/
def PassesItem (widths : List Nat) (text : List Char) (kinds : List TokenKind) : Prop :=
  ∀ rest more, Resumes widths rest more → Begins widths (text ++ rest) (kinds ++ more)

/-- There need not be anything under a line. -/
theorem PassesBlock.nil : PassesBlock widths [] [] := fun _ _ hrest st hst =>
  hrest [] (List.forall_mem_nil _) st hst

/-- A line is passed with the block under it. -/
theorem PassesLine.item (h : PassesLine text kinds) {under : List Char} {underKinds : List TokenKind}
    (hunder : PassesBlock widths under underKinds) :
    PassesItem widths (text ++ '\n' :: under) (kinds ++ .newline :: underKinds) := by
  intro rest more hrest
  have hbounded : Glyph.Bounded ('\n' :: under ++ rest) := Glyph.bounded_cons (by decide) _
  rw [List.append_assoc, List.append_assoc]
  refine ⟨h.starts _ hbounded, fun st hst => ?_⟩
  refine h.passes st hst.atLineStart hst.afterValue _ _ hbounded fun st' hst' => ?_
  have hdepth : st'.depth = 0 := by rw [hst'.depth, hst.depth, h.closed]
  have htokens : st'.lineHasTokens = true := hst'.lineHasTokens (.inl h.marked)
  refine .lineFeed hst'.atLineStart hdepth htokens (hunder rest more hrest _ ?_)
  have hblocks : st'.blocks = blocksOf widths := hst'.blocks.trans hst.blocks
  rw [ScanState.passLineFeed, hdepth, htokens]
  exact ⟨rfl, rfl, rfl, hblocks, rfl⟩

/-- The text of the lines of a block, each of which is given with what is under it. -/
def indentedBy (width : Nat) (texts : List (List Char)) : List Char := texts.flatMap (spaces width ++ ·)

section Blocks

variable {X : Type} {texts : X → List Char} {tokens : X → List TokenKind}

/-- The lines of a block resume it, one after the other. -/
theorem Resumes.lines {xs : List X} (h : ∀ x ∈ xs, PassesItem (width :: widths) (texts x) (tokens x))
    (hwidth : 0 < width)
    (hrest : Resumes (width :: widths) rest more) :
    Resumes (width :: widths) (indentedBy width (xs.map texts) ++ rest) (xs.flatMap tokens ++ more) := by
  induction xs with
  | nil => exact hrest
  | cons x xs ih =>
    obtain ⟨hx, hxs⟩ := List.forall_mem_cons.1 h
    rw [List.map_cons, indentedBy, List.flatMap_cons, List.flatMap_cons, List.append_assoc, List.append_assoc,
      List.append_assoc]
    exact .line (hx _ _ (ih hxs)) hwidth

/-- **A block is passed if its lines are:** its mark comes before the first of them, and that of its end behind the
last. -/
theorem PassesBlock.cons {x : X} {xs : List X}
    (h : ∀ y ∈ x :: xs, PassesItem (width :: widths) (texts y) (tokens y)) (hwidth : widths.headD 0 < width) :
    PassesBlock widths (indentedBy width ((x :: xs).map texts))
      (.indent :: ((x :: xs).flatMap tokens ++ [.dedent])) := by
  intro rest more hrest st hst
  obtain ⟨hx, hxs⟩ := List.forall_mem_cons.1 h
  have hlines := Resumes.lines hxs (Nat.zero_lt_of_lt hwidth) (hrest.deeper hwidth)
  rw [List.map_cons, indentedBy, List.flatMap_cons, List.flatMap_cons, List.append_assoc, List.append_assoc,
    List.cons_append, List.append_assoc, List.append_assoc, List.singleton_append]
  exact (hx _ _ hlines).scans_deeper hwidth hst

end Blocks

end TypedData
