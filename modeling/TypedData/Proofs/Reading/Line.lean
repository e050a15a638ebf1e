import TypedData.Proofs.Reading.Lexeme
import TypedData.Proofs.Result
import TypedData.Token.Scan

/-!
# Lines that are read back

A line that is written is a row of tokens with spaces between some of them (`Glyph`).  A minus and a number after it
may be one token, whatever they were written for (`Glyph.signed`).  If no token runs into the next one
(`Glyph.Readable`), scanning the line gives the tokens.  A written text is a sequence of such lines (`Line`), of which
some are indented, and scanning it gives the tokens of the lines with the marks of its layout between them
(`exists_scan`).
-/

namespace TypedData

/-- A token, or the space between two tokens. -/
inductive Glyph where
  | token (kind : TokenKind)
  /-- A minus with a number right behind it, which are one token. -/
  | signed (kind : TokenKind)
  | space

namespace Glyph

/-- How a token or a space is written. -/
def chars : Glyph → List Char
  | token kind => kind.spelling
  | signed kind => '-' :: kind.spelling
  | space => [' ']

/-- How a row of tokens is written. -/
def text (gs : List Glyph) : List Char := gs.flatMap chars

/-- The token, where it is one. -/
def token? : Glyph → Option TokenKind
  | token kind => some kind
  | signed kind => some kind.signed
  | space => none

/-- The tokens of a row. -/
def tokens (gs : List Glyph) : List TokenKind := gs.filterMap token?

/-- Whether a value ends at the end of a row, if `before` says whether one ends where the row starts. -/
def endsValue (before : Bool) : List Glyph → Bool
  | [] => before
  | token kind :: gs => endsValue kind.endsValue gs
  | signed kind :: gs => endsValue kind.signed.endsValue gs
  | space :: gs => endsValue before gs

/-- Whether every token of the row is read as it is written, if `rest` follows the row. -/
def Readable (afterValue : Bool) (rest : List Char) : List Glyph → Prop
  | [] => True
  | token kind :: gs => kind.Legible ∧ kind.EndsAt (text gs ++ rest) ∧
      (kind.isNegative = true → afterValue = false) ∧ Readable kind.endsValue rest gs
  | signed kind :: gs => kind.isUnsigned = true ∧ EndsNumber (text gs ++ rest) ∧ afterValue = false ∧
      Readable kind.signed.endsValue rest gs
  | space :: gs => Readable afterValue rest gs

/-- The number of open brackets after a row. -/
def depthAfter (depth : Nat) (gs : List Glyph) : Nat := (tokens gs).foldl ScanState.depthAfter depth

variable {gs gs' : List Glyph} {rest : List Char} {afterValue : Bool}

/-- No glyphs are written as nothing. -/
@[simp] theorem text_nil : text [] = [] := rfl

/-- Glyphs are written one behind the other. -/
@[simp] theorem text_cons (g : Glyph) (gs : List Glyph) : text (g :: gs) = g.chars ++ text gs := rfl

/-- Two rows of glyphs are written one behind the other. -/
@[simp] theorem text_append (gs gs' : List Glyph) : text (gs ++ gs') = text gs ++ text gs' :=
  List.flatMap_append

/-- No glyphs are read as nothing. -/
@[simp] theorem tokens_nil : tokens [] = [] := rfl

/-- A glyph for a token is read as the token. -/
@[simp] theorem tokens_token (kind : TokenKind) (gs : List Glyph) :
    tokens (token kind :: gs) = kind :: tokens gs := rfl

/-- A sign and the number after it are read as one token. -/
@[simp] theorem tokens_signed (kind : TokenKind) (gs : List Glyph) :
    tokens (signed kind :: gs) = kind.signed :: tokens gs := rfl

/-- A blank is read as nothing. -/
@[simp] theorem tokens_space (gs : List Glyph) : tokens (space :: gs) = tokens gs := rfl

/-- Two rows of glyphs are read one behind the other. -/
@[simp] theorem tokens_append (gs gs' : List Glyph) : tokens (gs ++ gs') = tokens gs ++ tokens gs' :=
  List.filterMap_append

/-- Two rows of glyphs can be read if the first can before the second, and the second behind the first. -/
theorem readable_append : (gs : List Glyph) → (gs' : List Glyph) → (afterValue : Bool) →
    (Readable afterValue rest (gs ++ gs') ↔ Readable afterValue (text gs' ++ rest) gs ∧
      Readable (endsValue afterValue gs) rest gs')
  | [], gs', afterValue => by simp [Readable, endsValue]
  | token kind :: gs, gs', afterValue | signed kind :: gs, gs', afterValue => by
    simp only [List.cons_append, Readable, endsValue, readable_append gs gs', text_append,
      List.append_assoc, and_assoc]
  | space :: gs, gs', afterValue => readable_append gs gs' afterValue

/-- The depth behind two rows is that behind the second, from behind the first. -/
@[simp] theorem depthAfter_append (depth : Nat) (gs gs' : List Glyph) :
    depthAfter depth (gs ++ gs') = depthAfter (depthAfter depth gs) gs' := by
  rw [depthAfter, tokens_append, List.foldl_append]
  rfl

end Glyph

/-! ## Scanning a line -/

/-- Scanning the text gives tokens of these kinds. -/
def Scans (st : ScanState) (text : List Char) (kinds : List TokenKind) : Prop :=
  ∃ tokens, scanFrom st text = .ok tokens ∧ tokens.map Token.kind = kinds

namespace ScanState

/-- Passes a token or a space that is written. -/
def passGlyph (st : ScanState) : Glyph → ScanState
  | .token kind => st.pass ⟨kind, kind.spelling, []⟩
  | .signed kind => st.pass ⟨kind.signed, '-' :: kind.spelling, []⟩
  | .space => st.skip [' ']

/-- Passes a row of tokens. -/
def passRow (st : ScanState) (gs : List Glyph) : ScanState := gs.foldl passGlyph st

variable {st : ScanState}

/-- A row does not begin a line. -/
theorem atLineStart_passRow (st : ScanState) (gs : List Glyph) :
    (st.passRow gs).atLineStart = st.atLineStart := by
  induction gs generalizing st with
  | nil => rfl
  | cons g gs ih => cases g <;> exact ih _

/-- A row changes no blocks. -/
theorem blocks_passRow (st : ScanState) (gs : List Glyph) :
    (st.passRow gs).blocks = st.blocks := by
  induction gs generalizing st with
  | nil => rfl
  | cons g gs ih => cases g <;> exact ih _

/-- The depth behind a row is that of its tokens. -/
theorem depth_passRow (st : ScanState) (gs : List Glyph) :
    (st.passRow gs).depth = Glyph.depthAfter st.depth gs := by
  induction gs generalizing st with
  | nil => rfl
  | cons g gs ih => cases g <;> exact ih _

/-- A row with a token in it leaves the line with tokens. -/
theorem lineHasTokens_passRow (st : ScanState) {gs : List Glyph} (h : Glyph.tokens gs ≠ []) :
    (st.passRow gs).lineHasTokens = true := by
  have hkeep : ∀ gs (st : ScanState), st.lineHasTokens = true →
      (st.passRow gs).lineHasTokens = true := by
    intro gs
    induction gs with
    | nil => exact fun st hst => hst
    | cons g gs ih => cases g <;> exact fun st hst => ih _ (by first | rfl | exact hst)
  induction gs generalizing st with
  | nil => exact absurd rfl h
  | cons g gs ih =>
    cases g with
    | token kind | signed kind => exact hkeep gs _ rfl
    | space => exact ih _ h

end ScanState

variable {st : ScanState} {rest : List Char} {kinds : List TokenKind}

/-- Within a line there are no marks of the layout. -/
theorem scanFrom_inLine (h : st.atLineStart = false) (c : Char) (rest : List Char) :
    scanFrom st (c :: rest) =
      if c = ' ' || c = '\t' || c = '\r' then scanFrom (st.skip [c]) rest
      else if c = '\n' then
        (scanFrom st.passLineFeed.2 rest).map
          ((if st.passLineFeed.1 then [⟨.newline, ⟨st.offset, st.passLineFeed.2.offset⟩⟩] else []) ++ ·)
      else if c = '/' && rest.head? = some '/' then
        scanFrom (st.skip (c :: rest.takeWhile (· != '\n'))) (rest.drop (rest.takeWhile (· != '\n')).length)
      else
        (Lexeme.read st.offset st.afterValue c rest).bind fun lexeme =>
          (scanFrom (st.pass lexeme) lexeme.rest).map
            (⟨lexeme.kind, ⟨st.offset, (st.pass lexeme).offset⟩⟩ :: ·) := by
  have hlayout : readLayout st (c :: rest) = .ok ([], st, c :: rest) := by
    rw [readLayout, h, Bool.false_and, if_neg (by decide)]
  rw [scanFrom]
  split
  · rename_i hl
    rw [hlayout] at hl
    cases hl
  · rename_i hl
    rw [hlayout] at hl
    cases hl
  · rename_i tokens st' c' rest' hl
    rw [hlayout] at hl
    cases hl
    dsimp only
    split
    · exact map_nil_append _
    · split
      · rw [List.nil_append]
      · split
        · exact map_nil_append _
        · split
          · rename_i hr
            rw [hr]
            rfl
          · rename_i hr
            rw [hr]
            rfl

/-- A blank inside a line is passed. -/
theorem Scans.space (h : st.atLineStart = false) (hrest : Scans (st.passGlyph .space) rest kinds) :
    Scans st (' ' :: rest) kinds := by
  rwa [Scans, scanFrom_inLine h, if_pos (by decide)]

/-- A token that is written is read, whatever comes of the text behind it. -/
theorem scanFrom_spelling (h : st.atLineStart = false) {kind : TokenKind} (hlegible : kind.Legible)
    (hends : kind.EndsAt rest) (hsign : kind.isNegative = true → st.afterValue = false) :
    scanFrom st (kind.spelling ++ rest) = (scanFrom (st.passGlyph (.token kind)) rest).map
      (⟨kind, ⟨st.offset, (st.passGlyph (.token kind)).offset⟩⟩ :: ·) := by
  obtain ⟨c, tail, hspelling, hstarts⟩ := Lexeme.exists_spelling hlegible hends
  have hread : Lexeme.read st.offset st.afterValue c (tail ++ rest) = .ok ⟨kind, c :: tail, rest⟩ :=
    Lexeme.read_spelling hlegible hends hsign hspelling
  have hblank : ¬ ((c = ' ' || c = '\t' || c = '\r') = true) := by
    simp [hstarts.ne_space, hstarts.ne_tab, hstarts.ne_return]
  have hcomment : ¬ ((c = '/' && (tail ++ rest).head? = some '/') = true) := by
    intro hslash
    obtain ⟨hc, hd⟩ := Bool.and_eq_true_iff.1 hslash
    exact hstarts.not_comment (of_decide_eq_true hc) '/' (of_decide_eq_true hd) rfl
  have hpass : st.pass ⟨kind, c :: tail, rest⟩ = st.passGlyph (.token kind) := by
    rw [ScanState.passGlyph, hspelling]
    rfl
  rw [hspelling, List.cons_append, scanFrom_inLine h, if_neg hblank, if_neg hstarts.ne_lineFeed, if_neg hcomment, hread,
    ← hpass]
  rfl

/-- A token inside a line is read, if it can be read where it ends. -/
theorem Scans.token (h : st.atLineStart = false) {kind : TokenKind} (hlegible : kind.Legible)
    (hends : kind.EndsAt rest) (hsign : kind.isNegative = true → st.afterValue = false)
    (hrest : Scans (st.passGlyph (.token kind)) rest kinds) :
    Scans st (kind.spelling ++ rest) (kind :: kinds) := by
  obtain ⟨tokens, hscan, htokens⟩ := hrest
  rw [Scans, scanFrom_spelling h hlegible hends hsign, hscan]
  exact ⟨_, rfl, congrArg (kind :: ·) htokens⟩

/-- A minus and the number behind it are read as one token. -/
theorem Scans.signed (h : st.atLineStart = false) {kind : TokenKind} (hnumber : kind.isUnsigned = true)
    (hends : EndsNumber rest) (hsign : st.afterValue = false)
    (hrest : Scans (st.passGlyph (.signed kind)) rest kinds) :
    Scans st ('-' :: kind.spelling ++ rest) (kind.signed :: kinds) := by
  obtain ⟨tokens, hscan, htokens⟩ := hrest
  have hread : Lexeme.read st.offset false '-' (kind.spelling ++ rest) =
      .ok ⟨kind.signed, '-' :: kind.spelling, rest⟩ := Lexeme.read_signed hnumber hends
  have hpass : st.pass ⟨kind.signed, '-' :: kind.spelling, rest⟩ = st.passGlyph (.signed kind) := rfl
  rw [Scans, List.cons_append, scanFrom_inLine h, if_neg (by decide), if_neg (by decide),
    if_neg (by simp), hsign, hread,
    Except.bind, hpass, hscan]
  exact ⟨_, rfl, congrArg (kind.signed :: ·) htokens⟩

/-- **A readable row is read as its tokens.** -/
theorem Scans.row : (gs : List Glyph) → {st : ScanState} → st.atLineStart = false →
    Glyph.Readable st.afterValue rest gs → Scans (st.passRow gs) rest kinds →
      Scans st (Glyph.text gs ++ rest) (Glyph.tokens gs ++ kinds)
  | [], _, _, _, hrest => hrest
  | .token kind :: gs, st, h, hread, hrest => by
    obtain ⟨hlegible, hends, hsign, hread⟩ := hread
    rw [Glyph.text_cons, List.append_assoc]
    exact .token h hlegible hends hsign (.row gs h hread hrest)
  | .signed kind :: gs, st, h, hread, hrest => by
    obtain ⟨hnumber, hends, hsign, hread⟩ := hread
    rw [Glyph.text_cons, List.append_assoc]
    exact .signed h hnumber hends hsign (.row gs h hread hrest)
  | .space :: gs, st, h, hread, hrest => .space h (.row gs h hread hrest)

/-! ## Lines -/

/-- A line as it is written. -/
structure Line where
  indented : Bool
  glyphs : List Glyph

namespace Line

/-- How lines are indented that are part of a declaration. -/
def indentation : Nat := 4

/-- How a line is written. -/
def chars (line : Line) : List Char :=
  (if line.indented then List.replicate indentation ' ' else []) ++ (Glyph.text line.glyphs ++ ['\n'])

/-- How lines are written. -/
def text (lines : List Line) : List Char := lines.flatMap chars

/-- The marks of the layout before a line, if the line before was indented or not. -/
def layout (before after : Bool) : List TokenKind :=
  match before, after with
  | false, true => [.indent]
  | true, false => [.dedent]
  | _, _ => []

/-- The tokens of lines, and the marks of the layout between them. -/
def tokens (before : Bool) : List Line → List TokenKind
  | [] => layout before false ++ [.eof]
  | line :: lines =>
    layout before line.indented ++ (Glyph.tokens line.glyphs ++ .newline :: tokens line.indented lines)

/-- A text has at least the token for its end. -/
theorem tokens_ne_nil (before : Bool) (lines : List Line) : tokens before lines ≠ [] := by
  cases lines <;> exact List.append_ne_nil_of_right_ne_nil _ (by simp)

/-- Whether the line holds tokens that are read as they are written. -/
structure Readable (line : Line) : Prop where
  glyphs : ∀ rest, Glyph.Readable false ('\n' :: rest) line.glyphs
  starts : ∃ kind gs, line.glyphs = .token kind :: gs
  depth : Glyph.depthAfter 0 line.glyphs = 0

end Line

/-- The blocks that are open in a line. -/
def openBlocks (indented : Bool) : List Indentation :=
  if indented then [⟨Line.indentation, ' '⟩] else []

/-- The beginning of a line. -/
structure ScanState.AtStart (indented : Bool) (st : ScanState) : Prop where
  atLineStart : st.atLineStart = true
  lineHasTokens : st.lineHasTokens = false
  depth : st.depth = 0
  blocks : st.blocks = openBlocks indented
  afterValue : st.afterValue = false

/-- The layout before a line opens or closes the block that its indentation asks for. -/
theorem indentBlocks_line (span : Span) (before after : Bool) :
    (indentBlocks span (openBlocks before)
      (if after then List.replicate Line.indentation ' ' else [])).map
        (fun found => (found.1.map Token.kind, found.2)) =
      .ok (Line.layout before after, openBlocks after) := by
  cases before <;> cases after <;> rfl

/-- The marks of the layout before a line are read before the line. -/
theorem scanFrom_of_layout {text : List Char} {tokens : List Token} {st' : ScanState} {c : Char}
    (hlayout : readLayout st text = .ok (tokens, st', c :: rest)) (h : st'.atLineStart = false) :
    scanFrom st text = (scanFrom st' (c :: rest)).map (tokens ++ ·) := by
  have hmap : ∀ (result : Except TokenError (List Token)) (more : List Token),
      result.map (tokens ++ more ++ ·) = (result.map (more ++ ·)).map (tokens ++ ·) := by
    rintro (e | found) more
    · rfl
    · exact congrArg Except.ok (List.append_assoc ..)
  rw [scanFrom, scanFrom_inLine h]
  split
  · rename_i hl
    rw [hlayout] at hl
    cases hl
  · rename_i hl
    rw [hlayout] at hl
    cases hl
  · rename_i hl
    rw [hlayout] at hl
    cases hl
    dsimp only
    split
    · rfl
    · split
      · exact hmap _ _
      · split
        · rfl
        · split
          · rename_i hr
            rw [hr]
            rfl
          · rename_i lexeme hr
            rw [hr]
            change _ = Except.map _ (Except.map _ _)
            cases scanFrom (st'.pass lexeme) lexeme.rest <;> rfl

/-- A row starts like its first token. -/
theorem Glyph.Readable.exists_cons {gs : List Glyph} (hread : Glyph.Readable false rest gs)
    (hstarts : ∃ g gs', gs = g :: gs' ∧ g ≠ .space) :
    ∃ c tail, Glyph.text gs ++ rest = c :: tail ∧ Lexeme.StartsToken c tail := by
  obtain ⟨g, gs, rfl, hspace⟩ := hstarts
  cases g with
  | token kind =>
    obtain ⟨hlegible, hends, -, -⟩ := hread
    obtain ⟨c, tail, hspelling, hstarts⟩ := Lexeme.exists_spelling hlegible hends
    refine ⟨c, tail ++ (Glyph.text gs ++ rest), ?_, hstarts⟩
    rw [Glyph.text_cons, Glyph.chars, hspelling, List.append_assoc, List.cons_append]
  | signed kind => exact ⟨'-', _, rfl, by constructor <;> rintro ⟨⟩⟩
  | space => exact absurd rfl hspace

/-- A line that starts with a token is not blank. -/
theorem isLineBlank_of_startsToken {c : Char} {tail : List Char} (hstarts : Lexeme.StartsToken c tail) :
    isLineBlank (c :: tail) = false := by
  unfold isLineBlank
  split
  · rename_i heq
    cases heq
  · rename_i heq
    exact absurd (List.cons.inj heq).1 hstarts.ne_lineFeed
  · rename_i heq
    exact absurd (List.cons.inj heq).1 hstarts.ne_return
  · rename_i heq
    obtain ⟨hc, htail⟩ := List.cons.inj heq
    exact absurd rfl (hstarts.not_comment hc '/' (by rw [htail]; rfl))
  · rfl

/-- The state is one before the first token of a line, in blocks that are open there. -/
structure ScanState.Within (blocks : List Indentation) (st : ScanState) : Prop where
  atLineStart : st.atLineStart = false
  depth : st.depth = 0
  blocks : st.blocks = blocks
  afterValue : st.afterValue = false

/-- The indentation before a token is read as the marks that it stands for. -/
theorem exists_readLayout (hstart : st.atLineStart = true) (hdepth : st.depth = 0) (hvalue : st.afterValue = false)
    {blocks : List Indentation} {blanks : List Char} {marks : List TokenKind}
    (hblanks : ∀ c ∈ blanks, isIndentChar c = true) (hmarks : ∀ kind ∈ marks, kind.endsValue = false)
    (hlayout : ∀ span, (indentBlocks span st.blocks blanks).map (fun found => (found.1.map Token.kind, found.2)) =
      .ok (marks, blocks))
    {c : Char} {tail : List Char} (hstarts : Lexeme.StartsToken c tail) : ∃ tokens st',
      readLayout st (blanks ++ c :: tail) = .ok (tokens, st', c :: tail) ∧ tokens.map Token.kind = marks ∧
        st'.Within blocks := by
  have hstop : ∀ d ∈ (c :: tail).head?, isIndentChar d = false := by
    rintro _ ⟨⟩
    simp [isIndentChar, hstarts.ne_space, hstarts.ne_tab]
  rw [readLayout, hstart, hdepth, if_pos (by rfl), readIndentation, takeWhile_run hblanks hstop,
    dropWhile_run hblanks hstop]
  dsimp only
  rw [isLineBlank_of_startsToken hstarts, if_neg (by decide)]
  have hlayout := hlayout ⟨st.offset, (st.skip blanks).offset⟩
  generalize indentBlocks _ _ _ = found at hlayout ⊢
  cases found with
  | error e => cases hlayout
  | ok found =>
    obtain ⟨htokens, hblocks⟩ := Prod.mk.inj (Except.ok.inj hlayout)
    refine ⟨found.1, _, rfl, htokens, rfl, hdepth, hblocks, ?_⟩
    have hlast := congrArg List.getLast? htokens
    rw [List.getLast?_map] at hlast
    unfold ScanState.afterValue
    dsimp only
    rw [hlast]
    cases hmark : marks.getLast? with
    | none => exact hvalue
    | some mark => exact hmarks mark (List.mem_of_getLast? hmark)

/-- A line is read after the marks that its indentation stands for. -/
theorem Scans.layout (hstart : st.atLineStart = true) (hdepth : st.depth = 0) (hvalue : st.afterValue = false)
    {blocks : List Indentation} {blanks : List Char} {marks : List TokenKind}
    (hblanks : ∀ c ∈ blanks, isIndentChar c = true) (hmarks : ∀ kind ∈ marks, kind.endsValue = false)
    (hlayout : ∀ span, (indentBlocks span st.blocks blanks).map (fun found => (found.1.map Token.kind, found.2)) =
      .ok (marks, blocks))
    (hstarts : ∃ c tail, rest = c :: tail ∧ Lexeme.StartsToken c tail)
    (hrest : ∀ st' : ScanState, st'.Within blocks → Scans st' rest kinds) :
    Scans st (blanks ++ rest) (marks ++ kinds) := by
  obtain ⟨c, tail, rfl, hfirst⟩ := hstarts
  obtain ⟨before, st', hread, hbefore, hst'⟩ :=
    exists_readLayout hstart hdepth hvalue hblanks hmarks hlayout hfirst
  obtain ⟨tokens, hscan, hkinds⟩ := hrest st' hst'
  refine ⟨before ++ tokens, ?_, by rw [List.map_append, hbefore, hkinds]⟩
  rw [scanFrom_of_layout hread hst'.atLineStart, hscan]
  rfl

/-- Blanks are characters of an indentation. -/
theorem isIndentChar_of_mem_replicate {n : Nat} {c : Char} (h : c ∈ List.replicate n ' ') : isIndentChar c = true := by
  rw [List.eq_of_mem_replicate h]
  rfl

/-- A line is read after the mark that its indentation stands for, if this is none or that of a declaration. -/
theorem Scans.indented {before : Bool} (hst : st.AtStart before) (indented : Bool)
    (hstarts : ∃ c tail, rest = c :: tail ∧ Lexeme.StartsToken c tail)
    (hrest : ∀ st' : ScanState, st'.Within (openBlocks indented) → Scans st' rest kinds) :
    Scans st ((if indented then List.replicate Line.indentation ' ' else []) ++ rest)
      (Line.layout before indented ++ kinds) := by
  refine .layout hst.atLineStart hst.depth hst.afterValue (fun c hc => ?_) (fun kind hkind => ?_) (fun span => ?_)
    hstarts hrest
  · split at hc
    · exact isIndentChar_of_mem_replicate hc
    · cases hc
  · cases before <;> cases indented <;> simp only [Line.layout, List.mem_singleton, List.not_mem_nil] at hkind
    all_goals (subst hkind; rfl)
  · rw [hst.blocks]
    exact indentBlocks_line span before indented

/-- The end of a line is read as a newline. -/
theorem Scans.lineFeed (h : st.atLineStart = false) (hdepth : st.depth = 0)
    (htokens : st.lineHasTokens = true) (hrest : Scans st.passLineFeed.2 rest kinds) :
    Scans st ('\n' :: rest) (.newline :: kinds) := by
  obtain ⟨tokens, hscan, hkinds⟩ := hrest
  have hmarks : st.passLineFeed.1 = true := by
    rw [ScanState.passLineFeed, hdepth, htokens]
    rfl
  rw [Scans, scanFrom_inLine h, if_neg (by decide), if_pos rfl, hmarks, hscan]
  exact ⟨_, rfl, congrArg (TokenKind.newline :: ·) hkinds⟩

/-- Behind the end of a line the next one begins. -/
theorem atStart_passLineFeed {indented : Bool} (hdepth : st.depth = 0)
    (htokens : st.lineHasTokens = true) (hblocks : st.blocks = openBlocks indented) :
    st.passLineFeed.2.AtStart indented := by
  unfold ScanState.passLineFeed
  rw [hdepth, htokens]
  exact ⟨rfl, rfl, rfl, hblocks, rfl⟩

/-- At the end of a text nothing is left but its marks. -/
theorem scanFrom_nil {st' : ScanState} (hlayout : readLayout st [] = .ok ([], st', [])) :
    scanFrom st [] = .ok (finish st') := by
  rw [scanFrom]
  split
  · rename_i hl
    rw [hlayout] at hl
    cases hl
  · rename_i hl
    rw [hlayout] at hl
    cases hl
    rw [List.nil_append]
  · rename_i hl
    rw [hlayout] at hl
    cases hl

/-- At the end of a text the open block is closed. -/
theorem Scans.eof {before : Bool} (hst : st.AtStart before) : Scans st [] (Line.tokens before []) := by
  have hlayout : readLayout st [] = .ok ([], st.skip [], []) := by
    rw [readLayout, hst.atLineStart, hst.depth]
    rfl
  refine ⟨_, scanFrom_nil hlayout, ?_⟩
  have hblocks : (st.skip []).blocks = openBlocks before := hst.blocks
  have htokens : (st.skip []).lineHasTokens = false := hst.lineHasTokens
  rw [finish, hblocks, htokens]
  cases before <;> rfl

/-- **Lines that are written are read as their tokens.** -/
theorem scans_lines : (lines : List Line) → {before : Bool} → {st : ScanState} → st.AtStart before →
    (∀ line ∈ lines, line.Readable) → Scans st (Line.text lines) (Line.tokens before lines)
  | [], _, _, hst, _ => .eof hst
  | line :: lines, before, st, hst, hlines => by
    obtain ⟨hline, hlines⟩ := List.forall_mem_cons.1 hlines
    have htokens : Glyph.tokens line.glyphs ≠ [] := by
      obtain ⟨kind, gs, hglyphs⟩ := hline.starts
      rw [hglyphs]
      exact List.cons_ne_nil _ _
    have htext : Line.text (line :: lines) = (if line.indented then List.replicate Line.indentation ' '
        else []) ++ (Glyph.text line.glyphs ++ '\n' :: Line.text lines) := by
      rw [Line.text, List.flatMap_cons, Line.chars, List.append_assoc, List.append_assoc,
        List.singleton_append]
      rfl
    rw [htext, Line.tokens]
    have hfirst : ∃ g gs', line.glyphs = g :: gs' ∧ g ≠ .space := by
      obtain ⟨kind, gs, hglyphs⟩ := hline.starts
      exact ⟨_, gs, hglyphs, by rintro ⟨⟩⟩
    refine .indented hst line.indented ((hline.glyphs (Line.text lines)).exists_cons hfirst) fun st' hst' => ?_
    have hdepth : (st'.passRow line.glyphs).depth = 0 := by
      rw [ScanState.depth_passRow, hst'.depth]
      exact hline.depth
    have hstart := (ScanState.atLineStart_passRow st' line.glyphs).trans hst'.atLineStart
    have hhas := ScanState.lineHasTokens_passRow st' htokens
    have hnext := atStart_passLineFeed hdepth hhas ((ScanState.blocks_passRow st' line.glyphs).trans hst'.blocks)
    exact .row line.glyphs hst'.atLineStart (by rw [hst'.afterValue]; exact hline.glyphs _)
      (.lineFeed hstart hdepth hhas (scans_lines lines hnext hlines))

/-- A row at the end of a text is closed there like a line. -/
theorem Scans.finish (h : st.atLineStart = false) (hdepth : st.depth = 0) (htokens : st.lineHasTokens = true)
    (hblocks : st.blocks = []) : Scans st [] [.newline, .eof] := by
  have hlayout : readLayout st [] = .ok ([], st, []) := by
    rw [readLayout, h]
    rfl
  refine ⟨_, scanFrom_nil hlayout, ?_⟩
  rw [TypedData.finish, hblocks, htokens, hdepth]
  rfl

/-- **A text of lines is read as their tokens.** -/
theorem exists_scan {text : String} {lines : List Line} (htext : text.toList = Line.text lines)
    (hlines : ∀ line ∈ lines, line.Readable) :
    ∃ tokens, scan text = .ok tokens ∧ tokens.map Token.kind = Line.tokens false lines := by
  rw [scan, htext]
  exact scans_lines lines ⟨rfl, rfl, rfl, rfl, rfl⟩ hlines

/-- A text that starts with a token is read from within its first line. -/
theorem exists_scan_within {text : String} (hstarts : ∃ c tail, text.toList = c :: tail ∧ Lexeme.StartsToken c tail)
    (h : ∀ st : ScanState, st.atLineStart = false → st.depth = 0 → st.blocks = [] → st.afterValue = false →
      Scans st text.toList kinds) :
    ∃ tokens, scan text = .ok tokens ∧ tokens.map Token.kind = kinds := by
  have hst : ScanState.initial.AtStart false := ⟨rfl, rfl, rfl, rfl, rfl⟩
  have hscan : Scans .initial text.toList kinds :=
    .indented hst false hstarts fun st hst => h st hst.atLineStart hst.depth hst.blocks hst.afterValue
  exact hscan

/-- **A text of one row is read as its tokens,** though no line feed ends it. -/
theorem exists_scan_row {text : String} {gs : List Glyph} (htext : text.toList = Glyph.text gs)
    (hstarts : ∃ g gs', gs = g :: gs' ∧ g ≠ .space) (hread : Glyph.Readable false [] gs)
    (hdepth : Glyph.depthAfter 0 gs = 0) :
    ∃ tokens, scan text = .ok tokens ∧ tokens.map Token.kind = Glyph.tokens gs ++ [.newline, .eof] := by
  obtain ⟨c, tail, hchars, hfirst⟩ := hread.exists_cons hstarts
  rw [List.append_nil] at hchars
  refine exists_scan_within ⟨c, tail, htext.trans hchars, hfirst⟩ fun st hstart hzero hblocks hvalue => ?_
  have htokens : Glyph.tokens gs ≠ [] := by
    obtain ⟨g, gs, rfl, hspace⟩ := hstarts
    cases g with
    | token | signed => exact List.cons_ne_nil _ _
    | space => exact absurd rfl hspace
  have hend : Scans (st.passRow gs) [] [.newline, .eof] := by
    refine .finish ((ScanState.atLineStart_passRow st gs).trans hstart) ?_
      (ScanState.lineHasTokens_passRow st htokens) ((ScanState.blocks_passRow st gs).trans hblocks)
    rw [ScanState.depth_passRow, hzero]
    exact hdepth
  rw [htext, ← List.append_nil (Glyph.text gs)]
  exact Scans.row gs hstart (by rw [hvalue]; exact hread) hend

end TypedData
