import Mathlib.Data.List.Chain
import TypedData.Proofs.Scanning.Region

/-!
# The tokens of a text

What the tokens of a text are like (`IsStream`), whatever the text is.  They stand in it one behind another, and
between them there are but blanks, line feeds and comments.  The end of the text is the last of them, newlines never
come in pairs, and blocks are opened and closed in turn, neither of which happens between brackets.

The proof goes along the rounds of the scanner, with one invariant for the places (`Placed`), one for blocks and
brackets (`Nested`) and one for lines (`Lined`).
-/

namespace TypedData

/-- What occurs in two lists one behind the other occurs in one of them. -/
theorem append_eq_append_cons_cases {α : Type} {first second before after : List α} {a : α}
    (h : first ++ second = before ++ a :: after) :
    (∃ between, first = before ++ a :: between ∧ after = between ++ second) ∨
      ∃ between, before = first ++ between ∧ second = between ++ a :: after := by
  rcases List.append_eq_append_iff.1 h with ⟨between, hbefore, hsecond⟩ | ⟨between, hfirst, hafter⟩
  · exact .inr ⟨between, hbefore, hsecond⟩
  · cases between with
    | nil => exact .inr ⟨[], by rw [hfirst, List.append_nil, List.append_nil], hafter.symm⟩
    | cons b between =>
      obtain ⟨rfl, rfl⟩ := List.cons.inj hafter
      exact .inl ⟨between, hfirst, rfl⟩

/-! ## The end of a text -/

/-- The tokens that close the blocks of a text and the text. -/
def closing (st : ScanState) : List Token :=
  st.blocks.map (fun _ => ⟨.dedent, ⟨st.offset, st.offset⟩⟩) ++ [⟨.eof, ⟨st.offset, st.offset⟩⟩]

/-- What closes a text is the ends of its blocks and its own end, at one place. -/
theorem mem_closing {st : ScanState} {token : Token} (h : token ∈ closing st) :
    (token.kind = .dedent ∨ token.kind = .eof) ∧ token.span = ⟨st.offset, st.offset⟩ := by
  rcases List.mem_append.1 h with h | h
  · obtain ⟨_, -, rfl⟩ := List.mem_map.1 h
    exact ⟨.inl rfl, rfl⟩
  · rw [List.mem_singleton.1 h]
    exact ⟨.inr rfl, rfl⟩

/-- Where a line with tokens is not ended at the end of the text, a newline ends it there. -/
theorem finish_cases (st : ScanState) : finish st = closing st ∨
    (st.depth = 0 ∧ st.lineHasTokens = true ∧ finish st = ⟨.newline, ⟨st.offset, st.offset⟩⟩ :: closing st) := by
  unfold finish
  dsimp only
  split
  · rename_i hopen
    obtain ⟨htokens, hdepth⟩ := Bool.and_eq_true_iff.1 hopen
    exact .inr ⟨of_decide_eq_true hdepth, htokens, rfl⟩
  · exact .inl rfl

/-- What ends a text is a newline, the ends of its blocks and its own end, at one place. -/
theorem mem_finish {st : ScanState} {token : Token} (h : token ∈ finish st) :
    (token.kind = .newline ∨ token.kind = .dedent ∨ token.kind = .eof) ∧ token.span = ⟨st.offset, st.offset⟩ := by
  rcases finish_cases st with hfinish | ⟨-, -, hfinish⟩
  · exact (mem_closing (hfinish ▸ h)).imp_left .inr
  · rcases List.mem_cons.1 (hfinish ▸ h) with rfl | h
    · exact ⟨.inl rfl, rfl⟩
    · exact (mem_closing h).imp_left .inr

/-! ## Places -/

/-- The character `c`, between `before` and `rest`, belongs to a comment: from two slashes up to it, and within the
line, `before` opens a comment outside literals. -/
def InComment (before : List Char) (c : Char) (rest : List Char) : Prop :=
  ∃ start front back further, before = start ++ front ∧ rest = back ++ further ∧ Region.behind start = .plain ∧
    ['/', '/'] <+: front ++ c :: back ∧ '\n' ∉ front ++ c :: back

/-- The character `c`, between `before` and `rest`, may stand outside tokens. -/
def IsGap (before : List Char) (c : Char) (rest : List Char) : Prop :=
  c = ' ' ∨ c = '\t' ∨ c = '\r' ∨ c = '\n' ∨ InComment before c rest

/-- The span covers a byte. -/
def Span.Covers (span : Span) (p : Nat) : Prop := span.start ≤ p ∧ p < span.stop

/-- Where the tokens of a text stand, as far as it has been passed. -/
structure Placed (passed rest : List Char) (tokens : List Token) : Prop where
  boundaries : ∀ token ∈ tokens, ∃ before covered after, passed = before ++ covered ++ after ∧
    token.span = ⟨utf8Length before, utf8Length (before ++ covered)⟩
  ordered : tokens.Pairwise fun s t => s.span.stop ≤ t.span.start
  gaps : ∀ before c after, passed = before ++ c :: after → ∀ p, utf8Length before ≤ p →
    p < utf8Length before + c.utf8Size → (∀ token ∈ tokens, ¬ token.span.Covers p) → IsGap before c (after ++ rest)

namespace Placed

variable {passed piece rest text : List Char} {tokens more : List Token}

/-- No tokens are placed where nothing has been passed. -/
theorem nil (text : List Char) : Placed [] text [] where
  boundaries := List.forall_mem_nil _
  ordered := .nil
  gaps before c after h := by
    cases before <;> cases h

/-- Placed tokens end in what has been passed. -/
theorem stop_le (h : Placed passed text tokens) {token : Token} (ht : token ∈ tokens) :
    token.span.stop ≤ utf8Length passed := by
  obtain ⟨before, covered, after, rfl, hspan⟩ := h.boundaries token ht
  rw [hspan, utf8Length_append (before ++ covered)]
  exact Nat.le_add_right ..

/-- A piece is passed that holds no token. -/
theorem gap (h : Placed passed (piece ++ rest) tokens)
    (hpiece : ∀ front c back, piece = front ++ c :: back → IsGap (passed ++ front) c (back ++ rest)) :
    Placed (passed ++ piece) rest tokens where
  boundaries token ht := by
    obtain ⟨before, covered, after, rfl, hspan⟩ := h.boundaries token ht
    exact ⟨before, covered, after ++ piece, List.append_assoc .., hspan⟩
  ordered := h.ordered
  gaps before c after happend p hlow hhigh hout := by
    rcases append_eq_append_cons_cases happend with ⟨between, rfl, rfl⟩ | ⟨front, rfl, rfl⟩
    · rw [List.append_assoc]
      exact h.gaps before c between rfl p hlow hhigh hout
    · exact hpiece front c after rfl

/-- A piece is passed that makes a token. -/
theorem token (h : Placed passed (piece ++ rest) tokens) (kind : TokenKind) :
    Placed (passed ++ piece) rest (tokens ++ [⟨kind, ⟨utf8Length passed, utf8Length (passed ++ piece)⟩⟩]) where
  boundaries := by
    refine List.forall_mem_append.2 ⟨fun token ht => ?_, List.forall_mem_singleton.2 ?_⟩
    · obtain ⟨before, covered, after, rfl, hspan⟩ := h.boundaries token ht
      exact ⟨before, covered, after ++ piece, List.append_assoc .., hspan⟩
    · exact ⟨passed, piece, [], (List.append_nil _).symm, rfl⟩
  ordered := List.pairwise_append.2
    ⟨h.ordered, List.pairwise_singleton _ _, fun s hs => List.forall_mem_singleton.2 (h.stop_le hs)⟩
  gaps before c after happend p hlow hhigh hout := by
    obtain ⟨hold, hnew⟩ := List.forall_mem_append.1 hout
    rcases append_eq_append_cons_cases happend with ⟨between, rfl, rfl⟩ | ⟨front, rfl, rfl⟩
    · rw [List.append_assoc]
      exact h.gaps before c between rfl p hlow hhigh hold
    · have hstart : utf8Length passed ≤ utf8Length (passed ++ front) := by
        rw [utf8Length_append]
        exact Nat.le_add_right ..
      have hstop : utf8Length (passed ++ front) + c.utf8Size ≤ utf8Length (passed ++ (front ++ c :: after)) := by
        simp only [utf8Length_append, utf8Length_cons]
        omega
      exact absurd ⟨Nat.le_trans hstart hlow, Nat.lt_of_lt_of_le hhigh hstop⟩ (hnew _ (.head _))

/-- Tokens that cover nothing may be put in between. -/
theorem here (h : Placed passed text tokens)
    (hmore : ∀ token ∈ more, token.span = ⟨utf8Length passed, utf8Length passed⟩) :
    Placed passed text (tokens ++ more) where
  boundaries := by
    refine List.forall_mem_append.2 ⟨h.boundaries, fun token ht => ⟨passed, [], [], ?_, ?_⟩⟩
    · rw [List.append_nil, List.append_nil]
    · rw [List.append_nil, hmore token ht]
  ordered := by
    refine List.pairwise_append.2 ⟨h.ordered, ?_, fun s hs t ht => ?_⟩
    · exact List.pairwise_of_forall_mem_list fun s hs t ht => by
        rw [hmore s hs, hmore t ht]
    · rw [hmore t ht]
      exact h.stop_le hs
  gaps before c after happend p hlow hhigh hout :=
    h.gaps before c after happend p hlow hhigh (List.forall_mem_append.1 hout).1

end Placed

/-- What a scan knows of places: `text` is the part of the source behind the tokens, and their places are in order. -/
def IsPlaced (source : List Char) (tokens : List Token) (st : ScanState) (text : List Char) : Prop :=
  ∃ passed, source = passed ++ text ∧ st.offset = utf8Length passed ∧ (Region.behind passed).Outside text ∧
    Placed passed text tokens

namespace IsPlaced

variable {source passed piece text rest : List Char} {before tokens : List Token} {st st' : ScanState}

/-- A piece has been passed. -/
theorem pass (hsource : source = passed ++ (piece ++ rest)) (hstart : st.offset = utf8Length passed)
    (hstop : st'.offset = st.offset + utf8Length piece) (hout : ((Region.behind passed).across piece).Outside rest)
    (hplaced : Placed (passed ++ piece) rest tokens) : IsPlaced source tokens st' rest := by
  refine ⟨passed ++ piece, by rw [hsource, List.append_assoc], ?_, ?_, hplaced⟩
  · rw [hstop, hstart, utf8Length_append]
  · rwa [Region.behind_append]

/-- Tokens stay placed when those of the layout come behind them. -/
theorem aligns (h : IsPlaced source before st text) (hmove : Aligns st text tokens st' rest) :
    IsPlaced source (before ++ tokens) st' rest := by
  obtain ⟨passed, hsource, hoffset, hout, hplaced⟩ := h
  have hgap : ∀ {blanks : List Char}, (∀ c ∈ blanks, isIndentChar c = true) → text = blanks ++ rest →
      Placed (passed ++ blanks) rest before := by
    rintro blanks hblanks rfl
    refine hplaced.gap fun front c back hpiece => ?_
    rcases Bool.or_eq_true_iff.1 (hblanks c (hpiece ▸ List.mem_append_right _ (.head _))) with hc | hc
    · exact .inl (of_decide_eq_true hc)
    · exact .inr (.inl (of_decide_eq_true hc))
  cases hmove with
  | none =>
    rw [List.append_nil]
    exact ⟨passed, hsource, hoffset, hout, hplaced⟩
  | @blank blanks _ hblanks =>
    rw [List.append_nil]
    exact pass hsource hoffset rfl (hout.blanks hblanks) (hgap hblanks rfl)
  | @opens blanks _ block hblanks hdepth =>
    refine pass hsource hoffset rfl (hout.blanks hblanks) ?_
    have htoken := hplaced.token .indent
    rw [utf8Length_append, ← hoffset] at htoken
    exact htoken
  | @closes blanks _ closed remaining hblanks hdepth hblocks =>
    refine pass hsource hoffset rfl (hout.blanks hblanks) ((hgap hblanks rfl).here fun token ht => ?_)
    obtain ⟨_, -, rfl⟩ := List.mem_map.1 ht
    rw [utf8Length_append, ← hoffset]
    rfl

/-- Tokens stay placed when those of what is passed come behind them. -/
theorem move (h : IsPlaced source before st text) (hmove : Move st text tokens st' rest) :
    IsPlaced source (before ++ tokens) st' rest := by
  obtain ⟨passed, hsource, hoffset, hout, hplaced⟩ := h
  obtain ⟨piece, rfl, hnext⟩ := hmove.outside hout
  generalize htext : piece ++ rest = text at hmove
  cases hmove with
  | @blank c _ hc =>
    obtain rfl : piece = [c] := List.append_cancel_right htext
    rw [List.append_nil]
    refine pass hsource hoffset rfl hnext (hplaced.gap fun front d back hpiece => ?_)
    obtain rfl : d = c := List.mem_singleton.1 (hpiece ▸ List.mem_append_right _ (.head _))
    rcases hc with hc | hc | hc
    · exact .inl hc
    · exact .inr (.inl hc)
    · exact .inr (.inr (.inl hc))
  | lineFeed =>
    obtain rfl : piece = ['\n'] := List.append_cancel_right htext
    refine pass hsource hoffset st.passLineFeed_offset hnext ?_
    unfold ScanState.newlines
    split
    · have htoken := hplaced.token .newline
      rw [utf8Length_append, ← hoffset] at htoken
      rw [ScanState.passLineFeed_offset]
      exact htoken
    · rw [List.append_nil]
      refine hplaced.gap fun front d back hpiece => ?_
      obtain rfl : d = '\n' := List.mem_singleton.1 (hpiece ▸ List.mem_append_right _ (.head _))
      exact .inr (.inr (.inr (.inl rfl)))
  | @comment line _ hline hend =>
    obtain rfl : piece = '/' :: '/' :: line := List.append_cancel_right htext
    rw [List.append_nil]
    refine pass hsource hoffset rfl hnext (hplaced.gap fun front c back hpiece => ?_)
    refine .inr (.inr (.inr (.inr ⟨passed, front, back, rest, rfl, rfl, hout.eq_plain, ?_, ?_⟩)))
    · exact hpiece ▸ ⟨line, rfl⟩
    · rw [← hpiece]
      simpa using hline
  | @lexeme c _ lexeme _ _ hread =>
    have hsplits := Lexeme.read_splits hread
    obtain rfl : piece = lexeme.taken := List.append_cancel_right (htext.trans hsplits.append_eq.symm)
    refine pass hsource hoffset rfl hnext ?_
    have htoken := hplaced.token lexeme.kind
    rw [utf8Length_append, ← hoffset] at htoken
    exact htoken

/-- The tokens at the end of a text cover nothing. -/
theorem finish (h : IsPlaced source before st []) :
    Placed source [] (before ++ TypedData.finish st) ∧ st.offset = utf8Length source := by
  obtain ⟨passed, hsource, hoffset, -, hplaced⟩ := h
  obtain rfl : source = passed := hsource.trans (List.append_nil passed)
  refine ⟨hplaced.here fun token ht => ?_, hoffset⟩
  rw [← hoffset]
  exact (mem_finish ht).2

end IsPlaced

/-! ## Blocks and brackets -/

/-- The kinds of tokens, without their places. -/
def kinds (tokens : List Token) : List TokenKind := tokens.map Token.kind

/-- How many brackets are open behind some tokens; a bracket that closes none is passed over. -/
def openBrackets (tokens : List Token) : Nat := (kinds tokens).foldl ScanState.depthAfter 0

/-- How often a kind of tokens occurs. -/
def countOf (kind : TokenKind) (tokens : List Token) : Nat := (kinds tokens).count kind

/-- No tokens have no kind. -/
@[simp] theorem countOf_nil (kind : TokenKind) : countOf kind [] = 0 := rfl

/-- Tokens of a kind are counted in two lists, one behind the other, as in each of them. -/
@[simp] theorem countOf_append (kind : TokenKind) (tokens more : List Token) :
    countOf kind (tokens ++ more) = countOf kind tokens + countOf kind more := by
  unfold countOf kinds
  rw [List.map_append, List.count_append]

/-- A first part has no more tokens of a kind than the whole. -/
theorem countOf_le_of_prefix {front tokens : List Token} (kind : TokenKind) (h : front <+: tokens) :
    countOf kind front ≤ countOf kind tokens := by
  obtain ⟨back, rfl⟩ := h
  rw [countOf_append]
  exact Nat.le_add_right ..

/-- Blocks that are closed have a dedent each, and no indents. -/
theorem countOf_dedents {α : Type} (closed : List α) (place : α → Span) :
    countOf .dedent (closed.map fun block => ⟨.dedent, place block⟩) = closed.length ∧
      countOf .indent (closed.map fun block => ⟨.dedent, place block⟩) = 0 := by
  have hkinds : kinds (closed.map fun block => ⟨.dedent, place block⟩) = List.replicate closed.length .dedent := by
    unfold kinds
    rw [List.map_map, ← List.map_const]
    rfl
  unfold countOf
  rw [hkinds, List.count_replicate_self, List.count_replicate]
  exact ⟨rfl, rfl⟩

/-- What a scan knows of blocks and brackets. -/
structure Nested (tokens : List Token) (st : ScanState) : Prop where
  depth : st.depth = openBrackets tokens
  blocks : countOf .indent tokens = countOf .dedent tokens + st.blocks.length
  prefixes : ∀ front, front <+: tokens → countOf .dedent front ≤ countOf .indent front
  quiet : ∀ front token back, tokens = front ++ token :: back → 0 < openBrackets front →
    token.kind ≠ .indent ∧ token.kind ≠ .dedent

namespace Nested

variable {tokens more : List Token} {st st' : ScanState}

/-- At the beginning, no block and no bracket is open. -/
theorem initial : Nested [] .initial where
  depth := rfl
  blocks := rfl
  prefixes front h := by
    rw [List.prefix_nil.1 h]
    exact Nat.le_refl _
  quiet front token back h := by
    cases front <;> cases h

/-- Blocks that are open may be closed. -/
theorem prefixes_append (h : Nested tokens st) (hclosed : countOf .dedent more ≤ st.blocks.length) :
    ∀ front, front <+: tokens ++ more → countOf .dedent front ≤ countOf .indent front := by
  intro front hfront
  rcases List.prefix_or_prefix_of_prefix hfront (List.prefix_append tokens more) with hold | ⟨new, rfl⟩
  · exact h.prefixes front hold
  · have hnew := countOf_le_of_prefix .dedent ((List.prefix_append_right_inj tokens).1 hfront)
    have hblocks := h.blocks
    rw [countOf_append, countOf_append]
    omega

/-- Tokens are added: they close open blocks only, and are no layout between brackets. -/
theorem append (h : Nested tokens st) (hdepth : st'.depth = (kinds more).foldl ScanState.depthAfter st.depth)
    (hblocks : countOf .indent more + st.blocks.length = countOf .dedent more + st'.blocks.length)
    (hclosed : countOf .dedent more ≤ st.blocks.length)
    (hquiet : ∀ front token back, more = front ++ token :: back →
      0 < (kinds front).foldl ScanState.depthAfter st.depth → token.kind ≠ .indent ∧ token.kind ≠ .dedent) :
    Nested (tokens ++ more) st' := by
  have hopen : ∀ front, (kinds front).foldl ScanState.depthAfter st.depth = openBrackets (tokens ++ front) :=
    fun front => by
      rw [h.depth]
      unfold openBrackets kinds
      rw [List.map_append, List.foldl_append]
  refine ⟨hdepth.trans (hopen more), ?_, h.prefixes_append hclosed, fun front token back hsplit hfront => ?_⟩
  · have := h.blocks
    rw [countOf_append, countOf_append]
    omega
  · rcases append_eq_append_cons_cases hsplit with ⟨old, hold, -⟩ | ⟨new, rfl, hnew⟩
    · exact h.quiet front token old hold hfront
    · exact hquiet new token back hnew (hopen new ▸ hfront)

/-- A token that is no layout of blocks. -/
theorem token (h : Nested tokens st) {token : Token} (hindent : token.kind ≠ .indent) (hdedent : token.kind ≠ .dedent)
    (hdepth : st'.depth = ScanState.depthAfter st.depth token.kind) (hblocks : st'.blocks = st.blocks) :
    Nested (tokens ++ [token]) st' := by
  have hcount : ∀ {kind}, token.kind ≠ kind → countOf kind [token] = 0 := fun hne =>
    List.count_eq_zero.2 fun hmem => hne (List.mem_singleton.1 hmem).symm
  refine h.append hdepth ?_ ?_ fun front t back hsplit _ => ?_
  · rw [hcount hindent, hcount hdedent, hblocks]
  · rw [hcount hdedent]
    exact Nat.zero_le _
  · obtain rfl : t = token := List.mem_singleton.1 (hsplit ▸ List.mem_append_right _ (.head _))
    exact ⟨hindent, hdedent⟩

/-- No token. -/
theorem none (h : Nested tokens st) (hdepth : st'.depth = st.depth) (hblocks : st'.blocks = st.blocks) :
    Nested (tokens ++ []) st' := by
  refine h.append hdepth (by rw [hblocks, countOf_nil, countOf_nil]) (Nat.zero_le _) fun front t back hsplit => ?_
  cases front <;> cases hsplit

/-- Layout of blocks, outside brackets. -/
theorem layout (h : Nested tokens st) (hmore : ∀ token ∈ more, token.kind = .indent ∨ token.kind = .dedent)
    (hopen : st.depth = 0) (hdepth : st'.depth = 0)
    (hblocks : countOf .indent more + st.blocks.length = countOf .dedent more + st'.blocks.length)
    (hclosed : countOf .dedent more ≤ st.blocks.length) : Nested (tokens ++ more) st' := by
  have hzero : ∀ front, (∀ token ∈ front, token.kind = .indent ∨ token.kind = .dedent) →
      (kinds front).foldl ScanState.depthAfter 0 = 0 := by
    intro front hfront
    induction front with
    | nil => rfl
    | cons token front ih =>
      obtain ⟨hhead, htail⟩ := List.forall_mem_cons.1 hfront
      refine Eq.trans ?_ (ih htail)
      rcases hhead with hhead | hhead <;> simp only [kinds, List.map_cons, hhead] <;> rfl
  refine h.append ?_ hblocks hclosed fun front token back hsplit hfront => ?_
  · rw [hdepth, hopen, hzero more hmore]
  · rw [hopen, hzero front fun t ht => hmore t (hsplit ▸ List.mem_append_left _ ht)] at hfront
    cases hfront

/-- Blocks and brackets stay nested behind the layout. -/
theorem aligns {text rest : List Char} (h : Nested tokens st) (hmove : Aligns st text more st' rest) :
    Nested (tokens ++ more) st' := by
  cases hmove with
  | none | blank => exact h.none rfl rfl
  | opens block _ hdepth =>
    refine h.layout (List.forall_mem_singleton.2 (.inl rfl)) hdepth hdepth ?_ (Nat.zero_le _)
    change 1 + st.blocks.length = 0 + (st.blocks.length + 1)
    omega
  | @closes _ _ closed remaining _ hdepth hblocks =>
    obtain ⟨hdedent, hindent⟩ := countOf_dedents closed fun _ : Indentation => ⟨_, _⟩
    refine h.layout (fun token ht => ?_) hdepth hdepth ?_ ?_
    · obtain ⟨_, -, rfl⟩ := List.mem_map.1 ht
      exact .inr rfl
    · rw [hindent, hdedent, hblocks, List.length_append, Nat.zero_add]
    · rw [hdedent, hblocks, List.length_append]
      exact Nat.le_add_right ..

/-- Blocks and brackets stay nested behind what is passed. -/
theorem move {text rest : List Char} (h : Nested tokens st) (hmove : Move st text more st' rest) :
    Nested (tokens ++ more) st' := by
  cases hmove with
  | blank | comment => exact h.none rfl rfl
  | lineFeed =>
    unfold ScanState.newlines
    split
    · exact h.token (by simp) (by simp) st.passLineFeed_depth st.passLineFeed_blocks
    · exact h.none st.passLineFeed_depth st.passLineFeed_blocks
  | lexeme _ _ hread =>
    exact h.token (Lexeme.kind_ne_of_read trivial hread) (Lexeme.kind_ne_of_read trivial hread) rfl rfl

end Nested

/-! ## Lines -/

/-- At most one of the two tokens is a newline. -/
def OneBreak (s t : Token) : Prop := s.kind = .newline → t.kind ≠ .newline

/-- What a scan knows of lines. -/
structure Lined (tokens : List Token) (st : ScanState) : Prop where
  previous : st.previous = tokens.getLast?.map Token.kind
  apart : tokens.IsChain OneBreak
  line : st.depth = 0 → st.lineHasTokens = true → st.previous ≠ some .newline
  unended : ∀ token ∈ tokens, token.kind ≠ .eof

namespace Lined

variable {tokens more : List Token} {st st' : ScanState}

/-- At the beginning, there is no line. -/
theorem initial : Lined [] .initial where
  previous := rfl
  apart := .nil
  line _ h := by cases h
  unended := List.forall_mem_nil _

/-- No newline follows a newline where tokens come behind others, if none does at the seam. -/
theorem oneBreak_append (h : Lined tokens st) (hmore : more.IsChain OneBreak)
    (hfirst : ∀ token ∈ more.head?, token.kind = .newline → st.previous ≠ some .newline) :
    (tokens ++ more).IsChain OneBreak := by
  refine List.isChain_append.2 ⟨h.apart, hmore, fun s hs t ht hbreak hbreak' => hfirst t ht hbreak' ?_⟩
  rw [h.previous, Option.mem_def.1 hs, Option.map_some, hbreak]

/-- A scan knows of lines what it should, if the tokens behind it do not end the text. -/
theorem append (h : Lined tokens st) (hmore : more.IsChain OneBreak)
    (hfirst : ∀ token ∈ more.head?, token.kind = .newline → st.previous ≠ some .newline)
    (heof : ∀ token ∈ more, token.kind ≠ .eof)
    (hprevious : st'.previous = (more.getLast?.map Token.kind).or st.previous)
    (hline : st'.depth = 0 → st'.lineHasTokens = true → st'.previous ≠ some .newline) :
    Lined (tokens ++ more) st' where
  previous := by
    rw [hprevious, h.previous, List.getLast?_append, Option.map_or]
  apart := h.oneBreak_append hmore hfirst
  line := hline
  unended := List.forall_mem_append.2 ⟨h.unended, heof⟩

/-- No token. -/
theorem none (h : Lined tokens st) (hprevious : st'.previous = st.previous)
    (hline : st'.depth = 0 → st'.lineHasTokens = true → st'.previous ≠ some .newline) : Lined (tokens ++ []) st' :=
  h.append .nil (fun _ ht => by cases ht) (List.forall_mem_nil _) hprevious hline

/-- A token that is no newline. -/
theorem token (h : Lined tokens st) {token : Token} (hbreak : token.kind ≠ .newline) (heof : token.kind ≠ .eof)
    (hprevious : st'.previous = some token.kind) : Lined (tokens ++ [token]) st' := by
  refine h.append (.singleton _) ?_ (List.forall_mem_singleton.2 heof) hprevious fun _ _ => ?_
  · rintro t ⟨⟩ ht
    exact absurd ht hbreak
  · rw [hprevious]
    exact fun h => hbreak (Option.some.inj h)

/-- No newlines stand between ends of blocks. -/
theorem isChain_dedents {α : Type} (closed : List α) (place : Span) :
    (closed.map fun _ => (⟨.dedent, place⟩ : Token)).IsChain OneBreak := by
  refine List.Pairwise.isChain (List.pairwise_of_forall_mem_list fun s _ t ht _ => ?_)
  obtain ⟨_, -, rfl⟩ := List.mem_map.1 ht
  simp

/-- A scan knows the same of lines behind the layout. -/
theorem aligns {text rest : List Char} (h : Lined tokens st) (hmove : Aligns st text more st' rest) :
    Lined (tokens ++ more) st' := by
  cases hmove with
  | none | blank => exact h.none rfl h.line
  | opens block _ hdepth => exact h.token (by simp) (by simp) rfl
  | @closes _ _ closed remaining _ hdepth hblocks =>
    have hdedents : ∀ {place : Span}, ∀ t ∈ closed.map fun _ => (⟨.dedent, place⟩ : Token), t.kind = .dedent := by
      intro place t ht
      obtain ⟨_, -, rfl⟩ := List.mem_map.1 ht
      rfl
    refine h.append (isChain_dedents ..) (fun t ht hbreak => ?_) (fun t ht => ?_) ?_ fun hopen htokens => ?_
    · rw [hdedents t (List.mem_of_head? ht)] at hbreak
      cases hbreak
    · rw [hdedents t ht]
      simp
    · rcases List.eq_nil_or_concat closed with rfl | ⟨front, block, rfl⟩
      · rfl
      · simp
    · dsimp only
      split
      · exact h.line hopen htokens
      · simp

/-- A scan knows the same of lines behind what is passed. -/
theorem move {text rest : List Char} (h : Lined tokens st) (hmove : Move st text more st' rest) :
    Lined (tokens ++ more) st' := by
  cases hmove with
  | blank | comment => exact h.none rfl h.line
  | lineFeed =>
    have hline : st.passLineFeed.2.depth = 0 → st.passLineFeed.2.lineHasTokens = true →
        st.passLineFeed.2.previous ≠ some .newline := by
      intro hopen htokens
      rw [(ScanState.lineHasTokens_passLineFeed (st.passLineFeed_depth ▸ hopen)).2] at htokens
      cases htokens
    have hprevious := st.passLineFeed_previous
    unfold ScanState.newlines
    split
    · rename_i hmarks
      rw [if_pos hmarks] at hprevious
      refine h.append (.singleton _) (fun t _ _ => ?_) (List.forall_mem_singleton.2 (by simp)) hprevious hline
      unfold ScanState.passLineFeed at hmarks
      dsimp only at hmarks
      split at hmarks
      · exact bne_iff_ne.1 hmarks
      · rename_i hopen
        exact h.line (Nat.eq_zero_of_not_pos hopen) hmarks
    · rename_i hmarks
      rw [if_neg hmarks] at hprevious
      exact h.none hprevious hline
  | lexeme _ _ hread =>
    exact h.token (Lexeme.kind_ne_of_read trivial hread) (Lexeme.kind_ne_of_read trivial hread) rfl

/-- No newline follows a newline at the end of a text. -/
theorem finish (h : Lined tokens st) : (tokens ++ TypedData.finish st).IsChain OneBreak := by
  have hkind : ∀ t ∈ closing st, t.kind ≠ .newline := fun t ht => by
    rcases (mem_closing ht).1 with h | h <;> simp [h]
  have hclosing : (closing st).IsChain OneBreak :=
    List.Pairwise.isChain (List.pairwise_of_forall_mem_list fun s _ t ht _ => hkind t ht)
  rcases finish_cases st with hfinish | ⟨hopen, htokens, hfinish⟩
  · rw [hfinish]
    exact h.oneBreak_append hclosing fun t ht hbreak => absurd hbreak (hkind t (List.mem_of_head? ht))
  · rw [hfinish]
    exact h.oneBreak_append (List.isChain_cons.2 ⟨fun t ht _ => hkind t (List.mem_of_head? ht), hclosing⟩)
      fun _ _ _ => h.line hopen htokens

end Lined

/-! ## All tokens -/

/-- What the tokens of a text are like. -/
structure IsStream (source : List Char) (tokens : List Token) : Prop where
  /-- They stand in the text one behind another, and what is outside of them is a gap. -/
  placed : Placed source [] tokens
  /-- The end of the text is the last token, and no other. -/
  ends : ∃ before span, tokens = before ++ [⟨.eof, span⟩] ∧ ∀ token ∈ before, token.kind ≠ .eof
  /-- No newline follows a newline. -/
  apart : tokens.IsChain OneBreak
  /-- No block is closed that has not been opened. -/
  prefixes : ∀ front, front <+: tokens → countOf .dedent front ≤ countOf .indent front
  /-- Every block is closed. -/
  balanced : countOf .dedent tokens = countOf .indent tokens
  /-- Between brackets no block is opened, and none is closed before the end of the text. -/
  quiet : ∀ front token back, tokens = front ++ token :: back → 0 < openBrackets front → token.kind ≠ .indent ∧
    (token.kind = .dedent → token.span = ⟨utf8Length source, utf8Length source⟩)

/-- What ends a text closes each of its blocks, and opens none. -/
theorem countOf_finish (st : ScanState) :
    countOf .dedent (finish st) = st.blocks.length ∧ countOf .indent (finish st) = 0 := by
  obtain ⟨hdedent, hindent⟩ := countOf_dedents st.blocks fun _ => ⟨st.offset, st.offset⟩
  have hclosing : countOf .dedent (closing st) = st.blocks.length ∧ countOf .indent (closing st) = 0 := by
    unfold closing
    rw [countOf_append, countOf_append, hdedent, hindent]
    exact ⟨rfl, rfl⟩
  rcases finish_cases st with hfinish | ⟨-, -, hfinish⟩
  · rwa [hfinish]
  · rw [hfinish, ← List.singleton_append, countOf_append, countOf_append, hclosing.1, hclosing.2]
    exact ⟨Nat.zero_add _, rfl⟩

/-- The end of a text is its last token, and no other. -/
theorem exists_finish (st : ScanState) : ∃ before, finish st = before ++ [⟨.eof, ⟨st.offset, st.offset⟩⟩] ∧
    ∀ token ∈ before, token.kind ≠ .eof := by
  have hdedents : ∀ token ∈ st.blocks.map (fun _ => (⟨.dedent, ⟨st.offset, st.offset⟩⟩ : Token)),
      token.kind ≠ .eof := by
    intro token ht
    obtain ⟨_, -, rfl⟩ := List.mem_map.1 ht
    simp
  rcases finish_cases st with hfinish | ⟨-, -, hfinish⟩
  · exact ⟨_, hfinish, hdedents⟩
  · exact ⟨_, hfinish, List.forall_mem_cons.2 ⟨by simp, hdedents⟩⟩

/-- What a scan knows at the end of a text makes its tokens a stream. -/
theorem isStream_of_finish {source : List Char} {tokens : List Token} {st : ScanState}
    (hplaced : IsPlaced source tokens st []) (hnested : Nested tokens st) (hlined : Lined tokens st) :
    IsStream source (tokens ++ finish st) := by
  obtain ⟨hplaces, hoffset⟩ := hplaced.finish
  obtain ⟨hdedents, hindents⟩ := countOf_finish st
  refine ⟨hplaces, ?_, hlined.finish, hnested.prefixes_append hdedents.le, ?_, fun front token back hsplit hopen => ?_⟩
  · obtain ⟨before, hfinish, hbefore⟩ := exists_finish st
    exact ⟨tokens ++ before, _, by rw [hfinish, List.append_assoc],
      List.forall_mem_append.2 ⟨hlined.unended, hbefore⟩⟩
  · rw [countOf_append, countOf_append, hdedents, hindents, hnested.blocks, Nat.add_zero]
  · rcases append_eq_append_cons_cases hsplit with ⟨old, hold, -⟩ | ⟨new, -, hnew⟩
    · obtain ⟨hindent, hdedent⟩ := hnested.quiet front token old hold hopen
      exact ⟨hindent, fun h => absurd h hdedent⟩
    · obtain ⟨hkind, hspan⟩ := mem_finish (hnew ▸ List.mem_append_right new (.head back))
      refine ⟨?_, fun _ => hoffset ▸ hspan⟩
      rcases hkind with hkind | hkind | hkind <;> simp [hkind]

/-- **The tokens of a text form a stream:** they stand in it one behind another, and outside of them there are but
blanks, line feeds and comments; the end is the last token and the only one of its kind; no two newlines are adjacent;
blocks are closed after they are opened, all of them, and none between brackets. -/
theorem isStream_of_scan {source : String} {tokens : List Token} (h : scan source = .ok tokens) :
    IsStream source.toList tokens := by
  obtain ⟨more, st, ⟨hplaced, hnested, hlined⟩, rfl⟩ := exists_of_scanFrom
    (I := fun tokens st text => IsPlaced source.toList tokens st text ∧ Nested tokens st ∧ Lined tokens st)
    (fun h hmove => ⟨h.1.aligns hmove, h.2.1.aligns hmove, h.2.2.aligns hmove⟩)
    (fun h hmove => ⟨h.1.move hmove, h.2.1.move hmove, h.2.2.move hmove⟩)
    ⟨⟨[], rfl, rfl, trivial, .nil _⟩, .initial, .initial⟩ h
  exact isStream_of_finish hplaced hnested hlined

/-- A list over several lines in a block, with a comment, and two brackets that are never closed. -/
def crooked : String := "a:\n  b: [\"é//\", // c\n   -1\n\n  ]\r\n\nd:(["

/-- A text with a block and brackets is a stream of tokens. -/
theorem isStream_of_scan_crooked : ∃ tokens, scan crooked = .ok tokens ∧ tokens.length = 20 ∧
    countOf .indent tokens = 1 ∧ openBrackets tokens = 2 ∧ IsStream crooked.toList tokens := by
  have htest : (scan crooked).toOption.any
      (fun tokens => tokens.length = 20 && countOf .indent tokens = 1 && openBrackets tokens = 2) = true := by
    decide +kernel
  obtain ⟨tokens, hscan, htest⟩ := exists_ok_of_any htest
  simp only [Bool.and_eq_true, decide_eq_true_eq] at htest
  exact ⟨tokens, hscan, htest.1.1, htest.1.2, htest.2, isStream_of_scan hscan⟩

end TypedData
