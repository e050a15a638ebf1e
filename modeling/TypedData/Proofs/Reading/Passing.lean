import TypedData.Proofs.Reading.Row

/-!
# Texts that are passed

What is scanned behind a text depends on the text only through its tokens: on the last of them, on the brackets that
they leave open, and on whether there are any (`ScanState.After`).  So a text can be said to be passed as tokens
whatever follows it (`Passes`), and a text of several parts is passed if each part is (`Passes.append`).

White space between brackets is passed as one newline if there are line breaks in it, and as nothing if there are none
(`Passes.white`).
-/

namespace TypedData

/-- The state is one behind the tokens, within a line. -/
structure ScanState.After (st : ScanState) (kinds : List TokenKind) (st' : ScanState) : Prop where
  atLineStart : st'.atLineStart = false
  blocks : st'.blocks = st.blocks
  depth : st'.depth = kinds.foldl ScanState.depthAfter st.depth
  previous : st'.previous = kinds.getLast?.or st.previous
  lineHasTokens : (∃ kind ∈ kinds, kind ≠ .newline) ∨ st.lineHasTokens = true → st'.lineHasTokens = true

namespace ScanState

variable {st st' st'' : ScanState} {kinds kinds' : List TokenKind}

/-- A state within a line is behind no tokens. -/
theorem After.refl (h : st.atLineStart = false) : st.After [] st where
  atLineStart := h
  blocks := rfl
  depth := rfl
  previous := rfl
  lineHasTokens hhas := hhas.resolve_left (by rintro ⟨kind, hkind, -⟩; cases hkind)

/-- What is behind more tokens is behind all of them. -/
theorem After.trans (h : st.After kinds st') (h' : st'.After kinds' st'') : st.After (kinds ++ kinds') st'' where
  atLineStart := h'.atLineStart
  blocks := h'.blocks.trans h.blocks
  depth := by rw [h'.depth, h.depth, List.foldl_append]
  previous := by rw [h'.previous, h.previous, List.getLast?_append, Option.or_assoc]
  lineHasTokens := by
    rintro (⟨kind, hkind, hne⟩ | hhas)
    · rcases List.mem_append.1 hkind with hkind | hkind
      · exact h'.lineHasTokens (.inr (h.lineHasTokens (.inl ⟨kind, hkind, hne⟩)))
      · exact h'.lineHasTokens (.inl ⟨kind, hkind, hne⟩)
    · exact h'.lineHasTokens (.inr (h.lineHasTokens (.inr hhas)))

/-- Behind tokens that end with this one. -/
theorem After.previous_eq {last : TokenKind} (h : st.After kinds st') (hlast : kinds.getLast? = some last) :
    st'.previous = some last := by rw [h.previous, hlast, Option.some_or]

/-- Behind tokens that end with one that ends no value. -/
theorem After.afterValue_eq_false {last : TokenKind} (h : st.After kinds st') (hlast : kinds.getLast? = some last)
    (hends : last.endsValue = false) : st'.afterValue = false := by
  rw [ScanState.afterValue, h.previous_eq hlast]
  exact hends

/-- Behind a token that is passed. -/
theorem After.token (h : st.atLineStart = false) (kind : TokenKind) :
    st.After [kind] (st.passGlyph (.token kind)) where
  atLineStart := h
  blocks := rfl
  depth := rfl
  previous := rfl
  lineHasTokens _ := rfl

/-- Behind a number with a sign that is passed. -/
theorem After.signed (h : st.atLineStart = false) (kind : TokenKind) :
    st.After [kind.signed] (st.passGlyph (.signed kind)) where
  atLineStart := h
  blocks := rfl
  depth := rfl
  previous := rfl
  lineHasTokens _ := rfl

/-- Behind characters that are skipped, no tokens are added. -/
theorem After.skip (h : st.atLineStart = false) (passed : List Char) : st.After [] (st.skip passed) where
  atLineStart := h
  blocks := rfl
  depth := rfl
  previous := rfl
  lineHasTokens hhas := hhas.resolve_left (by rintro ⟨kind, hkind, -⟩; cases hkind)

/-- Behind a row that is passed. -/
theorem After.row (h : st.atLineStart = false) (gs : List Glyph) : st.After (Glyph.tokens gs) (st.passRow gs) := by
  induction gs generalizing st with
  | nil => exact .refl h
  | cons g gs ih =>
    cases g with
    | token kind => exact (After.token h kind).trans (ih h)
    | signed kind => exact (After.signed h kind).trans (ih h)
    | space => exact (After.skip h [' ']).trans (ih h)

end ScanState

/-! ## Passing -/

/-- Whatever follows the text with `follows`, scanning passes the text as the tokens and goes on behind them. -/
def Passes (follows : List Char → Prop) (st : ScanState) (text : List Char) (kinds : List TokenKind) : Prop :=
  ∀ rest more, follows rest → (∀ st', st.After kinds st' → Scans st' rest more) →
    Scans st (text ++ rest) (kinds ++ more)

namespace Passes

variable {follows follows' : List Char → Prop} {st : ScanState} {text text' : List Char}
  {kinds kinds' : List TokenKind}

/-- No text is passed as no tokens. -/
theorem nil (h : st.atLineStart = false) : Passes follows st [] [] := fun _ _ _ hscan => hscan st (.refl h)

/-- A text is passed if its parts are, one after the other. -/
theorem append (h : Passes follows st text kinds) (h' : ∀ st', st.After kinds st' → Passes follows' st' text' kinds')
    (hfollows : ∀ rest, follows' rest → follows (text' ++ rest)) :
    Passes follows' st (text ++ text') (kinds ++ kinds') := by
  intro rest more hrest hscan
  rw [List.append_assoc, List.append_assoc]
  exact h _ _ (hfollows rest hrest) fun st' hst' => h' st' hst' rest more hrest fun st'' hst'' =>
    hscan st'' (hst'.trans hst'')

/-- A row of tokens is passed if it is read as it is written. -/
theorem row (h : st.atLineStart = false) {gs : List Glyph}
    (hread : ∀ rest, follows rest → Glyph.Readable st.afterValue rest gs) :
    Passes follows st (Glyph.text gs) (Glyph.tokens gs) := fun rest _ hrest hscan =>
  .row gs h (hread rest hrest) (hscan _ (.row h gs))

end Passes

/-! ## White space -/

/-- A character that no token starts with, and that may stand between tokens. -/
def isWhite (c : Char) : Bool := [' ', '\t', '\r', '\n'].contains c

/-- White space. -/
def IsWhite (cs : List Char) : Prop := ∀ c ∈ cs, isWhite c = true

instance (cs : List Char) : Decidable (IsWhite cs) := decidable_of_iff (cs.all isWhite = true) List.all_eq_true

/-- A newline, where a line break is. -/
def breaks (broken : Bool) : List TokenKind := if broken then [.newline] else []

variable {st : ScanState} {rest cs : List Char} {kinds : List TokenKind}

/-- A blank is passed as nothing. -/
theorem Scans.blank (h : st.atLineStart = false) {c : Char} (hwhite : isWhite c = true) (hc : c ≠ '\n')
    (hrest : Scans (st.skip [c]) rest kinds) : Scans st (c :: rest) kinds := by
  have hblank : (c = ' ' || c = '\t' || c = '\r') = true := by
    simp only [isWhite, List.contains_iff_mem, List.mem_cons, List.not_mem_nil, or_false, hc] at hwhite
    simpa [or_assoc] using hwhite
  rwa [Scans, scanFrom_inLine h, if_pos hblank]

/-- Between brackets, a line break after a newline is nothing. -/
theorem Scans.lineFeed_again (h : st.atLineStart = false) (hdepth : 0 < st.depth)
    (hprevious : st.previous = some .newline) (hrest : ∀ st', st.After [] st' → Scans st' rest kinds) :
    Scans st ('\n' :: rest) kinds := by
  have hpass : st.passLineFeed = (false, { st with offset := st.offset + 1 }) := by
    rw [ScanState.passLineFeed, if_pos hdepth, if_pos hdepth, hprevious]
    rfl
  rw [Scans, scanFrom_inLine h, if_neg (by decide), if_pos rfl, hpass, if_neg Bool.false_ne_true, map_nil_append]
  exact hrest _ ⟨h, rfl, rfl, rfl, fun hhas => hhas.resolve_left (by rintro ⟨kind, hkind, -⟩; cases hkind)⟩

/-- Between brackets, the first line break is a newline. -/
theorem Scans.lineFeed_inside (h : st.atLineStart = false) (hdepth : 0 < st.depth)
    (hprevious : st.previous ≠ some .newline) (hrest : ∀ st', st.After [.newline] st' → Scans st' rest kinds) :
    Scans st ('\n' :: rest) (.newline :: kinds) := by
  have hpass : st.passLineFeed = (true, { st with offset := st.offset + 1, previous := some .newline }) := by
    rw [ScanState.passLineFeed, if_pos hdepth, if_pos hdepth, bne_iff_ne.2 hprevious]
    rfl
  obtain ⟨tokens, hscan, hkinds⟩ := hrest { st with offset := st.offset + 1, previous := some .newline }
    ⟨h, rfl, rfl, rfl, fun hhas => hhas.resolve_left (by
      rintro ⟨kind, hkind, hne⟩
      exact hne (List.mem_singleton.1 hkind))⟩
  rw [Scans, scanFrom_inLine h, if_neg (by decide), if_pos rfl, hpass, if_pos rfl, hscan]
  exact ⟨_, rfl, congrArg (TokenKind.newline :: ·) hkinds⟩

namespace Passes

/-- Between brackets, white space after a newline is nothing. -/
theorem white_again (h : st.atLineStart = false) (hdepth : 0 < st.depth) (hprevious : st.previous = some .newline)
    (hwhite : IsWhite cs) : Passes (fun _ => True) st cs [] := by
  induction cs generalizing st with
  | nil => exact .nil h
  | cons c cs ih =>
    obtain ⟨hc, hcs⟩ := List.forall_mem_cons.1 hwhite
    intro rest more hrest hscan
    have hgoon : ∀ st', st.After [] st' → Scans st' (cs ++ rest) more := by
      intro st' hst'
      refine ih hst'.atLineStart (hst'.depth ▸ hdepth) (hst'.previous.trans hprevious) hcs rest more hrest fun _ h => ?_
      exact hscan _ (hst'.trans h)
    by_cases hbreak : c = '\n'
    · subst hbreak
      exact .lineFeed_again h hdepth hprevious hgoon
    · exact .blank h hc hbreak (hgoon _ (.skip h [c]))

/-- **Between brackets, white space is one newline or nothing,** as there are line breaks in it or not. -/
theorem white (h : st.atLineStart = false) (hdepth : 0 < st.depth) (hprevious : st.previous ≠ some .newline)
    (hwhite : IsWhite cs) : Passes (fun _ => True) st cs (breaks (cs.contains '\n')) := by
  induction cs generalizing st with
  | nil => exact .nil h
  | cons c cs ih =>
    obtain ⟨hc, hcs⟩ := List.forall_mem_cons.1 hwhite
    intro rest more hrest hscan
    by_cases hbreak : c = '\n'
    · subst hbreak
      refine .lineFeed_inside h hdepth hprevious fun st' hst' => ?_
      refine white_again hst'.atLineStart (hst'.depth ▸ hdepth) (hst'.previous_eq rfl) hcs rest more hrest fun _ h => ?_
      exact hscan _ (hst'.trans h)
    · have hcontains : (c :: cs).contains '\n' = cs.contains '\n' := by
        rw [List.contains_cons, beq_eq_false_iff_ne.2 (Ne.symm hbreak), Bool.false_or]
      rw [hcontains] at hscan ⊢
      have hskip := ScanState.After.skip h [c]
      refine .blank h hc hbreak (ih hskip.atLineStart hdepth hprevious hcs rest more hrest fun st' hst' => ?_)
      exact hscan st' (hskip.trans hst')

end Passes

/-- A text that is passed, and that starts with a token, is read as its tokens. -/
theorem exists_scan_passes {text : String} (hstarts : ∃ c tail, text.toList = c :: tail ∧ Lexeme.StartsToken c tail)
    (hkind : ∃ kind ∈ kinds, kind ≠ .newline) (hdepth : kinds.foldl ScanState.depthAfter 0 = 0)
    (h : ∀ st : ScanState, st.atLineStart = false → st.afterValue = false →
      Passes Glyph.Bounded st text.toList kinds) :
    ∃ tokens, scan text = .ok tokens ∧ tokens.map Token.kind = kinds ++ [.newline, .eof] := by
  refine exists_scan_within hstarts fun st hstart hzero hblocks hvalue => ?_
  rw [← List.append_nil text.toList]
  refine h st hstart hvalue [] [.newline, .eof] Glyph.bounded_nil fun st' hst' => ?_
  exact .finish hst'.atLineStart (by rw [hst'.depth, hzero, hdepth]) (hst'.lineHasTokens (.inl hkind))
    (hst'.blocks.trans hblocks)

end TypedData
