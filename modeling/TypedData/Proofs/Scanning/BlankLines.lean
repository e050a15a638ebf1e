import TypedData.Proofs.Relocation.Tree
import TypedData.Proofs.Scanning.Stream

/-!
# Lines without tokens

A line of blanks, or of blanks and a comment, may be put in or left out wherever a line begins outside literals, also
between brackets: but for their places, the tokens are the same, and so is the failure if there is one
(`scan_blankLine`).

Three facts make the proof.  The scanner does not look at the offset (`withoutPlaces_scanFrom`).  Where a line begins,
it comes out of a blank line as it went into it (`withoutPlaces_line`).  And before that place it does not look at what
stands behind it, since no literal reaches over it (`withoutPlaces_append`).
-/

namespace TypedData

/-! ## Results without places -/

/-- The kinds of the tokens, or the failure, without places. -/
def withoutPlaces (result : Except TokenError (List Token)) : Except TokenError (List TokenKind) :=
  (result.map kinds).mapError (TokenError.relocate fun _ => .zero)

/-- The kinds of tokens, one behind the other. -/
theorem kinds_append (tokens more : List Token) : kinds (tokens ++ more) = kinds tokens ++ kinds more :=
  List.map_append

/-- Tokens in front of a result are in front of it without places, too. -/
theorem withoutPlaces_map (tokens : List Token) (result : Except TokenError (List Token)) :
    withoutPlaces (result.map (tokens ++ ·)) = (withoutPlaces result).map (kinds tokens ++ ·) := by
  cases result with
  | error e => rfl
  | ok more => exact congrArg Except.ok (kinds_append tokens more)

/-- The states differ in their offsets only. -/
def ScanState.Alike (st st' : ScanState) : Prop := { st with offset := 0 } = { st' with offset := 0 }

/-- What a half of a round gives, compared without places. -/
inductive Alike : Except TokenError (List Token × ScanState × List Char) →
    Except TokenError (List Token × ScanState × List Char) → Prop
  | error {e e' : TokenError} : e.relocate (fun _ => .zero) = e'.relocate (fun _ => .zero) →
      Alike (.error e) (.error e')
  | ok {tokens tokens' : List Token} {st st' : ScanState} {rest : List Char} : kinds tokens = kinds tokens' →
      st.Alike st' → Alike (.ok (tokens, st, rest)) (.ok (tokens', st', rest))

namespace ScanState

/-- Of two states that are alike, one is the other with another offset. -/
theorem Alike.exists_offset {st st' : ScanState} (h : st.Alike st') : ∃ n, st' = { st with offset := n } := by
  obtain ⟨offset, blocks, depth, atLineStart, lineHasTokens, previous⟩ := st
  obtain ⟨offset', blocks', depth', atLineStart', lineHasTokens', previous'⟩ := st'
  cases h
  exact ⟨offset', rfl⟩

end ScanState

/-- The same blanks close and open the same blocks at every place. -/
theorem alike_indentBlocks (span span' : Span) (blocks : List Indentation) (blanks : List Char) :
    ((indentBlocks span blocks blanks).map fun found => (kinds found.1, found.2)).mapError
        (TokenError.relocate fun _ => .zero) =
      ((indentBlocks span' blocks blanks).map fun found => (kinds found.1, found.2)).mapError
        (TokenError.relocate fun _ => .zero) := by
  have hunit : (∃ unit, ∀ span, indentUnit span blanks = .ok unit) ∨
      ∀ span, indentUnit span blanks = .error (.mixedIndentation span) := by
    unfold indentUnit
    split
    · exact .inr fun _ => rfl
    all_goals exact .inl ⟨_, fun _ => rfl⟩
  unfold indentBlocks
  rcases hunit with ⟨unit, hunit⟩ | hunit
  · rw [hunit span, hunit span']
    dsimp only [bind, Except.bind]
    split
    · split
      · split <;> rfl
      · rfl
      · rfl
    · split
      · rfl
      · split
        · rfl
        · refine congrArg Except.ok (Prod.ext ?_ rfl)
          unfold kinds
          simp only [List.map_map]
          rfl
  · rw [hunit span, hunit span']
    rfl

/-- A lexeme is the same at every place, and so is a failure. -/
theorem alike_read (start start' : Nat) (afterValue : Bool) (c : Char) (rest : List Char) :
    (Lexeme.read start afterValue c rest).mapError (TokenError.relocate fun _ => .zero) =
      (Lexeme.read start' afterValue c rest).mapError (TokenError.relocate fun _ => .zero) := by
  have hnumber : ∀ sign rest, (Lexeme.number start sign rest).mapError (TokenError.relocate fun _ => .zero) =
      (Lexeme.number start' sign rest).mapError (TokenError.relocate fun _ => .zero) := by
    intro sign rest
    unfold Lexeme.number
    dsimp only
    split <;> rfl
  unfold Lexeme.read
  split
  · unfold Lexeme.quotation
    split <;> rfl
  split
  · exact hnumber ..
  split
  · rfl
  split
  · exact hnumber ..
  · split <;> rfl

/-! ## The offset does not matter -/

variable {st st' : ScanState}

/-- States that are alike find alike layouts. -/
theorem alike_readLayout (h : st.Alike st') (text : List Char) : Alike (readLayout st text) (readLayout st' text) := by
  obtain ⟨n, rfl⟩ := h.exists_offset
  unfold readLayout
  dsimp only
  split
  · unfold readIndentation
    dsimp only
    split
    · exact .ok rfl rfl
    · have hblocks := alike_indentBlocks ⟨st.offset, (st.skip (text.takeWhile isIndentChar)).offset⟩
        ⟨n, (({ st with offset := n } : ScanState).skip (text.takeWhile isIndentChar)).offset⟩ st.blocks
        (text.takeWhile isIndentChar)
      generalize indentBlocks _ st.blocks _ = found at hblocks ⊢
      generalize indentBlocks _ st.blocks _ = found' at hblocks ⊢
      match found, found', hblocks with
      | .error e, .error e', hblocks => exact .error (Except.error.inj hblocks)
      | .ok (tokens, blocks), .ok (tokens', blocks'), hblocks =>
        obtain ⟨hkinds, rfl⟩ := Prod.mk.inj (Except.ok.inj hblocks)
        have hlast : tokens.getLast?.map Token.kind = tokens'.getLast?.map Token.kind := by
          rw [← List.getLast?_map, ← List.getLast?_map]
          exact congrArg List.getLast? hkinds
        refine .ok hkinds ?_
        unfold ScanState.Alike
        dsimp only
        rw [hlast]
        rfl
  · exact .ok rfl rfl

/-- What is made of a lexeme is alike where lexemes are, if it is made alike. -/
theorem alike_map {found found' : Except TokenError Lexeme} {f f' : Lexeme → List Token × ScanState × List Char}
    (h : found.mapError (TokenError.relocate fun _ => .zero) = found'.mapError (TokenError.relocate fun _ => .zero))
    (hf : ∀ lexeme, Alike (.ok (f lexeme)) (.ok (f' lexeme))) : Alike (found.map f) (found'.map f') := by
  cases found with
  | error e =>
    cases found' with
    | error e' => exact .error (Except.error.inj h)
    | ok lexeme' => cases h
  | ok lexeme =>
    cases found' with
    | error e' => cases h
    | ok lexeme' =>
      obtain rfl := Except.ok.inj h
      exact hf lexeme

/-- A line feed makes one newline or none. -/
theorem kinds_newlines (st : ScanState) : kinds st.newlines = if st.passLineFeed.1 then [.newline] else [] := by
  unfold ScanState.newlines
  split <;> rfl

/-- States that are alike pass a character alike. -/
theorem alike_passNext (h : st.Alike st') (c : Char) (rest : List Char) :
    Alike (st.passNext c rest) (st'.passNext c rest) := by
  obtain ⟨n, rfl⟩ := h.exists_offset
  unfold ScanState.passNext
  split
  · exact .ok rfl rfl
  split
  · refine .ok ?_ ?_
    · rw [kinds_newlines, kinds_newlines]
      rfl
    · unfold ScanState.passLineFeed ScanState.Alike
      dsimp only
      split <;> rfl
  split
  · exact .ok rfl rfl
  · exact alike_map (alike_read ..) fun _ => .ok rfl rfl

/-- States that are alike end a text with the same kinds of tokens. -/
theorem kinds_finish (h : st.Alike st') : kinds (finish st) = kinds (finish st') := by
  obtain ⟨n, rfl⟩ := h.exists_offset
  unfold finish kinds
  dsimp only
  simp only [List.map_append, List.map_map]
  split <;> rfl

/-- Alike first halves of a round lead to the same tokens, if alike states do on what is left of the text. -/
theorem withoutPlaces_of_alike {text text' : List Char} (h : Alike (readLayout st text) (readLayout st' text'))
    (hlater : ∀ {next next' : ScanState} {rest : List Char}, next.Alike next' → rest.length < text.length →
      withoutPlaces (scanFrom next rest) = withoutPlaces (scanFrom next' rest)) :
    withoutPlaces (scanFrom st text) = withoutPlaces (scanFrom st' text') := by
  rw [scanFrom_eq, scanFrom_eq]
  generalize hfirst : readLayout st text = first at h
  generalize readLayout st' text' = first' at h
  cases h with
  | error h => exact congrArg Except.error h
  | @ok tokens tokens' next next' rest hkinds hnext =>
    have hle := (aligns_of_readLayout hfirst).length_le
    cases rest with
    | nil =>
      change Except.ok (kinds (tokens ++ finish next)) = Except.ok (kinds (tokens' ++ finish next'))
      rw [kinds_append, kinds_append, hkinds, kinds_finish hnext]
    | cons c rest =>
      have hpass := alike_passNext hnext c rest
      change withoutPlaces ((next.passNext c rest).bind _) = withoutPlaces ((next'.passNext c rest).bind _)
      generalize hsecond : next.passNext c rest = second at hpass
      generalize next'.passNext c rest = second' at hpass
      cases hpass with
      | error h => exact congrArg Except.error h
      | @ok more more' last last' rest' hmore hlast =>
        have hlt := (move_of_passNext hsecond).length_lt
        change withoutPlaces ((scanFrom last rest').map (tokens ++ more ++ ·)) =
          withoutPlaces ((scanFrom last' rest').map (tokens' ++ more' ++ ·))
        rw [withoutPlaces_map, withoutPlaces_map, kinds_append, kinds_append, hkinds, hmore,
          hlater hlast (Nat.lt_of_lt_of_le hlt hle)]

/-- **The scanner does not look at the offset:** without places, the tokens are the same. -/
theorem withoutPlaces_scanFrom (h : st.Alike st') (text : List Char) :
    withoutPlaces (scanFrom st text) = withoutPlaces (scanFrom st' text) := by
  induction hlength : text.length using Nat.strongRecOn generalizing st st' text with
  | ind n ih =>
    exact withoutPlaces_of_alike (alike_readLayout h text) fun hnext hlt => ih _ (hlength ▸ hlt) hnext _ rfl

/-- Where two texts show the same layout, the same tokens follow. -/
theorem withoutPlaces_of_readLayout {text text' : List Char} (h : Alike (readLayout st text) (readLayout st' text')) :
    withoutPlaces (scanFrom st text) = withoutPlaces (scanFrom st' text') :=
  withoutPlaces_of_alike h fun hnext _ => withoutPlaces_scanFrom hnext _

/-- What makes no token, and leaves the state as it is, may be passed. -/
theorem withoutPlaces_of_passNext {next last : ScanState} {text rest : List Char} {c : Char}
    (hlayout : readLayout st text = .ok ([], next, c :: rest)) {rest' : List Char}
    (hpass : next.passNext c rest = .ok ([], last, rest')) (hlast : last.Alike st') :
    withoutPlaces (scanFrom st text) = withoutPlaces (scanFrom st' rest') := by
  rw [scanFrom_eq, hlayout]
  change withoutPlaces ((next.passNext c rest).bind _) = _
  rw [hpass]
  change withoutPlaces ((scanFrom last rest').map ([] ++ [] ++ ·)) = _
  rw [withoutPlaces_map, withoutPlaces_scanFrom hlast]
  cases withoutPlaces (scanFrom st' rest') <;> rfl

/-! ## A line without tokens -/

/-- A line of blanks that may end with a comment, and the line feed that ends it. -/
def IsBlankLine (line : List Char) : Prop :=
  ∃ blanks comment, line = blanks ++ comment ++ ['\n'] ∧ (∀ c ∈ blanks, c = ' ' ∨ c = '\t' ∨ c = '\r') ∧
    (comment = [] ∨ ∃ text, comment = '/' :: '/' :: text ∧ '\n' ∉ text)

/-- The state where a line begins: outside brackets no token has been read in the line, and between brackets the line
feed before it has made its newline. -/
def ScanState.AtBreak (st : ScanState) : Prop :=
  if st.depth = 0 then st.atLineStart = true ∧ st.lineHasTokens = false else st.previous = some .newline

namespace ScanState

/-- A line begins in every state that is like one where a line begins. -/
theorem AtBreak.of_alike (h : st.AtBreak) (hnext : st'.Alike st) : st'.AtBreak := by
  obtain ⟨n, rfl⟩ := hnext.exists_offset
  exact h

/-- Where a line begins, a line feed makes no newline and leaves the state as it is. -/
theorem AtBreak.passLineFeed (h : st.AtBreak) : st.passLineFeed.1 = false ∧ st.passLineFeed.2.Alike st := by
  obtain ⟨offset, blocks, depth, atLineStart, lineHasTokens, previous⟩ := st
  unfold AtBreak at h
  unfold ScanState.passLineFeed Alike
  dsimp only at h ⊢
  split at h
  · rename_i hdepth
    obtain ⟨rfl, rfl⟩ := h
    subst hdepth
    exact ⟨rfl, rfl⟩
  · rename_i hdepth
    subst h
    rw [if_pos (Nat.pos_of_ne_zero hdepth), if_pos (Nat.pos_of_ne_zero hdepth)]
    exact ⟨rfl, rfl⟩

/-- A line begins behind every line feed. -/
theorem atBreak_passLineFeed (st : ScanState) : st.passLineFeed.2.AtBreak := by
  unfold AtBreak
  rw [passLineFeed_depth]
  split
  · rename_i hdepth
    exact lineHasTokens_passLineFeed hdepth
  · rename_i hdepth
    rw [passLineFeed_previous]
    split
    · rfl
    · rename_i hmarks
      unfold ScanState.passLineFeed at hmarks
      dsimp only at hmarks
      rw [if_pos (Nat.pos_of_ne_zero hdepth)] at hmarks
      simpa using hmarks

end ScanState

/-- Outside a line with tokens there is no layout before what is no blank. -/
theorem readLayout_of_isLineBlank (st : ScanState) (c : Char) (text : List Char)
    (hblank : isLineBlank (c :: text) = true)
    (hc : isIndentChar c = false) : ∃ next, readLayout st (c :: text) = .ok ([], next, c :: text) ∧ next.Alike st := by
  unfold readLayout
  split
  · have hne : ¬ isIndentChar c = true := Bool.eq_false_iff.1 hc
    unfold readIndentation
    dsimp only
    rw [List.dropWhile_cons_of_neg hne, if_pos hblank, List.takeWhile_cons_of_neg hne]
    exact ⟨_, rfl, rfl⟩
  · exact ⟨st, rfl, rfl⟩

/-- The line feed at the end of a line without tokens makes no token. -/
theorem withoutPlaces_lineFeed (h : st.AtBreak) (after : List Char) :
    withoutPlaces (scanFrom st ('\n' :: after)) = withoutPlaces (scanFrom st after) := by
  obtain ⟨next, hlayout, hnext⟩ := readLayout_of_isLineBlank st '\n' after rfl rfl
  obtain ⟨hmarks, halike⟩ := (h.of_alike hnext).passLineFeed
  have hpass : next.passNext '\n' after = .ok (next.newlines, next.passLineFeed.2, after) := rfl
  rw [ScanState.newlines, hmarks] at hpass
  exact withoutPlaces_of_passNext hlayout hpass (halike.trans hnext)

/-- Neither does a comment, with the line feed. -/
theorem withoutPlaces_comment (h : st.AtBreak) {text : List Char} (htext : '\n' ∉ text) (after : List Char) :
    withoutPlaces (scanFrom st ('/' :: '/' :: (text ++ '\n' :: after))) = withoutPlaces (scanFrom st after) := by
  obtain ⟨next, hlayout, hnext⟩ := readLayout_of_isLineBlank st '/' ('/' :: (text ++ '\n' :: after)) rfl rfl
  have hall : ∀ c ∈ text, (c != '\n') = true := fun c hc => bne_iff_ne.2 fun h => htext (h ▸ hc)
  have hdrop : ('/' :: (text ++ '\n' :: after)).dropWhile (· != '\n') = '\n' :: after := by
    rw [List.dropWhile_cons_of_pos (by decide), List.dropWhile_append_of_pos hall,
      List.dropWhile_cons_of_neg (by decide)]
  have hpass : next.passNext '/' ('/' :: (text ++ '\n' :: after)) = .ok ([], next.skip _, _) := rfl
  rw [hdrop] at hpass
  rw [withoutPlaces_of_passNext hlayout hpass hnext, withoutPlaces_lineFeed h]

/-- Blanks at the beginning of a line without tokens are no layout. -/
theorem isLineBlank_dropWhile {blanks tail : List Char} (hblanks : ∀ c ∈ blanks, c = ' ' ∨ c = '\t' ∨ c = '\r')
    (htail : isLineBlank tail = true) (hindent : ∀ c ∈ tail.head?, isIndentChar c = false) :
    isLineBlank ((blanks ++ tail).dropWhile isIndentChar) = true := by
  induction blanks with
  | nil =>
    cases tail with
    | nil => rfl
    | cons c tail => rwa [List.nil_append, List.dropWhile_cons_of_neg (by simp [hindent c rfl])]
  | cons c blanks ih =>
    obtain ⟨hc, htext⟩ := List.forall_mem_cons.1 hblanks
    rcases hc with rfl | rfl | rfl
    · exact ih htext
    · exact ih htext
    · rfl

/-- A blank at the beginning of a line without tokens may be passed. -/
theorem withoutPlaces_blank {c : Char} (hc : c = ' ' ∨ c = '\t' ∨ c = '\r') {text : List Char}
    (hblank : isLineBlank (text.dropWhile isIndentChar) = true) :
    withoutPlaces (scanFrom st (c :: text)) = withoutPlaces (scanFrom st text) := by
  have hpass : ∀ next : ScanState, next.passNext c text = .ok ([], next.skip [c], text) := fun next => by
    unfold ScanState.passNext
    rw [if_pos (by simpa [or_assoc] using hc)]
  by_cases hstart : (st.atLineStart && st.depth = 0) = true
  · by_cases hindent : isIndentChar c = true
    · -- both texts begin with blanks before the same rest of the line
      refine withoutPlaces_of_readLayout ?_
      have hrest : (c :: text).dropWhile isIndentChar = text.dropWhile isIndentChar :=
        List.dropWhile_cons_of_pos hindent
      unfold readLayout
      rw [if_pos hstart, if_pos hstart]
      unfold readIndentation
      dsimp only
      rw [hrest, if_pos hblank, if_pos hblank]
      exact .ok rfl rfl
    · obtain rfl : c = '\r' := by
        rcases hc with rfl | rfl | rfl
        · exact absurd rfl hindent
        · exact absurd rfl hindent
        · rfl
      obtain ⟨next, hlayout, hnext⟩ := readLayout_of_isLineBlank st '\r' text rfl rfl
      exact withoutPlaces_of_passNext hlayout (hpass next) hnext
  · have hlayout : readLayout st (c :: text) = .ok ([], st, c :: text) := if_neg hstart
    exact withoutPlaces_of_passNext hlayout (hpass st) rfl

/-- **The scanner comes out of a line without tokens as it went into it.** -/
theorem withoutPlaces_line (h : st.AtBreak) {line : List Char} (hline : IsBlankLine line) (after : List Char) :
    withoutPlaces (scanFrom st (line ++ after)) = withoutPlaces (scanFrom st after) := by
  obtain ⟨blanks, comment, rfl, hblanks, hcomment⟩ := hline
  have htail : isLineBlank (comment ++ '\n' :: after) = true ∧
      (∀ c ∈ (comment ++ '\n' :: after).head?, isIndentChar c = false) ∧
      withoutPlaces (scanFrom st (comment ++ '\n' :: after)) = withoutPlaces (scanFrom st after) := by
    rcases hcomment with rfl | ⟨text, rfl, htext⟩
    · exact ⟨rfl, by rintro c ⟨⟩; rfl, withoutPlaces_lineFeed h after⟩
    · exact ⟨rfl, by rintro c ⟨⟩; rfl, withoutPlaces_comment h htext after⟩
  obtain ⟨hblank, hindent, hcomment⟩ := htail
  rw [List.append_assoc, List.append_assoc, List.singleton_append, ← hcomment]
  induction blanks with
  | nil => rfl
  | cons c blanks ih =>
    obtain ⟨hc, hblanks⟩ := List.forall_mem_cons.1 hblanks
    rw [List.cons_append, withoutPlaces_blank hc (isLineBlank_dropWhile hblanks hblank hindent), ih hblanks]

/-! ## What stands behind a line feed -/

/-- The result of a half of a round, with more text behind it. -/
def extendRest (more : List Char) (found : List Token × ScanState × List Char) : List Token × ScanState × List Char :=
  (found.1, found.2.1, found.2.2 ++ more)

/-- A line is blank if its end or a comment comes first. -/
theorem isLineBlank_cons_cons (c d : Char) (rest : List Char) :
    isLineBlank (c :: d :: rest) = (c = '\n' || c = '\r' || (c = '/' && d = '/')) := by
  unfold isLineBlank
  split <;> simp_all

/-- Whether a line is blank is decided before the next line feed. -/
theorem isLineBlank_append {text : List Char} (h : '\n' ∈ text) (more : List Char) :
    isLineBlank (text ++ more) = isLineBlank text := by
  match text, h with
  | [c], h =>
    obtain rfl := List.mem_singleton.1 h
    rfl
  | c :: d :: rest, _ => rw [List.cons_append, List.cons_append, isLineBlank_cons_cons, isLineBlank_cons_cons]

/-- The layout, if it is decided before a text, does not depend on it. -/
theorem readLayout_extend (text : List Char) {more : List Char} (hmore : more <:+ (text ++ more).dropWhile isIndentChar)
    (hblank : isLineBlank (text.dropWhile isIndentChar ++ more) = isLineBlank (text.dropWhile isIndentChar)) :
    readLayout st (text ++ more) = (readLayout st text).map (extendRest more) := by
  obtain ⟨-, htake, hdrop⟩ := run_of_suffix text hmore
  unfold readLayout
  split
  · unfold readIndentation
    dsimp only
    rw [htake, hdrop, hblank]
    split
    · rfl
    · cases indentBlocks ⟨st.offset, (st.skip (text.takeWhile isIndentChar)).offset⟩ st.blocks
        (text.takeWhile isIndentChar) <;> rfl
  · rfl

/-- The layout is decided before the next line feed. -/
theorem readLayout_append {text : List Char} (h : '\n' ∈ text) (more : List Char) :
    readLayout st (text ++ more) = (readLayout st text).map (extendRest more) := by
  refine readLayout_extend text ?_ (isLineBlank_append (mem_dropWhile_of_mem rfl h) more)
  rw [dropWhile_append_of_mem rfl h]
  exact List.suffix_append ..

/-- A literal is decided where it ends. -/
theorem Lexeme.quotation_append (start : Nat) {rest : List Char} (h : Region.literal.across rest = .plain)
    (more : List Char) : quotation start (rest ++ more) = (quotation start rest).map (extend more) := by
  unfold quotation
  rw [Quotation.read?_append h]
  cases Quotation.read? rest <;> rfl

/-- What is passed is decided in a text that ends with a line feed outside literals. -/
theorem passNext_append {r : Region} {c : Char} {rest : List Char} (hout : r.Outside (c :: rest))
    (hregion : r.across (c :: rest) = .plain) (hlast : (c :: rest).getLast? = some '\n') (more : List Char) :
    st.passNext c (rest ++ more) = (st.passNext c rest).map (extendRest more) := by
  by_cases hbreak : c = '\n'
  · subst hbreak
    rfl
  have hrest : '\n' ∈ rest := (List.mem_cons.1 (List.mem_of_getLast? hlast)).resolve_left (Ne.symm hbreak)
  have hhead : (rest ++ more).head? = rest.head? := by
    rw [List.head?_append, Option.or_of_isSome (List.isSome_head?.2 (List.ne_nil_of_mem hrest))]
  have hread : Lexeme.read st.offset st.afterValue c (rest ++ more) =
      (Lexeme.read st.offset st.afterValue c rest).map (Lexeme.extend more) := by
    by_cases hquote : c = '"'
    · subst hquote
      refine Lexeme.quotation_append st.offset ?_ more
      change (r.after '"').across rest = .plain at hregion
      rwa [hout.after_quote] at hregion
    · exact Lexeme.read_append st.offset st.afterValue hquote hrest more
  unfold ScanState.passNext
  rw [hhead, hread, takeWhile_append_of_mem (by decide) hrest, dropWhile_append_of_mem (by decide) hrest]
  split
  · rfl
  split
  · rfl
  · cases Lexeme.read st.offset st.afterValue c rest <;> rfl

/-- The layout is made of blanks. -/
theorem Aligns.mem_rest {text rest : List Char} {tokens : List Token} (h : Aligns st text tokens st' rest) {c : Char}
    (hc : isIndentChar c = false) (hmem : c ∈ text) : c ∈ rest := by
  have hblank : ∀ {blanks : List Char}, (∀ c ∈ blanks, isIndentChar c = true) → c ∈ blanks ++ rest → c ∈ rest :=
    fun hblanks hmem => (List.mem_append.1 hmem).resolve_left fun hmem =>
      Bool.false_ne_true (hc.symm.trans (hblanks _ hmem))
  cases h with
  | none => exact hmem
  | blank hblanks | opens _ hblanks | closes hblanks => exact hblank hblanks hmem

/-- Where a text ends with a line feed, that is what is passed last. -/
theorem Move.atBreak {text rest : List Char} {tokens : List Token} (h : Move st text tokens st' rest)
    (hrest : rest = []) (hlast : text.getLast? = some '\n') : st'.AtBreak := by
  have hmem := List.mem_of_getLast? hlast
  cases h with
  | blank hc =>
    subst hrest
    obtain rfl := List.mem_singleton.1 hmem
    exact absurd hc (by decide)
  | lineFeed => exact st.atBreak_passLineFeed
  | comment hline _ =>
    rw [hrest, List.append_nil] at hmem
    simp [hline] at hmem
  | @lexeme c rest lexeme hbreak _ hread =>
    have htaken := (Lexeme.read_splits hread).append_eq
    rw [hrest, List.append_nil] at htaken
    rw [← htaken] at hmem hlast
    cases Lexeme.found_of_read hread with
    | literal hq =>
      rw [List.getLast?_cons, Lexeme.Quotation.getLast?_taken hq] at hlast
      cases hlast
    | slash => exact absurd (List.mem_singleton.1 hmem) (by decide)
    | inert _ hinert _ => exact absurd rfl (hinert _ hmem).1

/-- What stands behind the place where a line begins matters no more than it does at the beginning of a line. -/
theorem withoutPlaces_append {r : Region} {text more more' : List Char} (hout : r.Outside text)
    (hregion : r.across text = .plain) (hlast : text.getLast? = some '\n')
    (hmore : ∀ next : ScanState, next.AtBreak →
      withoutPlaces (scanFrom next more) = withoutPlaces (scanFrom next more')) :
    withoutPlaces (scanFrom st (text ++ more)) = withoutPlaces (scanFrom st (text ++ more')) := by
  induction hlength : text.length using Nat.strongRecOn generalizing st r text with
  | ind n ih =>
    have hmem : '\n' ∈ text := List.mem_of_getLast? hlast
    rw [scanFrom_eq, scanFrom_eq, readLayout_append hmem, readLayout_append hmem]
    cases hfirst : readLayout st text with
    | error e => rfl
    | ok first =>
      obtain ⟨tokens, next, rest⟩ := first
      have halign := aligns_of_readLayout hfirst
      have hrest := List.ne_nil_of_mem (halign.mem_rest rfl hmem)
      have hle := halign.length_le
      obtain ⟨blanks, rfl, hnext⟩ := halign.outside hout
      rw [Region.across_append] at hregion
      rw [List.getLast?_append_of_ne_nil _ hrest] at hlast
      obtain ⟨c, rest, rfl⟩ := List.exists_cons_of_ne_nil hrest
      change withoutPlaces ((next.passNext c (rest ++ more)).bind _) =
        withoutPlaces ((next.passNext c (rest ++ more')).bind _)
      rw [passNext_append hnext hregion hlast, passNext_append hnext hregion hlast]
      cases hsecond : next.passNext c rest with
      | error e => rfl
      | ok second =>
        obtain ⟨others, last, rest'⟩ := second
        have hmove := move_of_passNext hsecond
        have hlt := hmove.length_lt
        obtain ⟨piece, hpiece, hlater⟩ := hmove.outside hnext
        change withoutPlaces ((scanFrom last (rest' ++ more)).map (tokens ++ others ++ ·)) =
          withoutPlaces ((scanFrom last (rest' ++ more')).map (tokens ++ others ++ ·))
        rw [withoutPlaces_map, withoutPlaces_map]
        refine congrArg (Except.map _) ?_
        -- the round has passed the last line feed, or what is left of the text still ends with it
        by_cases hend : rest' = []
        · subst hend
          exact hmore last (hmove.atBreak rfl hlast)
        · rw [hpiece, Region.across_append] at hregion
          rw [hpiece, List.getLast?_append_of_ne_nil _ hend] at hlast
          exact ih _ (by omega) hlater hregion hlast rfl

/-- **Lines without tokens do not count.**  Put in or left out at the beginning of a text or behind a line feed outside
literals, a line of blanks, perhaps with a comment, changes neither the tokens nor the failure, but for their places. -/
theorem scan_blankLine {before line after : String} (hline : IsBlankLine line.toList)
    (hbreak : before = "" ∨ before.toList.getLast? = some '\n') (hregion : Region.behind before.toList = .plain) :
    withoutPlaces (scan (before ++ line ++ after)) = withoutPlaces (scan (before ++ after)) := by
  unfold scan
  rw [String.toList_append, String.toList_append, String.toList_append, List.append_assoc]
  rcases hbreak with rfl | hlast
  · have hinitial : ScanState.initial.AtBreak := ⟨rfl, rfl⟩
    exact withoutPlaces_line hinitial hline after.toList
  · have hout : Region.plain.Outside before.toList := trivial
    exact withoutPlaces_append hout hregion hlast fun next hnext => withoutPlaces_line hnext hline after.toList

/-- A comment with a quotation mark, behind blanks and between brackets. -/
theorem scan_blankLine_bracketed : IsBlankLine " \t\r// \"\n".toList ∧ (scan "a: [\n1]").isOk = true ∧
    withoutPlaces (scan ("a: [\n" ++ " \t\r// \"\n" ++ "1]")) = withoutPlaces (scan ("a: [\n" ++ "1]")) := by
  have hline : IsBlankLine " \t\r// \"\n".toList :=
    ⟨[' ', '\t', '\r'], ['/', '/', ' ', '"'], rfl, by simp, .inr ⟨[' ', '"'], rfl, by simp⟩⟩
  exact ⟨hline, by decide +kernel, scan_blankLine hline (.inr rfl) rfl⟩

end TypedData
