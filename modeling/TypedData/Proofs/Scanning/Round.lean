import TypedData.Proofs.Result
import TypedData.Token.Scan

/-!
# Scanning in rounds

The scanner goes in rounds.  A round reads the layout at the beginning of a line and then passes one thing, which is a
blank, a line feed, a comment or a lexeme (`scanFrom_eq`).  Each half of a round can do but a few things: the layout
opens a block or closes some (`Aligns`), and what is passed gives one token at most (`Move`).

What both halves preserve holds where the text ends (`exists_of_scanFrom`), so a fact on the tokens of a text is proved
by cases on `Aligns` and `Move`.
-/

namespace TypedData

namespace ScanState

/-- The newline of a line feed, where it makes one. -/
def newlines (st : ScanState) : List Token :=
  if st.passLineFeed.1 then [⟨.newline, ⟨st.offset, st.passLineFeed.2.offset⟩⟩] else []

/-- Passes the first thing of a text: its tokens, the state behind it and the text behind it. -/
def passNext (st : ScanState) (c : Char) (rest : List Char) :
    Except TokenError (List Token × ScanState × List Char) :=
  if c = ' ' || c = '\t' || c = '\r' then .ok ([], st.skip [c], rest)
  else if c = '\n' then .ok (st.newlines, st.passLineFeed.2, rest)
  else if c = '/' && rest.head? = some '/' then
    .ok ([], st.skip (c :: rest.takeWhile (· != '\n')), rest.dropWhile (· != '\n'))
  else
    (Lexeme.read st.offset st.afterValue c rest).map fun lexeme =>
      ([⟨lexeme.kind, ⟨st.offset, (st.pass lexeme).offset⟩⟩], st.pass lexeme, lexeme.rest)

/-- A line feed moves the offset by one. -/
@[simp] theorem passLineFeed_offset (st : ScanState) : st.passLineFeed.2.offset = st.offset + 1 := by
  unfold passLineFeed
  dsimp only
  split <;> rfl

/-- A line feed leaves the depth as it is. -/
@[simp] theorem passLineFeed_depth (st : ScanState) : st.passLineFeed.2.depth = st.depth := by
  unfold passLineFeed
  dsimp only
  split <;> rfl

/-- A line feed leaves the blocks as they are. -/
@[simp] theorem passLineFeed_blocks (st : ScanState) : st.passLineFeed.2.blocks = st.blocks := by
  unfold passLineFeed
  dsimp only
  split <;> rfl

/-- The token before a line feed is the newline that it makes, if it makes one. -/
theorem passLineFeed_previous (st : ScanState) :
    st.passLineFeed.2.previous = if st.passLineFeed.1 then some .newline else st.previous := by
  unfold passLineFeed
  dsimp only
  split <;> rfl

/-- Outside brackets a line begins. -/
theorem lineHasTokens_passLineFeed {st : ScanState} (h : st.depth = 0) :
    st.passLineFeed.2.atLineStart = true ∧ st.passLineFeed.2.lineHasTokens = false := by
  unfold passLineFeed
  rw [h]
  exact ⟨rfl, rfl⟩

end ScanState

/-- **A round of the scanner:** the layout, and then the first thing of the text. -/
theorem scanFrom_eq (st : ScanState) (text : List Char) : scanFrom st text =
    (readLayout st text).bind fun (tokens, st', rest) =>
      match rest with
      | [] => .ok (tokens ++ finish st')
      | c :: rest => (st'.passNext c rest).bind fun (more, next, rest) =>
          (scanFrom next rest).map (tokens ++ more ++ ·) := by
  rw [scanFrom]
  split
  · rename_i hl
    rw [hl]
    rfl
  · rename_i hl
    rw [hl]
    rfl
  · rename_i tokens st' c rest hl
    refine Eq.trans ?_ (congrArg (Except.bind · _) hl.symm)
    change _ = (st'.passNext c rest).bind _
    have hdrop : rest.drop (rest.takeWhile (· != '\n')).length = rest.dropWhile (· != '\n') := by
      refine (List.append_right_inj (rest.takeWhile (· != '\n'))).1 ?_
      rw [List.takeWhile_append_dropWhile]
      exact List.prefix_iff_eq_append.1 (List.takeWhile_prefix _)
    unfold ScanState.passNext
    dsimp only
    rw [hdrop]
    split
    · exact congrArg (Except.map · _) (by rw [List.append_nil])
    · split
      · rfl
      · split
        · exact congrArg (Except.map · _) (by rw [List.append_nil])
        · split
          · rename_i hr
            rw [hr]
            rfl
          · rename_i lexeme hr
            rw [hr]
            exact congrArg (Except.map · _) (funext fun more => List.append_cons ..)

/-! ## What a round can do -/

/-- What the layout may be of a text: its tokens, the state behind it and the text behind it. -/
inductive Aligns (st : ScanState) : List Char → List Token → ScanState → List Char → Prop
  /-- There is none within a line and between brackets. -/
  | none {text : List Char} : Aligns st text [] st text
  /-- There is none before a line without tokens. -/
  | blank {blanks rest : List Char} : (∀ c ∈ blanks, isIndentChar c = true) →
      Aligns st (blanks ++ rest) [] (st.skip blanks) rest
  /-- A block opens. -/
  | opens {blanks rest : List Char} (block : Indentation) : (∀ c ∈ blanks, isIndentChar c = true) → st.depth = 0 →
      Aligns st (blanks ++ rest) [⟨.indent, ⟨st.offset, (st.skip blanks).offset⟩⟩]
        { st.skip blanks with blocks := block :: st.blocks, atLineStart := false, previous := some .indent } rest
  /-- Some blocks close, or none. -/
  | closes {blanks rest : List Char} {closed remaining : List Indentation} :
      (∀ c ∈ blanks, isIndentChar c = true) → st.depth = 0 → st.blocks = closed ++ remaining →
      Aligns st (blanks ++ rest)
        (closed.map fun _ => ⟨.dedent, ⟨(st.skip blanks).offset, (st.skip blanks).offset⟩⟩)
        { st.skip blanks with
          blocks := remaining
          atLineStart := false
          previous := if closed = [] then st.previous else some .dedent } rest

/-- An indentation opens one block, or closes some. -/
theorem indentBlocks_cases {span : Span} {blocks blocks' : List Indentation} {blanks : List Char}
    {tokens : List Token} (h : indentBlocks span blocks blanks = .ok (tokens, blocks')) :
    (∃ block, tokens = [⟨.indent, span⟩] ∧ blocks' = block :: blocks) ∨
      ∃ closed, blocks = closed ++ blocks' ∧ tokens = closed.map fun _ => ⟨.dedent, ⟨span.stop, span.stop⟩⟩ := by
  unfold indentBlocks at h
  obtain ⟨unit, -, h⟩ := bind_eq_ok_iff.1 h
  dsimp only at h
  split at h
  · split at h
    · split at h
      · cases h
      · cases h
        exact .inl ⟨_, rfl, rfl⟩
    · cases h
      exact .inl ⟨_, rfl, rfl⟩
    · cases h
      exact .inr ⟨[], rfl, rfl⟩
  · split at h
    · cases h
    · split at h
      · cases h
      · cases h
        exact .inr ⟨_, List.takeWhile_append_dropWhile.symm, rfl⟩

/-- A layout that is read aligns. -/
theorem aligns_of_readLayout {st st' : ScanState} {text rest : List Char} {tokens : List Token}
    (h : readLayout st text = .ok (tokens, st', rest)) : Aligns st text tokens st' rest := by
  have hblanks : ∀ c ∈ text.takeWhile isIndentChar, isIndentChar c = true := List.all_eq_true.1 List.all_takeWhile
  have htext : text.takeWhile isIndentChar ++ text.dropWhile isIndentChar = text := List.takeWhile_append_dropWhile
  unfold readLayout at h
  split at h
  · rename_i hstart
    have hdepth : st.depth = 0 := of_decide_eq_true (Bool.and_eq_true_iff.1 hstart).2
    unfold readIndentation at h
    dsimp only at h
    split at h
    · cases h
      have hlayout : Aligns st _ _ _ _ := @Aligns.blank st _ (text.dropWhile isIndentChar) hblanks
      rwa [htext] at hlayout
    · obtain ⟨⟨tokens, blocks⟩, hfound, h⟩ := bind_eq_ok_iff.1 h
      cases h
      rcases indentBlocks_cases hfound with ⟨block, rfl, rfl⟩ | ⟨closed, hclosed, rfl⟩
      · have hlayout : Aligns st _ _ _ _ := @Aligns.opens st _ (text.dropWhile isIndentChar) block hblanks hdepth
        rwa [htext] at hlayout
      · have hlayout : Aligns st _ _ _ _ :=
          @Aligns.closes st _ (text.dropWhile isIndentChar) _ _ hblanks hdepth hclosed
        rw [htext] at hlayout
        cases closed with
        | nil => exact hlayout
        | cons block closed =>
          rw [List.getLast?_map, List.getLast?_eq_some_getLast (List.cons_ne_nil block closed)]
          exact hlayout
  · cases h
    exact .none

/-- What may be passed of a text: its tokens, the state behind it and the text behind it. -/
inductive Move (st : ScanState) : List Char → List Token → ScanState → List Char → Prop
  | blank {c : Char} {rest : List Char} : c = ' ' ∨ c = '\t' ∨ c = '\r' → Move st (c :: rest) [] (st.skip [c]) rest
  | lineFeed {rest : List Char} : Move st ('\n' :: rest) st.newlines st.passLineFeed.2 rest
  | comment {text rest : List Char} : '\n' ∉ text → (∀ c ∈ rest.head?, c = '\n') →
      Move st ('/' :: '/' :: (text ++ rest)) [] (st.skip ('/' :: '/' :: text)) rest
  | lexeme {c : Char} {rest : List Char} {lexeme : Lexeme} : c ≠ '\n' → (c = '/' → rest.head? ≠ some '/') →
      Lexeme.read st.offset st.afterValue c rest = .ok lexeme →
      Move st (c :: rest) [⟨lexeme.kind, ⟨st.offset, (st.pass lexeme).offset⟩⟩] (st.pass lexeme) lexeme.rest

/-- What is passed is a move. -/
theorem move_of_passNext {st st' : ScanState} {c : Char} {rest rest' : List Char} {tokens : List Token}
    (h : st.passNext c rest = .ok (tokens, st', rest')) : Move st (c :: rest) tokens st' rest' := by
  unfold ScanState.passNext at h
  split at h
  · rename_i hblank
    cases h
    exact .blank (by simpa [or_assoc] using hblank)
  split at h
  · rename_i hbreak
    subst hbreak
    cases h
    exact .lineFeed
  rename_i hbreak
  split at h
  · rename_i hcomment
    obtain ⟨hc, hd⟩ := Bool.and_eq_true_iff.1 hcomment
    obtain rfl := of_decide_eq_true hc
    obtain ⟨rest, rfl⟩ := List.head?_eq_some_iff.1 (of_decide_eq_true hd)
    cases h
    have hline : '\n' ∉ rest.takeWhile (· != '\n') := fun hmem =>
      bne_iff_ne.1 (List.all_eq_true.1 (List.all_takeWhile (p := (· != '\n'))) '\n' hmem) rfl
    have hend : ∀ c ∈ (rest.dropWhile (· != '\n')).head?, c = '\n' := fun c hc => by
      have := List.head?_dropWhile_not (· != '\n') rest
      rw [hc] at this
      simpa using this
    have hmove : Move st _ _ _ _ := .comment hline hend
    rwa [List.takeWhile_append_dropWhile] at hmove
  · rename_i hcomment
    obtain ⟨lexeme, hread, h⟩ := map_eq_ok_iff.1 h
    cases h
    refine .lexeme hbreak (fun hc hd => hcomment ?_) hread
    rw [decide_eq_true hc, decide_eq_true hd]
    rfl

/-! ## All rounds -/

/-- The layout leaves no more of the text than there was. -/
theorem Aligns.length_le {st st' : ScanState} {text rest : List Char} {tokens : List Token}
    (h : Aligns st text tokens st' rest) : rest.length ≤ text.length := by
  cases h with
  | none => exact Nat.le_refl _
  | blank | opens | closes =>
    rw [List.length_append]
    exact Nat.le_add_left ..

/-- A move leaves less of the text than there was. -/
theorem Move.length_lt {st st' : ScanState} {text rest : List Char} {tokens : List Token}
    (h : Move st text tokens st' rest) : rest.length < text.length := by
  cases h with
  | blank | lineFeed => exact Nat.lt_succ_self _
  | comment =>
    simp only [List.length_cons, List.length_append]
    omega
  | lexeme _ _ hread => exact (Lexeme.read_splits hread).rest_lt

/-- **What the layout and what is passed preserve holds at the end of the text,** where only its last tokens are
missing. -/
theorem exists_of_scanFrom {I : List Token → ScanState → List Char → Prop}
    (hlayout : ∀ {before st text tokens st' rest}, I before st text → Aligns st text tokens st' rest →
      I (before ++ tokens) st' rest)
    (hmove : ∀ {before st text tokens st' rest}, I before st text → Move st text tokens st' rest →
      I (before ++ tokens) st' rest)
    {before tokens : List Token} {st : ScanState} {text : List Char} (h : I before st text)
    (hscan : scanFrom st text = .ok tokens) :
    ∃ more st', I (before ++ more) st' [] ∧ tokens = more ++ finish st' := by
  induction hlength : text.length using Nat.strongRecOn generalizing before tokens st text with
  | ind n ih =>
    rw [scanFrom_eq] at hscan
    obtain ⟨⟨first, st', rest⟩, hread, hscan⟩ := bind_eq_ok_iff.1 hscan
    have hfirst := aligns_of_readLayout hread
    have hI := hlayout h hfirst
    cases rest with
    | nil =>
      cases hscan
      exact ⟨first, st', hI, rfl⟩
    | cons c rest =>
      obtain ⟨⟨second, next, rest'⟩, hpass, hscan⟩ := bind_eq_ok_iff.1 hscan
      have hsecond := move_of_passNext hpass
      have hlt := Nat.lt_of_lt_of_le hsecond.length_lt hfirst.length_le
      obtain ⟨others, hlast, rfl⟩ := map_eq_ok_iff.1 hscan
      obtain ⟨more, st'', hend, rfl⟩ := ih _ (hlength ▸ hlt) (hmove hI hsecond) hlast rfl
      refine ⟨first ++ second ++ more, st'', ?_, (List.append_assoc ..).symm⟩
      rwa [List.append_assoc first, ← List.append_assoc before, ← List.append_assoc (before ++ first)]

end TypedData
