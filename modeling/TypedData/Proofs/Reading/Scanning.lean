import TypedData.Proofs.Reading.Material
import TypedData.Proofs.Result
import TypedData.Token.Scan

/-!
# Scanning makes nothing up

Every token covers characters of the text, or none at a place between two of them, and so does the span of a
failure.  So the tokens of a text are of a material if every place of the text is one of the material
(`Material.Reaches`), the lexemes are of its kinds, and the marks of the layout are too (`Lexical`).
-/

namespace TypedData

variable {M : Material}

/-- The kinds of lexemes and of the marks of the layout are those of the material. -/
structure Lexical (M : Material) : Prop where
  newline : M.kind .newline
  indent : M.kind .indent
  dedent : M.kind .dedent
  lexeme : ∀ start afterValue c rest,
    Yields (fun lexeme => M.kind lexeme.kind) (Lexeme.read start afterValue c rest)

namespace Material

/-- Every place between the characters of the text, and at its ends, is one of the material, where the text
starts at an offset. -/
def Reaches (M : Material) (offset : Nat) (text : List Char) : Prop :=
  ∀ taken, taken <+: text → M.place (offset + utf8Length taken)

namespace Reaches

variable {offset : Nat} {text rest : List Char}

/-- The offset of a place that is reached is a place. -/
theorem here (h : M.Reaches offset text) : M.place offset := h [] List.nil_prefix

/-- What stands behind a text that is taken is reached too. -/
theorem after (taken : List Char) (h : M.Reaches offset (taken ++ rest)) :
    M.Reaches (offset + utf8Length taken) rest := by
  intro more hmore
  rw [Nat.add_assoc, ← utf8Length_append]
  exact h _ ((List.prefix_append_right_inj taken).2 hmore)

/-- A text that is taken is covered. -/
theorem covers (taken : List Char) (h : M.Reaches offset (taken ++ rest)) :
    M.Covers ⟨offset, offset + utf8Length taken⟩ := ⟨h.here, h taken (List.prefix_append taken rest)⟩

end Reaches

end Material

/-! ## One token -/

/-- A lexeme that is not read fails at a place of the text. -/
theorem Lexeme.covers_of_read {start : Nat} {afterValue : Bool} {c : Char} {rest : List Char} {e : TokenError}
    (h : M.Reaches start (c :: rest)) (he : Lexeme.read start afterValue c rest = .error e) : M.Covers e.span := by
  have hnumber : ∀ {sign digits : List Char}, sign ++ digits = c :: rest →
      number start sign digits = .error e → M.Covers e.span := by
    intro sign digits htext he
    unfold number at he
    dsimp only at he
    split at he
    · cases he
    · cases he
      have hall : (Numeral.read sign digits).taken ++ (Numeral.read sign digits).rest = c :: rest :=
        (Numeral.all_read sign digits).trans htext
      exact Material.Reaches.covers _ (hall.symm ▸ h)
  unfold Lexeme.read at he
  split at he
  · rename_i hquote
    subst hquote
    unfold quotation at he
    split at he
    · cases he
    · cases he
      exact h.covers ['"']
  split at he
  · exact hnumber rfl he
  split at he
  · cases he
  split at he
  · rename_i hminus
    obtain ⟨hminus, -⟩ := Bool.and_eq_true_iff.1 hminus
    obtain rfl := of_decide_eq_true (Bool.and_eq_true_iff.1 hminus).1
    exact hnumber rfl he
  split at he
  · cases he
  · cases he
    exact h.covers [c]

/-! ## The layout -/

/-- If measuring an indentation fails, the failure is covered. -/
theorem ends_indentUnit {span : Span} (h : M.Covers span) (blanks : List Char) :
    Ends (fun _ => True) (fun e => M.Covers e.span) (indentUnit span blanks) := by
  unfold indentUnit
  split
  · exact h
  all_goals trivial

/-- The blocks of an indentation are covered tokens, and a failure is covered as well. -/
theorem ends_indentBlocks (hM : Lexical M) {span : Span} (h : M.Covers span) (blocks : List Indentation)
    (blanks : List Char) : Ends (fun found => ∀ token ∈ found.1, M.Holds token) (fun e => M.Covers e.span)
      (indentBlocks span blocks blanks) := by
  have hindent : ∀ token ∈ [(⟨.indent, span⟩ : Token)], M.Holds token :=
    List.forall_mem_singleton.2 ⟨hM.indent, h⟩
  refine (ends_indentUnit h blanks).bind fun unit _ => ?_
  dsimp only
  split
  · split
    · split
      · exact h
      · exact hindent
    · exact hindent
    · exact List.forall_mem_nil _
  · split
    · exact h
    · split
      · exact h
      · intro token htoken
        obtain ⟨_, -, rfl⟩ := List.mem_map.1 htoken
        exact ⟨hM.dedent, ⟨h.stop, h.stop⟩⟩

/-- The tokens of the layout are of the material, and so are the places after it. -/
theorem ends_readLayout (hM : Lexical M) {st : ScanState} {text : List Char} (h : M.Reaches st.offset text) :
    Ends (fun found => (∀ token ∈ found.1, M.Holds token) ∧ M.Reaches found.2.1.offset found.2.2)
      (fun e => M.Covers e.span) (readLayout st text) := by
  unfold readLayout
  split
  · have hafter : M.Reaches (st.offset + utf8Length (text.takeWhile isIndentChar))
        (text.dropWhile isIndentChar) := by
      refine Material.Reaches.after _ ?_
      rwa [List.takeWhile_append_dropWhile]
    unfold readIndentation
    dsimp only
    split
    · exact ⟨List.forall_mem_nil _, hafter⟩
    · exact (ends_indentBlocks hM ⟨h.here, hafter.here⟩ _ _).bind fun found hfound => ⟨hfound, hafter⟩
  · exact ⟨List.forall_mem_nil _, h⟩

/-- The tokens that end a scan hold. -/
theorem holds_finish (hM : Lexical M) {st : ScanState} (h : M.place st.offset) :
    ∀ token ∈ finish st, M.Holds token := by
  have hhere : M.Covers ⟨st.offset, st.offset⟩ := ⟨h, h⟩
  intro token htoken
  unfold finish at htoken
  rcases List.mem_append.1 htoken with htoken | htoken
  · rcases List.mem_append.1 htoken with htoken | htoken
    · split at htoken
      · exact List.mem_singleton.1 htoken ▸ ⟨hM.newline, hhere⟩
      · cases htoken
    · obtain ⟨_, -, rfl⟩ := List.mem_map.1 htoken
      exact ⟨hM.dedent, hhere⟩
  · exact List.mem_singleton.1 htoken ▸ ⟨M.eof, hhere⟩

/-! ## All tokens -/

/-- A line feed moves the state by the one byte that it takes. -/
theorem ScanState.offset_passLineFeed (st : ScanState) :
    st.passLineFeed.2.offset = st.offset + utf8Length ['\n'] := by
  unfold passLineFeed
  dsimp only
  split
  · rfl
  · rfl

/-- **Scanning gives tokens of the material, or fails at a place of it.** -/
theorem ends_scanFrom (hM : Lexical M) (st : ScanState) (text : List Char) (h : M.Reaches st.offset text) :
    Ends (fun tokens => ∀ token ∈ tokens, M.Holds token) (fun e => M.Covers e.span) (scanFrom st text) := by
  -- the layout gives its tokens and leaves the places of the rest to be read
  have hmore : ∀ {result : Except TokenError (List Token)} {first : List Token},
      Ends (fun tokens => ∀ token ∈ tokens, M.Holds token) (fun e => M.Covers e.span) result →
      (∀ token ∈ first, M.Holds token) →
      Ends (fun tokens => ∀ token ∈ tokens, M.Holds token) (fun e => M.Covers e.span)
        (result.map (first ++ ·)) :=
    fun hresult hfirst => hresult.map fun _ hmore => List.forall_mem_append.2 ⟨hfirst, hmore⟩
  fun_induction scanFrom st text with
  | case1 st text e hl =>
    have hlayout := ends_readLayout hM h
    rw [hl] at hlayout
    exact hlayout
  | case2 st text tokens st' hl =>
    have hlayout := ends_readLayout hM h
    rw [hl] at hlayout
    exact List.forall_mem_append.2 ⟨hlayout.1, holds_finish hM hlayout.2.here⟩
  | case3 st text tokens st' c rest hl _ _ ih =>
    have hlayout := ends_readLayout hM h
    rw [hl] at hlayout
    have hrest : M.Reaches (st'.skip [c]).offset rest := hlayout.2.after [c]
    exact hmore (ih hrest) hlayout.1
  | case4 st text tokens st' rest marks next hpass newline hl _ _ ih =>
    have hlayout := ends_readLayout hM h
    rw [hl] at hlayout
    have hnext : next.offset = st'.offset + utf8Length ['\n'] := by
      rw [← st'.offset_passLineFeed, hpass]
    have hrest : M.Reaches next.offset rest := hnext ▸ hlayout.2.after ['\n']
    have hnewline : ∀ token ∈ newline, M.Holds token := by
      intro token htoken
      unfold newline at htoken
      split at htoken
      · exact List.mem_singleton.1 htoken ▸ ⟨hM.newline, hlayout.2.here, hrest.here⟩
      · cases htoken
    exact hmore (ih hrest) (List.forall_mem_append.2 ⟨hlayout.1, hnewline⟩)
  | case5 st text tokens st' c rest hl _ _ _ _ comment ih =>
    have hlayout := ends_readLayout hM h
    rw [hl] at hlayout
    have hsplit : comment ++ rest.drop comment.length = rest :=
      (List.prefix_iff_eq_append.1 (List.takeWhile_prefix _))
    have hrest : M.Reaches (st'.skip (c :: comment)).offset (rest.drop comment.length) := by
      refine Material.Reaches.after (c :: comment) ?_
      rw [List.cons_append, hsplit]
      exact hlayout.2
    exact hmore (ih hrest) hlayout.1
  | case6 st text tokens st' c rest hl _ _ _ _ e he =>
    have hlayout := ends_readLayout hM h
    rw [hl] at hlayout
    exact Lexeme.covers_of_read hlayout.2 he
  | case7 st text tokens st' c rest hl _ _ _ _ lexeme hr _ next token ih =>
    have hlayout := ends_readLayout hM h
    rw [hl] at hlayout
    have hsplits := (Lexeme.read_splits hr).append_eq
    have hafter : M.Reaches next.offset lexeme.rest := Material.Reaches.after _ (hsplits ▸ hlayout.2)
    have htoken : M.Holds token := ⟨hM.lexeme _ _ _ _ _ hr, hlayout.2.here, hafter.here⟩
    refine (ih hafter).map fun more hmore => ?_
    exact List.forall_mem_append.2 ⟨hlayout.1, List.forall_mem_cons.2 ⟨htoken, hmore⟩⟩

end TypedData
