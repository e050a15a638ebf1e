import TypedData.Proofs.Reading.Material
import TypedData.Proofs.Reading.Parser
import TypedData.Proofs.Scanning.Stream

/-!
# How a cursor goes on

A cursor goes on by passing tokens (`Cursor.Passes`), so it never comes back, and the token before it is the last that
was passed (`Cursor.Onward`).  Among tokens that stand one behind another, and of which only the last is the end of the
text (`Cursor.Sound`), it gets on in the text as well (`Cursor.Step.order`), and what it passes is never the end.
-/

namespace TypedData

namespace Cursor

variable {M : Material} {c c' c'' : Cursor} {passed passed' : List Token}

/-- The tokens from the cursor on. -/
def rest (c : Cursor) : List Token := c.current :: c.upcoming

/-- The tokens from the one passed last on. -/
def around (c : Cursor) : List Token := c.previous.toList ++ c.rest

/-! ## Passing tokens -/

/-- Passing the tokens, the cursor `c` comes to `c'`. -/
structure Passes (c : Cursor) (passed : List Token) (c' : Cursor) : Prop where
  rest : c.rest = passed ++ c'.rest
  previous : c'.previous = passed.getLast?.or c.previous

/-- A cursor passes nothing to itself. -/
theorem Passes.refl (c : Cursor) : c.Passes [] c := ⟨rfl, rfl⟩

/-- What is passed in two goes is passed in one. -/
theorem Passes.trans (h : c.Passes passed c') (h' : c'.Passes passed' c'') : c.Passes (passed ++ passed') c'' where
  rest := by rw [h.rest, h'.rest, List.append_assoc]
  previous := by rw [h'.previous, h.previous, List.getLast?_append, Option.or_assoc]

/-- The cursor stands still or comes to a place further on. -/
def Onward (c c' : Cursor) : Prop := ∃ passed, c.Passes passed c'

/-- The cursor comes to a place further on. -/
def Past (c c' : Cursor) : Prop := ∃ passed, passed ≠ [] ∧ c.Passes passed c'

/-- A cursor is onward from itself. -/
theorem Onward.refl (c : Cursor) : c.Onward c := ⟨[], .refl c⟩

/-- Onward from onward is onward. -/
theorem Onward.trans (h : c.Onward c') (h' : c'.Onward c'') : c.Onward c'' := by
  obtain ⟨passed, h⟩ := h
  obtain ⟨passed', h'⟩ := h'
  exact ⟨passed ++ passed', h.trans h'⟩

/-- What is past a place is onward from it. -/
theorem Past.onward (h : c.Past c') : c.Onward c' := by
  obtain ⟨passed, -, h⟩ := h
  exact ⟨passed, h⟩

/-- Onward from past is past. -/
theorem Past.trans_onward (h : c.Past c') (h' : c'.Onward c'') : c.Past c'' := by
  obtain ⟨passed, hne, h⟩ := h
  obtain ⟨passed', h'⟩ := h'
  exact ⟨passed ++ passed', fun hnil => hne (List.append_eq_nil_iff.1 hnil).1, h.trans h'⟩

/-- Past what is onward is past. -/
theorem Onward.trans_past (h : c.Onward c') (h' : c'.Past c'') : c.Past c'' := by
  obtain ⟨passed, h⟩ := h
  obtain ⟨passed', hne, h'⟩ := h'
  exact ⟨passed ++ passed', fun hnil => hne (List.append_eq_nil_iff.1 hnil).2, h.trans h'⟩

/-- Fewer tokens are left. -/
theorem Past.length_lt (h : c.Past c') : c'.upcoming.length < c.upcoming.length := by
  obtain ⟨passed, hne, h⟩ := h
  have hlength := congrArg List.length h.rest
  have hpos := List.length_pos_iff.2 hne
  simp only [rest, List.length_append, List.length_cons] at hlength
  omega

/-- Going on passes the token at hand. -/
theorem passes_advance (h : c.upcoming ≠ []) : c.Passes [c.current] c.advance := by
  obtain ⟨previous, current, upcoming, groups⟩ := c
  obtain ⟨token, tokens, rfl⟩ := List.exists_cons_of_ne_nil h
  exact ⟨rfl, rfl⟩

/-- Going on leads onward. -/
theorem onward_advance (c : Cursor) : c.Onward c.advance := by
  by_cases h : c.upcoming = []
  · unfold advance
    rw [h]
    exact .refl c
  · exact ⟨_, passes_advance h⟩

/-- Skipping line breaks in a list of tokens passes nothing but line breaks. -/
theorem passes_skipNewlinesFrom (groups : Nat) (previous : Option Token) (current : Token) (upcoming : List Token) :
    ∃ passed, Passes ⟨previous, current, upcoming, groups⟩ passed
      (skipNewlinesFrom groups previous current upcoming) ∧ ∀ token ∈ passed, token.kind = .newline := by
  induction upcoming generalizing previous current with
  | nil => exact ⟨[], .refl _, List.forall_mem_nil _⟩
  | cons token tokens ih =>
    rw [skipNewlinesFrom]
    split
    · rename_i hnewline
      obtain ⟨passed, hpasses, hpassed⟩ := ih (some current) token
      have hfirst : Passes ⟨previous, current, token :: tokens, groups⟩ [current]
          ⟨some current, token, tokens, groups⟩ :=
        ⟨rfl, rfl⟩
      exact ⟨_, hfirst.trans hpasses, List.forall_mem_cons.2 ⟨hnewline, hpassed⟩⟩
    · exact ⟨[], .refl _, List.forall_mem_nil _⟩

/-- Newlines are passed, and nothing else. -/
theorem passes_skipNewlines (c : Cursor) :
    ∃ passed, c.Passes passed c.skipNewlines ∧ ∀ token ∈ passed, token.kind = .newline :=
  passes_skipNewlinesFrom c.groups c.previous c.current c.upcoming

/-- They are passed up to something else, unless there is nothing else. -/
theorem upcoming_skipNewlinesFrom (groups : Nat) (previous : Option Token) (current : Token) (upcoming : List Token)
    (h : (skipNewlinesFrom groups previous current upcoming).kind = .newline) :
    (skipNewlinesFrom groups previous current upcoming).upcoming = [] := by
  induction upcoming generalizing previous current with
  | nil => rfl
  | cons token tokens ih =>
    rw [skipNewlinesFrom] at h ⊢
    split
    · rename_i hnewline
      rw [if_pos hnewline] at h
      exact ih _ _ h
    · rename_i hother
      rw [if_neg hother] at h
      exact absurd h hother

/-- Skipping line breaks leads onward. -/
theorem onward_skipNewlines (c : Cursor) : c.Onward c.skipNewlines := by
  obtain ⟨passed, hpasses, -⟩ := c.passes_skipNewlines
  exact ⟨passed, hpasses⟩

/-- The number of open groups is not where the cursor stands. -/
theorem onward_setGroups (c : Cursor) (groups : Nat) : c.Onward { c with groups := groups } := ⟨[], rfl, rfl⟩

/-! ## Tokens in order -/

/-- The tokens around the cursor stand one behind another at places of the material, and the end of the text is the last
of them, and no other. -/
structure Sound (M : Material) (c : Cursor) : Prop where
  covers : ∀ token ∈ c.around, M.Covers token.span
  forward : ∀ token ∈ c.around, token.span.start ≤ token.span.stop
  ordered : c.around.Pairwise fun s t => s.span.stop ≤ t.span.start
  ends : ∃ before span, c.rest = before ++ [⟨.eof, span⟩] ∧ ∀ token ∈ before, token.kind ≠ .eof

/-- What is around the cursor further on is around it here. -/
theorem Onward.around_suffix (h : c.Onward c') : c'.around <:+ c.around := by
  obtain ⟨passed, h⟩ := h
  unfold around
  rw [h.rest, h.previous]
  rcases List.eq_nil_or_concat' passed with rfl | ⟨front, token, rfl⟩
  · exact List.suffix_rfl
  · rw [List.getLast?_append, List.getLast?_singleton, Option.some_or, Option.some_or, List.append_assoc,
      ← List.append_assoc c.previous.toList]
    exact List.suffix_append ..

namespace Sound

/-- Every cursor onward still has the end of the tokens ahead of it, and nothing else of its kind. -/
theorem ends_of_onward (h : c.Sound M) (honward : c.Onward c') :
    ∃ before span, c'.rest = before ++ [⟨.eof, span⟩] ∧ ∀ token ∈ before, token.kind ≠ .eof := by
  obtain ⟨before, span, hrest, hbefore⟩ := h.ends
  obtain ⟨passed, hpasses⟩ := honward
  rw [hpasses.rest] at hrest
  rcases List.append_eq_append_iff.1 hrest with ⟨between, rfl, hback⟩ | ⟨between, rfl, hback⟩
  · exact ⟨between, span, hback, fun token ht => hbefore token (List.mem_append_right _ ht)⟩
  · -- the last token is not passed, since there is one behind
    cases between with
    | nil => exact ⟨[], span, hback.symm, List.forall_mem_nil _⟩
    | cons token between =>
      have := congrArg List.length hback
      simp [Cursor.rest] at this

/-- Tokens that cover the text still do so further on. -/
theorem onward (h : c.Sound M) (honward : c.Onward c') : c'.Sound M where
  covers token ht := h.covers token (honward.around_suffix.subset ht)
  forward token ht := h.forward token (honward.around_suffix.subset ht)
  ordered := h.ordered.sublist honward.around_suffix.sublist
  ends := h.ends_of_onward honward

/-- What is passed is not the end of the text. -/
theorem ne_eof_of_passes (h : c.Sound M) (hpasses : c.Passes passed c') : ∀ token ∈ passed, token.kind ≠ .eof := by
  obtain ⟨before, span, hrest, hbefore⟩ := h.ends
  obtain ⟨before', span', hrest', -⟩ := h.ends_of_onward ⟨passed, hpasses⟩
  rw [hpasses.rest, hrest', ← List.append_assoc] at hrest
  obtain ⟨rfl, -⟩ := List.append_inj' hrest rfl
  exact fun token ht => hbefore token (List.mem_append_left _ ht)

/-- Only at the end of the text there are no more tokens. -/
theorem kind_eq_eof_iff (h : c.Sound M) : c.kind = .eof ↔ c.upcoming = [] := by
  obtain ⟨before, span, hrest, hbefore⟩ := h.ends
  cases before with
  | nil =>
    obtain ⟨hcurrent, hupcoming⟩ := List.cons.inj hrest
    exact ⟨fun _ => hupcoming, fun _ => by rw [Cursor.kind, hcurrent]⟩
  | cons token before =>
    obtain ⟨hcurrent, hupcoming⟩ := List.cons.inj hrest
    refine ⟨fun hkind => absurd hkind ?_, fun hnil => ?_⟩
    · rw [Cursor.kind, hcurrent]
      exact hbefore token (.head _)
    · rw [hnil] at hupcoming
      exact absurd hupcoming.symm (List.append_ne_nil_of_right_ne_nil before (List.cons_ne_nil _ _))

/-- Going on leads past the token at hand, unless it is the end. -/
theorem past_advance (h : c.Sound M) (hkind : c.kind ≠ .eof) : c.Past c.advance :=
  ⟨_, List.cons_ne_nil _ _, passes_advance (mt h.kind_eq_eof_iff.2 hkind)⟩

/-- Behind newlines there is something else. -/
theorem kind_skipNewlines (h : c.Sound M) : c.skipNewlines.kind ≠ .newline := fun hkind => by
  have hlast := upcoming_skipNewlinesFrom _ _ _ _ hkind
  rw [(h.onward c.onward_skipNewlines).kind_eq_eof_iff.2 hlast] at hkind
  cases hkind

/-- The token at hand starts at a place of the text. -/
theorem place_start (h : c.Sound M) : M.place c.start := (h.covers _ (by simp [around, rest])).start

/-- The last token ends at a place of the text. -/
theorem place_lastEnd (h : c.Sound M) : M.place c.lastEnd := by
  unfold lastEnd
  cases hprevious : c.previous with
  | none => exact M.origin
  | some token => exact (h.covers token (by simp [around, hprevious])).stop

/-- The token before the cursor ends before the one here starts. -/
theorem lastEnd_le_start (h : c.Sound M) : c.lastEnd ≤ c.start := by
  unfold lastEnd
  cases hprevious : c.previous with
  | none => exact Nat.zero_le _
  | some token =>
    have hordered := h.ordered
    unfold around at hordered
    rw [hprevious] at hordered
    exact List.rel_of_pairwise_cons hordered (.head _)

end Sound

/-- At the beginning of the tokens of a text, all is in order. -/
theorem sound_ofTokens {source : List Char} {tokens : List Token} (h : IsStream source tokens)
    (hplace : ∀ taken, taken <+: source → M.place (utf8Length taken)) : (ofTokens tokens).Sound M := by
  obtain ⟨before, span, htokens, hbefore⟩ := h.ends
  have haround : (ofTokens tokens).around = tokens ∧ (ofTokens tokens).rest = tokens := by
    cases tokens with
    | nil => exact absurd htokens.symm (List.append_ne_nil_of_right_ne_nil before (List.cons_ne_nil _ _))
    | cons token tokens => exact ⟨rfl, rfl⟩
  have hboundaries := h.placed.boundaries
  refine ⟨?_, ?_, ?_, ?_⟩
  · rw [haround.1]
    intro token ht
    obtain ⟨front, covered, back, hsource, hspan⟩ := hboundaries token ht
    rw [hspan]
    exact ⟨hplace _ ⟨covered ++ back, by rw [hsource, List.append_assoc]⟩, hplace _ ⟨back, hsource.symm⟩⟩
  · rw [haround.1]
    intro token ht
    obtain ⟨front, covered, back, -, hspan⟩ := hboundaries token ht
    rw [hspan, utf8Length_append]
    exact Nat.le_add_right ..
  · rw [haround.1]
    exact h.placed.ordered
  · rw [haround.2]
    exact ⟨before, span, htokens, hbefore⟩

/-! ## Steps -/

/-- A step onward among sound tokens. -/
structure Step (M : Material) (c c' : Cursor) : Prop where
  sound : c.Sound M
  onward : c.Onward c'

namespace Step

/-- No step is a step. -/
theorem refl (h : c.Sound M) : Step M c c := ⟨h, .refl c⟩

/-- Two steps are a step. -/
theorem trans (h : Step M c c') (h' : Step M c' c'') : Step M c c'' := ⟨h.sound, h.onward.trans h'.onward⟩

/-- Where a step has led to, the tokens still cover the text. -/
theorem sound_behind (h : Step M c c') : c'.Sound M := h.sound.onward h.onward

/-- What is passed lies before the place where the step ends. -/
theorem stop_le_lastEnd (h : Step M c c') (hpast : c.Past c') : c.current.span.stop ≤ c'.lastEnd := by
  obtain ⟨passed, hne, hpasses⟩ := hpast
  obtain ⟨front, last, rfl⟩ := (List.eq_nil_or_concat' passed).resolve_left hne
  have hlast : c'.lastEnd = last.span.stop := by
    unfold lastEnd
    rw [hpasses.previous, List.getLast?_concat]
    rfl
  have hordered := (List.pairwise_append.1 h.sound.ordered).2.1
  have hrest := hpasses.rest
  rw [hlast]
  cases front with
  | nil =>
    obtain ⟨rfl, -⟩ : c.current = last ∧ c.upcoming = c'.rest := List.cons.inj hrest
    exact Nat.le_refl _
  | cons first front =>
    obtain ⟨rfl, hupcoming⟩ : c.current = first ∧ c.upcoming = front ++ [last] ++ c'.rest := List.cons.inj hrest
    have hlast : last ∈ c.upcoming := by simp [hupcoming]
    calc c.current.span.stop ≤ last.span.start := List.rel_of_pairwise_cons hordered hlast
      _ ≤ last.span.stop := h.sound.forward last (List.mem_append_right _ (.tail _ hlast))

/-- A step past a token ends behind where the token starts. -/
theorem start_le_lastEnd (h : Step M c c') (hpast : c.Past c') : c.start ≤ c'.lastEnd :=
  Nat.le_trans (h.sound.forward c.current (List.mem_append_right _ (.head _))) (h.stop_le_lastEnd hpast)

/-- **Further on among the tokens is further on in the text.** -/
theorem order (h : Step M c c') : c.lastEnd ≤ c.start ∧ c'.lastEnd ≤ c'.start ∧ c.start ≤ c'.start ∧
    c.lastEnd ≤ c'.lastEnd := by
  have hhere := h.sound.lastEnd_le_start
  have hthere := h.sound_behind.lastEnd_le_start
  obtain ⟨passed, hpasses⟩ := h.onward
  by_cases hne : passed = []
  · subst hne
    have hcurrent : c.current = c'.current := (List.cons.inj hpasses.rest).1
    have hprevious : c'.previous = c.previous := hpasses.previous
    have hstart : c.start = c'.start := congrArg (·.span.start) hcurrent
    have hlastEnd : c'.lastEnd = c.lastEnd := by rw [lastEnd, lastEnd, hprevious]
    exact ⟨hhere, hthere, Nat.le_of_eq hstart, Nat.le_of_eq hlastEnd.symm⟩
  · have hpast := h.start_le_lastEnd ⟨passed, hne, hpasses⟩
    exact ⟨hhere, hthere, Nat.le_trans hpast hthere, Nat.le_trans hhere hpast⟩

end Step

end Cursor

end TypedData
