import TypedData.Proofs.Parsing.SpanTree

/-!
# Parsers go on

`p.Goes M c Q` says of a parser that starts at the cursor `c` among sound tokens: it goes onward, also if it fails, and
what it gives has `Q` together with the cursor where it stops.  Most parsers pass a token if they succeed, and give
something whose spans lie among what they passed (`Parser.Nests`).

In a repetition whose rounds pass tokens, the bound on the number of rounds is never met: the repetition ends because
no round follows or because something fails (`Parser.Loops`, `Parser.loops_rounds`).
-/

namespace TypedData

namespace Parser

open Cursor (Step Between)

variable {M : Material} {α β : Type} {c : Cursor}

/-- From the cursor the parser goes onward, and it gives something with `Q` or fails. -/
def Goes (M : Material) (c : Cursor) (p : Parser α) (Q : α → Cursor → Prop) : Prop :=
  c.Sound M → match p.outcome c with
    | (.ok x, c') => c.Onward c' ∧ Q x c'
    | (.error _, c') => c.Onward c'

/-- From every cursor the parser goes onward. -/
def Proceeds (M : Material) (p : Parser α) : Prop := ∀ c, Goes M c p fun _ _ => True

/-- If it succeeds, the parser passes a token at least. -/
def Takes (M : Material) (p : Parser α) : Prop := ∀ c, Goes M c p fun _ c' => c.Past c'

/-- If it succeeds, the parser passes tokens that hold the spans of what it gives. -/
def Nests (M : Material) (p : Parser α) (spans : α → List SpanTree) : Prop :=
  ∀ c, Goes M c p fun x c' => c.Past c' ∧ Between M c c' (spans x)

namespace Goes

variable {p : Parser α} {k : α → Parser β} {Q Q' : α → Cursor → Prop} {R : β → Cursor → Prop}

/-- A parser that does nothing goes nowhere. -/
theorem pure {x : α} (h : c.Sound M → Q x c) : Goes M c (Pure.pure x) Q := fun hc => ⟨.refl c, h hc⟩

/-- A failure goes anywhere. -/
theorem throw (e : ParseError) : Goes M c (throw e : Parser α) Q := fun _ => .refl c

/-- Two parsers go on one after the other. -/
theorem bind (h : Goes M c p Q) (hk : ∀ x c', Step M c c' → Q x c' → Goes M c' (k x) R) : Goes M c (p >>= k) R := by
  intro hc
  have hp := h hc
  rw [outcome_bind]
  generalize p.outcome c = result at hp ⊢
  rcases result with ⟨e | x, c'⟩
  · exact hp
  · obtain ⟨honward, hQ⟩ := hp
    have hrest := hk x c' ⟨hc, honward⟩ hQ (hc.onward honward)
    dsimp only
    generalize (k x).outcome c' = result at hrest ⊢
    rcases result with ⟨e | y, c''⟩
    · exact honward.trans hrest
    · exact ⟨honward.trans hrest.1, hrest.2⟩

/-- Going on to something is going on to what follows from it. -/
theorem mono (h : Goes M c p Q) (hQ : ∀ x c', Step M c c' → Q x c' → Q' x c') : Goes M c p Q' := by
  intro hc
  have hp := h hc
  generalize p.outcome c = result at hp ⊢
  rcases result with ⟨e | x, c'⟩
  · exact hp
  · exact ⟨hp.1, hQ x c' ⟨hc, hp.1⟩ hp.2⟩

/-- What is made of the result does not matter for going on. -/
theorem map {f : α → β} (h : Goes M c p Q) (hf : ∀ x c', Step M c c' → Q x c' → R (f x) c') :
    Goes M c (f <$> p) R := by
  rw [map_eq_pure_bind]
  exact h.bind fun x c' hstep hx => .pure fun _ => hf x c' hstep hx

/-- Where a parser goes is where all that is known of it leads. -/
theorem and (h : Goes M c p Q) (h' : Goes M c p Q') : Goes M c p fun x c' => Q x c' ∧ Q' x c' := by
  intro hc
  have hp := h hc
  have hp' := h' hc
  generalize p.outcome c = result at hp hp' ⊢
  rcases result with ⟨e | x, c'⟩
  · exact hp
  · exact ⟨hp.1, hp.2, hp'.2⟩

/-- One of two parsers. -/
theorem ite {b : Prop} [Decidable b] {p q : Parser α} (hp : b → Goes M c p Q) (hq : ¬ b → Goes M c q Q) :
    Goes M c (if b then p else q) Q := by
  split
  · rename_i h
    exact hp h
  · rename_i h
    exact hq h

/-- What a success says. -/
theorem ok {x : α} {c' : Cursor} (h : Goes M c p Q) (hc : c.Sound M) (hp : p.outcome c = (.ok x, c')) :
    c.Onward c' ∧ Q x c' := by
  have := h hc
  rwa [hp] at this

/-- A parser that goes on leads onward, whether it fails or not. -/
theorem onward (h : Goes M c p Q) (hc : c.Sound M) : c.Onward (p.outcome c).2 := by
  have hp := h hc
  generalize p.outcome c = result at hp ⊢
  rcases result with ⟨e | x, c'⟩
  · exact hp
  · exact hp.1

/-! ### Looking at the cursor -/

/-- Looking at the cursor goes on from it. -/
theorem get_bind {k : Cursor → Parser β} (h : Goes M c (k c) R) : Goes M c (MonadState.get >>= k) R := h

/-- Looking at the place goes on from it. -/
theorem start_bind {k : Nat → Parser β} (h : Goes M c (k c.start) R) : Goes M c (start >>= k) R := h

/-- Looking at the token goes on from it. -/
theorem kind_bind {k : TokenKind → Parser β} (h : Goes M c (k c.kind) R) : Goes M c (kind >>= k) R := h

/-- Looking for a token goes on with whether it is there. -/
theorem isAt_bind {wanted : TokenKind} {k : Bool → Parser β} (h : Goes M c (k (c.kind = wanted)) R) :
    Goes M c (isAt wanted >>= k) R := h

/-- Looking for a token ahead goes on with either answer. -/
theorem isAhead_bind {wanted : TokenKind} {k : Bool → Parser β} (h : ∀ found, Goes M c (k found) R) :
    Goes M c (isAhead wanted >>= k) R := h (c.kindAhead? = some wanted)

/-- Looking for a token further ahead goes on with either answer. -/
theorem isFurtherAhead_bind {wanted : TokenKind} {k : Bool → Parser β} (h : ∀ found, Goes M c (k found) R) :
    Goes M c (isFurtherAhead wanted >>= k) R := h (c.kindFurtherAhead? = some wanted)

/-- Looking at what has been passed goes on with the span up to the last token. -/
theorem spanFrom_bind {offset : Nat} {k : Span → Parser β} (h : Goes M c (k ⟨offset, c.lastEnd⟩) R) :
    Goes M c (spanFrom offset >>= k) R := h

end Goes

/-- A parser that takes something proceeds. -/
theorem Takes.proceeds {p : Parser α} (h : Takes M p) : Proceeds M p := fun c => (h c).mono fun _ _ _ _ => trivial

/-- A parser that nests its spans takes something. -/
theorem Nests.takes {p : Parser α} {spans : α → List SpanTree} (h : Nests M p spans) : Takes M p := fun c =>
  (h c).mono fun _ _ _ hx => hx.1

/-- What nests its spans does so for other spans that are the same. -/
theorem Nests.congr {p : Parser α} {spans spans' : α → List SpanTree} (h : Nests M p spans)
    (hspans : ∀ x, spans x = spans' x) : Nests M p spans' := funext hspans ▸ h

/-- What has no spans is passed, and that is all. -/
theorem Takes.nests {p : Parser α} (h : Takes M p) : Nests M p fun _ => [] := fun c =>
  (h c).mono fun _ _ hstep hpast => ⟨hpast, .nil hstep⟩

/-- What need not be there, where it is there. -/
theorem Nests.some {p : Parser α} {tree : α → SpanTree} (h : Nests M p fun x => [tree x]) :
    Nests M (some <$> p) fun found => found.toList.map tree := fun c => (h c).map fun _ _ _ hx => hx

/-! ## Single tokens -/

/-- To fail for want of something goes anywhere. -/
theorem goes_failExpecting {Q : α → Cursor → Prop} (expected : Expectation) :
    Goes M c (failExpecting expected : Parser α) Q :=
  .get_bind <| .ite (fun _ => .throw _) fun _ => .throw _

/-- To fail for want of levels goes anywhere. -/
theorem goes_failTooDeep {Q : α → Cursor → Prop} : Goes M c (failTooDeep : Parser α) Q := .get_bind (.throw _)

/-- Going on by one token proceeds. -/
theorem proceeds_advance : Proceeds M advance := fun c _ => ⟨c.onward_advance, trivial⟩

/-- Going on by a token that is not the end leads past it. -/
theorem goes_advance (h : c.kind ≠ .eof) : Goes M c advance fun _ c' => c.Past c' := fun hc =>
  ⟨c.onward_advance, hc.past_advance h⟩

/-- Skipping line breaks proceeds. -/
theorem proceeds_skipNewlines : Proceeds M skipNewlines := fun c _ => ⟨c.onward_skipNewlines, trivial⟩

/-- Skipping line breaks in a group proceeds. -/
theorem proceeds_skipNewlinesInGroup : Proceeds M skipNewlinesInGroup := by
  intro c _
  change c.Onward (if 0 < c.groups then c.skipNewlines else c) ∧ True
  split
  · exact ⟨c.onward_skipNewlines, trivial⟩
  · exact ⟨.refl c, trivial⟩

/-- Opening a group proceeds. -/
theorem proceeds_openGroup : Proceeds M openGroup := fun c _ => ⟨c.onward_setGroups _, trivial⟩

/-- Closing a group proceeds. -/
theorem proceeds_closeGroup : Proceeds M closeGroup := fun c _ => ⟨c.onward_setGroups _, trivial⟩

/-- Taking a token that is not the end leads past it. -/
theorem goes_accept {wanted : TokenKind} (h : wanted ≠ .eof) :
    Goes M c (accept wanted) fun found c' => found = true → c.Past c' := by
  refine .isAt_bind <| .ite (fun hkind => ?_) fun _ => .pure fun _ => nofun
  have hkind : c.kind = wanted := of_decide_eq_true hkind
  exact (goes_advance (hkind ▸ h)).bind fun _ _ _ hpast => .pure fun _ _ => hpast

/-- Taking a token if it is there proceeds. -/
theorem proceeds_accept (wanted : TokenKind) : Proceeds M (accept wanted) := fun c =>
  .isAt_bind <| .ite (fun _ => (proceeds_advance c).bind fun _ _ _ _ => .pure fun _ => trivial) fun _ =>
    .pure fun _ => trivial

/-- Taking a token that must be there takes something. -/
theorem takes_expect {wanted : TokenKind} (h : wanted ≠ .eof) : Takes M (expect wanted) := fun _ =>
  (goes_accept h).bind fun _ _ _ hpast => .ite (fun hfound => .pure fun _ => hpast hfound) fun _ =>
    goes_failExpecting _

/-- Taking a name takes something. -/
theorem takes_expectName (expected : Expectation) : Takes M (expectName expected) := by
  intro c
  refine .kind_bind ?_
  split
  · rename_i hkind
    exact (goes_advance (by rw [hkind]; simp)).bind fun _ _ _ hpast => .pure fun _ => hpast
  · exact goes_failExpecting _

/-- Taking a label proceeds. -/
theorem proceeds_acceptLabel : Proceeds M acceptLabel := by
  intro c
  refine .kind_bind ?_
  split
  · refine .isAhead_bind fun _ => .ite (fun _ => ?_) fun _ => .pure fun _ => trivial
    exact (proceeds_advance _).bind fun _ _ _ _ => (proceeds_advance _).bind fun _ _ _ _ => .pure fun _ => trivial
  · exact .pure fun _ => trivial

/-- Taking a comma proceeds. -/
theorem proceeds_acceptSeparator : Proceeds M acceptSeparator := fun c =>
  .isAt_bind <| (proceeds_skipNewlines c).bind fun _ _ _ _ => (proceeds_accept _ _).bind fun _ _ _ _ =>
    .ite (fun _ => (proceeds_skipNewlines _).bind fun _ _ _ _ => .pure fun _ => trivial) fun _ => .pure fun _ => trivial

/-- Ending a line proceeds. -/
theorem proceeds_endLine : Proceeds M endLine := fun c =>
  (proceeds_accept _ c).bind fun _ _ _ _ => .ite (fun _ => .pure fun _ => trivial) fun _ => .get_bind <|
    .ite (fun _ => .pure fun _ => trivial) fun _ => goes_failExpecting _

/-- Looking for more lines proceeds. -/
theorem proceeds_moreLines : Proceeds M moreLines := fun c =>
  (proceeds_accept _ c).bind fun _ _ _ _ => .ite (fun _ => .pure fun _ => trivial) fun _ =>
    .isAt_bind <| .pure fun _ => trivial

/-! ## Repetitions -/

/-- A repetition without a bound on its rounds, each of which passes a token: what it gives, from where to where. -/
inductive Loops (more : Parser Bool) (item : Parser α) : Cursor → Except ParseError (List α) × Cursor → Prop
  | stop {c c' : Cursor} : more.outcome c = (.ok false, c') → Loops more item c (.ok [], c')
  | noMore {c c' : Cursor} {e : ParseError} : more.outcome c = (.error e, c') → Loops more item c (.error e, c')
  | noItem {c c₁ c' : Cursor} {e : ParseError} : more.outcome c = (.ok true, c₁) →
      item.outcome c₁ = (.error e, c') → Loops more item c (.error e, c')
  | round {c c₁ c₂ c' : Cursor} {x : α} {result : Except ParseError (List α)} : more.outcome c = (.ok true, c₁) →
      item.outcome c₁ = (.ok x, c₂) → c.Past c₂ → Loops more item c₂ (result, c') →
      Loops more item c (result.map (x :: ·), c')

section Repetitions

variable {more : Parser Bool} {item : Parser α} {spans : α → List SpanTree}

/-- One round more. -/
theorem outcome_roundsUpTo_succ (fuel : Nat) (c : Cursor) : (roundsUpTo (fuel + 1) more item).outcome c =
    match more.outcome c with
    | (.error e, c₁) => (.error e, c₁)
    | (.ok false, c₁) => (.ok [], c₁)
    | (.ok true, c₁) =>
      match item.outcome c₁ with
      | (.error e, c₂) => (.error e, c₂)
      | (.ok x, c₂) =>
        let (result, c₃) := (roundsUpTo fuel more item).outcome c₂
        (result.map (x :: ·), c₃) := by
  rw [roundsUpTo, outcome_bind]
  rcases more.outcome c with ⟨e | found, c₁⟩
  · rfl
  · cases found with
    | false => rfl
    | true =>
      change (item >>= _).outcome c₁ = _
      rw [outcome_bind]
      dsimp only
      rcases item.outcome c₁ with ⟨e | x, c₂⟩
      · rfl
      · change (roundsUpTo fuel more item >>= fun xs => Pure.pure (x :: xs)).outcome c₂ = _
        rw [outcome_bind]
        dsimp only
        rcases (roundsUpTo fuel more item).outcome c₂ with ⟨e | xs, c₃⟩ <;> rfl

/-- **A repetition whose rounds pass tokens is not stopped by the bound on its rounds.** -/
theorem loops_rounds (hmore : Proceeds M more) (hitem : Takes M item) (hc : c.Sound M) :
    Loops more item c ((rounds more item).outcome c) := by
  suffices h : ∀ fuel c, c.Sound M → c.upcoming.length < fuel →
      Loops more item c ((roundsUpTo fuel more item).outcome c) from h _ c hc (by omega)
  intro fuel
  induction fuel with
  | zero => exact fun _ _ h => absurd h (Nat.not_lt_zero _)
  | succ fuel ih =>
    intro c hc hfuel
    rw [outcome_roundsUpTo_succ]
    have hmore := hmore c hc
    cases hfound : more.outcome c with
    | mk found c₁ =>
      rw [hfound] at hmore
      match found, hmore with
      | .error e, _ => exact .noMore hfound
      | .ok false, _ => exact .stop hfound
      | .ok true, hmore =>
        have hc₁ := hc.onward hmore.1
        have hitem := hitem c₁ hc₁
        dsimp only
        cases hread : item.outcome c₁ with
        | mk read c₂ =>
          rw [hread] at hitem
          match read, hitem with
          | .error e, _ => exact .noItem hfound hread
          | .ok x, hitem =>
            have hpast := hmore.1.trans_past hitem.2
            have hshorter := hpast.length_lt
            exact .round hfound hread hpast (ih c₂ (hc.onward hpast.onward) (by omega))

/-- No more rounds are made than there are tokens, so a repetition is what its rounds make it. -/
theorem Loops.outcome_eq {result : Except ParseError (List α) × Cursor} (h : Loops more item c result) :
    (rounds more item).outcome c = result := by
  suffices hall : ∀ fuel, c.upcoming.length < fuel → (roundsUpTo fuel more item).outcome c = result from
    hall _ (by omega)
  induction h with
  | stop hfound | noMore hfound =>
    intro fuel hfuel
    obtain ⟨fuel, rfl⟩ := Nat.exists_eq_add_one_of_ne_zero (Nat.ne_zero_of_lt hfuel)
    rw [outcome_roundsUpTo_succ, hfound]
  | noItem hfound hread =>
    intro fuel hfuel
    obtain ⟨fuel, rfl⟩ := Nat.exists_eq_add_one_of_ne_zero (Nat.ne_zero_of_lt hfuel)
    rw [outcome_roundsUpTo_succ, hfound]
    dsimp only
    rw [hread]
  | round hfound hread hpast _ ih =>
    intro fuel hfuel
    obtain ⟨fuel, rfl⟩ := Nat.exists_eq_add_one_of_ne_zero (Nat.ne_zero_of_lt hfuel)
    have hshorter := hpast.length_lt
    rw [outcome_roundsUpTo_succ, hfound]
    dsimp only
    rw [hread]
    dsimp only
    rw [ih fuel (by omega)]

/-- A repetition ends where no round follows. -/
theorem Loops.exists_stop {xs : List α} {c' : Cursor} (h : Loops more item c (.ok xs, c')) :
    ∃ last, more.outcome last = (.ok false, c') := by
  generalize hresult : ((.ok xs : Except ParseError (List α)), c') = result at h
  induction h generalizing xs with
  | stop hfound =>
    cases hresult
    exact ⟨_, hfound⟩
  | noMore | noItem => cases hresult
  | @round _ _ _ _ x found _ _ _ _ ih =>
    cases found with
    | error e => cases hresult
    | ok ys =>
      cases hresult
      exact ih rfl

/-- The spans of what the rounds give stand one behind another. -/
theorem goes_rounds (hmore : Proceeds M more) (hitem : Nests M item spans) (c : Cursor) :
    Goes M c (rounds more item) fun xs c' => Between M c c' (xs.flatMap spans) := by
  suffices h : ∀ fuel c, Goes M c (roundsUpTo fuel more item) fun xs c' => Between M c c' (xs.flatMap spans) from
    .get_bind (h _ c)
  intro fuel
  induction fuel with
  | zero => exact fun c => .pure fun hc => .nil (.refl hc)
  | succ fuel ih =>
    intro c
    refine (hmore c).bind fun found c₁ h₁ _ => .ite (fun _ => ?_) fun _ => .pure fun _ => .nil h₁
    refine (hitem c₁).bind fun x c₂ _ hx => (ih c₂).bind fun xs c₃ _ hxs => .pure fun _ => ?_
    exact (hx.2.append hxs).behind h₁

/-- Items behind commas nest their spans, if each item does. -/
theorem nests_commaSeparated (hitem : Nests M item spans) : Nests M (commaSeparated item) (·.flatMap spans) := fun c =>
  (hitem c).bind fun _ c₁ _ hx => (goes_rounds (proceeds_accept _) hitem c₁).bind fun _ _ h₂ hxs =>
    .pure fun _ => ⟨hx.1.trans_onward h₂.onward, hx.2.append hxs⟩

/-- Whether another item follows before the closing bracket. -/
def moreUntil (close : Mark) : Parser Bool := return !(← isAt (.mark close))

/-- An item between brackets, and the separator behind it. -/
def separatedItem (close : Mark) (item : Parser α) : Parser α := do
  let item ← item
  unless (← acceptSeparator) || (← isAt (.mark close)) do failExpecting (.separatorOr close)
  return item

/-- Items up to a bracket are rounds of one item and what separates it from the next. -/
theorem separatedUntil_eq (close : Mark) (item : Parser α) : separatedUntil close item = (do
    skipNewlines
    let items ← rounds (moreUntil close) (separatedItem close item)
    expect (.mark close)
    return items) := rfl

/-- Looking for the bracket proceeds. -/
theorem proceeds_moreUntil (close : Mark) : Proceeds M (moreUntil close) := fun _ => .isAt_bind (.pure fun _ => trivial)

/-- An item with what separates it from the next nests its spans. -/
theorem nests_separatedItem (close : Mark) (hitem : Nests M item spans) : Nests M (separatedItem close item) spans := by
  intro c
  refine (hitem c).bind fun x c₁ h₁ hx => (proceeds_acceptSeparator c₁).bind fun _ c₂ h₂ _ => .isAt_bind ?_
  refine .ite (fun _ => .pure fun _ => ⟨hx.1.trans_onward h₂.onward, hx.2.before h₂⟩) fun _ => ?_
  exact goes_failExpecting (α := PUnit) (Q := fun _ _ => False) _ |>.bind fun _ _ _ h => h.elim

/-- Items up to a bracket nest their spans, if each item does. -/
theorem nests_separatedUntil (close : Mark) (hitem : Nests M item spans) :
    Nests M (separatedUntil close item) (·.flatMap spans) := by
  intro c
  rw [separatedUntil_eq]
  refine (proceeds_skipNewlines c).bind fun _ c₁ h₁ _ => ?_
  refine (goes_rounds (proceeds_moreUntil close) (nests_separatedItem close hitem) c₁).bind fun xs c₂ h₂ hxs => ?_
  refine (takes_expect (by simp) c₂).bind fun _ c₃ h₃ hpast => .pure fun _ => ?_
  exact ⟨(h₁.trans h₂).onward.trans_past hpast, (hxs.behind h₁).before h₃⟩

end Repetitions

end Parser

end TypedData
