import TypedData.Proofs.Parsing.Alongside

/-!
# Two runs side by side

`Parser.Tracks` says that, if a parser succeeds at one cursor, it succeeds at another one in the same way, or fails
there if it may.  It is put together along the parser, and two repetitions that do the same in each round do the same
(`Parser.tracks_rounds`).

Between the brackets of a list or of a call, two cursors that are alongside each other stay so
(`Parser.tracks_separatedUntil`).
-/

namespace TypedData

namespace Parser

variable {M : Material} {mayFail : Prop} {α β γ δ : Type} {c c' : Cursor}

/-- Where the parser `p` succeeds at `c`, the parser `p'` succeeds at `c'`, or it fails, if it may. -/
def Tracks (M : Material) (mayFail : Prop) (c c' : Cursor) (p : Parser α) (p' : Parser β)
    (Q : α → β → Cursor → Cursor → Prop) : Prop :=
  c.Sound M → c'.Sound M → ∀ x d, p.outcome c = (.ok x, d) →
    (mayFail ∧ ∃ e d', p'.outcome c' = (.error e, d')) ∨
      ∃ y d', p'.outcome c' = (.ok y, d') ∧ c.Onward d ∧ c'.Onward d' ∧ Q x y d d'

namespace Tracks

variable {p : Parser α} {p' : Parser β} {k : α → Parser γ} {k' : β → Parser δ} {Q Q' : α → β → Cursor → Cursor → Prop}
  {R : γ → δ → Cursor → Cursor → Prop}

/-- To do nothing on both sides keeps them together. -/
theorem pure {x : α} {y : β} (h : c.Sound M → c'.Sound M → Q x y c c') :
    Tracks M mayFail c c' (Pure.pure x) (Pure.pure y) Q := by
  rintro hc hc' _ _ ⟨⟩
  exact .inr ⟨y, c', rfl, .refl c, .refl c', h hc hc'⟩

/-- The first run fails. -/
theorem fails (h : ∃ e d, p.outcome c = (.error e, d)) : Tracks M mayFail c c' p p' Q := by
  rintro - - x d hx
  obtain ⟨e, d', he⟩ := h
  rw [he] at hx
  cases hx

/-- The second run fails. -/
theorem refused (hmay : mayFail) (h : ∃ e d', p'.outcome c' = (.error e, d')) : Tracks M mayFail c c' p p' Q :=
  fun _ _ _ _ _ => .inl ⟨hmay, h⟩

/-- What the second run gives does not depend on the first run. -/
theorem of_right {y : β} {d' : Cursor} (hp : Proceeds M p) (hy : p'.outcome c' = (.ok y, d')) (honward : c'.Onward d')
    (h : ∀ x d, Q x y d d') : Tracks M mayFail c c' p p' Q := by
  intro hc _ x d hx
  exact .inr ⟨y, d', hy, ((hp c).ok hc hx).1, honward, h x d⟩

/-- Both cursors may be taken as sound. -/
theorem of_sound (h : c.Sound M → c'.Sound M → Tracks M mayFail c c' p p' Q) : Tracks M mayFail c c' p p' Q :=
  fun hc hc' => h hc hc' hc hc'

/-- Two runs are together in whatever follows from where they are. -/
theorem mono (h : Tracks M mayFail c c' p p' Q) (hQ : ∀ x y d d', d.Sound M → d'.Sound M → Q x y d d' → Q' x y d d') :
    Tracks M mayFail c c' p p' Q' := by
  intro hc hc' x d hx
  refine (h hc hc' x d hx).imp_right ?_
  rintro ⟨y, d', hy, honward, honward', hQxy⟩
  exact ⟨y, d', hy, honward, honward', hQ x y d d' (hc.onward honward) (hc'.onward honward') hQxy⟩

/-- Two runs stay together, one step after another. -/
theorem bind (h : Tracks M mayFail c c' p p' Q)
    (hk : ∀ x y d d', Q x y d d' → Tracks M mayFail d d' (k x) (k' y) R) :
    Tracks M mayFail c c' (p >>= k) (p' >>= k') R := by
  intro hc hc' z e hz
  rw [outcome_bind] at hz ⊢
  generalize hfirst : p.outcome c = first at hz
  rcases first with ⟨error | x, d⟩
  · cases hz
  · rcases h hc hc' x d hfirst with ⟨hmay, error, d', herror⟩ | ⟨y, d', hy, honward, honward', hQ⟩
    · rw [herror]
      exact .inl ⟨hmay, error, d', rfl⟩
    · rw [hy]
      refine (hk x y d d' hQ (hc.onward honward) (hc'.onward honward') z e hz).imp_right ?_
      rintro ⟨w, e', hw, hlater, hlater', hR⟩
      exact ⟨w, e', hw, honward.trans hlater, honward'.trans hlater', hR⟩

/-- Two runs that choose in the same way stay together. -/
theorem ite {t : Prop} [Decidable t] {q : Parser α} {q' : Parser β} (hp : t → Tracks M mayFail c c' p p' Q)
    (hq : ¬ t → Tracks M mayFail c c' q q' Q) :
    Tracks M mayFail c c' (if t then p else q) (if t then p' else q') Q := by
  split
  · rename_i h
    exact hp h
  · rename_i h
    exact hq h

/-! ### Looking and moving -/

/-- Looking at the places keeps the runs together, though the places differ. -/
theorem start_bind {k : Nat → Parser γ} {k' : Nat → Parser δ} (h : Tracks M mayFail c c' (k c.start) (k' c'.start) R) :
    Tracks M mayFail c c' (start >>= k) (start >>= k') R := h

/-- Looking at the tokens keeps the runs together. -/
theorem kind_bind {k : TokenKind → Parser γ} {k' : TokenKind → Parser δ}
    (h : Tracks M mayFail c c' (k c.kind) (k' c'.kind) R) : Tracks M mayFail c c' (kind >>= k) (kind >>= k') R := h

/-- Looking for a token keeps the runs together. -/
theorem isAt_bind {wanted : TokenKind} {k : Bool → Parser γ} {k' : Bool → Parser δ}
    (h : Tracks M mayFail c c' (k (c.kind = wanted)) (k' (c'.kind = wanted)) R) :
    Tracks M mayFail c c' (isAt wanted >>= k) (isAt wanted >>= k') R := h

/-- Looking for a token ahead keeps the runs together. -/
theorem isAhead_bind {wanted : TokenKind} {k : Bool → Parser γ} {k' : Bool → Parser δ}
    (h : Tracks M mayFail c c' (k (c.kindAhead? = some wanted)) (k' (c'.kindAhead? = some wanted)) R) :
    Tracks M mayFail c c' (isAhead wanted >>= k) (isAhead wanted >>= k') R := h

/-- Looking at what has been passed keeps the runs together, though the spans differ. -/
theorem spanFrom_bind {offset offset' : Nat} {k : Span → Parser γ} {k' : Span → Parser δ}
    (h : Tracks M mayFail c c' (k ⟨offset, c.lastEnd⟩) (k' ⟨offset', c'.lastEnd⟩) R) :
    Tracks M mayFail c c' (spanFrom offset >>= k) (spanFrom offset' >>= k') R := h

/-- Both runs take a step that succeeds. -/
theorem step_bind {x : α} {y : β} {d d' : Cursor} (hp : p.outcome c = (.ok x, d)) (hp' : p'.outcome c' = (.ok y, d'))
    (honward : c.Onward d) (honward' : c'.Onward d')
    (h : c.Sound M → c'.Sound M → Tracks M mayFail d d' (k x) (k' y) R) :
    Tracks M mayFail c c' (p >>= k) (p' >>= k') R := by
  intro hc hc'
  refine bind (Q := fun x' y' e e' => x' = x ∧ y' = y ∧ e = d ∧ e' = d') ?_ ?_ hc hc'
  · intro _ _ _ _ hx
    rw [hp] at hx
    cases hx
    exact .inr ⟨y, d', hp', honward, honward', rfl, rfl, rfl, rfl⟩
  · rintro _ _ _ _ ⟨rfl, rfl, rfl, rfl⟩
    exact h hc hc'

/-- Both cursors are moved. -/
theorem modify_bind {f : Cursor → Cursor} {k : PUnit → Parser γ} {k' : PUnit → Parser δ}
    (hf : ∀ c : Cursor, c.Onward (f c))
    (h : c.Sound M → c'.Sound M → Tracks M mayFail (f c) (f c') (k ⟨⟩) (k' ⟨⟩) R) :
    Tracks M mayFail c c' (modify f >>= k) (modify f >>= k') R := step_bind rfl rfl (hf c) (hf c') h

/-- Going on by one token keeps the runs together. -/
theorem advance_bind {k : PUnit → Parser γ} {k' : PUnit → Parser δ}
    (h : c.Sound M → c'.Sound M → Tracks M mayFail c.advance c'.advance (k ⟨⟩) (k' ⟨⟩) R) :
    Tracks M mayFail c c' (advance >>= k) (advance >>= k') R := modify_bind Cursor.onward_advance h

/-- Skipping line breaks keeps the runs together. -/
theorem skipNewlines_bind {k : PUnit → Parser γ} {k' : PUnit → Parser δ}
    (h : c.Sound M → c'.Sound M → Tracks M mayFail c.skipNewlines c'.skipNewlines (k ⟨⟩) (k' ⟨⟩) R) :
    Tracks M mayFail c c' (skipNewlines >>= k) (skipNewlines >>= k') R := modify_bind Cursor.onward_skipNewlines h

/-- Skipping line breaks in a group keeps the runs together. -/
theorem skipNewlinesInGroup_bind {k : PUnit → Parser γ} {k' : PUnit → Parser δ}
    (h : c.Sound M → c'.Sound M → Tracks M mayFail c.skipNewlinesInGroup c'.skipNewlinesInGroup (k ⟨⟩) (k' ⟨⟩) R) :
    Tracks M mayFail c c' (skipNewlinesInGroup >>= k) (skipNewlinesInGroup >>= k') R :=
  modify_bind Cursor.onward_skipNewlinesInGroup h

/-- Opening a group keeps the runs together. -/
theorem openGroup_bind {k : PUnit → Parser γ} {k' : PUnit → Parser δ}
    (h : Tracks M mayFail { c with groups := c.groups + 1 } { c' with groups := c'.groups + 1 } (k ⟨⟩) (k' ⟨⟩) R) :
    Tracks M mayFail c c' (openGroup >>= k) (openGroup >>= k') R :=
  modify_bind (fun c => c.onward_setGroups _) fun _ _ => h

/-- Closing a group keeps the runs together. -/
theorem closeGroup_bind {k : PUnit → Parser γ} {k' : PUnit → Parser δ}
    (h : Tracks M mayFail { c with groups := c.groups - 1 } { c' with groups := c'.groups - 1 } (k ⟨⟩) (k' ⟨⟩) R) :
    Tracks M mayFail c c' (closeGroup >>= k) (closeGroup >>= k') R :=
  modify_bind (fun c => c.onward_setGroups _) fun _ _ => h

end Tracks

/-! ### Single tokens -/

/-- To fail for want of something is a failure. -/
theorem exists_error_failExpecting (expected : Expectation) (c : Cursor) :
    ∃ e d, (failExpecting expected : Parser α).outcome c = (.error e, d) := by
  change ∃ e d, (if c.kind = .eof then throw _ else throw _ : Parser α).outcome c = (.error e, d)
  split <;> exact ⟨_, _, rfl⟩

/-- A token is taken if it is at hand, and nothing else is. -/
theorem outcome_accept (wanted : TokenKind) (c : Cursor) :
    (accept wanted).outcome c = if c.kind = wanted then (.ok true, c.advance) else (.ok false, c) := by
  by_cases h : c.kind = wanted
  · change (if decide (c.kind = wanted) = true then _ else _ : Parser Bool).outcome c = _
    rw [if_pos (decide_eq_true h), if_pos h]
    rfl
  · change (if decide (c.kind = wanted) = true then _ else _ : Parser Bool).outcome c = _
    rw [if_neg (mt of_decide_eq_true h), if_neg h]
    rfl

/-- A token that must be there is taken if it is at hand. -/
theorem outcome_expect_of_eq {wanted : TokenKind} (h : c.kind = wanted) :
    (expect wanted).outcome c = (.ok ⟨⟩, c.advance) := by
  change (accept wanted >>= _).outcome c = _
  rw [outcome_bind, outcome_accept, if_pos h]
  rfl

/-- A token of another kind is not passed. -/
theorem exists_error_expect {wanted : TokenKind} (h : c.kind ≠ wanted) (k : PUnit → Parser α) :
    ∃ e d, (expect wanted >>= k).outcome c = (.error e, d) := by
  obtain ⟨e, d, he⟩ := exists_error_failExpecting (α := PUnit) (.token wanted) c
  have hexpect : (expect wanted).outcome c = (.error e, d) := by
    change (accept wanted >>= _).outcome c = _
    rw [outcome_bind, outcome_accept, if_neg h]
    exact he
  exact ⟨e, d, by rw [outcome_bind, hexpect]⟩

namespace Tracks

variable {k : Bool → Parser α} {k' : Bool → Parser β} {R : α → β → Cursor → Cursor → Prop}

/-- Taking a token if it is there keeps the runs together, where both are at the same token. -/
theorem accept_bind {wanted : TokenKind} (hkind : c'.kind = c.kind)
    (hpassed : c.Sound M → c'.Sound M → c.kind = wanted →
      Tracks M mayFail c.advance c'.advance (k true) (k' true) R)
    (hother : c.kind ≠ wanted → Tracks M mayFail c c' (k false) (k' false) R) :
    Tracks M mayFail c c' (accept wanted >>= k) (accept wanted >>= k') R := by
  by_cases hwanted : c.kind = wanted
  · have hpass := (outcome_accept wanted c).trans (if_pos hwanted)
    have hpass' := (outcome_accept wanted c').trans (if_pos (hkind.trans hwanted))
    exact step_bind hpass hpass' c.onward_advance c'.onward_advance fun hc hc' => hpassed hc hc' hwanted
  · have hpass := (outcome_accept wanted c).trans (if_neg hwanted)
    have hpass' := (outcome_accept wanted c').trans (if_neg (hkind ▸ hwanted))
    exact step_bind hpass hpass' (.refl c) (.refl c') fun _ _ => hother hwanted

/-- The token that is expected is passed. -/
theorem expect_bind {wanted : TokenKind} {k : PUnit → Parser α} {k' : PUnit → Parser β} (hkind : c'.kind = c.kind)
    (h : c.Sound M → c'.Sound M → c.kind = wanted → Tracks M mayFail c.advance c'.advance (k ⟨⟩) (k' ⟨⟩) R) :
    Tracks M mayFail c c' (expect wanted >>= k) (expect wanted >>= k') R := by
  by_cases hwanted : c.kind = wanted
  · exact step_bind (outcome_expect_of_eq hwanted) (outcome_expect_of_eq (hkind.trans hwanted)) c.onward_advance
      c'.onward_advance fun hc hc' => h hc hc' hwanted
  · exact .fails (exists_error_expect hwanted k)

end Tracks

/-- Looking at the token takes nothing. -/
theorem outcome_kind_bind (k : TokenKind → Parser α) (c : Cursor) : (kind >>= k).outcome c = (k c.kind).outcome c := rfl

/-- A name is taken if it is at hand. -/
theorem outcome_expectName {text : String} (expected : Expectation) (h : c.kind = .name text) :
    (expectName expected).outcome c = (.ok text, c.advance) := by
  rw [expectName, outcome_kind_bind, h]
  rfl

/-- Without a name at hand there is a failure. -/
theorem exists_error_expectName (expected : Expectation) (h : c.kind.isName = false) :
    ∃ e d, (expectName expected).outcome c = (.error e, d) := by
  rw [expectName, outcome_kind_bind]
  split
  · rename_i hname
    rw [hname] at h
    cases h
  · exact exists_error_failExpecting expected c

/-- Taking a name keeps the runs together, where both are at the same token. -/
theorem Tracks.expectName_bind {expected : Expectation} {k : String → Parser α} {k' : String → Parser β}
    {R : α → β → Cursor → Cursor → Prop} (hkind : c'.kind = c.kind)
    (h : c.Sound M → c'.Sound M → ∀ text, c.kind = .name text →
      Tracks M mayFail c.advance c'.advance (k text) (k' text) R) :
    Tracks M mayFail c c' (expectName expected >>= k) (expectName expected >>= k') R := by
  cases hname : c.kind with
  | name text =>
    exact .step_bind (outcome_expectName expected hname) (outcome_expectName expected (hkind.trans hname))
      c.onward_advance c'.onward_advance fun hc hc' => h hc hc' text hname
  | _ =>
    exact .bind (Q := fun _ _ _ _ => False) (.fails (exists_error_expectName expected (by rw [hname]; rfl)))
      fun _ _ _ _ h => h.elim

/-! ### Repetitions -/

/-- Both runs make the same rounds, if their rounds do the same. -/
theorem tracks_rounds {more : Parser Bool} {item : Parser α} {S : α → α → Prop} {A B : Cursor → Cursor → Prop}
    (hproceeds : Proceeds M more) (htakes : Takes M item)
    (hmore : ∀ c c', A c c' → Tracks M mayFail c c' more more fun found found' d d' =>
      found' = found ∧ A d d' ∧ (found = true → B d d'))
    (hitem : ∀ c c', B c c' → Tracks M mayFail c c' item item fun x y d d' => S x y ∧ A d d') (h : A c c') :
    Tracks M mayFail c c' (rounds more item) (rounds more item) fun xs ys d d' => List.Forall₂ S xs ys ∧ A d d' := by
  intro hc hc' xs d hxs
  suffices hloops : (mayFail ∧ ∃ e d', Loops more item c' (.error e, d')) ∨
      ∃ ys d', Loops more item c' (.ok ys, d') ∧ c.Onward d ∧ c'.Onward d' ∧ List.Forall₂ S xs ys ∧ A d d' by
    rcases hloops with ⟨hmay, e, d', hloops⟩ | ⟨ys, d', hloops, hrest⟩
    · exact .inl ⟨hmay, e, d', hloops.outcome_eq⟩
    · exact .inr ⟨ys, d', hloops.outcome_eq, hrest⟩
  -- the induction is on the rounds that the first run makes, and each of them is made in the second one
  have hloops := loops_rounds hproceeds htakes hc
  rw [hxs] at hloops
  clear hxs
  generalize hresult : ((.ok xs : Except ParseError (List α)), d) = result at hloops
  induction hloops generalizing xs c' with
  | noMore | noItem => cases hresult
  | @stop c d hfound =>
    cases hresult
    rcases hmore c c' h hc hc' false d hfound with
      ⟨hmay, e, d', herror⟩ | ⟨_, d', hfound', honward, honward', rfl, hA, -⟩
    · exact .inl ⟨hmay, e, d', .noMore herror⟩
    · exact .inr ⟨[], d', .stop hfound', honward, honward', .nil, hA⟩
  | @round c c₁ c₂ _ x found hfound hread hpast _ ih =>
    cases found with
    | error e => cases hresult
    | ok tail =>
      cases hresult
      rcases hmore c c' h hc hc' true c₁ hfound with
        ⟨hmay, e, d', herror⟩ | ⟨_, c₁', hfound', honward, honward', rfl, -, hB⟩
      · exact .inl ⟨hmay, e, d', .noMore herror⟩
      have hc₁' := hc'.onward honward'
      rcases hitem c₁ c₁' (hB rfl) (hc.onward honward) hc₁' x c₂ hread with
        ⟨hmay, e, d', herror⟩ | ⟨y, c₂', hread', hlater, hlater', hS, hA⟩
      · exact .inl ⟨hmay, e, d', .noItem hfound' herror⟩
      have hpast' : c'.Past c₂' := honward'.trans_past ((htakes c₁').ok hc₁' hread').2
      rcases ih hA (hc.onward hpast.onward) (hc'.onward hpast'.onward) tail rfl with
        ⟨hmay, e, d', hloops⟩ | ⟨ys, d', hloops, hrest, hrest', hxs, hA⟩
      · exact .inl ⟨hmay, e, d', .round hfound' hread' hpast' hloops⟩
      · exact .inr ⟨y :: ys, d', .round hfound' hread' hpast' hloops, hpast.onward.trans hrest,
          hpast'.onward.trans hrest', .cons hS hxs, hA⟩

/-! ### Items between brackets -/

section Items

variable {b : LineBreak} {bracket : Enclosure} {outer : List Enclosure} {groups : Nat}

variable (hbracket : bracket ≠ .group)

include hbracket

/-- Taking a comma keeps the runs together, also over a line break. -/
theorem tracks_acceptSeparator (h : Alongside b (bracket :: outer) groups c c') :
    Tracks M mayFail c c' acceptSeparator acceptSeparator fun found found' d d' =>
      found' = found ∧ Alongside b (bracket :: outer) groups d d' ∧ (found = true → d.Fresh) := by
  have hinner : (bracket :: outer).head? ≠ some .group := fun h => hbracket (Option.some.inj h)
  refine .isAt_bind <| .skipNewlines_bind fun hc hc' => ?_
  obtain ⟨h₁, hkind₁⟩ := h.skipNewlines (fun hat => absurd hat.fits.innermost hinner) hc hc'
  refine .accept_bind hkind₁ (fun hc₁ hc₁' hcomma => .skipNewlines_bind fun hc₂ hc₂' => .pure fun _ _ => ?_) fun _ =>
    .pure fun _ _ => ?_
  · obtain ⟨h₂, hlast⟩ := h₁.advance hkind₁ hcomma (by simp) hc₁ hc₁'
    refine ⟨rfl, (h₂.skipNewlines (fun hat => absurd hat.fits.innermost hinner) hc₂ hc₂').1, fun _ => ?_⟩
    exact hc₂.fresh_skipNewlines (.inr (Cursor.fresh_of_lastKind hlast rfl (by simp)))
  · refine ⟨by rw [h.kind_eq hinner], h₁, fun hbroken => ?_⟩
    exact hc.fresh_skipNewlines (.inl (of_decide_eq_true hbroken))

/-- Taking a label keeps the runs together, where something new begins. -/
theorem tracks_acceptLabel (h : Alongside b (bracket :: outer) groups c c') (hfresh : c.Fresh) :
    Tracks M mayFail c c' acceptLabel acceptLabel fun label label' d d' =>
      label' = label ∧ Alongside b (bracket :: outer) groups d d' ∧ d.Fresh := by
  have hinner : (bracket :: outer).head? ≠ some .group := fun h => hbracket (Option.some.inj h)
  have hkind := h.kind_eq hinner
  refine .kind_bind ?_
  rw [hkind]
  split
  · rename_i text hname
    refine .of_sound fun hc hc' => ?_
    have heof : c.kind ≠ .eof := by
      rw [hname]
      simp
    obtain ⟨h₁, -⟩ := h.advance hkind hname (by simp) hc hc'
    have hkind₁ : c'.advance.kind = c.advance.kind := h₁.kind_eq hinner
    have hahead : c'.kindAhead? = c.kindAhead? := by
      rw [hc.kindAhead?_eq heof, hc'.kindAhead?_eq (hkind ▸ heof), hkind₁]
    refine .isAhead_bind ?_
    rw [hahead]
    refine .ite (fun hcolon => ?_) fun _ => .pure fun _ _ => ⟨rfl, h, hfresh⟩
    have hcolon : c.advance.kind = .mark .colon :=
      Option.some.inj ((hc.kindAhead?_eq heof).symm.trans (of_decide_eq_true hcolon))
    refine .advance_bind fun _ _ => .advance_bind fun hc₁ hc₁' => .pure fun _ _ => ?_
    obtain ⟨h₂, hlast⟩ := h₁.advance hkind₁ hcolon (by simp) hc₁ hc₁'
    exact ⟨rfl, h₂, Cursor.fresh_of_lastKind hlast rfl (by simp)⟩
  · exact .pure fun _ _ => ⟨rfl, h, hfresh⟩

/-- The items of a list or of a call are read in the same way, and so are the separators. -/
theorem tracks_separatedUntil {item : Parser α} {S : α → α → Prop} {close : Mark}
    (hclose : ∀ s : Surroundings, (s.pass (.mark close)).brackets = s.brackets.tail) (htakes : Takes M item)
    (hitem : ∀ c c', Alongside b (bracket :: outer) groups c c' → c.Fresh →
      Tracks M mayFail c c' item item fun x y d d' => S x y ∧ Alongside b (bracket :: outer) groups d d')
    (h : Alongside b (bracket :: outer) groups c c') (hfresh : c.Fresh) :
    Tracks M mayFail c c' (separatedUntil close item) (separatedUntil close item) fun xs ys d d' =>
      List.Forall₂ S xs ys ∧ Alongside b outer groups d d' ∧ d.lastKind = some (.mark close) := by
  have hinner : (bracket :: outer).head? ≠ some .group := fun h => hbracket (Option.some.inj h)
  rw [separatedUntil_eq]
  refine .skipNewlines_bind fun hc hc' => ?_
  have h₁ := (h.skipNewlines (fun hat => absurd hat.fits.innermost hinner) hc hc').1
  refine .bind (tracks_rounds (S := S) (proceeds_moreUntil close) (nests_separatedItem close htakes.nests).takes
    (A := fun c c' => Alongside b (bracket :: outer) groups c c' ∧ (c.kind = .mark close ∨ c.Fresh))
    (B := fun c c' => Alongside b (bracket :: outer) groups c c' ∧ c.Fresh) ?_ ?_
    ⟨h₁, .inr (hc.fresh_skipNewlines (.inr hfresh))⟩) ?_
  · rintro c c' ⟨h, hstarts⟩
    refine .isAt_bind <| .pure fun _ _ => ⟨by rw [h.kind_eq hinner], ⟨h, hstarts⟩, fun hmore => ⟨h, ?_⟩⟩
    exact hstarts.resolve_left (by simpa using hmore)
  · rintro c c' ⟨h, hfresh⟩
    refine (hitem c c' h hfresh).bind fun x y d d' ⟨hS, h⟩ => ?_
    refine (tracks_acceptSeparator hbracket h).bind fun found found' d d' ⟨hfound, h, hbehind⟩ => ?_
    subst hfound
    refine .isAt_bind ?_
    rw [h.kind_eq hinner]
    refine .ite (fun hends => .pure fun _ _ => ⟨hS, h, ?_⟩) fun _ => .bind (Q := fun _ _ _ _ => False)
      (.fails (exists_error_failExpecting _ _)) fun _ _ _ _ h => h.elim
    rcases Bool.or_eq_true_iff.1 hends with hfound | hat
    · exact .inr (hbehind hfound)
    · exact .inl (of_decide_eq_true hat)
  · rintro xs ys d d' ⟨hxs, h, -⟩
    refine .expect_bind (h.kind_eq hinner) fun hc hc' hkind => .pure fun _ _ => ⟨hxs, ?_⟩
    obtain ⟨h', hlast⟩ := h.advance (h.kind_eq hinner) hkind (by simp) hc hc'
    rw [hclose] at h'
    exact ⟨h', hlast⟩

end Items

end Parser

end TypedData
