import TypedData.Document.Parser.Basic
import TypedData.Proofs.Lists

/-!
# What parsers read

`Parser.Reads p A B P` says that `p` reads what lies between two places: from a cursor with `A` it comes to
a cursor with `B` and gives something with `P`, unless it finds that something is nested too deeply.  Such
statements are put together along the parser (`Reads.bind`); repetitions read as many parts as there are
(`Reads.rounds`).
-/

namespace TypedData

namespace Cursor

/-- The kinds of the tokens from here on. -/
def ahead (c : Cursor) : List TokenKind := c.kind :: c.upcoming.map Token.kind

/-- The cursor stands before these tokens. -/
def At (kinds : List TokenKind) (c : Cursor) : Prop := c.ahead = kinds

/-- At the beginning, the cursor stands before the kinds of all tokens. -/
theorem at_ofTokens {tokens : List Token} {kinds : List TokenKind} (h : tokens.map Token.kind = kinds)
    (hne : kinds ≠ []) : (ofTokens tokens).At kinds := by
  cases tokens with
  | nil => exact absurd h.symm hne
  | cons token tokens => exact h

end Cursor

namespace Parser

open Cursor (At)

variable {α β : Type}

/-- What a parser gives and the cursor after it. -/
def outcome (p : Parser α) (c : Cursor) : Except ParseError α × Cursor := p.run c

/-- The second parser starts where the first one stops, if this gives something. -/
theorem outcome_bind (p : Parser α) (k : α → Parser β) (c : Cursor) :
    (p >>= k).outcome c =
      match p.outcome c with
      | (.ok x, c') => (k x).outcome c'
      | (.error e, c') => (.error e, c') := by
  change (match p.outcome c with
    | (r, c') => ((ExceptT.bindCont k r : StateM Cursor (Except ParseError β)).run c')) = _
  rcases p.outcome c with ⟨_ | x, c'⟩
  · rfl
  · rfl

/-- The parser reads what lies between two places, or it finds that something is nested too deeply. -/
def Reads (p : Parser α) (A B : Cursor → Prop) (P : α → Prop) : Prop :=
  ∀ c, A c → (∃ span c', p.outcome c = (.error (.tooDeep span), c')) ∨
    ∃ x c', p.outcome c = (.ok x, c') ∧ B c' ∧ P x

namespace Reads

variable {p : Parser α} {k : α → Parser β} {A B C : Cursor → Prop} {P P' : α → Prop} {Q : β → Prop}

/-- To do nothing reads nothing. -/
theorem pure {x : α} (h : P x) : Reads (Pure.pure x) A A P := fun c hc => .inr ⟨x, c, rfl, hc, h⟩

/-- Two parsers read one after the other. -/
theorem bind (h : Reads p A B P) (hk : ∀ x, P x → Reads (k x) B C Q) : Reads (p >>= k) A C Q := by
  intro c hc
  rw [outcome_bind]
  rcases h c hc with ⟨span, c', hdeep⟩ | ⟨x, c', hread, hB, hP⟩
  · rw [hdeep]
    exact .inl ⟨span, c', rfl⟩
  · rw [hread]
    exact hk x hP c' hB

/-- After two branches that come to one place it goes on in the same way. -/
theorem bind_branches {b : Parser Bool} {p q : Parser α} (h : Reads (do if ← b then p else q) A B P)
    (hk : ∀ x, P x → Reads (k x) B C Q) : Reads (do if ← b then p >>= k else q >>= k) A C Q := by
  have hassoc : (do if ← b then p >>= k else q >>= k) = (do if ← b then p else q) >>= k := by
    rw [bind_assoc]
    congr 1
    funext found
    cases found <;> rfl
  rw [hassoc]
  exact h.bind hk

/-- A parser that gives a certain thing leaves the next one to go on with it. -/
theorem bind_eq {x : α} (h : Reads p A B (· = x)) (hk : Reads (k x) B C Q) : Reads (p >>= k) A C Q :=
  h.bind fun _ hx => hx ▸ hk

/-- What is made of the result is read as the result is. -/
theorem map {f : α → β} (h : Reads p A B P) (hf : ∀ x, P x → Q (f x)) : Reads (f <$> p) A B Q := by
  rw [map_eq_pure_bind]
  exact h.bind fun x hx => .pure (hf x hx)

/-- What is read has everything that follows. -/
theorem mono (h : Reads p A B P) (hP : ∀ x, P x → P' x) : Reads p A B P' := by
  intro c hc
  rcases h c hc with hdeep | ⟨x, c', hread, hB, hx⟩
  · exact .inl hdeep
  · exact .inr ⟨x, c', hread, hB, hP x hx⟩

/-- The place that is come to may be told less of. -/
theorem weaken (h : Reads p A B P) (hB : ∀ c, B c → C c) : Reads p A C P := by
  intro c hc
  rcases h c hc with hdeep | ⟨x, c', hread, hc', hx⟩
  · exact .inl hdeep
  · exact .inr ⟨x, c', hread, hB c' hc', hx⟩

/-- A parser that only looks at the cursor. -/
theorem look {f : Cursor → α} (h : ∀ c, A c → P (f c)) :
    Reads (do return f (← get)) A A P := fun c hc => .inr ⟨f c, c, rfl, hc, h c hc⟩

/-- Looking at the cursor reads nothing. -/
theorem glance {f : Cursor → α} : Reads (do return f (← get)) A A fun _ => True := .look fun _ _ => trivial

/-- The cursor is where it has come to. -/
theorem get : Reads MonadState.get A A A := fun c hc => .inr ⟨c, c, rfl, hc, hc⟩

/-- To fail for want of levels reads anything. -/
theorem tooDeep : Reads (failTooDeep : Parser α) A B P := fun c _ => .inl ⟨c.current.span, c, rfl⟩

end Reads

/-! ## Single tokens -/

variable {kind kind' next : TokenKind} {rest : List TokenKind} {A : Cursor → Prop}

/-- The token at hand is the first of those ahead. -/
theorem kind_of_at {kinds : List TokenKind} {c : Cursor} (h : c.At (kind :: kinds)) : c.kind = kind :=
  (List.cons.inj h).1

/-- The token after the one at hand is the second of those ahead. -/
theorem kindAhead?_of_at {c : Cursor} (h : c.At (kind :: next :: rest)) : c.kindAhead? = some next := by
  have h := (List.cons.inj h).2
  rw [Cursor.kindAhead?, ← List.getElem?_map, h]
  rfl

/-- Looking at the token gives the first of those ahead. -/
theorem reads_kind : Reads Parser.kind (At (kind :: rest)) (At (kind :: rest)) (· = kind) :=
  .look fun _ hc => kind_of_at hc

/-- The token is there. -/
theorem reads_isAt_self : Reads (isAt kind) (At (kind :: rest)) (At (kind :: rest)) (· = true) :=
  .look fun _ hc => decide_eq_true (kind_of_at hc)

/-- The token comes next. -/
theorem reads_isAhead_self :
    Reads (isAhead next) (At (kind :: next :: rest)) (At (kind :: next :: rest)) (· = true) :=
  .look fun _ hc => decide_eq_true (kindAhead?_of_at hc)

/-- Another token comes next. -/
theorem reads_isAhead_of_ne {wanted : TokenKind} (h : next ≠ wanted) :
    Reads (isAhead wanted) (At (kind :: next :: rest)) (At (kind :: next :: rest)) (· = false) :=
  .look fun _ hc => decide_eq_false fun hwanted => h (Option.some.inj ((kindAhead?_of_at hc).symm.trans hwanted))

/-- The token comes after the next one. -/
theorem reads_isFurtherAhead_self {further : TokenKind} : Reads (isFurtherAhead further)
    (At (kind :: next :: further :: rest)) (At (kind :: next :: further :: rest)) (· = true) := by
  refine .look fun c hc => decide_eq_true ?_
  rw [Cursor.kindFurtherAhead?, ← List.getElem?_map, (List.cons.inj hc).2]
  rfl

/-- Another token comes after the next one. -/
theorem reads_isFurtherAhead_of_ne {further wanted : TokenKind} (h : further ≠ wanted) :
    Reads (isFurtherAhead wanted) (At (kind :: next :: further :: rest)) (At (kind :: next :: further :: rest))
      (· = false) := by
  refine .look fun c hc => decide_eq_false fun hwanted => ?_
  rw [Cursor.kindFurtherAhead?, ← List.getElem?_map, (List.cons.inj hc).2] at hwanted
  exact h (Option.some.inj hwanted)

/-- Looking at the place reads nothing. -/
theorem reads_start : Reads start A A fun _ => True := .glance

/-- Looking at what has been passed reads nothing. -/
theorem reads_spanFrom (offset : Nat) : Reads (spanFrom offset) A A fun _ => True := .glance

/-- Going on leads to the second of the tokens ahead, and remembers the first. -/
theorem advance_of_at {c : Cursor} (h : c.At (kind :: next :: rest)) :
    c.advance.At (next :: rest) ∧ c.advance.previous.map Token.kind = some kind := by
  have htail := (List.cons.inj h).2
  unfold Cursor.advance
  split
  · rename_i hnil
    rw [hnil] at htail
    cases htail
  · rename_i token tokens hcons
    rw [hcons] at htail
    exact ⟨htail, congrArg some (kind_of_at h)⟩

/-- Going on reads one token. -/
theorem reads_advance : Reads advance (At (kind :: next :: rest)) (At (next :: rest)) fun _ => True :=
  fun c hc => .inr ⟨(), c.advance, rfl, (advance_of_at hc).1, trivial⟩

/-- Where there are no line breaks, none are skipped. -/
theorem skipNewlines_of_at {c : Cursor} (h : c.At (kind :: rest)) (hkind : kind ≠ .newline) :
    c.skipNewlines.At (kind :: rest) := by
  have hc : c.current.kind ≠ .newline := fun hnewline => hkind ((kind_of_at h).symm.trans hnewline)
  unfold Cursor.skipNewlines
  rcases c with ⟨previous, current, upcoming, groups⟩
  cases upcoming with
  | nil => exact h
  | cons token tokens =>
    rw [Cursor.skipNewlinesFrom, if_neg hc]
    exact h

/-- Skipping line breaks reads nothing where there are none. -/
theorem reads_skipNewlines (hkind : kind ≠ .newline) :
    Reads skipNewlines (At (kind :: rest)) (At (kind :: rest)) fun _ => True :=
  fun c hc => .inr ⟨(), c.skipNewlines, rfl, skipNewlines_of_at hc hkind, trivial⟩

/-- The token is there and is passed. -/
theorem reads_accept : Reads (accept kind) (At (kind :: next :: rest)) (At (next :: rest)) (· = true) := by
  refine reads_isAt_self.bind_eq ?_
  exact reads_advance.bind fun _ _ => .pure rfl

/-- Another token is there. -/
theorem reads_isAt_false {wanted : TokenKind} (h : ∀ c, A c → c.kind ≠ wanted) : Reads (isAt wanted) A A (· = false) :=
  .look fun c hc => decide_eq_false (h c hc)

/-- Another token is not the one that is looked for. -/
theorem reads_isAt_of_ne (h : kind ≠ kind') : Reads (isAt kind') (At (kind :: rest)) (At (kind :: rest)) (· = false) :=
  reads_isAt_false fun _ hc => (kind_of_at hc).trans_ne h

/-- Another token is there and is not passed. -/
theorem reads_accept_false {wanted : TokenKind} (h : ∀ c, A c → c.kind ≠ wanted) :
    Reads (accept wanted) A A (· = false) := by
  refine (reads_isAt_false h).bind_eq ?_
  exact .pure rfl

/-- Another token than the one at hand is not taken. -/
theorem reads_accept_of_ne (h : kind ≠ kind') :
    Reads (accept kind') (At (kind :: rest)) (At (kind :: rest)) (· = false) :=
  reads_accept_false fun _ hc => (kind_of_at hc).trans_ne h

/-- A token that must be there is read. -/
theorem reads_expect : Reads (expect kind) (At (kind :: next :: rest)) (At (next :: rest)) fun _ => True := by
  refine reads_accept.bind_eq ?_
  exact .pure trivial

/-- A name is read. -/
theorem reads_expectName {name : String} (expected : Expectation) :
    Reads (expectName expected) (At (.name name :: next :: rest)) (At (next :: rest)) (· = name) := by
  refine reads_kind.bind_eq ?_
  exact reads_advance.bind fun _ _ => .pure rfl

/-- A label is read with the colon behind it. -/
theorem reads_acceptLabel {name : String} : Reads acceptLabel
    (At (.name name :: .mark .colon :: next :: rest)) (At (next :: rest)) (· = some name) := by
  refine reads_kind.bind_eq ?_
  refine reads_isAhead_self.bind_eq ?_
  exact reads_advance.bind fun _ _ => reads_advance.bind fun _ _ => .pure rfl

/-- The token does not come next. -/
theorem reads_isAhead_false {wanted : TokenKind} (h : ∀ tail, rest ≠ wanted :: tail) :
    Reads (isAhead wanted) (At (kind :: rest)) (At (kind :: rest)) (· = false) := by
  refine .look fun c hc => decide_eq_false fun hwanted => ?_
  cases rest with
  | nil =>
    have hnil : c.upcoming.map Token.kind = [] := (List.cons.inj hc).2
    rw [Cursor.kindAhead?, List.map_eq_nil_iff.1 hnil] at hwanted
    cases hwanted
  | cons next rest =>
    obtain rfl := Option.some.inj ((kindAhead?_of_at hc).symm.trans hwanted)
    exact h rest rfl

/-- There is no name of an argument. -/
theorem reads_acceptLabel_none {kinds : List TokenKind} (h : ∀ name tail, kinds ≠ .name name :: .mark .colon :: tail) :
    Reads acceptLabel (At kinds) (At kinds) (· = none) := by
  cases kinds with
  | nil => exact fun c hc => absurd hc (List.cons_ne_nil _ _)
  | cons kind rest =>
    refine reads_kind.bind_eq ?_
    cases kind with
    | name text =>
      refine (reads_isAhead_false fun tail htail => h text tail (by rw [htail])).bind_eq ?_
      exact .pure rfl
    | _ => exact .pure rfl

/-! ## Repetitions -/

variable {X : Type} {more : Parser Bool} {item : Parser α} {shown : List X → List TokenKind}
  {B : Cursor → Prop} {P : X → α → Prop}

/-- The rounds of a repetition read one part each, if `more` and `item` do. -/
theorem reads_roundsUpTo {xs : List X}
    (hround : ∀ x tail, x :: tail <:+ xs → ∃ M, Reads more (At (shown (x :: tail))) M (· = true) ∧
      Reads item M (At (shown tail)) (P x))
    (hend : Reads more (At (shown [])) B (· = false)) {fuel : Nat} (hfuel : xs.length < fuel) :
    Reads (roundsUpTo fuel more item) (At (shown xs)) B (List.Forall₂ P xs) := by
  induction xs generalizing fuel with
  | nil =>
    obtain ⟨fuel, rfl⟩ := Nat.exists_eq_succ_of_ne_zero (Nat.ne_of_gt hfuel)
    rw [roundsUpTo]
    refine hend.bind_eq ?_
    exact .pure .nil
  | cons x xs ih =>
    obtain ⟨fuel, rfl⟩ := Nat.exists_eq_succ_of_ne_zero (Nat.ne_zero_of_lt hfuel)
    obtain ⟨M, hmore, hitem⟩ := hround x xs List.suffix_rfl
    have hrest := ih (fun y tail htail => hround y tail (htail.trans (List.suffix_cons x xs)))
      (Nat.lt_of_succ_lt_succ hfuel)
    rw [roundsUpTo]
    refine hmore.bind_eq ?_
    exact hitem.bind fun y hy => hrest.bind fun ys hys => .pure (.cons hy hys)

/-- A repetition reads all its parts, if each of them takes a token. -/
theorem reads_rounds {xs : List X}
    (hround : ∀ x tail, x :: tail <:+ xs → ∃ M, Reads more (At (shown (x :: tail))) M (· = true) ∧
      Reads item M (At (shown tail)) (P x))
    (hend : Reads more (At (shown [])) B (· = false)) (hlength : xs.length ≤ (shown xs).length) :
    Reads (rounds more item) (At (shown xs)) B (List.Forall₂ P xs) := by
  intro c hc
  have hfuel : xs.length < c.upcoming.length + 2 := by
    have h := congrArg List.length hc
    rw [Cursor.ahead, List.length_cons, List.length_map] at h
    omega
  exact reads_roundsUpTo hround hend hfuel c hc

/-- A repetition reads nothing where there is no round. -/
theorem reads_rounds_nil {A : Cursor → Prop} (h : Reads more A B (· = false)) :
    Reads (rounds more item) A B (· = []) := by
  refine Reads.get.bind fun c _ => ?_
  rw [roundsUpTo]
  refine h.bind_eq ?_
  exact .pure rfl

/-- A repetition of one round reads what the round does. -/
theorem reads_rounds_singleton {A M C : Cursor → Prop} {P : α → Prop} (hmore : Reads more A M (· = true))
    (hitem : Reads item M C P) (hend : Reads more C B (· = false)) :
    Reads (rounds more item) A B fun found => ∃ x, found = [x] ∧ P x := by
  refine Reads.get.bind fun c _ => ?_
  have hnone : Reads (roundsUpTo (c.upcoming.length + 1) more item) C B (· = []) := by
    rw [roundsUpTo]
    refine hend.bind_eq ?_
    exact .pure rfl
  rw [roundsUpTo]
  refine hmore.bind_eq ?_
  exact hitem.bind fun x hx => hnone.bind_eq (.pure ⟨x, rfl, hx⟩)

/-- There are no more parts than tokens, if each part has a token. -/
theorem length_le_shown {xs : List X}
    (h : ∀ x tail, x :: tail <:+ xs → (shown tail).length < (shown (x :: tail)).length) :
    xs.length ≤ (shown xs).length := by
  induction xs with
  | nil => exact Nat.zero_le _
  | cons x xs ih =>
    have hxs := ih fun y tail htail => h y tail (htail.trans (List.suffix_cons x xs))
    exact Nat.lt_of_le_of_lt hxs (h x xs List.suffix_rfl)

/-! ## Rows of items -/

/-- The tokens of items with commas between them, and of what follows. -/
def commas (shown : X → List TokenKind) (after : List TokenKind) : List X → List TokenKind
  | [] => after
  | [x] => shown x ++ after
  | x :: y :: xs => shown x ++ .mark .comma :: commas shown after (y :: xs)

/-- The tokens start with one that is neither a newline nor the end of a row. -/
def Starts (close : Mark) (kinds : List TokenKind) : Prop :=
  ∃ kind tail, kinds = kind :: tail ∧ kind ≠ .newline ∧ kind ≠ .mark close

section Rows

variable {shown : X → List TokenKind} {after : List TokenKind} {close : Mark} {xs : List X}

/-- There are no fewer tokens than parts. -/
theorem length_le_commas (h : ∀ x ∈ xs, shown x ≠ []) :
    xs.length ≤ (commas shown after xs).length := by
  fun_induction commas shown after xs with
  | case1 => exact Nat.zero_le _
  | case2 x =>
    have := List.length_pos_iff.2 (h x List.mem_cons_self)
    rw [List.length_append, List.length_singleton]
    omega
  | case3 x y xs ih =>
    have := ih fun x hx => h x (List.mem_cons_of_mem _ hx)
    simp only [List.length_append, List.length_cons] at this ⊢
    omega

/-- Something follows the parts with commas between them. -/
theorem exists_commas_eq_cons (shown : X → List TokenKind) (h : after ≠ []) (xs : List X) :
    ∃ kind tail, commas shown after xs = kind :: tail := by
  refine List.exists_cons_of_ne_nil ?_
  fun_induction commas shown after xs with
  | case1 => exact h
  | case2 x => exact List.append_ne_nil_of_right_ne_nil _ h
  | case3 x y xs _ => exact List.append_ne_nil_of_right_ne_nil _ (List.cons_ne_nil _ _)

/-- A row of items starts with a token that is no newline. -/
theorem commas_starts (after : List TokenKind) (h : ∀ x ∈ xs, Starts close (shown x)) {x : X} {tail : List X}
    (htail : x :: tail <:+ xs) : Starts close (commas shown after (x :: tail)) := by
  obtain ⟨kind, more, hshown, hnewline, hclose⟩ := h x (htail.subset List.mem_cons_self)
  cases tail with
  | nil => exact ⟨kind, more ++ after, by rw [commas, hshown, List.cons_append], hnewline, hclose⟩
  | cons y tail =>
    refine ⟨kind, more ++ .mark .comma :: commas shown after (y :: tail), ?_, hnewline, hclose⟩
    rw [commas, hshown, List.cons_append]

/-- A separator is there and is passed. -/
theorem reads_acceptSeparator (hrest : Starts close rest) :
    Reads acceptSeparator (At (.mark .comma :: rest)) (At rest) (· = true) := by
  obtain ⟨kind, tail, rfl, hnewline, -⟩ := hrest
  refine (reads_isAt_of_ne (by rintro ⟨⟩)).bind_eq ?_
  refine (reads_skipNewlines (by rintro ⟨⟩)).bind fun _ _ => reads_accept.bind_eq ?_
  exact (reads_skipNewlines hnewline).bind fun _ _ => .pure rfl

/-- At the end of a row there is no separator. -/
theorem reads_acceptSeparator_close (hclose : close ≠ .comma) :
    Reads acceptSeparator (At (.mark close :: rest)) (At (.mark close :: rest)) (· = false) := by
  refine (reads_isAt_of_ne (by rintro ⟨⟩)).bind_eq ?_
  refine (reads_skipNewlines (by rintro ⟨⟩)).bind fun _ _ => ?_
  exact (reads_accept_of_ne (by rintro ⟨⟩; exact hclose rfl)).bind_eq (.pure rfl)

/-- **Items are read up to the closing bracket,** if a separator is read behind each of them but perhaps the last. -/
theorem reads_separated {tokens : List X → List TokenKind}
    (hopening : Reads skipNewlines A (At (tokens xs)) fun _ => True)
    (hstarts : ∀ x tail, x :: tail <:+ xs → Starts close (tokens (x :: tail)))
    (hitem : ∀ x tail, x :: tail <:+ xs → ∃ after found, Reads item (At (tokens (x :: tail))) (At after) (P x) ∧
      Reads acceptSeparator (At after) (At (tokens tail)) (· = found) ∧ (found = true ∨ tail = []))
    (hclosing : tokens [] = .mark close :: next :: rest) (hlength : xs.length ≤ (tokens xs).length) :
    Reads (separatedUntil close item) A (At (next :: rest)) (List.Forall₂ P xs) := by
  have hround : ∀ x tail, x :: tail <:+ xs → Reads (do
      let item ← item
      unless (← acceptSeparator) || (← isAt (.mark close)) do failExpecting (.separatorOr close)
      return item) (At (tokens (x :: tail))) (At (tokens tail)) (P x) := by
    intro x tail htail
    obtain ⟨after, found, hx, hseparator, hfound⟩ := hitem x tail htail
    refine hx.bind fun y hy => hseparator.bind_eq ?_
    cases tail with
    | nil =>
      rw [hclosing]
      refine reads_isAt_self.bind_eq ?_
      cases found <;> exact .pure hy
    | cons z tail =>
      obtain rfl : found = true := hfound.resolve_right (List.cons_ne_nil _ _)
      obtain ⟨kind, more, hkind, -, hne⟩ := hstarts z tail ((List.suffix_cons x _).trans htail)
      rw [hkind]
      exact (reads_isAt_of_ne hne).bind_eq (.pure hy)
  have hmore : ∀ x tail, x :: tail <:+ xs → Reads (return !(← isAt (.mark close))) (At (tokens (x :: tail)))
      (At (tokens (x :: tail))) (· = true) := by
    intro x tail htail
    obtain ⟨kind, more, hkind, -, hne⟩ := hstarts x tail htail
    rw [hkind]
    exact (reads_isAt_of_ne hne).bind_eq (.pure rfl)
  have hend : Reads (return !(← isAt (.mark close))) (At (tokens [])) (At (.mark close :: next :: rest))
      (· = false) := by
    rw [hclosing]
    exact reads_isAt_self.bind_eq (.pure rfl)
  refine hopening.bind fun _ _ => ?_
  have hrounds := reads_rounds (fun x tail htail => ⟨_, hmore x tail htail, hround x tail htail⟩) hend hlength
  exact hrounds.bind fun items hitems => reads_expect.bind fun _ _ => .pure hitems

/-- **Items with commas between them are read,** up to the closing bracket. -/
theorem reads_separatedUntil (hclose : close ≠ .comma) (hstarts : ∀ x ∈ xs, Starts close (shown x))
    (hitem : ∀ x ∈ xs, ∀ m tail, m = .comma ∨ m = close →
      Reads item (At (shown x ++ .mark m :: tail)) (At (.mark m :: tail)) (P x)) :
    Reads (separatedUntil close item) (At (commas shown (.mark close :: next :: rest) xs))
      (At (next :: rest)) (List.Forall₂ P xs) := by
  refine reads_separated ?_ (fun x tail => commas_starts (.mark close :: next :: rest) hstarts) ?_ rfl ?_
  · cases xs with
    | nil => exact reads_skipNewlines (by rintro ⟨⟩)
    | cons x xs =>
      obtain ⟨kind, tail, hkind, hnewline, -⟩ :=
        commas_starts (.mark close :: next :: rest) hstarts List.suffix_rfl
      rw [hkind]
      exact reads_skipNewlines hnewline
  · intro x tail htail
    have hx := hitem x (htail.subset List.mem_cons_self)
    cases tail with
    | nil => exact ⟨_, false, hx close _ (.inr rfl), reads_acceptSeparator_close hclose, .inr rfl⟩
    | cons z tail =>
      have hz := commas_starts (.mark close :: next :: rest) hstarts ((List.suffix_cons x _).trans htail)
      exact ⟨_, true, hx .comma _ (.inl rfl), reads_acceptSeparator hz, .inl rfl⟩
  · refine length_le_commas fun x hx hnil => ?_
    obtain ⟨kind, tail, hkind, -⟩ := hstarts x hx
    rw [hnil] at hkind
    cases hkind

end Rows

end Parser

end TypedData
