import TypedData.Document.Parser.Item
import TypedData.Proofs.Reading.Parser

/-!
# Parsers that count how deeply they are nested

The parsers of types, expressions and data are told how many levels are left to them.  They can also be read as
working on a counter, which stands beside the cursor and outlives them: whoever opens a level adds one to it, and fails
if that is too much (`enter`); whoever comes back sets it to what it was before (`restoring`).  The counter is not set
back where entering a level fails (`nested`), and the operators of a chain each add one and never take it off.

`Follows depth closed q p` says that, started at `depth`, the counting parser `q` gives what the parser `p` gives and
comes to the same cursor, and that the counter is at `depth` again afterwards, if it succeeds, and also if it fails but
a level could have been opened.  If it succeeds, it has closed `closed` groups more than it has opened.
-/

namespace TypedData

/-- A cursor, and how deeply what is read there is nested. -/
structure Counted where
  cursor : Cursor
  depth : Nat

/-- A parser that counts how deeply what it reads is nested. -/
abbrev Counting (α : Type) := ExceptT ParseError (StateM Counted) α

namespace Counting

variable {α β : Type}

/-- What a counting parser gives, and the cursor and the counter after it. -/
def outcome (q : Counting α) (s : Counted) : Except ParseError α × Counted := q.run s

/-- A parser that opens no levels leaves the counter alone. -/
def ofParser (p : Parser α) : Counting α := ExceptT.mk fun s =>
  let (result, c) := p.outcome s.cursor
  (result, { s with cursor := c })

-- the priority is low so that `get` looks at the counter too, and not at the cursor only
instance (priority := low) : MonadLift Parser Counting := ⟨ofParser⟩

/-- Opens a level.  It stays open if it is one too many. -/
def enter : Counting Unit := do
  modify fun s => { s with depth := s.depth + 1 }
  if maxNesting < (← get).depth then Parser.failTooDeep

/-- Sets the counter to what it was outside, whether the parser succeeds or fails. -/
def restoring (outer : Nat) (q : Counting α) : Counting α := ExceptT.mk fun s =>
  let (result, s') := q.outcome s
  (result, { s' with depth := outer })

/-- Sets the counter back to what it is here, whatever levels the parser opens. -/
def restored (q : Counting α) : Counting α := do restoring (← get).depth q

/-- Reads something a level deeper. -/
def nested (q : Counting α) : Counting α := do
  let outer := (← get).depth
  enter
  restoring outer q

/-! ## Repetitions -/

/-- Rounds of `item`, as long as `more` says so, but no more than `fuel`. -/
def roundsUpTo (fuel : Nat) (more : Parser Bool) (item : Counting α) : Counting (List α) :=
  match fuel with
  | 0 => return []
  | fuel + 1 => do
    if ← more then
      let first ← item
      return first :: (← roundsUpTo fuel more item)
    else return []

/-- Rounds of `item`, as long as `more` says so. -/
def rounds (more : Parser Bool) (item : Counting α) : Counting (List α) := do
  roundsUpTo ((← get).cursor.upcoming.length + 2) more item

/-- Items with separators between them, up to a closing bracket, which is passed. -/
def separatedUntil (close : Mark) (item : Counting α) : Counting (List α) := do
  Parser.skipNewlines
  let items ← rounds (return !(← Parser.isAt (.mark close))) do
    let item ← item
    unless (← Parser.acceptSeparator) || (← Parser.isAt (.mark close)) do Parser.failExpecting (.separatorOr close)
    return item
  Parser.expect (.mark close)
  return items

/-- One or more items with commas between them. -/
def commaSeparated (item : Counting α) : Counting (List α) := do
  let first ← item
  return first :: (← rounds (Parser.accept (.mark .comma)) item)

end Counting

/-! ## Groups -/

namespace Cursor

/-- Going on by one token closes no group. -/
theorem groups_advance (c : Cursor) : c.advance.groups = c.groups := by
  obtain ⟨previous, current, upcoming, groups⟩ := c
  cases upcoming <;> rfl

/-- Skipping line breaks in a list of tokens closes no group. -/
theorem groups_skipNewlinesFrom (groups : Nat) (previous : Option Token) (current : Token) (upcoming : List Token) :
    (skipNewlinesFrom groups previous current upcoming).groups = groups := by
  induction upcoming generalizing previous current with
  | nil => rfl
  | cons token tokens ih =>
    rw [skipNewlinesFrom]
    split
    · exact ih _ _
    · rfl

/-- Skipping line breaks closes no group. -/
theorem groups_skipNewlines (c : Cursor) : c.skipNewlines.groups = c.groups := groups_skipNewlinesFrom _ _ _ _

end Cursor

namespace Parser

variable {α β : Type}

/-- If the parser succeeds, as many groups are open as before. -/
def KeepsGroups (p : Parser α) : Prop := ∀ ⦃c x c'⦄, p.outcome c = (.ok x, c') → c'.groups = c.groups

namespace KeepsGroups

/-- A parser that does nothing keeps the groups. -/
theorem pure (x : α) : KeepsGroups (Pure.pure x) := by
  rintro c y c' ⟨⟩
  rfl

/-- A failure keeps the groups. -/
theorem throw (e : ParseError) : KeepsGroups (MonadExcept.throw e : Parser α) := by rintro c x c' ⟨⟩

/-- A parser that only looks at the cursor. -/
theorem look (f : Cursor → α) : KeepsGroups (do return f (← get)) := by
  rintro c y c' ⟨⟩
  rfl

/-- A parser that only moves the cursor. -/
theorem move {f : Cursor → Cursor} (h : ∀ c, (f c).groups = c.groups) : KeepsGroups (modify f) := by
  rintro c y c' ⟨⟩
  exact h c

/-- Two parsers keep the groups if each of them does. -/
theorem bind {p : Parser α} {k : α → Parser β} (h : KeepsGroups p) (hk : ∀ x, KeepsGroups (k x)) :
    KeepsGroups (p >>= k) := by
  intro c y c' hread
  rw [outcome_bind] at hread
  cases hp : p.outcome c with
  | mk result c₁ =>
    rw [hp] at hread
    cases result with
    | error e => cases hread
    | ok x => exact (hk x hread).trans (h hp)

/-- A choice keeps the groups if both parsers do. -/
theorem ite {b : Prop} [Decidable b] {p q : Parser α} (hp : KeepsGroups p) (hq : KeepsGroups q) :
    KeepsGroups (if b then p else q) := by
  split
  · exact hp
  · exact hq

end KeepsGroups

/-- To fail for want of something keeps the groups. -/
theorem keepsGroups_failExpecting (expected : Expectation) : KeepsGroups (failExpecting expected : Parser α) :=
  (KeepsGroups.look id).bind fun _ => .ite (.throw _) (.throw _)

/-- Going on by one token keeps the groups. -/
theorem keepsGroups_advance : KeepsGroups advance := .move Cursor.groups_advance

/-- Skipping line breaks keeps the groups. -/
theorem keepsGroups_skipNewlines : KeepsGroups skipNewlines := .move Cursor.groups_skipNewlines

/-- Skipping line breaks inside a group keeps the groups. -/
theorem keepsGroups_skipNewlinesInGroup : KeepsGroups skipNewlinesInGroup := .move fun c => by
  split
  · exact c.groups_skipNewlines
  · rfl

/-- Looking at the token keeps the groups. -/
theorem keepsGroups_kind : KeepsGroups kind := .look _

/-- Looking at the place keeps the groups. -/
theorem keepsGroups_start : KeepsGroups start := .look _

/-- Looking at what has been passed keeps the groups. -/
theorem keepsGroups_spanFrom (offset : Nat) : KeepsGroups (spanFrom offset) := .look _

/-- Looking for a token keeps the groups. -/
theorem keepsGroups_isAt (kind : TokenKind) : KeepsGroups (isAt kind) := .look _

/-- Looking for a token ahead keeps the groups. -/
theorem keepsGroups_isAhead (kind : TokenKind) : KeepsGroups (isAhead kind) := .look _

/-- Looking for a token further ahead keeps the groups. -/
theorem keepsGroups_isFurtherAhead (kind : TokenKind) : KeepsGroups (isFurtherAhead kind) := .look _

/-- Taking a token if it is there keeps the groups. -/
theorem keepsGroups_accept (kind : TokenKind) : KeepsGroups (accept kind) :=
  (keepsGroups_isAt _).bind fun _ => .ite (keepsGroups_advance.bind fun _ => .pure _) (.pure _)

/-- Taking a token that must be there keeps the groups. -/
theorem keepsGroups_expect (kind : TokenKind) : KeepsGroups (expect kind) :=
  (keepsGroups_accept _).bind fun _ => .ite (.pure _) (keepsGroups_failExpecting _)

/-- Taking a name keeps the groups. -/
theorem keepsGroups_expectName (expected : Expectation) : KeepsGroups (expectName expected) := by
  refine keepsGroups_kind.bind fun kind => ?_
  cases kind with
  | name text => exact keepsGroups_advance.bind fun _ => .pure _
  | _ => exact keepsGroups_failExpecting _

/-- Taking a comma keeps the groups. -/
theorem keepsGroups_acceptSeparator : KeepsGroups acceptSeparator :=
  (keepsGroups_isAt _).bind fun _ => keepsGroups_skipNewlines.bind fun _ => (keepsGroups_accept _).bind fun _ =>
    .ite (keepsGroups_skipNewlines.bind fun _ => .pure _) (.pure _)

/-- Taking a label keeps the groups. -/
theorem keepsGroups_acceptLabel : KeepsGroups acceptLabel := by
  refine keepsGroups_kind.bind fun kind => ?_
  cases kind with
  | name text =>
    refine (keepsGroups_isAhead _).bind fun _ => .ite ?_ (.pure _)
    exact keepsGroups_advance.bind fun _ => keepsGroups_advance.bind fun _ => .pure _
  | _ => exact .pure _

/-- Ending a line keeps the groups. -/
theorem keepsGroups_endLine : KeepsGroups endLine :=
  (keepsGroups_accept _).bind fun _ => .ite (.pure _) <| (KeepsGroups.look id).bind fun _ =>
    .ite (.pure _) (keepsGroups_failExpecting _)

/-- Looking for more lines keeps the groups. -/
theorem keepsGroups_moreLines : KeepsGroups moreLines :=
  (keepsGroups_accept _).bind fun _ => .ite (.pure _) ((keepsGroups_isAt _).bind fun _ => .pure _)

end Parser

/-! ## Following a parser -/

namespace Counting

variable {α β : Type} {depth closed : Nat} {q : Counting α} {p : Parser α} {l : α → Counting β} {k : α → Parser β}

/-- From a depth the counting parser gives what the parser gives and comes to the same cursor.  A success has closed so
many groups. -/
def Agrees (depth closed : Nat) (q : Counting α) (p : Parser α) : Prop :=
  ∀ c, closed ≤ c.groups →
    (∃ depth', q.outcome ⟨c, depth⟩ = ((p.outcome c).1, ⟨(p.outcome c).2, depth'⟩)) ∧
      ∀ x c', p.outcome c = (.ok x, c') → c'.groups + closed = c.groups

/-- A counting parser that is started at a depth leaves it there, if it succeeds or a level could have been opened. -/
def Restores (depth : Nat) (q : Counting α) : Prop :=
  ∀ c, depth < maxNesting ∨ (q.outcome ⟨c, depth⟩).1.isOk → (q.outcome ⟨c, depth⟩).2.depth = depth

/-- From a depth the counting parser gives what the parser gives, and the counter is restored. -/
structure Follows (depth closed : Nat) (q : Counting α) (p : Parser α) : Prop where
  agrees : Agrees depth closed q p
  restores : Restores depth q

/-- The second step starts where the first one stops, if this gives something. -/
theorem outcome_bind (q : Counting α) (l : α → Counting β) (s : Counted) :
    (q >>= l).outcome s =
      match q.outcome s with
      | (.ok x, s') => (l x).outcome s'
      | (.error e, s') => (.error e, s') := by
  change (match q.outcome s with
    | (r, s') => ((ExceptT.bindCont l r : StateM Counted (Except ParseError β)).run s')) = _
  rcases q.outcome s with ⟨_ | x, s'⟩
  · rfl
  · rfl

/-- A counting parser agrees with one that it follows, if it does so after its first step. -/
theorem Agrees.bind (h : Follows depth 0 q p) (hk : ∀ x, Agrees depth closed (l x) (k x)) :
    Agrees depth closed (q >>= l) (p >>= k) := by
  intro c hc
  obtain ⟨⟨depth', hq⟩, hgroups⟩ := h.agrees c (Nat.zero_le _)
  have hdepth := h.restores c
  rw [outcome_bind, Parser.outcome_bind]
  cases hp : p.outcome c with
  | mk result c' =>
    rw [hp] at hq
    rw [hq] at hdepth ⊢
    cases result with
    | error e =>
      refine ⟨⟨depth', rfl⟩, ?_⟩
      rintro x c'' ⟨⟩
    | ok x =>
      obtain rfl : depth' = depth := hdepth (.inr rfl)
      have hsame : c'.groups + 0 = c.groups := hgroups x c' hp
      obtain ⟨hagree, hclosed⟩ := hk x c' (by omega)
      exact ⟨hagree, fun y c'' hread => (hclosed y c'' hread).trans hsame⟩

/-- Two steps restore the depth if each of them does. -/
theorem Restores.bind (h : Restores depth q) (hk : ∀ x, Restores depth (l x)) : Restores depth (q >>= l) := by
  intro c hc
  have hq := h c
  rw [outcome_bind] at hc ⊢
  cases hread : q.outcome ⟨c, depth⟩ with
  | mk result s =>
    rw [hread] at hq hc
    cases result with
    | error e => exact hq hc
    | ok x =>
      obtain ⟨c', depth'⟩ := s
      obtain rfl : depth' = depth := hq (.inr rfl)
      exact hk x c' hc

namespace Follows

/-- Two steps follow two others if each does its own. -/
theorem bind (h : Follows depth 0 q p) (hk : ∀ x, Follows depth closed (l x) (k x)) :
    Follows depth closed (q >>= l) (p >>= k) :=
  ⟨.bind h fun x => (hk x).agrees, h.restores.bind fun x => (hk x).restores⟩

/-- A parser that opens no levels. -/
theorem lift (h : p.KeepsGroups) : Follows depth 0 (liftM p) p :=
  ⟨fun _ _ => ⟨⟨depth, rfl⟩, fun _ _ hread => h hread⟩, fun _ _ => rfl⟩

/-- A parser that is followed without an open group keeps the groups. -/
theorem keepsGroups (h : Follows depth 0 q p) : p.KeepsGroups := fun _ x c' hread =>
  (h.agrees _ (Nat.zero_le _)).2 x c' hread

/-- To do nothing follows to do nothing. -/
theorem pure (x : α) : Follows depth 0 (Pure.pure x) (Pure.pure x) := .lift (.pure x)

/-- A parser that opens no levels, and what comes after it. -/
theorem lift_bind {p : Parser α} {k : α → Parser β} (h : p.KeepsGroups) (hk : ∀ x, Follows depth closed (l x) (k x)) :
    Follows depth closed (liftM p >>= l) (p >>= k) := (Follows.lift h).bind hk

/-- Something with the span of what has been read. -/
theorem spanned (start : Nat) (f : Span → α) :
    Follows depth 0 (do return f (← Parser.spanFrom start)) (do return f (← Parser.spanFrom start)) :=
  .lift_bind (Parser.keepsGroups_spanFrom start) fun _ => .pure _

/-- A token that stands for something on its own. -/
theorem token (start : Nat) (f : Span → α) :
    Follows depth 0 (do Parser.advance; return f (← Parser.spanFrom start))
      (do Parser.advance; return f (← Parser.spanFrom start)) :=
  .lift_bind Parser.keepsGroups_advance fun _ => .spanned start f

/-- A look at the cursor. -/
theorem get_bind {l : Counted → Counting β} {k : Cursor → Parser β}
    (h : ∀ c, Follows depth closed (l ⟨c, depth⟩) (k c)) : Follows depth closed (get >>= l) (get >>= k) :=
  ⟨fun c => (h c).agrees c, fun c => (h c).restores c⟩

/-- What is made of the result does not matter for following. -/
theorem map {f : α → β} (h : Follows depth 0 q p) : Follows depth 0 (f <$> q) (f <$> p) := by
  rw [map_eq_pure_bind, map_eq_pure_bind]
  exact h.bind fun _ => .pure _

/-- A choice follows a choice if both of its ways do. -/
theorem ite {b : Prop} [Decidable b] {q q' : Counting α} {p p' : Parser α} (h : Follows depth closed q p)
    (h' : Follows depth closed q' p') : Follows depth closed (if b then q else q') (if b then p else p') := by
  split
  · exact h
  · exact h'

/-- A group is opened, which is closed later. -/
theorem openGroup_bind {l : PUnit → Counting β} {k : PUnit → Parser β} (h : Follows depth (closed + 1) (l ⟨⟩) (k ⟨⟩)) :
    Follows depth closed (liftM Parser.openGroup >>= l) (Parser.openGroup >>= k) := by
  refine ⟨fun c hc => ?_, fun c => h.restores { c with groups := c.groups + 1 }⟩
  obtain ⟨hagree, hclosed⟩ := h.agrees { c with groups := c.groups + 1 } (Nat.succ_le_succ hc)
  exact ⟨hagree, fun x c' hread => Nat.succ.inj (hclosed x c' hread)⟩

/-- A group is closed that was opened before. -/
theorem closeGroup_bind {l : PUnit → Counting β} {k : PUnit → Parser β} (h : Follows depth closed (l ⟨⟩) (k ⟨⟩)) :
    Follows depth (closed + 1) (liftM Parser.closeGroup >>= l) (Parser.closeGroup >>= k) := by
  refine ⟨fun c hc => ?_, fun c => h.restores { c with groups := c.groups - 1 }⟩
  obtain ⟨hagree, hclosed⟩ := h.agrees { c with groups := c.groups - 1 } (Nat.le_sub_of_add_le hc)
  refine ⟨hagree, fun x c' hread => ?_⟩
  have hgroups : c'.groups + closed = c.groups - 1 := hclosed x c' hread
  omega

end Follows

/-! ### Levels -/

/-- A level is entered with a count that is one greater, unless there are too many levels. -/
theorem outcome_enter (c : Cursor) (depth : Nat) :
    enter.outcome ⟨c, depth⟩ =
      if maxNesting < depth + 1 then (.error (.tooDeep c.current.span), ⟨c, depth + 1⟩)
      else (.ok ⟨⟩, ⟨c, depth + 1⟩) := by
  change (ite (maxNesting < depth + 1) (liftM Parser.failTooDeep) (pure ⟨⟩) : Counting PUnit).outcome ⟨c, depth + 1⟩ = _
  split <;> rfl

/-- There is a level left. -/
theorem Agrees.enter_bind {l : PUnit → Counting α} (hdepth : depth < maxNesting)
    (h : Agrees (depth + 1) closed (l ⟨⟩) p) : Agrees depth closed (enter >>= l) p := by
  intro c hc
  rw [outcome_bind, outcome_enter, if_neg (Nat.not_lt.2 hdepth)]
  exact h c hc

/-- There is no level left. -/
theorem Agrees.enter_bind_tooDeep {l : PUnit → Counting α} (hdepth : maxNesting ≤ depth) :
    Agrees depth closed (enter >>= l) Parser.failTooDeep := by
  intro c hc
  rw [outcome_bind, outcome_enter, if_pos (Nat.lt_succ_of_le hdepth)]
  refine ⟨⟨depth + 1, rfl⟩, ?_⟩
  rintro x c' ⟨⟩

/-- The depth is restored after a step, whether it fails or not. -/
theorem outcome_restoring (outer : Nat) (q : Counting α) (s : Counted) :
    (restoring outer q).outcome s = ((q.outcome s).1, { (q.outcome s).2 with depth := outer }) := rfl

/-- Where the counter is set back, levels may have been left open. -/
theorem Agrees.restoring (outer : Nat) (h : Agrees depth closed q p) : Agrees depth closed (restoring outer q) p := by
  intro c hc
  obtain ⟨⟨depth', hq⟩, hclosed⟩ := h c hc
  exact ⟨⟨outer, by rw [outcome_restoring, hq]⟩, hclosed⟩

/-- A step with its depth restored follows what the step agrees with. -/
theorem follows_restored (h : Agrees depth 0 q p) : Follows depth 0 (restored q) p :=
  ⟨h.restoring depth, fun _ _ => rfl⟩

/-- A nested step enters a level, and restores the depth after it. -/
theorem outcome_nested (q : Counting α) (c : Cursor) (depth : Nat) :
    (nested q).outcome ⟨c, depth⟩ = (enter >>= fun _ => restoring depth q).outcome ⟨c, depth⟩ := rfl

/-- There is a level left. -/
theorem follows_nested (hdepth : depth < maxNesting) (h : Agrees (depth + 1) 0 q p) : Follows depth 0 (nested q) p := by
  refine ⟨Agrees.enter_bind (l := fun _ => restoring depth q) hdepth (h.restoring depth), fun c _ => ?_⟩
  rw [outcome_nested, outcome_bind, outcome_enter, if_neg (Nat.not_lt.2 hdepth)]
  rfl

/-- There is no level left, and the counter is not set back. -/
theorem follows_nested_tooDeep (hdepth : maxNesting ≤ depth) : Follows depth 0 (nested q) Parser.failTooDeep := by
  refine ⟨Agrees.enter_bind_tooDeep (l := fun _ => restoring depth q) hdepth, fun c hc => ?_⟩
  rw [outcome_nested, outcome_bind, outcome_enter, if_pos (Nat.lt_succ_of_le hdepth)] at hc
  exact absurd hc (by simp [Except.isOk, Except.toBool, hdepth])

/-! ### Repetitions -/

section Repetitions

variable {more : Parser Bool} {item : Counting α} {item' : Parser α}

/-- Rounds up to a number follow rounds of what each round follows. -/
theorem follows_roundsUpTo (hmore : more.KeepsGroups) (hitem : Follows depth 0 item item') (fuel : Nat) :
    Follows depth 0 (roundsUpTo fuel more item) (Parser.roundsUpTo fuel more item') := by
  induction fuel with
  | zero => exact .pure _
  | succ fuel ih =>
    refine .lift_bind hmore fun found => .ite ?_ (.pure _)
    exact hitem.bind fun first => ih.bind fun others => .pure _

/-- Rounds follow rounds of what each round follows. -/
theorem follows_rounds (hmore : more.KeepsGroups) (hitem : Follows depth 0 item item') :
    Follows depth 0 (rounds more item) (Parser.rounds more item') :=
  .get_bind fun c => follows_roundsUpTo hmore hitem (c.upcoming.length + 2)

/-- Items up to a bracket follow items of what each item follows. -/
theorem follows_separatedUntil (close : Mark) (hitem : Follows depth 0 item item') :
    Follows depth 0 (separatedUntil close item) (Parser.separatedUntil close item') := by
  refine .lift_bind Parser.keepsGroups_skipNewlines fun _ => (follows_rounds ?_ ?_).bind fun items => ?_
  · exact (Parser.keepsGroups_isAt _).bind fun _ => .pure _
  · refine hitem.bind fun x => .lift_bind Parser.keepsGroups_acceptSeparator fun _ => ?_
    refine .lift_bind (Parser.keepsGroups_isAt _) fun _ => .ite (.pure _) ?_
    exact .lift_bind (Parser.keepsGroups_failExpecting _) fun _ => .pure _
  · exact .lift_bind (Parser.keepsGroups_expect _) fun _ => .pure _

/-- Items behind commas follow items of what each item follows. -/
theorem follows_commaSeparated (hitem : Follows depth 0 item item') :
    Follows depth 0 (commaSeparated item) (Parser.commaSeparated item') :=
  hitem.bind fun _ => (follows_rounds (Parser.keepsGroups_accept _) hitem).bind fun _ => .pure _

end Repetitions

end Counting

namespace Parser

variable {α : Type} {more : Parser Bool} {item : Parser α}

/-- Rounds keep the groups if each round does. -/
theorem keepsGroups_rounds (hmore : more.KeepsGroups) (hitem : item.KeepsGroups) : (rounds more item).KeepsGroups :=
  have h : Counting.Follows 0 0 _ (rounds more item) := Counting.follows_rounds hmore (.lift hitem)
  h.keepsGroups

/-- Items up to a bracket keep the groups if each item does. -/
theorem keepsGroups_separatedUntil (close : Mark) (hitem : item.KeepsGroups) :
    (separatedUntil close item).KeepsGroups :=
  have h : Counting.Follows 0 0 _ (separatedUntil close item) := Counting.follows_separatedUntil close (.lift hitem)
  h.keepsGroups

/-- Items behind commas keep the groups if each item does. -/
theorem keepsGroups_commaSeparated (hitem : item.KeepsGroups) : (commaSeparated item).KeepsGroups :=
  have h : Counting.Follows 0 0 _ (commaSeparated item) := Counting.follows_commaSeparated (.lift hitem)
  h.keepsGroups

end Parser

end TypedData
