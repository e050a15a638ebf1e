import TypedData.Load
import TypedData.Proofs.Reading.Parser
import TypedData.Proofs.Reading.Scanning

/-!
# Parsers make nothing up

`p.Makes M Q` says of a parser that is started among tokens of the material `M`: it stops among such tokens
and gives something with `Q`, or it fails at a place of the material.  Every parser makes what the material
has (`makes_document`), so what holds of all tokens of a text holds of all the parts of what is read from it
(`Document.ends_read`).
-/

namespace TypedData

variable {M : Material}

namespace Cursor

/-- The tokens around the cursor are of the material. -/
structure Of (M : Material) (c : Cursor) : Prop where
  previous : ∀ token, c.previous = some token → M.Holds token
  current : M.Holds c.current
  upcoming : ∀ token ∈ c.upcoming, M.Holds token

namespace Of

variable {c : Cursor}

/-- A cursor at the beginning is among tokens of the material, if the tokens are. -/
theorem ofTokens {tokens : List Token} (h : ∀ token ∈ tokens, M.Holds token) : (Cursor.ofTokens tokens).Of M := by
  cases tokens with
  | nil => exact ⟨by rintro _ ⟨⟩, ⟨M.eof, .zero⟩, List.forall_mem_nil _⟩
  | cons token tokens =>
    obtain ⟨htoken, htokens⟩ := List.forall_mem_cons.1 h
    exact ⟨by rintro _ ⟨⟩, htoken, htokens⟩

/-- The token at hand is of a kind of the material. -/
theorem kind (h : c.Of M) : M.kind c.kind := h.current.kind

/-- The token at hand starts at a place of the material. -/
theorem start (h : c.Of M) : M.place c.start := h.current.span.start

/-- The token before ends at a place of the material. -/
theorem lastEnd (h : c.Of M) : M.place c.lastEnd := by
  unfold Cursor.lastEnd
  cases hprevious : c.previous with
  | none => exact M.origin
  | some token => exact (h.previous token hprevious).span.stop

/-- The cursor goes on among tokens of the material. -/
theorem advance (h : c.Of M) : c.advance.Of M := by
  unfold Cursor.advance
  split
  · exact h
  · rename_i token tokens hupcoming
    have hmore := h.upcoming
    rw [hupcoming] at hmore
    obtain ⟨htoken, htokens⟩ := List.forall_mem_cons.1 hmore
    exact ⟨by rintro _ ⟨⟩; exact h.current, htoken, htokens⟩

/-- Line breaks in a list of tokens are skipped among tokens of the material. -/
theorem skipNewlinesFrom {groups : Nat} {upcoming : List Token} {previous : Option Token}
    {current : Token} (h : Cursor.Of M ⟨previous, current, upcoming, groups⟩) :
    (Cursor.skipNewlinesFrom groups previous current upcoming).Of M := by
  induction upcoming generalizing previous current with
  | nil => exact h
  | cons token tokens ih =>
    rw [Cursor.skipNewlinesFrom]
    split
    · obtain ⟨htoken, htokens⟩ := List.forall_mem_cons.1 h.upcoming
      exact ih ⟨by rintro _ ⟨⟩; exact h.current, htoken, htokens⟩
    · exact h

/-- Line breaks are skipped among tokens of the material. -/
theorem skipNewlines (h : c.Of M) : c.skipNewlines.Of M := .skipNewlinesFrom ⟨h.previous, h.current, h.upcoming⟩

/-- How many groups are open does not matter. -/
theorem setGroups (h : c.Of M) (groups : Nat) : Cursor.Of M { c with groups := groups } :=
  ⟨h.previous, h.current, h.upcoming⟩

end Of

end Cursor

namespace Parser

variable {α β : Type}

/-- The parser stays among tokens of the material and gives something with `Q`, or it fails at a place of the
material. -/
def Makes (M : Material) (p : Parser α) (Q : α → Prop) : Prop :=
  ∀ c, c.Of M →
    match p.outcome c with
    | (.ok x, c') => c'.Of M ∧ Q x
    | (.error e, _) => M.Covers e.span

/-- The parser stays among tokens of the material, or it fails at a place of the material. -/
abbrev Keeps (M : Material) (p : Parser α) : Prop := Makes M p fun _ => True

namespace Makes

variable {p : Parser α} {k : α → Parser β} {P P' : α → Prop} {Q : β → Prop}

/-- A parser that does nothing makes what is there. -/
theorem pure {x : α} (h : P x) : Makes M (Pure.pure x) P := fun _ hc => ⟨hc, h⟩

/-- A failure at a place of the material makes anything. -/
theorem throw {e : ParseError} (h : M.Covers e.span) : Makes M (throw e : Parser α) P := fun _ _ => h

/-- Two parsers make what the second one does. -/
theorem bind (h : Makes M p P) (hk : ∀ x, P x → Makes M (k x) Q) : Makes M (p >>= k) Q := by
  intro c hc
  have hp := h c hc
  rw [outcome_bind]
  generalize p.outcome c = result at hp ⊢
  rcases result with ⟨e | x, c'⟩
  · exact hp
  · exact hk x hp.2 c' hp.1

/-- What is made of the result is made. -/
theorem map {f : α → β} (h : Makes M p P) (hf : ∀ x, P x → Q (f x)) : Makes M (f <$> p) Q := by
  rw [map_eq_pure_bind]
  exact h.bind fun x hx => .pure (hf x hx)

/-- What is made has everything that follows. -/
theorem mono (h : Makes M p P) (hP : ∀ x, P x → P' x) : Makes M p P' := by
  intro c hc
  have hp := h c hc
  generalize p.outcome c = result at hp ⊢
  rcases result with ⟨e | x, c'⟩
  · exact hp
  · exact ⟨hp.1, hP x hp.2⟩

/-- What is done first stays among tokens of the material. -/
theorem andThen (h : Makes M p P) (hk : ∀ x, Makes M (k x) Q) : Makes M (p >>= k) Q :=
  h.bind fun x _ => hk x

/-- A parser that only looks at the cursor. -/
theorem look {f : Cursor → α} (h : ∀ c, c.Of M → P (f c)) : Makes M (do return f (← get)) P :=
  fun c hc => ⟨hc, h c hc⟩

/-- A step that only moves the cursor. -/
theorem move {f : Cursor → Cursor} (h : ∀ c, c.Of M → (f c).Of M) : Keeps M (modify f : Parser Unit) :=
  fun c hc => ⟨h c hc, trivial⟩

/-- One of two parsers. -/
theorem ite {c : Prop} [Decidable c] {p q : Parser α} (hp : c → Makes M p P) (hq : ¬ c → Makes M q P) :
    Makes M (if c then p else q) P := by
  split
  · rename_i h
    exact hp h
  · rename_i h
    exact hq h

end Makes

/-! ## Single tokens -/

/-- Looking at the cursor makes one among tokens of the material. -/
theorem makes_get : Makes M (MonadState.get : Parser Cursor) (·.Of M) := fun _ hc => ⟨hc, hc⟩

/-- A parser that fails for want of something fails at a place of the material. -/
theorem makes_failExpecting {P : α → Prop} (expected : Expectation) :
    Makes M (failExpecting expected : Parser α) P := by
  refine makes_get.bind fun c hc => .ite (fun _ => ?_) fun _ => ?_
  · exact .throw ⟨hc.start, hc.start⟩
  · exact .throw hc.current.span

/-- A parser that fails for want of levels fails at a place of the material. -/
theorem makes_failTooDeep {P : α → Prop} : Makes M (failTooDeep : Parser α) P :=
  makes_get.bind fun _ hc => .throw hc.current.span

/-- Going on by one token makes nothing up. -/
theorem keeps_advance : Keeps M advance := .move fun _ => .advance

/-- Skipping line breaks makes nothing up. -/
theorem keeps_skipNewlines : Keeps M skipNewlines := .move fun _ => .skipNewlines

/-- Skipping line breaks in a group makes nothing up. -/
theorem keeps_skipNewlinesInGroup : Keeps M skipNewlinesInGroup := by
  refine .move fun c hc => ?_
  split
  · exact hc.skipNewlines
  · exact hc

/-- The token at hand is of a kind of the material. -/
theorem makes_kind : Makes M kind M.kind := .look fun _ hc => hc.kind

/-- Looking for a token makes nothing up. -/
theorem keeps_isAt (wanted : TokenKind) : Keeps M (isAt wanted) := .look fun _ _ => trivial

/-- Looking for a token ahead makes nothing up. -/
theorem keeps_isAhead (wanted : TokenKind) : Keeps M (isAhead wanted) := .look fun _ _ => trivial

/-- Looking for a token further ahead makes nothing up. -/
theorem keeps_isFurtherAhead (wanted : TokenKind) : Keeps M (isFurtherAhead wanted) := .look fun _ _ => trivial

/-- The place at hand is one of the material. -/
theorem makes_start : Makes M start M.place := .look fun _ hc => hc.start

/-- A span from a place of the material covers the material. -/
theorem makes_spanFrom {offset : Nat} (h : M.place offset) : Makes M (spanFrom offset) M.Covers :=
  .look fun _ hc => ⟨h, hc.lastEnd⟩

/-- Taking a token if it is there makes nothing up. -/
theorem keeps_accept (wanted : TokenKind) : Keeps M (accept wanted) :=
  (keeps_isAt wanted).andThen fun _ => .ite (fun _ => keeps_advance.andThen fun _ => .pure trivial)
    fun _ => .pure trivial

/-- Taking a token that must be there makes nothing up. -/
theorem keeps_expect (wanted : TokenKind) : Keeps M (expect wanted) :=
  (keeps_accept wanted).andThen fun _ => .ite (fun _ => .pure trivial) fun _ => makes_failExpecting _

/-- A name that is taken is one of the material. -/
theorem makes_expectName (expected : Expectation) :
    Makes M (expectName expected) fun text => M.kind (.name text) := by
  refine makes_kind.bind fun kind hkind => ?_
  split
  · exact keeps_advance.andThen fun _ => .pure hkind
  · exact makes_failExpecting _

/-- A label that is taken is one of the material. -/
theorem makes_acceptLabel : Makes M acceptLabel M.Labels := by
  refine makes_kind.bind fun kind hkind => ?_
  split
  · refine (keeps_isAhead _).andThen fun _ => .ite (fun _ => ?_) fun _ => .pure Material.labels_none
    exact keeps_advance.andThen fun _ => keeps_advance.andThen fun _ => .pure (Material.labels_some hkind)
  · exact .pure Material.labels_none

/-- Taking a comma makes nothing up. -/
theorem keeps_acceptSeparator : Keeps M acceptSeparator := by
  refine (keeps_isAt _).andThen fun broken => keeps_skipNewlines.andThen fun _ => ?_
  refine (keeps_accept _).andThen fun _ => .ite (fun _ => ?_) fun _ => .pure trivial
  exact keeps_skipNewlines.andThen fun _ => .pure trivial

/-- Ending a line makes nothing up. -/
theorem keeps_endLine : Keeps M endLine := by
  refine (keeps_accept _).andThen fun _ => .ite (fun _ => .pure trivial) fun _ => ?_
  exact makes_get.andThen fun _ => .ite (fun _ => .pure trivial) fun _ => makes_failExpecting _

/-- Looking for more lines makes nothing up. -/
theorem keeps_moreLines : Keeps M moreLines :=
  (keeps_accept _).andThen fun _ => .ite (fun _ => .pure trivial) fun _ =>
    (keeps_isAt _).andThen fun _ => .pure trivial

/-! ## Repetitions -/

section Repetitions

variable {more : Parser Bool} {item : Parser α} {Q : α → Prop}

/-- Rounds up to a number make what each round does. -/
theorem makes_roundsUpTo (hmore : Keeps M more) (hitem : Makes M item Q) (fuel : Nat) :
    Makes M (roundsUpTo fuel more item) fun xs => ∀ x ∈ xs, Q x := by
  induction fuel with
  | zero => exact .pure (List.forall_mem_nil _)
  | succ fuel ih =>
    refine hmore.andThen fun found => .ite (fun _ => ?_) fun _ => .pure (List.forall_mem_nil _)
    exact hitem.bind fun x hx => ih.bind fun xs hxs => .pure (List.forall_mem_cons.2 ⟨hx, hxs⟩)

/-- Rounds make what each round does. -/
theorem makes_rounds (hmore : Keeps M more) (hitem : Makes M item Q) :
    Makes M (rounds more item) fun xs => ∀ x ∈ xs, Q x :=
  makes_get.andThen fun _ => makes_roundsUpTo hmore hitem _

/-- Items up to a bracket are made as each item is. -/
theorem makes_separatedUntil (close : Mark) (hitem : Makes M item Q) :
    Makes M (separatedUntil close item) fun xs => ∀ x ∈ xs, Q x := by
  refine keeps_skipNewlines.andThen fun _ => ?_
  refine (makes_rounds ((keeps_isAt _).andThen fun _ => .pure trivial) (Q := Q) ?_).bind fun xs hxs =>
    (keeps_expect _).andThen fun _ => .pure hxs
  refine hitem.bind fun x hx => keeps_acceptSeparator.andThen fun _ => (keeps_isAt _).andThen fun _ => ?_
  exact .ite (fun _ => .pure hx) fun _ => (makes_failExpecting (P := fun _ => True) _).andThen fun _ =>
    .pure hx

/-- At least one item is made, and more behind commas. -/
theorem makes_commaSeparated (hitem : Makes M item Q) :
    Makes M (commaSeparated item) fun xs => xs ≠ [] ∧ ∀ x ∈ xs, Q x :=
  hitem.bind fun _ hx => (makes_rounds (keeps_accept _) hitem).bind fun _ hxs =>
    .pure ⟨List.cons_ne_nil _ _, List.forall_mem_cons.2 ⟨hx, hxs⟩⟩

end Repetitions

/-! ## Data -/

section Data

variable {item value : Parser Data} {P : Data → Prop} {levels : Nat} {offset : Nat}

/-- A key is one of the material. -/
theorem makes_key : Makes M key M.Keys := by
  refine makes_kind.bind fun kind hkind => ?_
  split
  · exact keeps_advance.andThen fun _ => .pure (.inl hkind)
  · exact keeps_advance.andThen fun _ => .pure (.inr ⟨_, hkind, rfl⟩)
  · exact makes_failExpecting _

/-- An entry is made with a key of the material. -/
theorem makes_entry (hvalue : Makes M value P) : Makes M (entry value) fun e => M.Enters e ∧ P e.value :=
  makes_start.bind fun _ hstart => makes_key.bind fun _ hkey => (keeps_expect _).andThen fun _ =>
    hvalue.bind fun _ hvalue => (makes_spanFrom hstart).bind fun _ hspan => .pure ⟨⟨hkey, hspan⟩, hvalue⟩

/-- An argument is made with a label of the material. -/
theorem makes_dataArgument (hvalue : Makes M value P) :
    Makes M (dataArgument value) fun arg => M.Labels arg.name ∧ P arg.value :=
  makes_acceptLabel.bind fun _ hlabel => hvalue.bind fun _ hvalue => .pure ⟨hlabel, hvalue⟩

/-- A reference is made of names of the material. -/
theorem makes_reference :
    Makes M reference fun found => M.kind (.name found.1) ∧ ∀ field ∈ found.2, M.kind (.name field) :=
  (keeps_expect _).andThen fun _ => (makes_expectName _).bind fun _ hname =>
    (makes_rounds (keeps_accept _) (makes_expectName _)).bind fun _ hpath => .pure ⟨hname, hpath⟩

/-- Lines of entries are made as each entry is. -/
theorem makes_entryLines (hvalue : Makes M value P) :
    Makes M (entryLines value) fun entries => ∀ e ∈ entries, M.Enters e ∧ P e.value :=
  makes_rounds keeps_moreLines ((makes_entry hvalue).bind fun _ h => keeps_endLine.andThen fun _ => .pure h)

/-- Looking for an entry ahead makes nothing up. -/
theorem keeps_isEntryAhead : Keeps M isEntryAhead := by
  refine makes_kind.andThen fun kind => ?_
  split
  · exact keeps_isAhead _
  · exact keeps_isAhead _
  · exact .pure trivial

/-- A token that is data by itself. -/
theorem makes_literal {f : Span → α} {Q : α → Prop} (hoffset : M.place offset)
    (h : ∀ span, M.Covers span → Q (f span)) : Makes M (do advance; return f (← spanFrom offset)) Q :=
  keeps_advance.andThen fun _ => (makes_spanFrom hoffset).bind fun span hspan => .pure (h span hspan)

variable (hitem : Makes M item (·.Made M false levels)) (hvalue : Makes M value (·.Made M false levels))

include hitem hvalue

/-- An item behind a dash is made of the material. -/
theorem makes_dashItem : Makes M (dashItem item value) (·.Made M true levels) := by
  refine makes_start.bind fun start hstart => (keeps_expect _).andThen fun _ =>
    keeps_isEntryAhead.andThen fun _ => .ite (fun _ => ?_) fun _ => ?_
  · refine (makes_entry hvalue).bind fun first hfirst => keeps_endLine.andThen fun _ =>
      (keeps_accept _).andThen fun _ => ?_
    have hend : ∀ more : List (Entry Data), (∀ e ∈ more, M.Enters e ∧ e.value.Made M false levels) →
        Makes M (do return Data.dashRecord (← spanFrom start) (first :: more)) (·.Made M true levels) := by
      intro more hmore
      have hall : ∀ e ∈ first :: more, M.Enters e ∧ e.value.Made M false levels :=
        List.forall_mem_cons.2 ⟨hfirst, hmore⟩
      exact (makes_spanFrom hstart).bind fun _ hspan => .pure (.dashRecord hspan (List.cons_ne_nil _ _)
        (fun e he => (hall e he).1) fun e he => (hall e he).2)
    refine .ite (fun _ => ?_) fun _ => ?_
    · exact (makes_entryLines hvalue).bind hend
    · exact Makes.bind (.pure (List.forall_mem_nil _)) hend
  · exact hitem.bind fun _ hd => keeps_endLine.andThen fun _ => .pure (.item hd)

/-- Items behind dashes are made of the material. -/
theorem makes_dashItems : Makes M (dashItems item value) fun items => ∀ d ∈ items, d.Made M true levels :=
  makes_rounds keeps_moreLines (makes_dashItem hitem hvalue)

/-- A block is made of the material. -/
theorem makes_block : Makes M (block item value) (·.Made M false (levels + 1)) := by
  refine makes_start.bind fun _ hstart => keeps_advance.andThen fun _ => (keeps_expect _).andThen fun _ =>
    (keeps_isAt _).andThen fun _ => .ite (fun _ => ?_) fun _ => ?_
  · exact (makes_dashItems hitem hvalue).bind fun _ hitems => (makes_spanFrom hstart).bind fun _ hspan =>
      .pure (.dashList hspan hitems)
  · exact (makes_entryLines hvalue).bind fun _ hentries => (makes_spanFrom hstart).bind fun _ hspan =>
      .pure (.fieldBlock hspan (fun e he => (hentries e he).1) fun e he => (hentries e he).2)

/-- What a constructor is applied to is made of the material. -/
theorem makes_constructorForm (hoffset : M.place offset) {ctor : String} (hctor : M.kind (.name ctor)) :
    Makes M (constructorForm offset ctor item value) (·.Made M false (levels + 1)) := by
  refine (keeps_isAhead _).andThen fun _ => .ite (fun _ => ?_) fun _ => ?_
  · exact keeps_advance.andThen fun _ => (keeps_expect _).andThen fun _ =>
      (makes_separatedUntil _ (makes_dataArgument hitem)).bind fun _ hargs =>
        (makes_spanFrom hoffset).bind fun _ hspan =>
          .pure (.call hspan hctor (fun arg harg => (hargs arg harg).1) fun arg harg => (hargs arg harg).2)
  · refine (keeps_isAhead _).andThen fun _ => (keeps_isFurtherAhead _).andThen fun _ =>
      .ite (fun _ => ?_) fun _ => ?_
    · refine keeps_advance.andThen fun _ => keeps_advance.andThen fun _ => keeps_advance.andThen fun _ =>
        (keeps_expect _).andThen fun _ => (keeps_isAt _).andThen fun _ => .ite (fun _ => ?_) fun _ => ?_
      · exact (makes_dashItems hitem hvalue).bind fun _ hitems => (makes_spanFrom hoffset).bind fun _ hspan =>
          .pure (.listBlock hspan hctor hitems)
      · exact (makes_entryLines hvalue).bind fun _ hentries => (makes_spanFrom hoffset).bind fun _ hspan =>
          .pure (.ctorBlock hspan hctor (fun e he => (hentries e he).1) fun e he => (hentries e he).2)
    · exact keeps_advance.andThen fun _ => (makes_spanFrom hoffset).bind fun _ hspan =>
        .pure (.call hspan hctor (List.forall_mem_nil _) (List.forall_mem_nil _))

/-- Data in one line is made of the material, one level above the data inside. -/
theorem makes_dataForm : Makes M (dataForm item value) (·.Made M false (levels + 1)) := by
  refine makes_start.bind fun start hstart => makes_kind.bind fun kind hkind => ?_
  split
  · exact makes_literal hstart fun _ hspan => .str hspan ⟨_, hkind, rfl⟩
  · exact makes_literal hstart fun _ hspan => .int hspan hkind
  · exact makes_literal hstart fun _ hspan => .float hspan hkind
  · exact makes_literal hstart fun _ hspan => .bool hspan
  · exact makes_literal hstart fun _ hspan => .bool hspan
  · exact makes_literal hstart fun _ hspan => .null hspan
  · exact keeps_advance.andThen fun _ => (makes_separatedUntil _ hitem).bind fun _ hitems =>
      (makes_spanFrom hstart).bind fun _ hspan => .pure (.list hspan hitems)
  · exact keeps_advance.andThen fun _ => (makes_separatedUntil _ (makes_entry hitem)).bind fun _ hentries =>
      (makes_spanFrom hstart).bind fun _ hspan =>
        .pure (.record hspan (fun e he => (hentries e he).1) fun e he => (hentries e he).2)
  · exact makes_reference.bind fun _ hfound => (makes_spanFrom hstart).bind fun _ hspan =>
      .pure (.reference hspan hfound.1 hfound.2)
  · exact makes_constructorForm hitem hvalue hstart hkind
  · exact makes_failExpecting _

omit hitem hvalue

mutual

/-- Data within a number of levels is made of the material. -/
theorem makes_dataWithin : (levels : Nat) → Makes M (dataWithin levels) (·.Made M false levels)
  | 0 => makes_failTooDeep
  | levels + 1 => makes_dataForm (makes_dataWithin levels) (makes_valueWithin levels)

/-- Data with blocks, within a number of levels, is made of the material. -/
theorem makes_valueWithin : (levels : Nat) → Makes M (valueWithin levels) (·.Made M false levels)
  | 0 => makes_failTooDeep
  | levels + 1 => (keeps_isAt _).andThen fun _ => .ite
      (fun _ => makes_block (makes_dataWithin levels) (makes_valueWithin levels))
      fun _ => makes_dataForm (makes_dataWithin levels) (makes_valueWithin levels)

end

/-- Data is made of the material. -/
theorem makes_data : Makes M data (·.Made M false maxNesting) := makes_dataWithin _

end Data

/-! ## Types -/

section Types

variable {type : Parser TypeExpr} {levels : Nat}

/-- A type in parentheses is made as the type inside is. -/
theorem makes_groupedType {P : TypeExpr → Prop} (htype : Makes M type P) : Makes M (groupedType type) P :=
  (keeps_expect _).andThen fun _ => keeps_skipNewlines.andThen fun _ => htype.bind fun _ ht =>
    keeps_skipNewlines.andThen fun _ => (keeps_expect _).andThen fun _ => .pure ht

variable (htype : Makes M type (·.Made M false levels))

include htype

/-- An argument of a type is made of the material. -/
theorem makes_typeArgument : Makes M (typeArgument type) (·.Made M true levels) := by
  refine makes_kind.bind fun kind hkind => ?_
  split
  · exact makes_get.bind fun _ hc => keeps_advance.andThen fun _ => .pure (.bare hc.current.span hkind)
  · exact (makes_groupedType htype).mono fun _ => .argument

omit htype in
/-- Looking for more arguments of a type makes nothing up. -/
theorem keeps_moreTypeArguments : Keeps M moreTypeArguments := by
  refine makes_kind.andThen fun kind => ?_
  split
  all_goals exact .pure trivial

/-- A type is made of the material, one level above the types inside. -/
theorem makes_typeForm : Makes M (typeForm type) (·.Made M false (levels + 1)) := by
  refine makes_start.bind fun start hstart => makes_kind.bind fun kind hkind => ?_
  split
  · exact keeps_advance.andThen fun _ => htype.bind fun _ ht => (makes_spanFrom hstart).bind fun _ hspan =>
      .pure (.optional hspan ht)
  · exact keeps_advance.andThen fun _ => htype.bind fun _ ht => (makes_spanFrom hstart).bind fun _ hspan =>
      .pure (.list hspan ht)
  · exact (makes_groupedType htype).mono fun _ => .grouped
  · exact keeps_advance.andThen fun _ =>
      (makes_rounds keeps_moreTypeArguments (makes_typeArgument htype)).bind fun _ hargs =>
        (makes_spanFrom hstart).bind fun _ hspan => .pure (.named hspan hkind hargs)
  · exact makes_failExpecting _

omit htype

/-- A type within a number of levels is made of the material. -/
theorem makes_typeWithin : (levels : Nat) → Makes M (typeWithin levels) (·.Made M false levels)
  | 0 => makes_failTooDeep
  | levels + 1 => makes_typeForm (makes_typeWithin levels)

/-- A type is made of the material. -/
theorem makes_type : Makes M Parser.type (·.Made M false maxNesting) := makes_typeWithin _

end Types

/-! ## Expressions -/

section Expressions

/-- Looking for how a chain goes on makes nothing up. -/
theorem keeps_continuation? (least : Nat) : Keeps M (continuation? least) := by
  refine makes_kind.andThen fun kind => ?_
  split
  · exact .pure trivial
  · split
    · exact .pure trivial
    · exact .pure trivial

/-- Opening a group makes nothing up. -/
theorem keeps_openGroup : Keeps M openGroup := .move fun _ hc => hc.setGroups _

/-- Closing a group makes nothing up. -/
theorem keeps_closeGroup : Keeps M closeGroup := .move fun _ hc => hc.setGroups _

/-- The arguments of a call are made with labels of the material. -/
theorem makes_callArguments {operand : Parser Expr} {P : Expr → Prop} (h : Makes M operand P) :
    Makes M (callArguments operand) fun args => ∀ arg ∈ args, M.Labels arg.name ∧ P arg.value := by
  have hargument : Makes M (callArgument operand) fun arg => M.Labels arg.name ∧ P arg.value :=
    makes_acceptLabel.bind fun _ hlabel => h.bind fun _ hvalue => .pure ⟨hlabel, hvalue⟩
  exact (keeps_expect _).andThen fun _ => keeps_openGroup.andThen fun _ =>
    (makes_separatedUntil _ hargument).bind fun _ hargs => keeps_closeGroup.andThen fun _ => .pure hargs

/-- An operand is made of the material, one level above the expressions inside. -/
theorem makes_primary {operand : Nat → Parser Expr} {levels : Nat}
    (h : ∀ least, Makes M (operand least) (·.Made M levels 0)) :
    Makes M (primary operand) (·.Made M (levels + 1) levels) := by
  refine makes_start.bind fun start hstart => makes_kind.bind fun kind hkind => ?_
  split
  · exact makes_literal hstart fun _ hspan => .int hspan hkind
  · exact makes_literal hstart fun _ hspan => .float hspan hkind
  · exact makes_literal hstart fun _ hspan => .str hspan ⟨_, hkind, rfl⟩
  · exact makes_literal hstart fun _ hspan => .bool hspan
  · exact makes_literal hstart fun _ hspan => .bool hspan
  · exact makes_literal hstart fun _ hspan => .null hspan
  · refine keeps_advance.andThen fun _ => (keeps_isAt _).andThen fun _ => .ite (fun _ => ?_) fun _ => ?_
    · exact (makes_callArguments (h 0)).bind fun _ hargs => (makes_spanFrom hstart).bind fun _ hspan =>
        .pure (.call hspan hkind (fun arg harg => (hargs arg harg).1) fun arg harg => (hargs arg harg).2)
    · exact (makes_spanFrom hstart).bind fun _ hspan => .pure (.name hspan hkind)
  · exact keeps_advance.andThen fun _ => keeps_openGroup.andThen fun _ => (h 0).bind fun _ he =>
      keeps_skipNewlinesInGroup.andThen fun _ => (keeps_expect _).andThen fun _ =>
        keeps_closeGroup.andThen fun _ => .pure (.grouped he)
  · exact keeps_advance.andThen fun _ => keeps_openGroup.andThen fun _ =>
      (makes_separatedUntil _ (h 0)).bind fun _ hitems => keeps_closeGroup.andThen fun _ =>
        (makes_spanFrom hstart).bind fun _ hspan => .pure (.list hspan hitems)
  · exact keeps_advance.andThen fun _ => (h _).bind fun _ he => (makes_spanFrom hstart).bind fun _ hspan =>
      .pure (.unary hspan he)
  · exact keeps_advance.andThen fun _ => (h _).bind fun _ he => (makes_spanFrom hstart).bind fun _ hspan =>
      .pure (.unary hspan he)
  · exact makes_failExpecting _

mutual

/-- An expression within a number of levels is made of the material. -/
theorem makes_exprWithin : (levels least : Nat) → Makes M (exprWithin levels least) (·.Made M levels 0)
  | 0, _ => makes_failTooDeep
  | levels + 1, least => keeps_skipNewlinesInGroup.andThen fun _ =>
      (makes_primary (makes_exprWithin levels)).bind fun _ hfirst => makes_chainWithin levels least hfirst

/-- Each operator or field after the first operand takes a level of those that are left. -/
theorem makes_chainWithin {all : Nat} : (left least : Nat) → {lhs : Expr} → lhs.Made M all left →
    Makes M (chainWithin left least lhs) (·.Made M all 0)
  | 0, least, lhs, h => by
    refine (keeps_continuation? least).andThen fun next => ?_
    split
    · exact .pure h
    · exact makes_failTooDeep
  | left + 1, least, lhs, h => by
    refine (keeps_continuation? least).andThen fun next => ?_
    split
    · exact .pure h.complete
    · exact keeps_advance.andThen fun _ => (makes_expectName _).bind fun _ hname =>
        (makes_spanFrom h.covers.start).bind fun _ hspan =>
          makes_chainWithin left least (.field hspan hname h)
    · exact keeps_advance.andThen fun _ => (makes_exprWithin left _).bind fun _ hrhs =>
        makes_chainWithin left least (.binary (h.covers.through hrhs.covers) h hrhs)

end

/-- An expression is made of the material. -/
theorem makes_expr : Makes M expr (·.Made M maxNesting 0) := makes_exprWithin _ _

end Expressions

/-! ## Clauses -/

/-- Names of constructors are names of the material. -/
theorem makes_constructorNames : Makes M constructorNames fun names => ∀ name ∈ names, M.kind (.name name) :=
  (keeps_accept _).andThen fun _ => .ite
    (fun _ => makes_separatedUntil _ (makes_expectName _))
    fun _ => (makes_commaSeparated (makes_expectName _)).mono fun _ h => h.2

/-- The names of a scope are those of tokens. -/
def ScopeOf (M : Material) (scope : Scope) : Prop := ∀ name ∈ scope.names, M.kind (.name name)

/-- The scope of all constructors names none. -/
theorem scopeOf_all : ScopeOf M .all := List.forall_mem_nil _

/-- A scope is made of names of the material. -/
theorem makes_scope : Makes M scope (ScopeOf M) := by
  refine (keeps_accept _).andThen fun _ => .ite (fun _ => ?_) fun _ => ?_
  · exact makes_constructorNames.bind fun _ hnames => .pure hnames
  · refine (keeps_accept _).andThen fun _ => .ite (fun _ => ?_) fun _ => .pure scopeOf_all
    exact makes_constructorNames.bind fun _ hnames => .pure hnames

/-- A line with a condition is made of the material. -/
theorem makes_conditionLine : Makes M conditionLine (·.Made M maxNesting 0) :=
  makes_expr.bind fun _ he => (keeps_accept _).andThen fun _ => keeps_endLine.andThen fun _ => .pure he

/-- Looking for a block makes nothing up. -/
theorem keeps_isBlockHere : Keeps M isBlockHere :=
  (keeps_isAt _).andThen fun _ => (keeps_isAhead _).andThen fun _ => .pure trivial

/-- At least one condition is made of the material. -/
theorem makes_conditions :
    Makes M conditions fun es => es ≠ [] ∧ ∀ e ∈ es, e.Made M maxNesting 0 := by
  refine keeps_isBlockHere.andThen fun _ => .ite (fun _ => ?_) fun _ => makes_commaSeparated makes_expr
  exact keeps_advance.andThen fun _ => keeps_advance.andThen fun _ => makes_conditionLine.bind fun _ hfirst =>
    (makes_rounds keeps_moreLines makes_conditionLine).bind fun _ hmore =>
      .pure ⟨List.cons_ne_nil _ _, List.forall_mem_cons.2 ⟨hfirst, hmore⟩⟩

/-- A scope behind a clause is made of names of the material. -/
theorem makes_scopeAfterClause : Makes M scopeAfterClause (ScopeOf M) := by
  refine (keeps_isAt _).andThen fun _ => (keeps_isAhead _).andThen fun _ => (keeps_isAhead _).andThen fun _ =>
    .ite (fun _ => ?_) fun _ => makes_scope
  exact keeps_advance.andThen fun _ => makes_scope

/-- A clause is made of the material, if its scope is. -/
theorem makes_whereClause {scope : Parser Scope} (h : Makes M scope (ScopeOf M)) :
    Makes M (whereClause scope) (·.Made M) :=
  makes_start.bind fun _ hstart => (keeps_expect _).andThen fun _ => makes_conditions.bind fun _ hconditions =>
    h.bind fun _ hscope => (makes_spanFrom hstart).bind fun _ hspan =>
      .pure ⟨hconditions.1, hconditions.2, hscope, hspan⟩

/-! ## Declarations -/

/-- A field is made of the material. -/
theorem makes_fieldDecl : Makes M fieldDecl (·.Made M) :=
  makes_start.bind fun _ hstart => makes_acceptLabel.bind fun _ hlabel => makes_type.bind fun _ htype =>
    (makes_spanFrom hstart).bind fun _ hspan => .pure ⟨hlabel, htype, hspan⟩

/-- A constructor is made of the material, with the conditions after it. -/
theorem makes_ctorDecl : Makes M ctorDecl (·.Made M) := by
  refine makes_start.bind fun _ hstart => (makes_expectName _).bind fun name hname =>
    (keeps_expect _).andThen fun _ => (makes_separatedUntil _ makes_fieldDecl).bind fun fields hfields =>
      (makes_spanFrom hstart).bind fun span hspan => (keeps_isAt _).andThen fun _ => ?_
  refine .ite (fun _ => ?_) fun _ => ?_
  · refine ((makes_whereClause (.pure scopeOf_all)).map (Q := fun clause? =>
      ∀ clause, clause? = some clause → clause.Made M) fun _ hclause => ?_).bind fun _ hclause =>
        .pure ⟨hname, hfields, hclause, hspan⟩
    rintro _ ⟨⟩
    exact hclause
  · exact .pure ⟨hname, hfields, by rintro _ ⟨⟩, hspan⟩

/-- When the conditions after the last constructor are taken off, both are made of the material. -/
theorem made_takeLastInline {ctors rest : List CtorDecl} {clause : WhereClause}
    (h : takeLastInline ctors = some (rest, clause)) (hctors : ∀ ctor ∈ ctors, ctor.Made M) :
    rest ≠ [] ∧ (∀ ctor ∈ rest, ctor.Made M) ∧ clause.Made M := by
  fun_induction takeLastInline ctors generalizing rest clause with
  | case1 => cases h
  | case2 ctor =>
    obtain ⟨inlineClause, hclause, h⟩ := Option.map_eq_some_iff.1 h
    cases h
    have hctor := hctors ctor (.head _)
    refine ⟨List.cons_ne_nil _ _, List.forall_mem_singleton.2 ?_, hctor.inlineWhere _ hclause⟩
    exact ⟨hctor.name, hctor.fields, by rintro _ ⟨⟩, hctor.span⟩
  | case3 ctor ctors hne ih =>
    obtain ⟨⟨rest, _⟩, hrest, h⟩ := Option.map_eq_some_iff.1 h
    cases h
    obtain ⟨hctor, hctors⟩ := List.forall_mem_cons.1 hctors
    obtain ⟨-, hmade, hclause⟩ := ih hrest hctors
    exact ⟨List.cons_ne_nil _ _, List.forall_mem_cons.2 ⟨hctor, hmade⟩, hclause⟩

/-- The constructors and clauses of a line or of several are made of the material. -/
structure MadeParts (M : Material) (parts : List CtorDecl × List WhereClause) : Prop where
  ctors : ∀ ctor ∈ parts.1, ctor.Made M
  clauses : ∀ clause ∈ parts.2, clause.Made M

/-- Constructors in one line are made of the material, at least one of them. -/
theorem makes_alternatives : Makes M alternatives fun parts => parts.1 ≠ [] ∧ MadeParts M parts := by
  refine (keeps_accept _).andThen fun _ => makes_ctorDecl.bind fun first hfirst =>
    (makes_rounds (keeps_accept _) (keeps_skipNewlinesInGroup.andThen fun _ => makes_ctorDecl)).bind
      fun others hothers => ?_
  have hctors := List.forall_mem_cons.2 ⟨hfirst, hothers⟩
  refine (keeps_isAt _).andThen fun _ => (keeps_isAt _).andThen fun _ => .ite (fun _ => ?_) fun _ =>
    .pure ⟨List.cons_ne_nil _ _, hctors, List.forall_mem_nil _⟩
  split
  · exact makes_failExpecting _
  · rename_i ctors clause h
    obtain ⟨hne, hrest, hclause⟩ := made_takeLastInline h hctors
    refine makes_scope.bind fun _ hscope => (makes_spanFrom hclause.span.start).bind fun _ hspan => .pure ?_
    exact ⟨hne, hrest, List.forall_mem_singleton.2 ⟨hclause.ne_nil, hclause.conditions, hscope, hspan⟩⟩

/-- A line of a type is made of the material. -/
theorem makes_typeLine : Makes M typeLine (MadeParts M) := by
  refine (keeps_isAt _).andThen fun _ => .ite (fun _ => ?_) fun _ => ?_
  · refine (makes_whereClause makes_scopeAfterClause).bind fun clause hclause => ?_
    have hparts : MadeParts M ([], [clause]) := ⟨List.forall_mem_nil _, List.forall_mem_singleton.2 hclause⟩
    exact Makes.bind (.pure hparts) fun _ h => keeps_endLine.andThen fun _ => .pure h
  · exact makes_alternatives.bind fun _ h => keeps_endLine.andThen fun _ => .pure h.2

/-- The lines of a type are made of the material, with at least one constructor. -/
theorem makes_typeLines : Makes M typeLines fun parts => parts.1 ≠ [] ∧ MadeParts M parts := by
  refine (makes_rounds keeps_moreLines makes_typeLine).bind fun lines hlines => ?_
  have hparts : MadeParts M (lines.flatMap Prod.fst, lines.flatMap Prod.snd) := by
    refine ⟨fun ctor hctor => ?_, fun clause hclause => ?_⟩
    · obtain ⟨line, hline, hctor⟩ := List.mem_flatMap.1 hctor
      exact (hlines line hline).ctors ctor hctor
    · obtain ⟨line, hline, hclause⟩ := List.mem_flatMap.1 hclause
      exact (hlines line hline).clauses clause hclause
  refine .ite (fun _ => (makes_failExpecting (P := fun _ => False) _).bind fun _ h => h.elim) fun hne => ?_
  exact .pure ⟨fun hnil => hne (List.isEmpty_iff.2 hnil), hparts⟩

/-- Looking for more clauses makes nothing up. -/
theorem keeps_moreClauses : Keeps M moreClauses := by
  refine (keeps_isAt _).andThen fun _ => (keeps_isAhead _).andThen fun _ => .ite (fun _ => ?_) fun _ => ?_
  · exact keeps_advance.andThen fun _ => keeps_isAt _
  · exact keeps_isAt _

/-- Looking for more parameters makes nothing up. -/
theorem keeps_moreParameters : Keeps M moreParameters := by
  refine makes_kind.andThen fun kind => ?_
  split
  · exact .pure trivial
  · exact .pure trivial

/-- A declaration is made of the material. -/
theorem makes_typeDecl : Makes M typeDecl (·.Made M) := by
  refine makes_start.bind fun start hstart => (keeps_expect _).andThen fun _ =>
    (makes_expectName _).bind fun name hname => (makes_rounds keeps_moreParameters (makes_expectName _)).bind
      fun params hparams => (keeps_expect _).andThen fun _ => keeps_isBlockHere.andThen fun _ => ?_
  have hend : ∀ parts : CtorLayout × List CtorDecl × List WhereClause,
      parts.2.1 ≠ [] ∧ MadeParts M parts.2 →
      Makes M (do
        let more ← rounds moreClauses (whereClause scopeAfterClause)
        return ⟨name, params, parts.1, parts.2.1, parts.2.2 ++ more, ← spanFrom start⟩)
        fun decl : TypeDecl => decl.Made M :=
    fun parts hparts => (makes_rounds keeps_moreClauses (makes_whereClause makes_scopeAfterClause)).bind
      fun _ hmore => (makes_spanFrom hstart).bind fun _ hspan =>
        .pure ⟨hname, hparams, hparts.1, hparts.2.ctors,
          List.forall_mem_append.2 ⟨hparts.2.clauses, hmore⟩, hspan⟩
  refine .ite (fun _ => ?_) fun _ => ?_
  · exact keeps_advance.andThen fun _ => keeps_advance.andThen fun _ => makes_typeLines.bind
      fun parts hparts => Makes.bind (.pure hparts) hend
  · exact makes_alternatives.bind fun parts hparts => Makes.bind (.pure hparts) hend

/-! ## Documents -/

/-- A rule is made of the material. -/
theorem makes_ruleDecl {template : Template} (htemplate : M.kind (.string template)) :
    Makes M (ruleDecl template) (·.Made M) := by
  refine makes_start.bind fun start hstart => keeps_advance.andThen fun _ => (keeps_expect _).andThen fun _ =>
    makes_kind.andThen fun _ => makes_expr.bind fun target htarget => ?_
  split
  · rename_i span callee args
    have hend : ∀ guards : List Expr, (∀ e ∈ guards, e.Made M maxNesting 0) →
        Makes M (do return ⟨template, .call span callee args, guards, ← spanFrom start⟩)
          fun rule : RuleDecl => rule.Made M := fun guards hguards =>
      (makes_spanFrom hstart).bind fun _ hspan =>
        .pure ⟨htemplate, htarget, ⟨_, _, _, rfl⟩, hguards, hspan⟩
    refine (keeps_accept _).andThen fun _ => .ite (fun _ => ?_) fun _ => ?_
    · exact (makes_commaSeparated makes_expr).bind fun guards hguards => hend guards hguards.2
    · exact Makes.bind (.pure (List.forall_mem_nil _)) hend
  · exact .throw htarget.covers

/-- A binding is made of the material. -/
theorem makes_binding : Makes M binding (·.Made M) := by
  refine makes_start.bind fun start hstart => (makes_expectName _).bind fun name hname =>
    (keeps_accept _).andThen fun _ => ?_
  have hend : ∀ type : Option TypeExpr, (∀ t, type = some t → t.Made M false maxNesting) →
      Makes M (do
        expect (.mark .define)
        let value ← data
        return ⟨name, type, value, ← spanFrom start⟩) fun b : Binding => b.Made M := fun type htype =>
    (keeps_expect _).andThen fun _ => makes_data.bind fun _ hvalue => (makes_spanFrom hstart).bind
      fun _ hspan => .pure ⟨hname, htype, hvalue, hspan⟩
  refine .ite (fun _ => ?_) fun _ => ?_
  · refine (makes_type.map (Q := fun type => ∀ t, type = some t → t.Made M false maxNesting)
      fun _ ht => ?_).bind hend
    rintro _ ⟨⟩
    exact ht
  · exact Makes.bind (.pure (by rintro _ ⟨⟩)) hend

/-- A binding is made of the material, as an item. -/
theorem makes_bindingItem : Makes M (.binding <$> binding) (Item.Made M) := makes_binding.map fun _ h => h

/-- A value without a name is made of the material. -/
theorem makes_valueItem : Makes M (.value <$> data) (Item.Made M) := makes_data.map fun _ h => h

/-- An item that begins with a name is made of the material. -/
theorem makes_namedItem : Makes M namedItem (Item.Made M) := by
  refine (keeps_isAhead _).andThen fun _ => .ite (fun _ => makes_bindingItem) fun _ => ?_
  refine (keeps_isAhead _).andThen fun _ => (keeps_isFurtherAhead _).andThen fun _ => ?_
  exact .ite (fun _ => makes_bindingItem) fun _ => makes_valueItem

/-- An item is made of the material. -/
theorem makes_item : Makes M item (Item.Made M) := by
  refine makes_kind.bind fun kind hkind => ?_
  split
  · exact makes_typeDecl.map fun _ h => h
  · refine (keeps_isAhead _).andThen fun _ => .ite (fun _ => ?_) fun _ => makes_valueItem
    exact (makes_ruleDecl hkind).map fun _ h => h
  · exact makes_namedItem
  · exact makes_failExpecting _
  · exact makes_valueItem

/-- Looking for more items makes nothing up. -/
theorem keeps_moreItems : Keeps M moreItems :=
  keeps_skipNewlines.andThen fun _ => (keeps_isAt _).andThen fun _ => .pure trivial

/-- **A document is made of the material of its tokens.** -/
theorem makes_document : Makes M document (·.Made M) :=
  (makes_rounds keeps_moreItems (makes_item.bind fun _ h => keeps_endLine.andThen fun _ => .pure h)).bind
    fun _ h => .pure h

end Parser

namespace Document

/-- A document is parsed from what its tokens are made of, or parsing fails at a place of theirs. -/
theorem ends_parse {tokens : List Token} (h : ∀ token ∈ tokens, M.Holds token) :
    Ends (·.Made M) (fun e => M.Covers e.span) (Parser.document.run (Cursor.ofTokens tokens)).1 := by
  have hdocument := Parser.makes_document _ (Cursor.Of.ofTokens h)
  change Ends _ _ (Parser.document.outcome (Cursor.ofTokens tokens)).1
  generalize Parser.document.outcome (Cursor.ofTokens tokens) = result at hdocument ⊢
  rcases result with ⟨e | d, c⟩
  · exact hdocument
  · exact hdocument.2

/-- **A document that is read is made of what its text has,** or reading it fails at a place of the text. -/
theorem ends_read (hM : Lexical M) {source : String} (h : M.Reaches 0 source.toList) :
    Ends (·.Made M) (fun failure => (∃ e, failure = .token e ∧ M.Covers e.span) ∨
      ∃ e, failure = .parse e ∧ M.Covers e.span) (read source) := by
  have hscan := ends_scanFrom hM .initial source.toList h
  have hmapError : ∀ {ε α : Type} {P : α → Prop} {E : ε → Prop} {F : Failure → Prop} {x : Except ε α}
      {f : ε → Failure}, Ends P E x → (∀ e, E e → F (f e)) → Ends P F (x.mapError f) := by
    rintro ε α P E F (e | a) f h hf
    · exact hf e h
    · exact h
  unfold read
  refine (hmapError hscan fun e he => .inl ⟨e, rfl, he⟩).bind fun tokens htokens => ?_
  exact hmapError (ends_parse htokens) fun e he => .inr ⟨e, rfl, he⟩

end Document

end TypedData
