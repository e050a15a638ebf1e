import TypedData.Proofs.Parsing.Progress
import TypedData.Proofs.Parsing.Tracking

/-!
# Operands and chains around a line break

Two runs of the parser of expressions are compared (`Parser.Tracks`): one over some tokens, and one over the same tokens
with a line break in a parenthesis around an expression.  They give the same expression (`SameExpr.same`), or the second
one does not get on (`SameExpr.stuck`): at a line break between joined tokens it gives what it has read so far, and then
stands there (`Stuck`) until the parenthesis is to be closed, and fails.

Line breaks are passed over before an operand and before the parenthesis that closes a group.  That nothing is lost at
the other places, if the tokens are not joined, is because nothing goes on there in the first run either.
-/

namespace TypedData

open TypedData.Parser

variable {M : Material} {b : LineBreak} {brackets : List Enclosure} {c c' : Cursor}

/-! ## Where the runs stand -/

/-- The second run stands before a line break between joined tokens. -/
structure Stuck (b : LineBreak) (brackets : List Enclosure) (c' : Cursor) : Prop where
  joined : Joined b.previous b.next
  innermost : brackets.head? = some .group
  ahead : c'.ahead = .newline :: b.broken
  groups_eq : c'.groups = brackets.length

/-- What the two runs give, and where they stand then: they give the same expression, or the second one does not get
on. -/
inductive SameExpr (b : LineBreak) (brackets : List Enclosure) (e e' : Expr) (d d' : Cursor) : Prop
  | same : e'.relocate (fun _ => .zero) = e.relocate (fun _ => .zero) → Alongside b brackets brackets.length d d' →
      d.EndsValue → SameExpr b brackets e e' d d'
  | stuck : Stuck b brackets d' → SameExpr b brackets e e' d d'

/-- The two runs of a parser of expressions, wherever one may start. -/
def TracksOperands (M : Material) (b : LineBreak) (operand : Parser Expr) : Prop :=
  ∀ ⦃brackets c c'⦄, Alongside b brackets brackets.length c c' → c.Fresh →
    Tracks M (Joined b.previous b.next) c c' operand operand (SameExpr b brackets)

/-- A cursor at the line break before something joined is stuck there. -/
theorem Alongside.stuck (h : Alongside b brackets brackets.length c c') (hat : b.At brackets c c')
    (hjoined : Joined b.previous b.next) : Stuck b brackets c' :=
  ⟨hjoined, hat.fits.innermost, hat.kinds', h.groups_eq'⟩

/-- A stuck cursor is at the line break. -/
theorem Stuck.kind_eq (h : Stuck b brackets c') : c'.kind = .newline := (List.cons.inj h.ahead).1

/-- Behind the line break stands no closing parenthesis. -/
theorem Stuck.kind_skipNewlines_ne (h : Stuck b brackets c') (hc' : c'.Sound M) :
    c'.skipNewlines.kind ≠ .mark .rightParen := by
  obtain ⟨kind, kinds, hbroken, hnewline, hparen⟩ := b.other h.joined
  have hother : ¬ kind.isNewline = true := mt of_decide_eq_true hnewline
  have hdrop : c'.ahead.dropWhile TokenKind.isNewline = kind :: kinds := by
    rw [h.ahead, List.dropWhile_cons_of_pos (show TokenKind.newline.isNewline = true from rfl), hbroken,
      List.dropWhile_cons_of_neg hother]
  exact hc'.kind_skipNewlines_eq hdrop ▸ hparen

namespace Parser

/-- In a group, a token that is not the parenthesis that closes it. -/
theorem exists_error_closing {α : Type} {k : PUnit → Parser α} (hgroups : 0 < c.groups)
    (hparen : c.skipNewlines.kind ≠ .mark .rightParen) :
    ∃ e d, (skipNewlinesInGroup >>= fun _ => expect (.mark .rightParen) >>= k).outcome c = (.error e, d) := by
  obtain ⟨e, d, he⟩ := exists_error_expect hparen k
  refine ⟨e, d, ?_⟩
  rw [outcome_bind]
  change ((expect (.mark .rightParen) >>= k).outcome c.skipNewlinesInGroup) = _
  rwa [Cursor.skipNewlinesInGroup, if_pos hgroups]

/-! ## Operands -/

/-- A token that is an operand. -/
theorem tracks_literal {f : Span → Expr} {start start' : Nat} (h : Alongside b brackets brackets.length c c')
    (hkind : c'.kind = c.kind)
    (hf : ∀ span span', (f span').relocate (fun _ => .zero) = (f span).relocate fun _ => .zero)
    (hvalue : c.kind.endsValue = true) (hbrackets : ∀ s : Surroundings, (s.pass c.kind).brackets = s.brackets) :
    Tracks M (Joined b.previous b.next) c c' (do advance; return f (← spanFrom start))
      (do advance; return f (← spanFrom start')) (SameExpr b brackets) := by
  have heof : c.kind ≠ .eof := fun heof => by
    rw [heof] at hvalue
    cases hvalue
  refine .advance_bind fun hc hc' => .spanFrom_bind <| .pure fun _ _ => ?_
  obtain ⟨h', hlast⟩ := h.advance hkind rfl heof hc hc'
  rw [hbrackets] at h'
  exact .same (hf _ _) h' ⟨c.kind, hlast, hvalue⟩

section Operands

variable {operand : Nat → Parser Expr} (hoperand : ∀ least, TracksOperands M b (operand least))

include hoperand

/-- In a list or a call, no line break is in the way. -/
theorem tracks_item {bracket : Enclosure} {outer : List Enclosure} (hbracket : bracket ≠ .group)
    (h : Alongside b (bracket :: outer) (outer.length + 1) c c') (hfresh : c.Fresh) :
    Tracks M (Joined b.previous b.next) c c' (operand 0) (operand 0) fun e e' d d' =>
      e'.relocate (fun _ => .zero) = e.relocate (fun _ => .zero) ∧
        Alongside b (bracket :: outer) (outer.length + 1) d d' := by
  refine (hoperand 0 h hfresh).mono fun e e' d d' _ _ hread => ?_
  cases hread with
  | same htree h' _ => exact ⟨htree, h'⟩
  | stuck hstuck => exact absurd (Option.some.inj hstuck.innermost) hbracket

/-- An argument of a call is parsed in the same way at both cursors, or what comes next is joined. -/
theorem tracks_callArgument {bracket : Enclosure} {outer : List Enclosure} (hbracket : bracket ≠ .group)
    (h : Alongside b (bracket :: outer) (outer.length + 1) c c') (hfresh : c.Fresh) :
    Tracks M (Joined b.previous b.next) c c' (callArgument (operand 0)) (callArgument (operand 0))
      fun arg arg' d d' => (arg'.name = arg.name ∧
        arg'.value.relocate (fun _ => .zero) = arg.value.relocate fun _ => .zero) ∧
          Alongside b (bracket :: outer) (outer.length + 1) d d' := by
  refine (tracks_acceptLabel hbracket h hfresh).bind fun label label' d d' ⟨hlabel, h', hfresh'⟩ => ?_
  refine (tracks_item hoperand hbracket h' hfresh').bind fun e e' d d' ⟨htree, h''⟩ => .pure fun _ _ => ?_
  exact ⟨⟨hlabel, htree⟩, h''⟩

omit hoperand in
/-- The items between two brackets, and what comes behind them. -/
theorem tracks_enclosed {α β : Type} {item : Parser α} {S : α → α → Prop} {k k' : List α → Parser β}
    {R : β → β → Cursor → Cursor → Prop} {bracket : Enclosure} {close : Mark} (hbracket : bracket ≠ .group)
    (hclose : ∀ s : Surroundings, (s.pass (.mark close)).brackets = s.brackets.tail)
    (hvalue : (TokenKind.mark close).endsValue = true) (htakes : Takes M item)
    (hitem : ∀ c c', Alongside b (bracket :: brackets) (brackets.length + 1) c c' → c.Fresh →
      Tracks M (Joined b.previous b.next) c c' item item fun x y d d' =>
        S x y ∧ Alongside b (bracket :: brackets) (brackets.length + 1) d d')
    (h : Alongside b (bracket :: brackets) brackets.length c c') (hfresh : c.Fresh)
    (hk : ∀ xs ys d d', List.Forall₂ S xs ys → Alongside b brackets brackets.length d d' → d.EndsValue →
      Tracks M (Joined b.previous b.next) d d' (k xs) (k' ys) R) :
    Tracks M (Joined b.previous b.next) c c'
      (openGroup >>= fun _ => separatedUntil close item >>= fun xs => closeGroup >>= fun _ => k xs)
      (openGroup >>= fun _ => separatedUntil close item >>= fun xs => closeGroup >>= fun _ => k' xs) R := by
  have hopened := h.setGroups (· + 1)
  refine .openGroup_bind <| (tracks_separatedUntil hbracket hclose htakes hitem hopened hfresh).bind ?_
  rintro xs ys d d' ⟨hxs, h', hlast⟩
  exact .closeGroup_bind <| hk xs ys _ _ hxs (h'.setGroups (· - 1)) ⟨_, hlast, hvalue⟩

variable (hnests : ∀ least, Nests M (operand least) fun e => [e.spanTree])

include hnests

/-- The arguments of a call are parsed in the same way at both cursors, or what comes next is joined. -/
theorem tracks_callArguments (h : Alongside b brackets brackets.length c c') (hkind : c'.kind = c.kind)
    (hname : c.lastKind.any TokenKind.isName = true) :
    Tracks M (Joined b.previous b.next) c c' (callArguments (operand 0)) (callArguments (operand 0))
      fun args args' d d' => Expr.relocateArguments (fun _ => .zero) args' =
          Expr.relocateArguments (fun _ => .zero) args ∧
        Alongside b brackets brackets.length d d' ∧ d.EndsValue := by
  refine .expect_bind hkind fun hc hc' hparen => ?_
  obtain ⟨h₁, hlast⟩ := h.advance hkind hparen (by simp) hc hc'
  have hcall : (Surroundings.pass ⟨c.lastKind, brackets⟩ (.mark .leftParen)).brackets = .call :: brackets := by
    rw [Surroundings.pass, hname]
    rfl
  rw [hcall] at h₁
  have hbracket : Enclosure.call ≠ .group := by simp
  refine tracks_enclosed hbracket (fun _ => rfl) rfl (nests_callArgument (hnests 0)).takes
    (fun c c' => tracks_callArgument hoperand hbracket) h₁ (Cursor.fresh_of_lastKind hlast rfl (by simp)) ?_
  intro args args' d d' hargs h' hvalue
  exact .pure fun _ _ => ⟨Expr.relocateArguments_of_forall₂ hargs, h', hvalue⟩

/-- A list is parsed in the same way at both cursors, or what comes next is joined. -/
theorem tracks_list {start start' : Nat} (h : Alongside b brackets brackets.length c c') (hkind : c'.kind = c.kind)
    (hbracket : c.kind = .mark .leftBracket) :
    let list (start : Nat) : Parser Expr := do
      advance
      openGroup
      let items ← separatedUntil .rightBracket (operand 0)
      closeGroup
      return .list (← spanFrom start) items
    Tracks M (Joined b.previous b.next) c c' (list start) (list start') (SameExpr b brackets) := by
  refine .advance_bind fun hc hc' => ?_
  obtain ⟨h₁, hlast⟩ := h.advance hkind hbracket (by simp) hc hc'
  have hlist : Enclosure.list ≠ .group := by simp
  refine tracks_enclosed hlist (fun _ => rfl) rfl (hnests 0).takes (fun c c' => tracks_item hoperand hlist) h₁
    (Cursor.fresh_of_lastKind hlast rfl (by simp)) ?_
  intro items items' d d' hitems h' hvalue
  refine .spanFrom_bind <| .pure fun _ _ => .same ?_ h' hvalue
  rw [Expr.relocate, Expr.relocate, Expr.relocateItems_of_forall₂ hitems]

omit hnests in
/-- An operand in parentheses.  Before the closing one a line break is passed over, so it is there that a run fails
which stands before a line break between joined tokens, or would stand there. -/
theorem tracks_group (h : Alongside b brackets brackets.length c c') (hkind : c'.kind = c.kind)
    (hparen : c.kind = .mark .leftParen) (hname : c.lastKind.any TokenKind.isName = false) :
    let group : Parser Expr := do
      advance
      openGroup
      let inner ← operand 0
      skipNewlinesInGroup
      expect (.mark .rightParen)
      closeGroup
      return inner
    Tracks M (Joined b.previous b.next) c c' group group (SameExpr b brackets) := by
  refine .advance_bind fun hc hc' => ?_
  obtain ⟨h₁, hlast⟩ := h.advance hkind hparen (by simp) hc hc'
  have hgroup : (Surroundings.pass ⟨c.lastKind, brackets⟩ (.mark .leftParen)).brackets = .group :: brackets := by
    rw [Surroundings.pass, hname]
    rfl
  rw [hgroup] at h₁
  have hfresh : c.advance.Fresh := Cursor.fresh_of_lastKind hlast rfl (by simp)
  refine .openGroup_bind <| (hoperand 0 (h₁.setGroups (· + 1)) hfresh).bind fun e e' d d' hread => ?_
  cases hread with
  | stuck hstuck => exact .of_sound fun _ hd' => .refused hstuck.joined <|
      exists_error_closing (hstuck.groups_eq ▸ Nat.succ_pos _) (hstuck.kind_skipNewlines_ne hd')
  | same htree h' hvalue =>
    by_cases hat : b.At (.group :: brackets) d d' ∧ Joined b.previous b.next
    · obtain ⟨hat, hjoined⟩ := hat
      exact .of_sound fun hd _ => .fails <|
        exists_error_closing (h'.groups_eq ▸ Nat.succ_pos _) (hat.kind_skipNewlines_ne hd hjoined)
    · refine .skipNewlinesInGroup_bind fun hd hd' => ?_
      obtain ⟨h₂, hkind₂⟩ := h'.skipNewlinesInGroup (fun hat' hjoined => hat ⟨hat', hjoined⟩) hd hd'
      refine .expect_bind hkind₂ fun hd₂ hd₂' hparen₂ => .closeGroup_bind <| .pure fun _ _ => ?_
      obtain ⟨h₃, hlast₃⟩ := h₂.advance hkind₂ hparen₂ (by simp) hd₂ hd₂'
      exact .same htree (h₃.setGroups (· - 1)) ⟨_, hlast₃, rfl⟩

omit hnests in
/-- An operand behind a unary operator. -/
theorem tracks_unary {f : Span → Expr → Expr} {start start' least : Nat}
    (h : Alongside b brackets brackets.length c c') (hkind : c'.kind = c.kind)
    (hf : ∀ span span' e e', e'.relocate (fun _ => .zero) = e.relocate (fun _ => .zero) →
      (f span' e').relocate (fun _ => .zero) = (f span e).relocate fun _ => .zero)
    (hbrackets : ∀ s : Surroundings, (s.pass c.kind).brackets = s.brackets) (heof : c.kind ≠ .eof)
    (hvalue : c.kind.endsValue = false) (hdot : c.kind ≠ .mark .dot) :
    let unary (start : Nat) : Parser Expr := do
      advance
      let inner ← operand least
      return f (← spanFrom start) inner
    Tracks M (Joined b.previous b.next) c c' (unary start) (unary start') (SameExpr b brackets) := by
  refine .advance_bind fun hc hc' => ?_
  obtain ⟨h₁, hlast⟩ := h.advance hkind rfl heof hc hc'
  rw [hbrackets] at h₁
  have hfresh : c.advance.Fresh := Cursor.fresh_of_lastKind hlast hvalue hdot
  refine (hoperand least h₁ hfresh).bind fun e e' d d' hread => .spanFrom_bind <| .pure fun _ _ => ?_
  cases hread with
  | same htree h' hvalue => exact .same (hf _ _ e e' htree) h' hvalue
  | stuck hstuck => exact .stuck hstuck

/-- A name, or a call.  A parenthesis that does not stand in the line of the name is no part of the operand. -/
theorem tracks_name {text : String} {start start' : Nat} (h : Alongside b brackets brackets.length c c')
    (hkind : c'.kind = c.kind) (hname : c.kind = .name text) :
    let name (start : Nat) : Parser Expr := do
      advance
      if ← isAt (.mark .leftParen) then
        let args ← callArguments (operand 0)
        return .call (← spanFrom start) text args
      else return .name (← spanFrom start) text
    Tracks M (Joined b.previous b.next) c c' (name start) (name start') (SameExpr b brackets) := by
  refine .advance_bind fun hc hc' => ?_
  obtain ⟨h₁, hlast⟩ := h.advance hkind hname (by simp) hc hc'
  have hvalue : c.advance.EndsValue := ⟨_, hlast, rfl⟩
  rcases h₁.kind_cases with hkind₁ | hat
  · refine .isAt_bind ?_
    rw [hkind₁]
    refine .ite (fun _ => ?_) fun _ => .spanFrom_bind <| .pure fun _ _ => .same rfl h₁ hvalue
    have hcall := tracks_callArguments hoperand hnests h₁ hkind₁ (by rw [hlast]; rfl)
    refine hcall.bind fun args args' d d' ⟨hargs, h', hvalue'⟩ => .spanFrom_bind <| .pure fun _ _ => ?_
    exact .same (by rw [Expr.relocate, Expr.relocate, hargs]) h' hvalue'
  · -- the second run takes the name alone
    have hnext := hat.kind_eq_next
    have hparen' : ¬ c'.advance.kind = .mark .leftParen := by
      rw [hat.kind_eq_newline]
      simp
    refine .isAt_bind ?_
    rw [if_neg (mt of_decide_eq_true hparen')]
    by_cases hparen : c.advance.kind = .mark .leftParen
    · have hjoined : Joined b.previous b.next := by
        have hprevious : b.previous = .name text := Option.some.inj (hat.fits.previous.symm.trans hlast)
        exact .inr (.inl ⟨by rw [hprevious]; rfl, hnext ▸ hparen⟩)
      rw [if_pos (decide_eq_true hparen)]
      refine .of_right (fun c => ?_) rfl (.refl _) fun _ _ => .stuck (h₁.stuck hat hjoined)
      exact (nests_callArguments (hnests 0) c).bind fun _ _ _ _ => .spanFrom_bind <| .pure fun _ => trivial
    · rw [if_neg (mt of_decide_eq_true hparen)]
      exact .spanFrom_bind <| .pure fun _ _ => .same rfl h₁ hvalue

/-- An operand is parsed in the same way at both cursors, or what comes next is joined. -/
theorem tracks_primary (h : Alongside b brackets brackets.length c c') (hkind : c'.kind = c.kind) (hfresh : c.Fresh) :
    Tracks M (Joined b.previous b.next) c c' (primary operand) (primary operand) (SameExpr b brackets) := by
  refine .start_bind <| .kind_bind ?_
  rw [hkind]
  split
  case h_1 heq | h_2 heq | h_3 heq | h_4 heq | h_5 heq | h_6 heq =>
    exact tracks_literal h hkind (fun _ _ => rfl) (by rw [heq]; rfl) fun _ => by rw [heq]; rfl
  case h_7 heq => exact tracks_name hoperand hnests h hkind heq
  case h_8 heq => exact tracks_group hoperand h hkind heq hfresh.not_name
  case h_9 heq => exact tracks_list hoperand hnests h hkind heq
  case h_10 heq | h_11 heq =>
    refine tracks_unary hoperand h hkind (fun _ _ e e' htree => ?_) (fun _ => by rw [heq]; rfl) (by rw [heq]; simp)
      (by rw [heq]; rfl) (by rw [heq]; simp)
    rw [Expr.relocate, Expr.relocate, htree]
  case h_12 => exact .fails (exists_error_failExpecting _ _)

end Operands

/-! ## Chains -/

/-- What continues an expression, by the token that stands before it. -/
def continuationOf (least : Nat) : TokenKind → Option Continuation
  | .mark .dot => if least ≤ fieldPower then some .field else none
  | kind => (binaryOp? kind).bind fun op => if least ≤ op.powers.1 then some (.binary op) else none

/-- Except for a dot, a chain goes on with the operators that bind tightly enough. -/
theorem continuationOf_eq {least : Nat} {kind : TokenKind} (h : kind ≠ .mark .dot) : continuationOf least kind =
    (binaryOp? kind).bind fun op => if least ≤ op.powers.1 then some (.binary op) else none := by
  unfold continuationOf
  split
  · exact absurd rfl h
  · rfl

/-- Looking for how a chain goes on takes nothing. -/
theorem outcome_continuation? (least : Nat) (c : Cursor) :
    (continuation? least).outcome c = (.ok (continuationOf least c.kind), c) := by
  rw [continuation?, outcome_kind_bind]
  by_cases hdot : c.kind = .mark .dot
  · rw [hdot]
    rfl
  · rw [continuationOf_eq hdot]
    split
    · exact absurd ‹_› hdot
    · split <;> rename_i hop <;> rw [hop] <;> rfl

/-- A chain goes on with a field only at a dot. -/
theorem kind_of_continuationOf_field {least : Nat} {kind : TokenKind} (h : continuationOf least kind = some .field) :
    kind = .mark .dot := by
  by_contra hdot
  rw [continuationOf_eq hdot] at h
  obtain ⟨op, -, hop⟩ := Option.bind_eq_some_iff.1 h
  split at hop <;> cases hop

/-- A chain goes on with an operator only at the token for it. -/
theorem binaryOp?_of_continuationOf {least : Nat} {kind : TokenKind} {op : BinaryOp}
    (h : continuationOf least kind = some (.binary op)) : binaryOp? kind = some op := by
  by_cases hdot : kind = .mark .dot
  · rw [hdot, continuationOf] at h
    split at h <;> cases h
  · rw [continuationOf_eq hdot] at h
    obtain ⟨op', hkind, hop⟩ := Option.bind_eq_some_iff.1 h
    split at hop <;> cases hop
    exact hkind

/-- A chain does not go on at a token that is no dot and no operator. -/
theorem continuationOf_eq_none {least : Nat} {kind : TokenKind} (hdot : kind ≠ .mark .dot)
    (hop : (binaryOp? kind).isSome = false) : continuationOf least kind = none := by
  rw [continuationOf_eq hdot, Option.isNone_iff_eq_none.1 (Option.isSome_eq_false_iff.1 hop)]
  rfl

/-- An operator neither ends an operand nor opens a bracket. -/
theorem neutral_of_binaryOp? {kind : TokenKind} {op : BinaryOp} (h : binaryOp? kind = some op) :
    kind.endsValue = false ∧ kind ≠ .mark .dot ∧ kind ≠ .eof ∧
      ∀ s : Surroundings, (s.pass kind).brackets = s.brackets := by
  unfold binaryOp? at h
  split at h <;> first | cases h; done | exact ⟨rfl, by simp, by simp, fun _ => rfl⟩

/-- Where nothing goes on with the operand, the chain is the operand. -/
theorem outcome_chainWithin {levels least : Nat} {lhs : Expr} (h : continuationOf least c.kind = none) :
    (chainWithin levels least lhs).outcome c = (.ok lhs, c) := by
  cases levels with
  | zero =>
    rw [chainWithin, outcome_bind, outcome_continuation?, h]
    rfl
  | succ levels =>
    rw [chainWithin, outcome_bind, outcome_continuation?, h]
    rfl

/-- A chain proceeds. -/
theorem proceeds_chainWithin (levels least : Nat) (lhs : Expr) : Proceeds M (chainWithin levels least lhs) := by
  induction levels generalizing lhs with
  | zero =>
    refine fun c => (goes_continuation? _).bind fun found c₁ _ _ => ?_
    cases found with
    | none => exact .pure fun _ => trivial
    | some _ => exact goes_failTooDeep
  | succ levels ih =>
    intro c
    rw [chainWithin_succ]
    refine (goes_chainRound_past levels least lhs).bind fun found c₁ _ _ => ?_
    cases found with
    | none => exact .pure fun _ => trivial
    | some e => exact ih e c₁

/-- Looking for how a chain goes on has the same answer at both cursors, where they are at the same token. -/
theorem Tracks.continuation?_bind {α β : Type} {mayFail : Prop} {least : Nat} {k : Option Continuation → Parser α}
    {k' : Option Continuation → Parser β} {R : α → β → Cursor → Cursor → Prop} (hkind : c'.kind = c.kind)
    (h : Tracks M mayFail c c' (k (continuationOf least c.kind)) (k' (continuationOf least c.kind)) R) :
    Tracks M mayFail c c' (continuation? least >>= k) (continuation? least >>= k') R :=
  .step_bind (outcome_continuation? least c) (hkind ▸ outcome_continuation? least c') (.refl c) (.refl c') fun _ _ => h

/-- Before the line break, the chain ends for the second run. -/
theorem tracks_chainWithin_of_stuck {levels least : Nat} {lhs lhs' : Expr} (h : Stuck b brackets c') :
    Tracks M (Joined b.previous b.next) c c' (chainWithin levels least lhs) (chainWithin levels least lhs')
      (SameExpr b brackets) :=
  have hnone : continuationOf least c'.kind = none := by rw [h.kind_eq]; rfl
  .of_right (proceeds_chainWithin levels least lhs) (outcome_chainWithin hnone) (.refl c') fun _ _ => .stuck h

/-- The two runs of a chain. -/
def TracksChains (M : Material) (b : LineBreak) (levels : Nat) : Prop :=
  ∀ ⦃brackets c c'⦄ (least : Nat) (lhs lhs' : Expr), Alongside b brackets brackets.length c c' → c.EndsValue →
    lhs'.relocate (fun _ => .zero) = lhs.relocate (fun _ => .zero) →
    Tracks M (Joined b.previous b.next) c c' (chainWithin levels least lhs) (chainWithin levels least lhs')
      (SameExpr b brackets)

/-- At the line break, a chain ends in the first run, too, unless the tokens are joined. -/
theorem tracks_chainWithin_of_at {levels least : Nat} {lhs lhs' : Expr} (h : Alongside b brackets brackets.length c c')
    (hvalue : c.EndsValue) (htree : lhs'.relocate (fun _ => .zero) = lhs.relocate fun _ => .zero)
    (hat : b.At brackets c c') :
    Tracks M (Joined b.previous b.next) c c' (chainWithin levels least lhs) (chainWithin levels least lhs')
      (SameExpr b brackets) := by
  by_cases hjoined : Joined b.previous b.next
  · exact tracks_chainWithin_of_stuck (h.stuck hat hjoined)
  · obtain ⟨kind, hlast, hends⟩ := hvalue
    obtain rfl : b.previous = kind := Option.some.inj (hat.fits.previous.symm.trans hlast)
    have hnone : continuationOf least c.kind = none := by
      rw [hat.kind_eq_next]
      refine continuationOf_eq_none (fun hdot => hjoined (.inl ⟨hends, .inl hdot⟩)) (eq_false_of_ne_true fun hop => ?_)
      exact hjoined (.inl ⟨hends, .inr hop⟩)
    have hnone' : continuationOf least c'.kind = none := by
      rw [hat.kind_eq_newline]
      rfl
    intro hc hc' x d hx
    rw [outcome_chainWithin hnone] at hx
    cases hx
    exact .inr ⟨lhs', c', outcome_chainWithin hnone', .refl c, .refl c', .same htree h ⟨_, hlast, hends⟩⟩

/-- The name of a field, and what goes on behind it. -/
theorem tracks_field {levels least : Nat} {lhs lhs' : Expr} (hchain : TracksChains M b levels)
    (h : Alongside b brackets brackets.length c c') (hdot : c.lastKind = some (.mark .dot))
    (htree : lhs'.relocate (fun _ => .zero) = lhs.relocate fun _ => .zero) :
    let field (lhs : Expr) : Parser Expr := do
      let name ← expectName .fieldName
      chainWithin levels least (.field (← spanFrom lhs.span.start) lhs name)
    Tracks M (Joined b.previous b.next) c c' (field lhs) (field lhs') (SameExpr b brackets) := by
  rcases h.kind_cases with hkind | hat
  · refine .expectName_bind hkind fun hc hc' name hname => .spanFrom_bind ?_
    obtain ⟨h₁, hlast⟩ := h.advance hkind hname (by simp) hc hc'
    exact hchain least _ _ h₁ ⟨_, hlast, rfl⟩ (by rw [Expr.relocate, Expr.relocate, htree])
  · -- a name behind the line break would be joined to the dot
    refine .bind (Q := fun _ _ _ _ => False) ?_ fun _ _ _ _ h => h.elim
    have hprevious : b.previous = .mark .dot := Option.some.inj (hat.fits.previous.symm.trans hdot)
    by_cases hname : c.kind.isName = true
    · refine .refused (.inr (.inr ⟨hprevious, hat.kind_eq_next ▸ hname⟩)) ?_
      exact exists_error_expectName _ (by rw [hat.kind_eq_newline]; rfl)
    · exact .fails (exists_error_expectName _ (eq_false_of_ne_true hname))

/-- The operand behind an operator, and what goes on behind it. -/
theorem tracks_rightOperand {levels least : Nat} {op : BinaryOp} {lhs lhs' : Expr}
    (hexpr : ∀ least, TracksOperands M b (exprWithin levels least)) (hchain : TracksChains M b levels)
    (h : Alongside b brackets brackets.length c c') (hfresh : c.Fresh)
    (htree : lhs'.relocate (fun _ => .zero) = lhs.relocate fun _ => .zero) :
    let binary (lhs : Expr) : Parser Expr := do
      let rhs ← exprWithin levels op.powers.2
      chainWithin levels least (.binary (lhs.span.through rhs.span) op lhs rhs)
    Tracks M (Joined b.previous b.next) c c' (binary lhs) (binary lhs') (SameExpr b brackets) := by
  refine (hexpr _ h hfresh).bind fun rhs rhs' d d' hread => ?_
  cases hread with
  | same hrhs h' hvalue => exact hchain least _ _ h' hvalue (by rw [Expr.relocate, Expr.relocate, htree, hrhs])
  | stuck hstuck => exact tracks_chainWithin_of_stuck hstuck

/-- Without levels no chain is parsed. -/
theorem tracksChains_zero : TracksChains M b 0 := by
  intro brackets c c' least lhs lhs' h hvalue htree
  rcases h.kind_cases with hkind | hat
  · rw [chainWithin, chainWithin]
    refine .continuation?_bind hkind ?_
    cases continuationOf least c.kind with
    | none => exact .pure fun _ _ => .same htree h hvalue
    | some _ => exact .fails ⟨_, _, rfl⟩
  · exact tracks_chainWithin_of_at h hvalue htree hat

/-- With one more level chains are parsed in the same way, if operands and chains are so with one less. -/
theorem tracksChains_succ {levels : Nat} (hexpr : ∀ least, TracksOperands M b (exprWithin levels least))
    (hchain : TracksChains M b levels) : TracksChains M b (levels + 1) := by
  intro brackets c c' least lhs lhs' h hvalue htree
  rcases h.kind_cases with hkind | hat
  · rw [chainWithin, chainWithin]
    refine .continuation?_bind hkind ?_
    cases hcontinuation : continuationOf least c.kind with
    | none => exact .pure fun _ _ => .same htree h hvalue
    | some continuation =>
      cases continuation with
      | field =>
        refine .advance_bind fun hc hc' => ?_
        have hdot := kind_of_continuationOf_field hcontinuation
        obtain ⟨h₁, hlast⟩ := h.advance hkind hdot (by simp) hc hc'
        exact tracks_field hchain h₁ hlast htree
      | binary op =>
        refine .advance_bind fun hc hc' => ?_
        obtain ⟨hends, hdot, heof, hbrackets⟩ := neutral_of_binaryOp? (binaryOp?_of_continuationOf hcontinuation)
        obtain ⟨h₁, hlast⟩ := h.advance hkind rfl heof hc hc'
        rw [hbrackets] at h₁
        have hfresh := Cursor.fresh_of_lastKind hlast hends hdot
        exact tracks_rightOperand hexpr hchain h₁ hfresh htree
  · exact tracks_chainWithin_of_at h hvalue htree hat

/-- **Expressions and chains are read in the same way with the line break and without it**, or the second run stops at
the line break. -/
theorem tracks_exprWithin_and_chainWithin (levels : Nat) :
    (∀ least, TracksOperands M b (exprWithin levels least)) ∧ TracksChains M b levels := by
  induction levels with
  | zero => exact ⟨fun _ _ _ _ _ _ => .fails ⟨_, _, rfl⟩, tracksChains_zero⟩
  | succ levels ih =>
    obtain ⟨hexpr, hchain⟩ := ih
    refine ⟨fun least brackets c c' h hfresh => ?_, tracksChains_succ hexpr hchain⟩
    refine .skipNewlinesInGroup_bind fun hc hc' => ?_
    obtain ⟨h₁, hkind⟩ := h.skipNewlinesInGroup (·.not_joined hfresh) hc hc'
    have hprimary := tracks_primary hexpr (nests_exprWithin levels) h₁ hkind (hc.fresh_skipNewlinesInGroup hfresh)
    refine hprimary.bind fun e e' d d' hread => ?_
    cases hread with
    | same htree h₂ hvalue => exact hchain least e e' h₂ hvalue htree
    | stuck hstuck => exact tracks_chainWithin_of_stuck hstuck

end Parser

end TypedData
