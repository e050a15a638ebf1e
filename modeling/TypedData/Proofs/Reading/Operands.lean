import TypedData.Proofs.Reading.Expressions

/-!
# Expressions that are read back

A chain of operators is read from the left, so whatever stands before an operator is an operand of it, as long as it
binds tightly enough.  `Expr.IsRead` says of an expression that what is read from its row of tokens is the beginning of
a chain, whatever the chain goes on with (`Expr.reads_glyphs`).  Where the chain cannot go on, this is all that is read
(`Expr.IsRead.delimited`).  What is read is the expression itself, unless a sign before a digit belongs to the number
(`Expr.reread`).

The printer puts parentheses by how tightly an expression binds, but the parser goes by the powers of the operators.
Every level of the printer has a power, and the two tables agree through it (`Parser.powers_eq`).
-/

namespace TypedData

open Cursor (At)
open TypedData.Parser

namespace Parser

variable {least precedence left : Nat} {next : TokenKind} {rest : List TokenKind} {op : BinaryOp}

/-! ## Two tables -/

/-- The power of what binds so tightly. -/
def power (precedence : Nat) : Nat := 2 * precedence - 1

/-- An operator binds to the left with the power of its precedence, and to the right with the next one. -/
theorem powers_eq (op : BinaryOp) : op.powers = (power op.precedence, power op.precedence + 1) := by cases op <;> rfl

/-- The power of `not` is that of its precedence. -/
theorem notPower_eq : notPower = power Expr.notPrecedence := rfl

/-- The power of a minus is that of its precedence. -/
theorem negPower_eq : negPower = power Expr.negPrecedence := rfl

/-- A greater precedence has no smaller power. -/
theorem power_mono {precedence precedence' : Nat} (h : precedence ≤ precedence') :
    power precedence ≤ power precedence' := by
  unfold power
  omega

/-- A greater precedence has a greater power, for two precedences that differ. -/
theorem power_lt {precedence precedence' : Nat} (h : precedence < precedence') :
    power precedence < power precedence' := by
  unfold power
  omega

/-! ## What follows an expression -/

/-- The token may follow an expression that binds so tightly, and is not read into it. -/
structure MayFollow (precedence : Nat) (next : TokenKind) : Prop where
  ne_leftParen : next ≠ .mark .leftParen
  dot : next = .mark .dot → Expr.atomPrecedence ≤ precedence
  op : ∀ op, binaryOp? next = some op → op.precedence ≤ precedence

/-- A chain does not go on with the token, where at least the power `least` is demanded. -/
structure Stops (least : Nat) (next : TokenKind) : Prop where
  ne_dot : next ≠ .mark .dot
  op : ∀ op, binaryOp? next = some op → op.powers.1 < least

/-- No expression goes on with the token. -/
structure Delimits (next : TokenKind) : Prop where
  ne_leftParen : next ≠ .mark .leftParen
  ne_dot : next ≠ .mark .dot
  op : binaryOp? next = none

/-- What ends an expression may follow any operand. -/
theorem Delimits.mayFollow (h : Delimits next) (precedence : Nat) : MayFollow precedence next where
  ne_leftParen := h.ne_leftParen
  dot hdot := absurd hdot h.ne_dot
  op op hop := by
    rw [h.op] at hop
    cases hop

/-- What ends an expression stops any chain. -/
theorem Delimits.stops (h : Delimits next) (least : Nat) : Stops least next where
  ne_dot := h.ne_dot
  op op hop := by
    rw [h.op] at hop
    cases hop

/-- Commas and closing brackets end expressions. -/
theorem delimits_separator (b : Bracket) {m : Mark} (h : m = .comma ∨ m = b.closing) : Delimits (.mark m) := by
  rcases h with rfl | rfl
  · exact ⟨by rintro ⟨⟩, by rintro ⟨⟩, rfl⟩
  · cases b <;> exact ⟨by rintro ⟨⟩, by rintro ⟨⟩, rfl⟩

/-- The token for an operator is read as the operator. -/
theorem binaryOp?_kind (op : BinaryOp) : binaryOp? op.kind = some op := by cases op <;> rfl

/-- What may follow an operand may follow one that binds more tightly. -/
theorem MayFollow.mono (h : MayFollow precedence next) {precedence' : Nat} (hle : precedence ≤ precedence') :
    MayFollow precedence' next where
  ne_leftParen := h.ne_leftParen
  dot hdot := Nat.le_trans (h.dot hdot) hle
  op op hop := Nat.le_trans (h.op op hop) hle

/-- What may follow an expression with an operator does not go on with the operand of the operator. -/
theorem MayFollow.stops (h : MayFollow precedence next) (hprec : precedence < Expr.atomPrecedence)
    (hleast : ∀ op : BinaryOp, op.precedence ≤ precedence → op.powers.1 < least) : Stops least next where
  ne_dot hdot := Nat.not_lt_of_le (h.dot hdot) hprec
  op op hop := hleast op (h.op op hop)

/-- An operator may follow what binds as tightly as it does. -/
theorem mayFollow_kind (hle : op.precedence ≤ precedence) : MayFollow precedence op.kind where
  ne_leftParen := by cases op <;> rintro ⟨⟩
  dot hdot := by cases op <;> cases hdot
  op op' hop := by
    rw [binaryOp?_kind] at hop
    cases hop
    exact hle

/-- A dot may follow an operand without operators. -/
theorem mayFollow_dot (hle : Expr.atomPrecedence ≤ precedence) : MayFollow precedence (.mark .dot) where
  ne_leftParen := by rintro ⟨⟩
  dot _ := hle
  op op hop := by cases hop

/-! ## Groups -/

/-- A group is opened without a token. -/
theorem reads_openGroup {A : List TokenKind} : Reads openGroup (At A) (At A) fun _ => True :=
  fun _ hc => .inr ⟨(), _, rfl, hc, trivial⟩

/-- A group is closed without a token. -/
theorem reads_closeGroup {A : List TokenKind} : Reads closeGroup (At A) (At A) fun _ => True :=
  fun _ hc => .inr ⟨(), _, rfl, hc, trivial⟩

/-- No line breaks are skipped where there are none. -/
theorem reads_skipNewlinesInGroup (h : next ≠ .newline) :
    Reads skipNewlinesInGroup (At (next :: rest)) (At (next :: rest)) fun _ => True := by
  intro c hc
  refine .inr ⟨(), _, rfl, ?_, trivial⟩
  dsimp only
  split
  · exact skipNewlines_of_at hc h
  · exact hc

/-! ## Continuations -/

/-- A chain stops where it has to. -/
theorem reads_continuation?_none (h : Stops least next) :
    Reads (continuation? least) (At (next :: rest)) (At (next :: rest)) (·.isNone) := by
  refine reads_kind.bind_eq ?_
  split
  · exact absurd rfl h.ne_dot
  · split
    · rename_i op hop
      refine .pure ?_
      rw [if_neg (Nat.not_le_of_lt (h.op op hop))]
      rfl
    · exact .pure rfl

/-- A chain goes on with an operator that binds tightly enough. -/
theorem reads_continuation?_binary (h : least ≤ op.powers.1) :
    Reads (continuation? least) (At (op.kind :: rest)) (At (op.kind :: rest)) (· = some (.binary op)) := by
  refine reads_kind.bind_eq ?_
  cases op <;> exact .pure (by rw [if_pos h])

section Chains

variable {B : Cursor → Prop} {P Q : Expr → Prop} {lhs : Expr} {first : TokenKind} {others : List TokenKind}

/-- A chain ends where nothing continues it. -/
theorem reads_chainWithin_of_stops (h : Stops least next) (lhs : Expr) :
    Reads (chainWithin left least lhs) (At (next :: rest)) (At (next :: rest)) (· = lhs) := by
  cases left with
  | zero | succ left =>
    refine (reads_continuation?_none h).bind fun found hfound => ?_
    obtain rfl := Option.isNone_iff_eq_none.1 hfound
    exact .pure rfl

/-- An operator and the operand after it continue a chain. -/
theorem reads_chainWithin_binary (h : least ≤ op.powers.1)
    (hrhs : ∀ left, Reads (exprWithin left op.powers.2) (At (first :: others)) (At (next :: rest)) Q)
    (hchain : ∀ left span rhs, Q rhs →
      Reads (chainWithin left least (.binary span op lhs rhs)) (At (next :: rest)) B P) :
    Reads (chainWithin left least lhs) (At (op.kind :: first :: others)) B P := by
  cases left with
  | zero =>
    refine (reads_continuation?_binary h).bind_eq ?_
    exact .tooDeep
  | succ left =>
    refine (reads_continuation?_binary h).bind_eq ?_
    exact reads_advance.bind fun _ _ => (hrhs left).bind fun rhs hrhs => hchain left _ rhs hrhs

/-- A field continues a chain. -/
theorem reads_chainWithin_field (h : least ≤ fieldPower) {name : String}
    (hchain : ∀ left span, Reads (chainWithin left least (.field span lhs name)) (At (next :: rest)) B P) :
    Reads (chainWithin left least lhs) (At (.mark .dot :: .name name :: next :: rest)) B P := by
  have hfield : Reads (continuation? least) (At (.mark .dot :: .name name :: next :: rest))
      (At (.mark .dot :: .name name :: next :: rest)) (· = some .field) := by
    refine reads_kind.bind_eq ?_
    exact .pure (if_pos h)
  cases left with
  | zero =>
    refine hfield.bind_eq ?_
    exact .tooDeep
  | succ left =>
    refine hfield.bind_eq ?_
    refine reads_advance.bind fun _ _ => (reads_expectName _).bind_eq ?_
    exact (reads_spanFrom _).bind fun span _ => hchain left span

/-- A chain starts with an expression that has no operators outside of brackets. -/
theorem reads_exprWithin (hfirst : first ≠ .newline) (levels : Nat)
    (hprimary : ∀ levels, Reads (primary (exprWithin levels)) (At (first :: others)) (At (next :: rest)) Q)
    (hchain : ∀ left e, Q e → Reads (chainWithin left least e) (At (next :: rest)) B P) :
    Reads (exprWithin levels least) (At (first :: others)) B P := by
  cases levels with
  | zero => exact .tooDeep
  | succ levels =>
    exact (reads_skipNewlinesInGroup hfirst).bind fun _ _ => (hprimary levels).bind fun e he => hchain levels e he

end Chains

end Parser

namespace Expr

variable {f : Span → Span} {e : Expr}

/-- What is read for the expression is read from its row of tokens, at other places, as the beginning of a chain that
whatever follows goes on with. -/
def IsRead (f : Span → Span) (e : Expr) : Prop :=
  ∀ (levels least : Nat) (next : TokenKind) (rest : List TokenKind) (B : Cursor → Prop) (P : Expr → Prop),
    least ≤ power e.precedence → MayFollow e.precedence next →
    (∀ left e', e'.relocate f = e.reread.relocate f → Reads (chainWithin left least e') (At (next :: rest)) B P) →
    Reads (exprWithin levels least) (At (Glyph.tokens e.glyphs ++ next :: rest)) B P

/-- An expression without operators outside of brackets is read by itself. -/
theorem isRead_of_primary (h : ∀ levels next rest, MayFollow e.precedence next →
    Reads (primary (exprWithin levels)) (At (Glyph.tokens e.glyphs ++ next :: rest)) (At (next :: rest))
      fun e' => e'.relocate f = e.reread.relocate f) : e.IsRead f := by
  intro levels least next rest B P _ hnext hchain
  obtain ⟨first, kinds, hkinds, hfirst⟩ := e.opens_glyphs.exists_tokens
  rw [hkinds] at h ⊢
  exact reads_exprWithin hfirst levels (fun levels => h levels next rest hnext) hchain

/-- Where a chain does not go on, nothing else is read. -/
theorem reads_stopped {least : Nat} {next : TokenKind} (hstops : Stops least next) {rest : List TokenKind} (left : Nat)
    (e' : Expr) (he : e'.relocate f = e.relocate f) :
    Reads (chainWithin left least e') (At (next :: rest)) (At (next :: rest))
      fun e' => e'.relocate f = e.relocate f := by
  refine (reads_chainWithin_of_stops hstops e').mono fun found hfound => ?_
  rwa [hfound]

namespace IsRead

variable {least : Nat} {next : TokenKind}

/-- Before a delimiter the expression is all that is read. -/
theorem delimited (h : e.IsRead f) (hnext : Delimits next) (levels : Nat) (rest : List TokenKind) :
    Reads (exprWithin levels 0) (At (Glyph.tokens e.glyphs ++ next :: rest)) (At (next :: rest))
      fun e' => e'.relocate f = e.reread.relocate f :=
  h levels 0 next rest _ _ (Nat.zero_le _) (hnext.mayFollow _) (reads_stopped (hnext.stops 0))

/-- An expression in parentheses is read like the expression. -/
theorem grouped (h : e.IsRead f) (levels : Nat) (rest : List TokenKind) :
    Reads (primary (exprWithin levels)) (At (Glyph.tokens (Glyph.enclosed true e.glyphs) ++ next :: rest))
      (At (next :: rest)) fun e' => e'.relocate f = e.reread.relocate f := by
  have hclosing : Delimits (.mark .rightParen) := delimits_separator .paren (.inr rfl)
  have hinner := h.delimited hclosing levels (next :: rest)
  obtain ⟨first, others, hothers⟩ := Glyph.exists_tokens_eq_cons e.glyphs (.mark .rightParen) (next :: rest)
  rw [hothers] at hinner
  rw [Glyph.tokens_enclosed, hothers]
  refine reads_start.bind fun _ _ => reads_kind.bind_eq ?_
  refine reads_advance.bind fun _ _ => reads_openGroup.bind fun _ _ => hinner.bind fun e' he => ?_
  refine (reads_skipNewlinesInGroup (by rintro ⟨⟩)).bind fun _ _ => reads_expect.bind fun _ _ => ?_
  exact reads_closeGroup.bind fun _ _ => .pure he

/-- An operand is read whether it stands in parentheses or not, if it stands in them where it needs to. -/
theorem enclosed (h : e.IsRead f) {needed : Bool}
    (hneeded : needed = false → least ≤ power e.precedence ∧ MayFollow e.precedence next) (levels : Nat)
    {rest : List TokenKind} {B : Cursor → Prop} {P : Expr → Prop}
    (hchain : ∀ left e', e'.relocate f = e.reread.relocate f →
      Reads (chainWithin left least e') (At (next :: rest)) B P) :
    Reads (exprWithin levels least) (At (Glyph.tokens (Glyph.enclosed needed e.glyphs) ++ next :: rest)) B P := by
  cases needed with
  | true =>
    exact reads_exprWithin (by rintro ⟨⟩) levels (fun levels => h.grouped levels rest) hchain
  | false =>
    obtain ⟨hleast, hnext⟩ := hneeded rfl
    exact h levels least next rest B P hleast hnext hchain

/-- **The operand of an operator is all that is read after the operator,** if it binds as tightly as `bound` or
stands in parentheses, no higher power is demanded than that of `bound`, and what follows may follow the operator with
its operand. -/
theorem afterOperator (h : e.IsRead f) {least bound precedence : Nat} (needed : Bool)
    (hneeded : needed = false → bound ≤ e.precedence) (hbound : least ≤ power bound)
    (hnext : MayFollow precedence next) (hprec : precedence < atomPrecedence) (hle : precedence ≤ bound)
    (hleast : ∀ op : BinaryOp, op.precedence ≤ precedence → op.powers.1 < least) (rest : List TokenKind) : ∃ first tail,
      Glyph.tokens (Glyph.enclosed needed e.glyphs) ++ next :: rest = first :: tail ∧ ∀ levels,
        Reads (exprWithin levels least) (At (first :: tail)) (At (next :: rest))
          fun e' => e'.relocate f = e.reread.relocate f := by
  obtain ⟨first, tail, htokens⟩ := Glyph.exists_tokens_eq_cons (Glyph.enclosed needed e.glyphs) next rest
  refine ⟨first, tail, htokens, fun levels => ?_⟩
  rw [← htokens]
  refine h.enclosed (fun hneeded' => ?_) levels (reads_stopped (hnext.stops hprec hleast))
  have hbinds := hneeded hneeded'
  exact ⟨Nat.le_trans hbound (power_mono hbinds), hnext.mono (Nat.le_trans hle hbinds)⟩

end IsRead

/-! ## Forms -/

/-- Items that are the same up to places are so together. -/
theorem relocateItems_of_forall₂ {es es' : List Expr}
    (h : List.Forall₂ (fun e e' => e'.relocate f = e.relocate f) es es') :
    relocateItems f es' = relocateItems f es := by
  induction h with
  | nil => rfl
  | cons he _ ih => rw [relocateItems, relocateItems, he, ih]

/-- The same argument, perhaps at other places. -/
def SameArgument (f : Span → Span) (arg arg' : Argument Expr) : Prop :=
  arg'.name = arg.name ∧ arg'.value.relocate f = arg.value.relocate f

/-- Arguments that are the same up to places are so together. -/
theorem relocateArguments_of_forall₂ {args args' : List (Argument Expr)}
    (h : List.Forall₂ (SameArgument f) args args') :
    relocateArguments f args' = relocateArguments f args := by
  induction h with
  | nil => rfl
  | cons harg _ ih => rw [relocateArguments, relocateArguments, harg.1, harg.2, ih]

/-- A number is not taken for a label. -/
theorem unlabelled_signedGlyphs {e : Expr} (h : e.startsWithDigit = true) (kinds : List TokenKind) (name : String)
    (tail : List TokenKind) : Glyph.tokens e.signedGlyphs ++ kinds ≠ .name name :: .mark .colon :: tail := by
  induction e using inductionOnParts generalizing kinds with
  | int | float => rintro ⟨⟩
  | field span base n ih =>
    rw [signedGlyphs, Glyph.tokens_append, List.append_assoc]
    exact ih h _
  | _ => cases h

/-- An expression is not taken for a label. -/
theorem unlabelled (e : Expr) {next : TokenKind} (hnext : next ≠ .mark .colon) (rest : List TokenKind) (name : String)
    (tail : List TokenKind) : Glyph.tokens e.glyphs ++ next :: rest ≠ .name name :: .mark .colon :: tail := by
  have henclosed : ∀ {gs : List Glyph} (needed : Bool) {kinds : List TokenKind},
      Glyph.tokens gs ++ kinds ≠ .name name :: .mark .colon :: tail →
        Glyph.tokens (Glyph.enclosed needed gs) ++ kinds ≠ .name name :: .mark .colon :: tail := by
    intro gs needed kinds h
    cases needed with
    | true => rintro ⟨⟩
    | false => exact h
  induction e using inductionOnParts generalizing next rest with
  | field span base n ih =>
    rw [glyphs, Glyph.tokens_append, List.append_assoc]
    exact henclosed _ (ih (by rintro ⟨⟩) _)
  | binary span op lhs rhs ihl _ =>
    rw [glyphs, Glyph.tokens_append, List.append_assoc]
    exact henclosed _ (ihl (by cases op <;> rintro ⟨⟩) _)
  | unary span op operand _ =>
    cases op with
    | not => rintro ⟨⟩
    | neg =>
      rw [glyphs]
      split
      · rename_i hsign
        exact unlabelled_signedGlyphs (startsWithDigit_of_takesSign hsign) _ name tail
      · rintro ⟨⟩
  | name =>
    rintro ⟨⟩
    exact hnext rfl
  | _ => rintro ⟨⟩

/-- A list is read if its items are. -/
theorem isRead_list (hf : ∀ a b, f a = f b) (span : Span) {items : List Expr} (h : ∀ e ∈ items, e.IsRead f) :
    (list span items).IsRead f := by
  refine isRead_of_primary fun levels next rest _ => ?_
  have hitem : ∀ e ∈ items, ∀ m tail, m = .comma ∨ m = Bracket.square.closing →
      Reads (exprWithin levels 0) (At (Glyph.tokens e.glyphs ++ .mark m :: tail)) (At (.mark m :: tail))
        fun e' => e'.relocate f = e.reread.relocate f := by
    intro e he m tail hm
    exact (h e he).delimited (delimits_separator .square hm) levels tail
  obtain ⟨first, tail, htokens, hitems⟩ :=
    exists_reads_bracketed .square (fun e _ => e.opens_glyphs.starts .square) hitem next rest
  rw [glyphs, glyphsOfItems_eq_map, htokens]
  refine reads_start.bind fun _ _ => reads_kind.bind_eq ?_
  refine reads_advance.bind fun _ _ => reads_openGroup.bind fun _ _ => hitems.bind fun items' hitems => ?_
  refine reads_closeGroup.bind fun _ _ => (reads_spanFrom _).bind fun here _ => .pure ?_
  rw [reread, relocate, relocate, rereadItems_eq_map, relocateItems_of_forall₂ (List.forall₂_map_left_iff.2 hitems),
    hf here span]

/-- A call is read if the values of its arguments are. -/
theorem isRead_call (hf : ∀ a b, f a = f b) (span : Span) (callee : String) {args : List (Argument Expr)}
    (h : ∀ arg ∈ args, arg.value.IsRead f) : (call span callee args).IsRead f := by
  refine isRead_of_primary fun levels next rest _ => ?_
  have harg : ∀ arg ∈ args, ∀ m tail, m = .comma ∨ m = Bracket.paren.closing →
      Reads (callArgument (exprWithin levels 0))
        (At (Glyph.tokens (Glyph.labelled arg.name arg.value.glyphs) ++ .mark m :: tail)) (At (.mark m :: tail))
        (SameArgument f ⟨arg.name, arg.value.reread⟩) := by
    intro arg harg m tail hm
    have hcolon : TokenKind.mark m ≠ .mark .colon := by rcases hm with rfl | rfl <;> rintro ⟨⟩
    refine (reads_label arg.name (arg.value.unlabelled hcolon tail)).bind fun label hlabel => ?_
    refine ((h arg harg).delimited (delimits_separator .paren hm) levels tail).bind fun e' he => ?_
    exact .pure ⟨hlabel, he⟩
  obtain ⟨first, tail, htokens, hargs⟩ := exists_reads_bracketed .paren
    (fun arg _ => (arg.value.opens_glyphs.labelled arg.name).starts .paren) harg next rest
  rw [glyphs, glyphsOfArguments_eq_map, Glyph.tokens_token, List.cons_append, htokens]
  refine reads_start.bind fun _ _ => reads_kind.bind_eq ?_
  refine reads_advance.bind fun _ _ => reads_isAt_self.bind_eq ?_
  have hcall : Reads (callArguments (exprWithin levels 0)) (At (.mark .leftParen :: first :: tail)) (At (next :: rest))
      (List.Forall₂ (fun arg => SameArgument f ⟨arg.name, arg.value.reread⟩) args) := by
    refine reads_expect.bind fun _ _ => reads_openGroup.bind fun _ _ => hargs.bind fun args' hargs => ?_
    exact reads_closeGroup.bind fun _ _ => .pure hargs
  refine hcall.bind fun args' hargs => (reads_spanFrom _).bind fun here _ => .pure ?_
  rw [reread, relocate, relocate, rereadArguments_eq_map,
    relocateArguments_of_forall₂ (List.forall₂_map_left_iff.2 hargs), hf here span]

/-- A negation is read if the operand is. -/
theorem isRead_not (hf : ∀ a b, f a = f b) (span : Span) {operand : Expr} (h : operand.IsRead f) :
    (unary span .not operand).IsRead f := by
  refine isRead_of_primary fun levels next rest hnext => ?_
  have hleast : ∀ op : BinaryOp, op.precedence ≤ notPrecedence → op.powers.1 < notPower := by
    intro op hop
    rw [powers_eq, notPower_eq]
    exact power_lt (Nat.lt_of_le_of_ne hop op.precedence_ne_not)
  obtain ⟨first, tail, htokens, hoperand⟩ := h.afterOperator (decide (operand.precedence < notPrecedence))
    (fun hneeded => Nat.le_of_not_lt (of_decide_eq_false hneeded)) notPower_eq.le hnext
    (by decide : notPrecedence < atomPrecedence) Nat.le.refl hleast rest
  rw [glyphs, Glyph.tokens_token, Glyph.tokens_space, List.cons_append, htokens]
  refine reads_start.bind fun _ _ => reads_kind.bind_eq ?_
  refine reads_advance.bind fun _ _ => (hoperand levels).bind fun e' he => ?_
  refine (reads_spanFrom _).bind fun here _ => .pure ?_
  rw [reread, relocate, relocate, he, hf here span]

/-- A number and its fields are read with the sign before them. -/
theorem reads_signedGlyphs (hf : ∀ a b, f a = f b) {e : Expr} (h : e.startsWithDigit = true) {levels least : Nat}
    {next : TokenKind} {rest : List TokenKind} {B : Cursor → Prop} {P : Expr → Prop} (hleast : least ≤ fieldPower)
    (hchain : ∀ left e', e'.relocate f = e.signed.relocate f →
      Reads (chainWithin left least e') (At (next :: rest)) B P) :
    Reads (exprWithin levels least) (At (Glyph.tokens e.signedGlyphs ++ next :: rest)) B P := by
  induction e using inductionOnParts generalizing next rest with
  | int span n =>
    refine reads_exprWithin (by rintro ⟨⟩) levels (fun levels => ?_) hchain
    refine reads_start.bind fun _ _ => reads_kind.bind_eq ?_
    refine reads_advance.bind fun _ _ => (reads_spanFrom _).bind fun here _ => .pure ?_
    rw [signed, relocate, relocate, hf here span]
  | float span x =>
    refine reads_exprWithin (by rintro ⟨⟩) levels (fun levels => ?_) hchain
    refine reads_start.bind fun _ _ => reads_kind.bind_eq ?_
    refine reads_advance.bind fun _ _ => (reads_spanFrom _).bind fun here _ => .pure ?_
    rw [signed, relocate, relocate, hf here span]
  | field span base n ih =>
    rw [signedGlyphs, Glyph.tokens_append, List.append_assoc]
    refine ih h fun left base' hbase => reads_chainWithin_field hleast fun left here => hchain left _ ?_
    rw [signed, relocate, relocate, hbase, hf here span]
  | _ => cases h

/-- What a sign stands before is read with it. -/
theorem isRead_neg (hf : ∀ a b, f a = f b) (span : Span) {operand : Expr} (h : operand.IsRead f) :
    (unary span .neg operand).IsRead f := by
  cases hsign : operand.takesSign with
  | true =>
    intro levels least next rest B P hleast _ hchain
    rw [glyphs, if_pos hsign]
    rw [reread, if_pos hsign] at hchain
    exact reads_signedGlyphs hf (startsWithDigit_of_takesSign hsign)
      (Nat.le_trans hleast (by decide : power negPrecedence ≤ fieldPower)) hchain
  | false =>
    refine isRead_of_primary fun levels next rest hnext => ?_
    have hleast : ∀ op : BinaryOp, op.precedence ≤ negPrecedence → op.powers.1 < negPower := by
      intro op _
      rw [powers_eq, negPower_eq]
      exact power_lt op.precedence_lt
    obtain ⟨first, tail, htokens, hoperand⟩ := h.afterOperator
      (operand.isNumber || decide (operand.precedence < negPrecedence))
      (fun hneeded => Nat.le_of_not_lt (of_decide_eq_false (Bool.or_eq_false_iff.1 hneeded).2)) negPower_eq.le hnext
      (Nat.lt_succ_self _) Nat.le.refl hleast rest
    rw [glyphs, reread, hsign, if_neg Bool.false_ne_true, if_neg Bool.false_ne_true, Glyph.tokens_token,
      List.cons_append, htokens]
    refine reads_start.bind fun _ _ => reads_kind.bind_eq ?_
    refine reads_advance.bind fun _ _ => (hoperand levels).bind fun e' he => ?_
    refine (reads_spanFrom _).bind fun here _ => .pure ?_
    rw [relocate, relocate, he, hf here span]

/-- A field is read if what it is a field of is. -/
theorem isRead_field (hf : ∀ a b, f a = f b) (span : Span) {base : Expr} (h : base.IsRead f) (n : String) :
    (field span base n).IsRead f := by
  intro levels least next rest B P hleast hnext hchain
  rw [glyphs, Glyph.tokens_append, List.append_assoc]
  refine h.enclosed (fun hneeded => ?_) levels fun left base' hbase => ?_
  · have hprec := Nat.le_of_not_lt (of_decide_eq_false hneeded)
    exact ⟨Nat.le_trans hleast (power_mono hprec), mayFollow_dot hprec⟩
  · refine reads_chainWithin_field hleast fun left here => hchain left _ ?_
    rw [reread, relocate, relocate, hbase, hf here span]

/-- An expression with an operator between two operands is read if the operands are. -/
theorem isRead_binary (hf : ∀ a b, f a = f b) (span : Span) (op : BinaryOp) {lhs rhs : Expr} (hlhs : lhs.IsRead f)
    (hrhs : rhs.IsRead f) : (binary span op lhs rhs).IsRead f := by
  intro levels least next rest B P hleast hnext hchain
  rw [glyphs, Glyph.tokens_append, List.append_assoc]
  refine hlhs.enclosed (fun hneeded => ?_) levels fun left lhs' hlhs => ?_
  · have hprec := Nat.le_of_not_lt (of_decide_eq_false hneeded)
    exact ⟨Nat.le_trans hleast (power_mono hprec), mayFollow_kind hprec⟩
  · have hbound : op.powers.2 ≤ power (op.precedence + 1) := by
      rw [powers_eq]
      exact power_lt (Nat.lt_succ_self _)
    have hoperators : ∀ op' : BinaryOp, op'.precedence ≤ op.precedence → op'.powers.1 < op.powers.2 := by
      intro op' hop
      rw [powers_eq, powers_eq]
      exact Nat.lt_succ_of_le (power_mono hop)
    obtain ⟨first, tail, htokens, hrhs⟩ := hrhs.afterOperator (decide (rhs.precedence < op.precedence + 1))
      (fun hneeded => Nat.le_of_not_lt (of_decide_eq_false hneeded)) hbound hnext
      (Nat.lt_trans op.precedence_lt (by decide)) (Nat.le_succ _) hoperators rest
    change Reads _ (At (op.kind :: (Glyph.tokens (Glyph.enclosed _ rhs.glyphs) ++ next :: rest))) B P
    rw [htokens]
    have hpower : least ≤ op.powers.1 := by
      rw [powers_eq]
      exact hleast
    refine reads_chainWithin_binary hpower hrhs fun left here rhs' hrhs => hchain left _ ?_
    rw [reread, relocate, relocate, hlhs, hrhs, hf here span]

/-- **From the tokens that an expression is written as it is read,** at other places, whatever follows it.  A sign
before a digit in it belongs to the number then. -/
theorem reads_glyphs (hf : ∀ a b, f a = f b) (e : Expr) : e.IsRead f := by
  induction e using inductionOnParts with
  | int span | float span | null span =>
    refine isRead_of_primary fun levels next rest hnext => ?_
    refine reads_start.bind fun _ _ => reads_kind.bind_eq ?_
    refine reads_advance.bind fun _ _ => (reads_spanFrom _).bind fun here _ => .pure ?_
    rw [reread, relocate, relocate, hf here span]
  | str span text =>
    refine isRead_of_primary fun levels next rest hnext => ?_
    refine reads_start.bind fun _ _ => reads_kind.bind_eq ?_
    refine reads_advance.bind fun _ _ => (reads_spanFrom _).bind fun here _ => .pure ?_
    rw [reread, relocate, relocate, text_plain, hf here span]
  | bool span b =>
    refine isRead_of_primary fun levels next rest hnext => ?_
    cases b <;>
    · refine reads_start.bind fun _ _ => reads_kind.bind_eq ?_
      refine reads_advance.bind fun _ _ => (reads_spanFrom _).bind fun here _ => .pure ?_
      rw [reread, relocate, relocate, hf here span]
  | name span n =>
    refine isRead_of_primary fun levels next rest hnext => ?_
    refine reads_start.bind fun _ _ => reads_kind.bind_eq ?_
    refine reads_advance.bind fun _ _ => (reads_isAt_of_ne hnext.ne_leftParen).bind_eq ?_
    refine (reads_spanFrom _).bind fun here _ => .pure ?_
    rw [reread, relocate, relocate, hf here span]
  | list span items ih => exact isRead_list hf span ih
  | call span callee args ih => exact isRead_call hf span callee ih
  | unary span op operand ih =>
    cases op with
    | not => exact isRead_not hf span ih
    | neg => exact isRead_neg hf span ih
  | field span base n ih => exact isRead_field hf span ih n
  | binary span op lhs rhs ihl ihr => exact isRead_binary hf span op ihl ihr

end Expr

end TypedData
