import TypedData.Proofs.Parsing.Nesting

/-!
# Parsing gets on

Parsing never stands still.  Every part of a document that is read takes a token at least, and so does every round of
every repetition, so no repetition goes on for ever (`Parser.Progress`).  What has been passed is never come back to,
the end of the text is never passed, and a document that is read has been read up to the end
(`Parser.parsing_progresses`).

The bound on the number of rounds that `Parser.rounds` has is out of sight here: what a repetition does is said by
`Parser.Loops`, which knows of no bound.
-/

namespace TypedData

namespace Parser

open Cursor (Step)

variable {M : Material} {c : Cursor}

/-- The parsers of the parts of a document. -/
inductive IsPart : {α : Type} → Parser α → Prop
  | item : IsPart item
  | typeDecl : IsPart typeDecl
  | ruleDecl (template : Template) : IsPart (ruleDecl template)
  | binding : IsPart binding
  | constructor : IsPart ctorDecl
  | field : IsPart fieldDecl
  | type (levels : Nat) : IsPart (typeWithin levels)
  | inlineClause : IsPart (whereClause (return .all))
  | clause : IsPart (whereClause scopeAfterClause)
  | data (levels : Nat) : IsPart (dataWithin levels)
  | value (levels : Nat) : IsPart (valueWithin levels)
  | entry (levels : Nat) : IsPart (entry (dataWithin levels))
  | blockEntry (levels : Nat) : IsPart (Parser.entry (valueWithin levels))
  | dashItem (levels : Nat) : IsPart (dashItem (dataWithin levels) (valueWithin levels))
  | expression (levels least : Nat) : IsPart (exprWithin levels least)

/-- The repetitions: whether a round follows, and the round. -/
inductive IsLoop : {α : Type} → Parser Bool → Parser α → Prop
  | items : IsLoop moreItems itemLine
  | parameters : IsLoop moreParameters (expectName .typeName)
  | typeArguments (levels : Nat) : IsLoop moreTypeArguments (typeArgument (typeWithin levels))
  | alternatives : IsLoop (accept (.mark .bar)) otherAlternative
  | typeLines : IsLoop moreLines typeLine
  | clauses : IsLoop moreClauses (whereClause scopeAfterClause)
  | fields : IsLoop (moreUntil .rightBrace) (separatedItem .rightBrace fieldDecl)
  | conditionLines : IsLoop moreLines conditionLine
  | conditions : IsLoop (accept (.mark .comma)) expr
  | names : IsLoop (accept (.mark .comma)) (expectName .constructorName)
  | bracedNames : IsLoop (moreUntil .rightBrace) (separatedItem .rightBrace (expectName .constructorName))
  | elements (levels : Nat) : IsLoop (moreUntil .rightBracket) (separatedItem .rightBracket (dataWithin levels))
  | entries (levels : Nat) : IsLoop (moreUntil .rightBrace) (separatedItem .rightBrace (entry (dataWithin levels)))
  | arguments (levels : Nat) :
      IsLoop (moreUntil .rightParen) (separatedItem .rightParen (dataArgument (dataWithin levels)))
  | path : IsLoop (accept (.mark .dot)) (expectName .fieldName)
  | entryLines (levels : Nat) : IsLoop moreLines (entryLine (valueWithin levels))
  | dashItems (levels : Nat) : IsLoop moreLines (dashItem (dataWithin levels) (valueWithin levels))
  | operands (levels : Nat) : IsLoop (moreUntil .rightBracket) (separatedItem .rightBracket (exprWithin levels 0))
  | operandArguments (levels : Nat) :
      IsLoop (moreUntil .rightParen) (separatedItem .rightParen (callArgument (exprWithin levels 0)))

/-- Every part of the parser takes something. -/
theorem IsPart.takes {α : Type} {p : Parser α} (h : IsPart p) : Takes M p := by
  cases h with
  | item => exact nests_item.takes
  | typeDecl => exact nests_typeDecl.takes
  | ruleDecl template => exact (nests_ruleDecl template).takes
  | binding => exact nests_binding.takes
  | constructor => exact nests_ctorDecl.takes
  | field => exact nests_fieldDecl.takes
  | type levels => exact (nests_typeWithin levels).takes
  | inlineClause => exact (nests_whereClause fun _ => .pure fun _ => trivial).takes
  | clause => exact nests_clauseBehind.takes
  | data levels => exact (nests_dataWithin levels).takes
  | value levels => exact (nests_valueWithin levels).takes
  | entry levels => exact (nests_entry (nests_dataWithin levels)).takes
  | blockEntry levels => exact (nests_entry (nests_valueWithin levels)).takes
  | dashItem levels => exact (nests_dashItem (nests_dataWithin levels) (nests_valueWithin levels)).takes
  | expression levels least => exact (nests_exprWithin levels least).takes

/-- Every loop of the parser proceeds where it looks for more, and takes something in each round. -/
theorem IsLoop.proceeds_and_takes {α : Type} {more : Parser Bool} {item : Parser α} (h : IsLoop more item) :
    Proceeds M more ∧ Takes M item := by
  have huntil {α : Type} {p : Parser α} (close : Mark) (hp : Takes M p) :
      Proceeds M (moreUntil close) ∧ Takes M (separatedItem close p) :=
    ⟨proceeds_moreUntil close, (nests_separatedItem close hp.nests).takes⟩
  cases h with
  | items => exact ⟨proceeds_moreItems, nests_itemLine.takes⟩
  | parameters => exact ⟨proceeds_moreParameters, takes_expectName _⟩
  | typeArguments levels => exact ⟨proceeds_moreTypeArguments, (nests_typeArgument (nests_typeWithin levels)).takes⟩
  | alternatives => exact ⟨proceeds_accept _, nests_otherAlternative.takes⟩
  | typeLines => exact ⟨proceeds_moreLines, fun c => (goes_typeLine c).mono fun _ _ _ h => h.1⟩
  | clauses => exact ⟨proceeds_moreClauses, nests_clauseBehind.takes⟩
  | fields => exact huntil _ nests_fieldDecl.takes
  | conditionLines => exact ⟨proceeds_moreLines, nests_conditionLine.takes⟩
  | conditions => exact ⟨proceeds_accept _, nests_expr.takes⟩
  | names => exact ⟨proceeds_accept _, takes_expectName _⟩
  | bracedNames => exact huntil _ (takes_expectName _)
  | elements levels => exact huntil _ (nests_dataWithin levels).takes
  | entries levels => exact huntil _ (nests_entry (nests_dataWithin levels)).takes
  | arguments levels => exact huntil _ (nests_dataArgument (nests_dataWithin levels)).takes
  | path => exact ⟨proceeds_accept _, takes_expectName _⟩
  | entryLines levels => exact ⟨proceeds_moreLines, (nests_entryLine (nests_valueWithin levels)).takes⟩
  | dashItems levels =>
    exact ⟨proceeds_moreLines, (nests_dashItem (nests_dataWithin levels) (nests_valueWithin levels)).takes⟩
  | operands levels => exact huntil _ (nests_exprWithin levels 0).takes
  | operandArguments levels => exact huntil _ (nests_callArgument (nests_exprWithin levels 0)).takes

/-- A round of a chain passes a token, or the chain ends. -/
theorem goes_chainRound_past (levels least : Nat) (lhs : Expr) :
    Goes M c (chainRound levels least lhs) fun found c' => found ≠ none → c.Past c' := by
  refine (goes_continuation? least).bind fun found c₁ h₁ hkind => ?_
  match found, hkind with
  | none, _ => exact .pure fun _ h => absurd rfl h
  | some .field, hkind =>
    refine (goes_advance (hkind nofun)).bind fun _ c₂ _ hpast => (takes_expectName _ c₂).bind fun _ _ h₃ _ => ?_
    exact .spanFrom_bind <| .pure fun _ _ => h₁.onward.trans_past (hpast.trans_onward h₃.onward)
  | some (.binary op), hkind =>
    refine (goes_advance (hkind nofun)).bind fun _ c₂ _ hpast => (nests_exprWithin _ _ c₂).bind fun _ _ h₃ _ => ?_
    exact .pure fun _ _ => h₁.onward.trans_past (hpast.trans_onward h₃.onward)

/-- How parsers get on from a cursor. -/
structure Progress (c : Cursor) : Prop where
  /-- No parser of a part goes back, and those that succeed have passed a token. -/
  parts : ∀ {α : Type} {p : Parser α}, IsPart p →
    c.Onward (p.outcome c).2 ∧ ∀ x, (p.outcome c).1 = .ok x → c.Past (p.outcome c).2
  /-- No repetition goes back, and every round of it passes a token. -/
  loops : ∀ {α : Type} {more : Parser Bool} {item : Parser α}, IsLoop more item →
    c.Onward ((rounds more item).outcome c).2 ∧ Loops more item c ((rounds more item).outcome c)
  /-- Neither does a round of a chain, and it passes a token unless it is the last. -/
  chains : ∀ levels least lhs, c.Onward ((chainRound levels least lhs).outcome c).2 ∧
    ∀ e, ((chainRound levels least lhs).outcome c).1 = .ok (some e) →
      c.Past ((chainRound levels least lhs).outcome c).2
  /-- Where newlines are passed, nothing else is, up to something else. -/
  newlines : (∃ passed, c.Passes passed c.skipNewlines ∧ ∀ token ∈ passed, token.kind = .newline) ∧
    c.skipNewlines.kind ≠ .newline

/-- Parsing gets on from every sound cursor, in every part and every loop. -/
theorem progress (h : c.Sound M) : Progress c where
  parts hpart := by
    have hgoes := hpart.takes (M := M) c
    exact ⟨hgoes.onward h, fun x hx => (hgoes.ok h (Prod.ext hx rfl)).2⟩
  loops hloop := by
    obtain ⟨hmore, hitem⟩ := hloop.proceeds_and_takes
    exact ⟨(goes_rounds hmore hitem.nests c).onward h, loops_rounds hmore hitem h⟩
  chains levels least lhs := by
    have hgoes := goes_chainRound_past (M := M) (c := c) levels least lhs
    exact ⟨hgoes.onward h, fun e he => (hgoes.ok h (Prod.ext he rfl)).2 nofun⟩
  newlines := ⟨c.passes_skipNewlines, h.kind_skipNewlines⟩

/-- Where a document is read, it is read to the end. -/
theorem kind_of_document {d : Document} {c' : Cursor} (h : c.Sound M) (hread : document.outcome c = (.ok d, c')) :
    c'.kind = .eof ∧ c'.upcoming = [] := by
  have honward := ((goes_document c).ok h hread).1
  suffices hkind : c'.kind = .eof from ⟨hkind, (h.onward honward).kind_eq_eof_iff.1 hkind⟩
  rw [document_eq, outcome_bind] at hread
  cases hrounds : (rounds moreItems itemLine).outcome c with
  | mk result last =>
    rw [hrounds] at hread
    cases result with
    | error e => cases hread
    | ok items =>
      obtain ⟨-, rfl⟩ : Except.ok (⟨items⟩ : Document) = .ok d ∧ last = c' := Prod.mk.inj hread
      have hloops := hrounds ▸ loops_rounds proceeds_moreItems nests_itemLine.takes h
      obtain ⟨before, hstop⟩ := hloops.exists_stop
      obtain ⟨hmore, hlast⟩ : (.ok (!decide (before.skipNewlines.kind = .eof)) : Except ParseError Bool) = .ok false ∧
        before.skipNewlines = last := Prod.mk.inj hstop
      rw [← hlast]
      simpa using hmore

/-- **Parsing gets on.**  From every place that a parser can come to in the tokens of a text, every part that is read
takes a token at least, and so does every round of a repetition; nothing goes back, and nothing passes the end of the
text.  A document that is read has been read to the end. -/
theorem parsing_progresses {source : String} {tokens : List Token} (h : scan source = .ok tokens) :
    (∀ c, (Cursor.ofTokens tokens).Onward c →
      (∀ passed c', c.Passes passed c' → ∀ token ∈ passed, token.kind ≠ .eof) ∧ Progress c) ∧
    (Cursor.ofTokens tokens).Onward (document.outcome (.ofTokens tokens)).2 ∧
    ∀ d c', document.outcome (.ofTokens tokens) = (.ok d, c') → c'.kind = .eof ∧ c'.upcoming = [] := by
  have hsound := sound_of_scan h
  refine ⟨fun c hc => ?_, (goes_document _).onward hsound, fun d c' hread => kind_of_document hsound hread⟩
  have hsound := hsound.onward hc
  exact ⟨fun passed c' hpasses => hsound.ne_eof_of_passes hpasses, progress hsound⟩

/-- A document that is read, and one with a bracket that is never closed. -/
theorem parsing_progresses_unclosed : ∃ tokens tokens',
    scan "a:\n  - [1,\n2]" = .ok tokens ∧ scan "a: [1" = .ok tokens' ∧
    (document.outcome (.ofTokens tokens)).2.upcoming = [] ∧
    (Cursor.ofTokens tokens').Onward (document.outcome (.ofTokens tokens')).2 := by
  have htest : (scan "a:\n  - [1,\n2]").toOption.any
      (fun tokens => (document.outcome (.ofTokens tokens)).1.toOption.isSome) = true := by decide +kernel
  have htest' : (scan "a: [1").toOption.any (fun _ => true) = true := by decide +kernel
  obtain ⟨tokens, hscan, hread⟩ := exists_ok_of_any htest
  obtain ⟨tokens', hscan', -⟩ := exists_ok_of_any htest'
  refine ⟨tokens, tokens', hscan, hscan', ?_, (parsing_progresses hscan').2.1⟩
  cases hresult : document.outcome (.ofTokens tokens) with
  | mk result last =>
    rw [hresult] at hread
    cases result with
    | error e => cases hread
    | ok d => exact ((parsing_progresses hscan).2.2 d last hresult).2

end Parser

end TypedData
