import TypedData.Proofs.Loaded.Places
import TypedData.Proofs.Parsing.Going
import TypedData.Proofs.Reading.Blocks

/-!
# What parsers make lies where they read

Every part of a document is made of tokens that its parser passes, and its spans lie among them, nested and in order.
There is one lemma for each parser.
-/

namespace TypedData

namespace Parser

open Cursor (Step Between)

variable {M : Material} {c : Cursor}

/-! ## Types -/

section Types

variable {type : Parser TypeExpr}

/-- A type in parentheses nests in what is read. -/
theorem nests_groupedType (htype : Nests M type fun t => [t.spanTree]) :
    Nests M (groupedType type) fun t => [t.spanTree] := by
  intro c
  refine (takes_expect (by simp) c).bind fun _ c₁ h₁ hpast => (proceeds_skipNewlines c₁).bind fun _ c₂ h₂ _ => ?_
  refine (htype c₂).bind fun t c₃ h₃ ht => (proceeds_skipNewlines c₃).bind fun _ c₄ h₄ _ => ?_
  refine (takes_expect (by simp) c₄).bind fun _ c₅ h₅ _ => .pure fun _ => ?_
  exact ⟨hpast.trans_onward (h₂.trans (h₃.trans (h₄.trans h₅))).onward,
    (ht.2.behind (h₁.trans h₂)).before (h₄.trans h₅)⟩

/-- An argument of a type nests in what is read. -/
theorem nests_typeArgument (htype : Nests M type fun t => [t.spanTree]) :
    Nests M (typeArgument type) fun t => [t.spanTree] := by
  intro c
  refine .kind_bind ?_
  split
  · rename_i hkind
    refine .get_bind <| (goes_advance (by rw [hkind]; simp)).bind fun _ c₁ h₁ hpast => .pure fun _ => ⟨hpast, ?_⟩
    exact .token h₁ hpast (List.forall_mem_singleton.2 rfl)
  · exact nests_groupedType htype c

/-- Looking for more arguments of a type proceeds. -/
theorem proceeds_moreTypeArguments : Proceeds M moreTypeArguments := by
  intro c
  refine .kind_bind ?_
  split <;> exact .pure fun _ => trivial

/-- A type nests in what is read, if the types inside do. -/
theorem nests_typeForm (htype : Nests M type fun t => [t.spanTree]) :
    Nests M (typeForm type) fun t => [t.spanTree] := by
  intro c
  refine .start_bind <| .kind_bind ?_
  split
  case h_1 hkind | h_2 hkind =>
    refine (goes_advance (by rw [hkind]; simp)).bind fun _ c₁ h₁ hpast => (htype c₁).bind fun t c₂ h₂ ht => ?_
    refine .spanFrom_bind <| .pure fun _ => ?_
    exact Between.wrap hpast h₂ (ht.2.behind h₁)
  case h_3 => exact nests_groupedType htype c
  case h_4 hkind =>
    refine (goes_advance (by rw [hkind]; simp)).bind fun _ c₁ h₁ hpast => ?_
    refine (goes_rounds proceeds_moreTypeArguments (nests_typeArgument htype) c₁).bind fun args c₂ h₂ hargs => ?_
    refine .spanFrom_bind <| .pure fun _ => ?_
    rw [← TypeExpr.spanTreesOfArgs_eq] at hargs
    exact Between.wrap hpast h₂ (hargs.behind h₁)
  case h_5 => exact goes_failExpecting _

/-- A type within any number of levels nests in what is read. -/
theorem nests_typeWithin (levels : Nat) : Nests M (typeWithin levels) fun t => [t.spanTree] := by
  induction levels with
  | zero => exact fun c => goes_failTooDeep
  | succ levels ih => exact nests_typeForm ih

end Types

/-! ## Expressions -/

section Expressions

variable {operand : Nat → Parser Expr} {least : Nat}

/-- An argument of a call nests in what is read. -/
theorem nests_callArgument {operand : Parser Expr} (h : Nests M operand fun e => [e.spanTree]) :
    Nests M (callArgument operand) fun arg => [arg.value.spanTree] := fun c =>
  (proceeds_acceptLabel c).bind fun _ c₁ h₁ _ => (h c₁).bind fun _ _ _ he => .pure fun _ =>
    ⟨h₁.onward.trans_past he.1, he.2.behind h₁⟩

/-- The arguments of a call nest in what is read. -/
theorem nests_callArguments {operand : Parser Expr} (h : Nests M operand fun e => [e.spanTree]) :
    Nests M (callArguments operand) Expr.spanTreesOfArguments := by
  intro c
  refine (takes_expect (by simp) c).bind fun _ c₁ h₁ hpast => (proceeds_openGroup c₁).bind fun _ c₂ h₂ _ => ?_
  have hargs := (nests_separatedUntil .rightParen (nests_callArgument h)).congr fun args =>
    (Expr.spanTreesOfArguments_eq args).symm
  refine (hargs c₂).bind fun args c₃ h₃ hargs => (proceeds_closeGroup c₃).bind fun _ c₄ h₄ _ => .pure fun _ => ?_
  exact ⟨hpast.trans_onward (h₂.trans (h₃.trans h₄)).onward, (hargs.2.behind (h₁.trans h₂)).before h₄⟩

/-- A token that is a node without children. -/
theorem nests_literal {α : Type} {f : Span → α} {tree : α → SpanTree} (h : ∀ span, tree (f span) = .node span [])
    (hkind : c.kind ≠ .eof) :
    Goes M c (do advance; return f (← spanFrom c.start)) fun x c' => c.Past c' ∧ Between M c c' [tree x] :=
  (goes_advance hkind).bind fun _ _ h₁ hpast => .spanFrom_bind <| .pure fun _ =>
    ⟨hpast, (h _).symm ▸ .node h₁ hpast (List.forall_mem_nil _)⟩

/-- An operand nests in what is read, if the expressions inside do. -/
theorem nests_primary (hoperand : ∀ least, Nests M (operand least) fun e => [e.spanTree]) :
    Nests M (primary operand) fun e => [e.spanTree] := by
  intro c
  refine .start_bind <| .kind_bind ?_
  split
  case h_1 hkind | h_2 hkind | h_3 hkind | h_4 hkind | h_5 hkind | h_6 hkind =>
    exact nests_literal (fun _ => rfl) (by rw [hkind]; simp)
  case h_7 hkind =>
    refine (goes_advance (by rw [hkind]; simp)).bind fun _ c₁ h₁ hpast => .isAt_bind <| .ite (fun _ => ?_) fun _ => ?_
    · refine (nests_callArguments (hoperand 0) c₁).bind fun args c₂ h₂ hargs => .spanFrom_bind <| .pure fun _ => ?_
      exact Between.wrap hpast h₂ (hargs.2.behind h₁)
    · exact .spanFrom_bind <| .pure fun _ => ⟨hpast, .node h₁ hpast (List.forall_mem_nil _)⟩
  case h_8 hkind =>
    refine (goes_advance (by rw [hkind]; simp)).bind fun _ c₁ h₁ hpast =>
      (proceeds_openGroup c₁).bind fun _ c₂ h₂ _ => ?_
    refine (hoperand 0 c₂).bind fun e c₃ h₃ he => (proceeds_skipNewlinesInGroup c₃).bind fun _ c₄ h₄ _ => ?_
    refine (takes_expect (by simp) c₄).bind fun _ c₅ h₅ _ => (proceeds_closeGroup c₅).bind fun _ c₆ h₆ _ => ?_
    refine .pure fun _ => ⟨hpast.trans_onward (h₂.trans (h₃.trans (h₄.trans (h₅.trans h₆)))).onward, ?_⟩
    exact (he.2.behind (h₁.trans h₂)).before (h₄.trans (h₅.trans h₆))
  case h_9 hkind =>
    refine (goes_advance (by rw [hkind]; simp)).bind fun _ c₁ h₁ hpast =>
      (proceeds_openGroup c₁).bind fun _ c₂ h₂ _ => ?_
    have hitems := (nests_separatedUntil .rightBracket (hoperand 0)).congr fun items =>
      (Expr.spanTreesOfItems_eq items).symm
    refine (hitems c₂).bind fun items c₃ h₃ hitems => (proceeds_closeGroup c₃).bind fun _ c₄ h₄ _ => ?_
    refine .spanFrom_bind <| .pure fun _ => ?_
    have hstep := h₂.trans (h₃.trans h₄)
    exact Between.wrap hpast hstep ((hitems.2.behind (h₁.trans h₂)).before h₄)
  case h_10 hkind | h_11 hkind =>
    refine (goes_advance (by rw [hkind]; simp)).bind fun _ c₁ h₁ hpast => (hoperand _ c₁).bind fun e c₂ h₂ he => ?_
    refine .spanFrom_bind <| .pure fun _ => ?_
    exact Between.wrap hpast h₂ (he.2.behind h₁)
  case h_12 => exact goes_failExpecting _

/-- A round of a chain: what continues the operand, if something does, and the operand with it. -/
def chainRound (levels least : Nat) (lhs : Expr) : Parser (Option Expr) := do
  match ← continuation? least with
  | none => return none
  | some .field =>
    advance
    let name ← expectName .fieldName
    return some (.field (← spanFrom lhs.span.start) lhs name)
  | some (.binary op) =>
    advance
    let rhs ← exprWithin levels op.powers.2
    return some (.binary (lhs.span.through rhs.span) op lhs rhs)

/-- A chain goes in rounds. -/
theorem chainWithin_succ (levels least : Nat) (lhs : Expr) : chainWithin (levels + 1) least lhs = (do
    match ← chainRound levels least lhs with
    | none => return lhs
    | some e => chainWithin levels least e) := by
  rw [chainWithin, chainRound, bind_assoc]
  congr 1
  funext continuation
  match continuation with
  | none => rfl
  | some .field => simp only [bind_assoc, pure_bind]
  | some (.binary op) => simp only [bind_assoc, pure_bind]

/-- What continues a chain is a token, and not the end of the text. -/
theorem goes_continuation? (least : Nat) :
    Goes M c (continuation? least) fun found c' => found ≠ none → c'.kind ≠ .eof := by
  refine .kind_bind ?_
  split
  · rename_i hkind
    exact .pure fun _ _ => by rw [hkind]; simp
  · rename_i hkind _
    split
    · rename_i hop
      refine .pure fun _ _ heof => ?_
      rw [heof] at hop
      cases hop
    · exact .pure fun _ h => absurd rfl h

/-- A round of a chain goes past something, and the chain so far still nests in what is read. -/
theorem goes_chainRound {levels : Nat} (hexpr : ∀ least, Nests M (exprWithin levels least) fun e => [e.spanTree])
    {lhs : Expr} {c₀ : Cursor} (hlhs : Between M c₀ c [lhs.spanTree]) :
    Goes M c (chainRound levels least lhs) fun found c' =>
      ∀ e, found = some e → c.Past c' ∧ Between M c₀ c' [e.spanTree] := by
  refine (goes_continuation? least).bind fun found c₁ h₁ hkind => ?_
  match found, hkind with
  | none, _ => exact .pure fun _ _ h => nomatch h
  | some .field, hkind =>
    refine (goes_advance (hkind nofun)).bind fun _ c₂ h₂ hpast => (takes_expectName _ c₂).bind fun name c₃ h₃ _ => ?_
    refine .spanFrom_bind <| .pure fun hc₃ => ?_
    rintro _ ⟨⟩
    have hlhs := hlhs.before (h₁.trans (h₂.trans h₃))
    have hstop := (List.forall_mem_singleton.1 hlhs.row.inside).2
    have hrow := hlhs.row.spanning hc₃.place_lastEnd hstop (Nat.le_refl _)
    rw [Expr.span_spanTree] at hrow
    exact ⟨h₁.onward.trans_past (hpast.trans_onward h₃.onward), hlhs.step, hrow⟩
  | some (.binary op), hkind =>
    refine (goes_advance (hkind nofun)).bind fun _ c₂ h₂ hpast => (hexpr _ c₂).bind fun rhs c₃ h₃ hrhs =>
      .pure fun _ => ?_
    rintro _ ⟨⟩
    have hboth := (hlhs.before (h₁.trans h₂)).append hrhs.2
    have hrow := hboth.row.through
    rw [Expr.span_spanTree, Expr.span_spanTree] at hrow
    exact ⟨h₁.onward.trans_past (hpast.trans_onward h₃.onward), hboth.step, hrow⟩

/-- Expressions and the chains in them, by the levels that are left. -/
theorem nests_exprWithin_and_chainWithin (levels : Nat) :
    (∀ least, Nests M (exprWithin levels least) fun e => [e.spanTree]) ∧
      ∀ {least : Nat} {lhs : Expr} {c₀ c : Cursor}, Between M c₀ c [lhs.spanTree] →
        Goes M c (chainWithin levels least lhs) fun e c' => Between M c₀ c' [e.spanTree] := by
  induction levels with
  | zero =>
    refine ⟨fun _ _ => goes_failTooDeep, fun hlhs => ?_⟩
    refine (goes_continuation? _).bind fun found c₁ h₁ _ => ?_
    cases found with
    | none => exact .pure fun _ => hlhs.before h₁
    | some _ => exact goes_failTooDeep
  | succ levels ih =>
    obtain ⟨hexpr, hchain⟩ := ih
    refine ⟨fun least c => ?_, fun {least lhs c₀ c} hlhs => ?_⟩
    · refine (proceeds_skipNewlinesInGroup c).bind fun _ c₁ h₁ _ => (nests_primary hexpr c₁).bind fun e c₂ h₂ he => ?_
      refine (hchain (he.2.behind h₁)).mono fun _ _ h₃ hresult => ⟨?_, hresult⟩
      exact h₁.onward.trans_past (he.1.trans_onward h₃.onward)
    · rw [chainWithin_succ]
      refine (goes_chainRound hexpr hlhs).bind fun found c₁ h₁ hfound => ?_
      cases found with
      | none => exact .pure fun _ => hlhs.before h₁
      | some e => exact hchain (hfound e rfl).2

/-- An expression within any number of levels nests in what is read. -/
theorem nests_exprWithin (levels least : Nat) : Nests M (exprWithin levels least) fun e => [e.spanTree] :=
  (nests_exprWithin_and_chainWithin levels).1 least

end Expressions

/-! ## Data -/

section Data

variable {item value : Parser Data}

/-- A key takes something. -/
theorem takes_key : Takes M key := by
  intro c
  refine .kind_bind ?_
  split
  case h_1 hkind | h_2 hkind =>
    exact (goes_advance (by rw [hkind]; simp)).bind fun _ _ _ hpast => .pure fun _ => hpast
  case h_3 => exact goes_failExpecting _

/-- An entry nests in what is read, if its value does. -/
theorem nests_entry (hvalue : Nests M value fun d => [d.spanTree]) : Nests M (entry value) fun e => [e.spanTree] := by
  intro c
  refine .start_bind <| (takes_key c).bind fun key c₁ h₁ hpast => ?_
  refine (takes_expect (by simp) c₁).bind fun _ c₂ h₂ _ => (hvalue c₂).bind fun d c₃ h₃ hd => ?_
  refine .spanFrom_bind <| .pure fun _ => ?_
  exact Between.wrap hpast (h₂.trans h₃) (hd.2.behind (h₁.trans h₂))

/-- An argument nests in what is read, if its value does. -/
theorem nests_dataArgument (hvalue : Nests M value fun d => [d.spanTree]) :
    Nests M (dataArgument value) fun arg => [arg.value.spanTree] := fun c =>
  (proceeds_acceptLabel c).bind fun _ c₁ h₁ _ => (hvalue c₁).bind fun _ _ _ hd => .pure fun _ =>
    ⟨h₁.onward.trans_past hd.1, hd.2.behind h₁⟩

/-- A reference takes something. -/
theorem takes_reference : Takes M reference := fun c =>
  (takes_expect (by simp) c).bind fun _ _ _ hpast => (takes_expectName _ _).bind fun _ _ h₂ _ =>
    (goes_rounds (proceeds_accept _) (takes_expectName _).nests _).bind fun _ _ h₃ _ => .pure fun _ =>
      hpast.trans_onward (h₂.trans h₃).onward

/-- Lines of entries are rounds of one line. -/
theorem entryLines_eq (value : Parser Data) : entryLines value = rounds moreLines (entryLine value) := rfl

/-- A line with an entry nests in what is read, if its value does. -/
theorem nests_entryLine (hvalue : Nests M value fun d => [d.spanTree]) :
    Nests M (entryLine value) fun e => [e.spanTree] := fun c =>
  (nests_entry hvalue c).bind fun _ c₁ _ he => (proceeds_endLine c₁).bind fun _ _ h₂ _ => .pure fun _ =>
    ⟨he.1.trans_onward h₂.onward, he.2.before h₂⟩

/-- Lines with entries nest in what is read, if their values do. -/
theorem goes_entryLines (hvalue : Nests M value fun d => [d.spanTree]) (c : Cursor) :
    Goes M c (entryLines value) fun entries c' => Between M c c' (Data.spanTreesOfEntries entries) := by
  rw [entryLines_eq]
  refine (goes_rounds proceeds_moreLines (nests_entryLine hvalue) c).mono fun entries _ _ hentries => ?_
  rwa [Data.spanTreesOfEntries_eq]

/-- Looking for an entry ahead proceeds. -/
theorem proceeds_isEntryAhead : Proceeds M isEntryAhead := by
  intro c
  refine .kind_bind ?_
  split
  · exact .isAhead_bind fun _ => .pure fun _ => trivial
  · exact .isAhead_bind fun _ => .pure fun _ => trivial
  · exact .pure fun _ => trivial

variable (hitem : Nests M item fun d => [d.spanTree]) (hvalue : Nests M value fun d => [d.spanTree])

include hitem hvalue

/-- An item behind a dash nests in what is read. -/
theorem nests_dashItem : Nests M (dashItem item value) fun d => [d.spanTree] := by
  intro c
  refine .start_bind <| (takes_expect (by simp) c).bind fun _ c₁ h₁ hpast => ?_
  refine (proceeds_isEntryAhead c₁).bind fun _ c₂ h₂ _ => .ite (fun _ => ?_) fun _ => ?_
  · refine (nests_entry hvalue c₂).bind fun first c₃ h₃ hfirst => (proceeds_endLine c₃).bind fun _ c₄ h₄ _ => ?_
    refine (proceeds_accept _ c₄).bind fun _ c₅ h₅ _ => ?_
    have hstep := h₂.trans (h₃.trans (h₄.trans h₅))
    have hfirst := (hfirst.2.behind (h₁.trans h₂)).before (h₄.trans h₅)
    have hend : ∀ more c₆, Between M c₅ c₆ (Data.spanTreesOfEntries more) →
        Goes M c₆ (do return Data.dashRecord (← spanFrom c.start) (first :: more)) fun d c' =>
          c.Past c' ∧ Between M c c' [d.spanTree] := by
      intro more c₆ hmore
      refine .spanFrom_bind <| .pure fun _ => ?_
      exact Between.wrap hpast (hstep.trans hmore.step) (hfirst.append hmore)
    refine .ite (fun _ => ?_) fun _ => ?_
    · exact (goes_entryLines hvalue c₅).bind fun more c₆ _ hmore => hend more c₆ hmore
    · exact fun hc₅ => hend [] c₅ (.nil (.refl hc₅)) hc₅
  · refine (hitem c₂).bind fun d c₃ h₃ hd => (proceeds_endLine c₃).bind fun _ c₄ h₄ _ => .pure fun _ => ?_
    exact ⟨hpast.trans_onward (h₂.trans (h₃.trans h₄)).onward, (hd.2.behind (h₁.trans h₂)).before h₄⟩

/-- Items behind dashes nest in what is read. -/
theorem goes_dashItems (c : Cursor) :
    Goes M c (dashItems item value) fun items c' => Between M c c' (Data.spanTreesOfItems items) := by
  refine (goes_rounds proceeds_moreLines (nests_dashItem hitem hvalue) c).mono fun items _ _ hitems => ?_
  rwa [Data.spanTreesOfItems_eq]

/-- A block nests in what is read, unless the text is at its end. -/
theorem goes_block (h : c.kind ≠ .eof) :
    Goes M c (block item value) fun d c' => c.Past c' ∧ Between M c c' [d.spanTree] := by
  refine .start_bind <| (goes_advance h).bind fun _ c₁ h₁ hpast => (takes_expect (by simp) c₁).bind fun _ c₂ h₂ _ => ?_
  refine .isAt_bind <| .ite (fun _ => ?_) fun _ => ?_
  · refine (goes_dashItems hitem hvalue c₂).bind fun items c₃ h₃ hitems => .spanFrom_bind <| .pure fun _ => ?_
    exact Between.wrap hpast (h₂.trans h₃) (hitems.behind (h₁.trans h₂))
  · refine (goes_entryLines hvalue c₂).bind fun entries c₃ h₃ hentries => .spanFrom_bind <| .pure fun _ => ?_
    exact Between.wrap hpast (h₂.trans h₃) (hentries.behind (h₁.trans h₂))

/-- What a constructor is applied to nests in what is read, unless the text is at its end. -/
theorem goes_constructorForm {ctor : String} (h : c.kind ≠ .eof) :
    Goes M c (constructorForm c.start ctor item value) fun d c' => c.Past c' ∧ Between M c c' [d.spanTree] := by
  refine .isAhead_bind fun _ => .ite (fun _ => ?_) fun _ => ?_
  · refine (goes_advance h).bind fun _ c₁ h₁ hpast => (takes_expect (by simp) c₁).bind fun _ c₂ h₂ _ => ?_
    have hargs := (nests_separatedUntil .rightParen (nests_dataArgument hitem)).congr fun args =>
      (Data.spanTreesOfArguments_eq args).symm
    refine (hargs c₂).bind fun args c₃ h₃ hargs => .spanFrom_bind <| .pure fun _ => ?_
    exact Between.wrap hpast (h₂.trans h₃) (hargs.2.behind (h₁.trans h₂))
  · refine .isAhead_bind fun _ => .isFurtherAhead_bind fun _ => .ite (fun _ => ?_) fun _ => ?_
    · refine (goes_advance h).bind fun _ c₁ h₁ hpast => (proceeds_advance c₁).bind fun _ c₂ h₂ _ => ?_
      refine (proceeds_advance c₂).bind fun _ c₃ h₃ _ => (takes_expect (by simp) c₃).bind fun _ c₄ h₄ _ => ?_
      have hstep := h₂.trans (h₃.trans h₄)
      refine .isAt_bind <| .ite (fun _ => ?_) fun _ => ?_
      · refine (goes_dashItems hitem hvalue c₄).bind fun items c₅ h₅ hitems => .spanFrom_bind <| .pure fun _ => ?_
        exact Between.wrap hpast (hstep.trans h₅) (hitems.behind (h₁.trans hstep))
      · refine (goes_entryLines hvalue c₄).bind fun entries c₅ h₅ hentries => .spanFrom_bind <| .pure fun _ => ?_
        exact Between.wrap hpast (hstep.trans h₅) (hentries.behind (h₁.trans hstep))
    · refine (goes_advance h).bind fun _ c₁ h₁ hpast => .spanFrom_bind <| .pure fun _ => ?_
      exact Between.wrap hpast (.refl h₁.sound_behind) (.nil h₁)

/-- Data in one line nests in what is read, if the data inside does. -/
theorem nests_dataForm : Nests M (dataForm item value) fun d => [d.spanTree] := by
  intro c
  refine .start_bind <| .kind_bind ?_
  split
  case h_1 hkind | h_2 hkind | h_3 hkind | h_4 hkind | h_5 hkind | h_6 hkind =>
    exact nests_literal (fun _ => rfl) (by rw [hkind]; simp)
  case h_7 hkind =>
    refine (goes_advance (by rw [hkind]; simp)).bind fun _ c₁ h₁ hpast => ?_
    have hitems := (nests_separatedUntil .rightBracket hitem).congr fun items => (Data.spanTreesOfItems_eq items).symm
    refine (hitems c₁).bind fun items c₂ h₂ hitems => .spanFrom_bind <| .pure fun _ => ?_
    exact Between.wrap hpast h₂ (hitems.2.behind h₁)
  case h_8 hkind =>
    refine (goes_advance (by rw [hkind]; simp)).bind fun _ c₁ h₁ hpast => ?_
    have hentries := (nests_separatedUntil .rightBrace (nests_entry hitem)).congr fun entries =>
      (Data.spanTreesOfEntries_eq entries).symm
    refine (hentries c₁).bind fun entries c₂ h₂ hentries => .spanFrom_bind <| .pure fun _ => ?_
    exact Between.wrap hpast h₂ (hentries.2.behind h₁)
  case h_9 =>
    refine (takes_reference c).bind fun found c₁ h₁ hpast => .spanFrom_bind <| .pure fun _ => ?_
    exact ⟨hpast, .node h₁ hpast (List.forall_mem_nil _)⟩
  case h_10 hkind => exact goes_constructorForm hitem hvalue (by rw [hkind]; simp)
  case h_11 => exact goes_failExpecting _

omit hitem hvalue

/-- Data and the values behind keys, by the levels that are left. -/
theorem nests_dataWithin_and_valueWithin (levels : Nat) :
    (Nests M (dataWithin levels) fun d => [d.spanTree]) ∧ Nests M (valueWithin levels) fun d => [d.spanTree] := by
  induction levels with
  | zero => exact ⟨fun _ => goes_failTooDeep, fun _ => goes_failTooDeep⟩
  | succ levels ih =>
    obtain ⟨hdata, hvalue⟩ := ih
    have hform := nests_dataForm hdata hvalue
    refine ⟨hform, fun c => .isAt_bind <| .ite (fun hkind => ?_) fun _ => hform c⟩
    have hkind : c.kind = .newline := of_decide_eq_true hkind
    exact goes_block hdata hvalue (by rw [hkind]; simp)

/-- Data within any number of levels nests in what is read. -/
theorem nests_dataWithin (levels : Nat) : Nests M (dataWithin levels) fun d => [d.spanTree] :=
  (nests_dataWithin_and_valueWithin levels).1

/-- Data with blocks, within any number of levels, nests in what is read. -/
theorem nests_valueWithin (levels : Nat) : Nests M (valueWithin levels) fun d => [d.spanTree] :=
  (nests_dataWithin_and_valueWithin levels).2

end Data

/-! ## Clauses -/

section Clauses

/-- An expression nests in what is read. -/
theorem nests_expr : Nests M expr fun e => [e.spanTree] := nests_exprWithin maxNesting 0

/-- Conditions in one line nest in what is read. -/
theorem nests_conditionsInLine : Nests M (commaSeparated expr) (·.map Expr.spanTree) :=
  (nests_commaSeparated nests_expr).congr fun _ => List.map_eq_flatMap.symm

/-- Names of constructors proceed. -/
theorem proceeds_constructorNames : Proceeds M constructorNames := by
  have hname : Nests M (expectName .constructorName) fun _ => [] := (takes_expectName _).nests
  exact fun c => (proceeds_accept _ c).bind fun _ c₁ _ _ => .ite
    (fun _ => (nests_separatedUntil _ hname).takes.proceeds c₁) fun _ => (nests_commaSeparated hname).takes.proceeds c₁

/-- A scope proceeds. -/
theorem proceeds_scope : Proceeds M scope := by
  intro c
  refine (proceeds_accept _ c).bind fun _ c₁ _ _ => .ite (fun _ => ?_) fun _ => ?_
  · exact (proceeds_constructorNames c₁).bind fun _ _ _ _ => .pure fun _ => trivial
  · refine (proceeds_accept _ c₁).bind fun _ c₂ _ _ => .ite (fun _ => ?_) fun _ => .pure fun _ => trivial
    exact (proceeds_constructorNames c₂).bind fun _ _ _ _ => .pure fun _ => trivial

/-- A scope behind a clause proceeds. -/
theorem proceeds_scopeAfterClause : Proceeds M scopeAfterClause := fun _ =>
  .isAt_bind <| .isAhead_bind fun _ => .isAhead_bind fun _ => .ite
    (fun _ => (proceeds_advance _).bind fun _ c₁ _ _ => proceeds_scope c₁) fun _ => proceeds_scope _

/-- A line with conditions nests in what is read. -/
theorem nests_conditionLine : Nests M conditionLine fun e => [e.spanTree] := fun c =>
  (nests_expr c).bind fun _ c₁ _ he => (proceeds_accept _ c₁).bind fun _ c₂ h₂ _ => (proceeds_endLine c₂).bind
    fun _ _ h₃ _ => .pure fun _ => ⟨he.1.trans_onward (h₂.trans h₃).onward, he.2.before (h₂.trans h₃)⟩

/-- Looking for a block proceeds. -/
theorem proceeds_isBlockHere : Proceeds M isBlockHere := fun _ =>
  .isAt_bind <| .isAhead_bind fun _ => .pure fun _ => trivial

/-- Conditions nest in what is read. -/
theorem nests_conditions : Nests M conditions (·.map Expr.spanTree) := by
  intro c
  refine (proceeds_isBlockHere c).bind fun _ c₁ h₁ _ => .ite (fun _ => ?_) fun _ => ?_
  · refine (proceeds_advance c₁).bind fun _ c₂ h₂ _ => (proceeds_advance c₂).bind fun _ c₃ h₃ _ => ?_
    refine (nests_conditionLine c₃).bind fun first c₄ h₄ hfirst => ?_
    refine (goes_rounds proceeds_moreLines nests_conditionLine c₄).bind fun others c₅ h₅ hothers => .pure fun _ => ?_
    have hstep := h₁.trans (h₂.trans h₃)
    rw [← List.map_eq_flatMap] at hothers
    exact ⟨hstep.onward.trans_past (hfirst.1.trans_onward h₅.onward), (hfirst.2.append hothers).behind hstep⟩
  · refine (nests_conditionsInLine c₁).mono fun _ _ _ hconditions => ?_
    exact ⟨h₁.onward.trans_past hconditions.1, hconditions.2.behind h₁⟩

/-- A clause nests in what is read, if its scope proceeds. -/
theorem nests_whereClause {scope : Parser Scope} (hscope : Proceeds M scope) :
    Nests M (whereClause scope) fun clause => [clause.spanTree] := by
  intro c
  refine .start_bind <| (takes_expect (by simp) c).bind fun _ c₁ h₁ hpast => ?_
  refine (nests_conditions c₁).bind fun conditions c₂ h₂ hconditions => (hscope c₂).bind fun scope c₃ h₃ _ => ?_
  refine .spanFrom_bind <| .pure fun _ => ?_
  exact Between.wrap hpast (h₂.trans h₃) ((hconditions.2.behind h₁).before h₃)

end Clauses

/-! ## Declarations of types -/

section Declarations

/-- A field nests in what is read. -/
theorem nests_fieldDecl : Nests M fieldDecl fun field => [field.spanTree] := by
  intro c
  refine .start_bind <| (proceeds_acceptLabel c).bind fun name c₁ h₁ _ => ?_
  refine (nests_typeWithin maxNesting c₁).bind fun type c₂ h₂ htype => .spanFrom_bind <| .pure fun _ => ?_
  exact Between.wrap (h₁.onward.trans_past htype.1) (.refl h₂.sound_behind) (htype.2.behind h₁)

/-- A constructor nests in what is read, with the conditions after it. -/
theorem nests_ctorDecl : Nests M ctorDecl CtorDecl.spanTrees := by
  intro c
  refine .start_bind <| (takes_expectName _ c).bind fun name c₁ h₁ hpast => ?_
  have hfields := (nests_separatedUntil .rightBrace nests_fieldDecl).congr (M := M) fun fields =>
    List.map_eq_flatMap.symm
  refine (takes_expect (by simp) c₁).bind fun _ c₂ h₂ _ => (hfields c₂).bind fun fields c₃ h₃ hfields => ?_
  obtain ⟨hpast, hctor⟩ := Between.wrap hpast (h₂.trans h₃) (hfields.2.behind (h₁.trans h₂))
  refine .spanFrom_bind <| .isAt_bind <| .ite (fun _ => ?_) fun _ => .pure fun _ => ⟨hpast, hctor⟩
  refine ((nests_whereClause fun _ => .pure fun _ => trivial).some c₃).bind fun found c₄ h₄ hclause => .pure fun _ => ?_
  exact ⟨hpast.trans_onward h₄.onward, hctor.append hclause.2⟩

/-- The conditions that are taken away stand behind the constructors. -/
theorem spanTrees_takeLastInline {ctors rest : List CtorDecl} {clause : WhereClause}
    (h : takeLastInline ctors = some (rest, clause)) :
    ctors.flatMap CtorDecl.spanTrees = rest.flatMap CtorDecl.spanTrees ++ [clause.spanTree] := by
  fun_induction takeLastInline ctors generalizing rest with
  | case1 => cases h
  | case2 ctor =>
    obtain ⟨found, hfound, heq⟩ := Option.map_eq_some_iff.1 h
    cases heq
    simp [CtorDecl.spanTrees, hfound]
  | case3 ctor ctors _ ih =>
    obtain ⟨⟨others, found⟩, hfound, heq⟩ := Option.map_eq_some_iff.1 h
    cases heq
    rw [List.flatMap_cons, ih hfound, List.flatMap_cons, List.append_assoc]

/-- The constructors lie between the cursors, and so do the clauses. -/
structure BetweenBoth (M : Material) (c : Cursor) (found : List CtorDecl × List WhereClause) (c' : Cursor) : Prop where
  ctors : Between M c c' (found.1.flatMap CtorDecl.spanTrees)
  clauses : Between M c c' (found.2.map WhereClause.spanTree)

/-- Constructors behind the first. -/
def otherAlternative : Parser CtorDecl := do
  skipNewlinesInGroup
  ctorDecl

/-- A constructor behind a bar nests in what is read. -/
theorem nests_otherAlternative : Nests M otherAlternative CtorDecl.spanTrees := fun c =>
  (proceeds_skipNewlinesInGroup c).bind fun _ c₁ h₁ _ => (nests_ctorDecl c₁).mono fun _ _ _ hctor =>
    ⟨h₁.onward.trans_past hctor.1, hctor.2.behind h₁⟩

/-- Constructors in one line are one, and rounds of others behind bars. -/
theorem alternatives_eq : alternatives = (do
    let _ ← accept (.mark .bar)
    let first ← ctorDecl
    let others ← rounds (accept (.mark .bar)) otherAlternative
    let ctors := first :: others
    if (← isAt (.keyword .for)) || (← isAt (.keyword .except)) then
      match takeLastInline ctors with
      | none => failExpecting .constructorOrLineEnd
      | some (ctors, clause) =>
        let scope ← scope
        return (ctors, [{ clause with scope := scope, span := ← spanFrom clause.span.start }])
    else return (ctors, [])) := rfl

/-- Constructors in one line and the clauses behind them nest in what is read. -/
theorem goes_alternatives (c : Cursor) :
    Goes M c alternatives fun found c' => c.Past c' ∧ BetweenBoth M c found c' := by
  rw [alternatives_eq]
  refine (proceeds_accept _ c).bind fun _ c₁ h₁ _ => (nests_ctorDecl c₁).bind fun first c₂ h₂ hfirst => ?_
  refine (goes_rounds (proceeds_accept _) nests_otherAlternative c₂).bind fun others c₃ h₃ hothers => ?_
  have hpast := h₁.onward.trans_past (hfirst.1.trans_onward h₃.onward)
  have hctors : Between M c c₃ ((first :: others).flatMap CtorDecl.spanTrees) := (hfirst.2.append hothers).behind h₁
  refine .isAt_bind <| .isAt_bind <| .ite (fun _ => ?_) fun _ => .pure fun hc₃ => ⟨hpast, hctors, ?_⟩
  · split
    · exact goes_failExpecting _
    · rename_i ctors clause htaken
      rw [spanTrees_takeLastInline htaken] at hctors
      refine (proceeds_scope c₃).bind fun scope c₄ h₄ _ => .spanFrom_bind <| .pure fun hc₄ => ?_
      have hall := hctors.before h₄
      have hclause := hctors.sublist (List.sublist_append_right _ _)
      have hstop := (List.forall_mem_singleton.1 hclause.row.inside).2
      refine ⟨hpast.trans_onward h₄.onward, hall.sublist (List.sublist_append_left _ _), hall.step, ?_⟩
      exact hclause.row.extend hc₄.place_lastEnd (Nat.le_trans hstop h₄.order.2.2.2) (Nat.le_refl _)
  · exact .nil hctors.step

/-- A line of a type nests in what is read. -/
theorem goes_typeLine (c : Cursor) :
    Goes M c typeLine fun found c' => c.Past c' ∧ BetweenBoth M c found c' := by
  have hend : ∀ found c₁, Step M c c₁ → c.Past c₁ ∧ BetweenBoth M c found c₁ →
      Goes M c₁ (do endLine; return found) fun found c' => c.Past c' ∧ BetweenBoth M c found c' :=
    fun _ c₁ _ h => (proceeds_endLine c₁).bind fun _ _ h₂ _ => .pure fun _ =>
      ⟨h.1.trans_onward h₂.onward, h.2.ctors.before h₂, h.2.clauses.before h₂⟩
  refine .isAt_bind <| .ite (fun _ => ?_) fun _ => ?_
  · refine (nests_whereClause proceeds_scopeAfterClause c).bind fun clause c₁ h₁ hclause => ?_
    exact hend ([], [clause]) c₁ h₁ ⟨hclause.1, .nil h₁, hclause.2⟩
  · exact (goes_alternatives c).bind fun found c₁ h₁ hfound => hend found c₁ h₁ hfound

/-- The lines of a type nest in what is read. -/
theorem goes_typeLines (c : Cursor) : Goes M c typeLines (BetweenBoth M c) := by
  have hctors : Nests M typeLine fun line => line.1.flatMap CtorDecl.spanTrees := fun c =>
    (goes_typeLine c).mono fun _ _ _ h => ⟨h.1, h.2.ctors⟩
  have hclauses : Nests M typeLine fun line => line.2.map WhereClause.spanTree := fun c =>
    (goes_typeLine c).mono fun _ _ _ h => ⟨h.1, h.2.clauses⟩
  refine ((goes_rounds proceeds_moreLines hctors c).and (goes_rounds proceeds_moreLines hclauses c)).bind
    fun lines c₁ h₁ hlines => ?_
  rw [← List.flatMap_assoc, ← List.map_flatMap] at hlines
  refine .ite (fun _ => ?_) fun _ => .pure fun _ => ⟨hlines.1, hlines.2⟩
  exact (goes_failExpecting (α := PUnit) (Q := fun _ _ => False) _).bind fun _ _ _ h => h.elim

/-- Looking for more clauses proceeds. -/
theorem proceeds_moreClauses : Proceeds M moreClauses := by
  refine fun c => .isAt_bind <| .isAhead_bind fun _ => .ite (fun _ => ?_) fun _ => .isAt_bind <| .pure fun _ => trivial
  exact (proceeds_advance c).bind fun _ _ _ _ => .isAt_bind <| .pure fun _ => trivial

/-- Looking for more parameters proceeds. -/
theorem proceeds_moreParameters : Proceeds M moreParameters := by
  intro c
  refine .kind_bind ?_
  split <;> exact .pure fun _ => trivial

/-- A clause behind the constructors nests in what is read. -/
theorem nests_clauseBehind : Nests M (whereClause scopeAfterClause) fun clause => [clause.spanTree] :=
  nests_whereClause proceeds_scopeAfterClause

/-- A declaration nests in what is read. -/
theorem nests_typeDecl : Nests M typeDecl fun decl => [decl.spanTree] := by
  intro c
  refine .start_bind <| (takes_expect (by simp) c).bind fun _ c₁ h₁ hpast => ?_
  refine (takes_expectName _ c₁).bind fun name c₂ h₂ _ => ?_
  refine (goes_rounds proceeds_moreParameters (takes_expectName _).nests c₂).bind fun params c₃ h₃ _ => ?_
  refine (takes_expect (by simp) c₃).bind fun _ c₄ h₄ _ => (proceeds_isBlockHere c₄).bind fun _ c₅ h₅ _ => ?_
  have hhead := h₂.trans (h₃.trans (h₄.trans h₅))
  -- the constructors and clauses of the body, and what comes behind them in either case
  have hend : ∀ (layout : CtorLayout) ctors clauses c₆ c₇, Step M c₅ c₆ → BetweenBoth M c₆ (ctors, clauses) c₇ →
      Goes M c₇ (do
        let more ← rounds moreClauses (whereClause scopeAfterClause)
        return TypeDecl.mk name params layout ctors (clauses ++ more) (← spanFrom c.start)) fun decl c' =>
          c.Past c' ∧ Between M c c' [decl.spanTree] := by
    intro layout ctors clauses c₆ c₇ h₆ hbody
    refine (goes_rounds proceeds_moreClauses nests_clauseBehind c₇).bind fun more c₈ h₈ hmore => ?_
    refine .spanFrom_bind <| .pure fun _ => ?_
    rw [← List.map_eq_flatMap] at hmore
    have hstep := h₁.trans (hhead.trans h₆)
    have hclauses := (hbody.clauses.append hmore).behind hstep
    rw [← List.map_append] at hclauses
    have hpast := hpast.trans_onward (hhead.trans (h₆.trans (hbody.ctors.step.trans h₈))).onward
    refine ⟨hpast, .node hclauses.step hpast (List.forall_mem_cons.2 ⟨?_, List.forall_mem_singleton.2 hclauses⟩)⟩
    exact (hbody.ctors.before h₈).behind hstep
  refine .ite (fun _ => ?_) fun _ => ?_
  · refine (proceeds_advance c₅).bind fun _ c₆ h₆ _ => (proceeds_advance c₆).bind fun _ c₇ h₇ _ => ?_
    exact (goes_typeLines c₇).bind fun body c₈ _ hbody => hend .lines _ _ c₇ c₈ (h₆.trans h₇) hbody
  · refine fun hc₅ => ((goes_alternatives c₅).bind fun body c₆ _ hbody => ?_) hc₅
    exact hend .piped _ _ c₅ c₆ (.refl hc₅) hbody.2

end Declarations

/-! ## Items and documents -/

section Items

/-- A rule nests in what is read. -/
theorem nests_ruleDecl (template : Template) : Nests M (ruleDecl template) fun decl => [decl.spanTree] := by
  intro c
  refine .start_bind <| (proceeds_advance c).bind fun _ c₁ h₁ _ => ?_
  refine (takes_expect (by simp) c₁).bind fun _ c₂ h₂ hpast => .kind_bind ?_
  refine (nests_expr c₂).bind fun target c₃ h₃ htarget => ?_
  have hpast := h₁.onward.trans_past (hpast.trans_onward h₃.onward)
  have htarget := htarget.2.behind (h₁.trans h₂)
  have hend : ∀ guards c₄, Between M c₃ c₄ (guards.map Expr.spanTree) →
      Goes M c₄ (do return RuleDecl.mk template target guards (← spanFrom c.start)) fun decl c' =>
        c.Past c' ∧ Between M c c' [decl.spanTree] := by
    intro guards c₄ hguards
    refine .spanFrom_bind <| .pure fun _ => ?_
    have hall := htarget.append hguards
    exact Between.wrap hpast hguards.step hall
  cases target with
  | call =>
    refine (proceeds_accept _ c₃).bind fun _ c₄ h₄ _ => .ite (fun _ => ?_) fun _ => ?_
    · exact (nests_conditionsInLine c₄).bind fun guards c₅ _ hguards => hend guards c₅ (hguards.2.behind h₄)
    · exact hend [] c₄ (.nil h₄)
  | int | float | str | bool | null | name | list | field | unary | binary => exact .throw _

/-- A binding nests in what is read. -/
theorem nests_binding : Nests M binding fun decl => [decl.spanTree] := by
  intro c
  refine .start_bind <|
    (takes_expectName _ c).bind fun name c₁ h₁ hpast => (proceeds_accept _ c₁).bind fun _ c₂ h₂ _ => ?_
  have hend : ∀ (type : Option TypeExpr) c₃, Between M c₂ c₃ (type.toList.map TypeExpr.spanTree) →
      Goes M c₃ (do
        expect (.mark .define)
        let value ← data
        return Binding.mk name type value (← spanFrom c.start)) fun decl c' =>
          c.Past c' ∧ Between M c c' [decl.spanTree] := by
    intro type c₃ htype
    refine (takes_expect (by simp) c₃).bind fun _ c₄ h₄ _ => ?_
    refine (nests_dataWithin maxNesting c₄).bind fun value c₅ h₅ hvalue => .spanFrom_bind <| .pure fun _ => ?_
    have hall := (htype.append (hvalue.2.behind h₄)).behind (h₁.trans h₂)
    exact Between.wrap hpast (h₂.trans (htype.step.trans (h₄.trans h₅))) hall
  refine .ite (fun _ => ?_) fun _ => ?_
  · exact ((nests_typeWithin maxNesting).some c₂).bind fun type c₃ _ htype => hend type c₃ htype.2
  · exact fun hc₂ => hend none c₂ (.nil (.refl hc₂)) hc₂

/-- A value without a name nests in what is read. -/
theorem nests_valueItem : Nests M (.value <$> data) fun item => [Item.spanTree item] := fun c =>
  (nests_dataWithin maxNesting c).map fun _ _ _ h => h

/-- A binding nests in what is read, as an item. -/
theorem nests_bindingItem : Nests M (.binding <$> binding) fun item => [Item.spanTree item] := fun c =>
  (nests_binding c).map fun _ _ _ h => h

/-- An item that begins with a name nests in what is read. -/
theorem nests_namedItem : Nests M namedItem fun item => [item.spanTree] := by
  intro c
  refine .isAhead_bind fun _ => .ite (fun _ => nests_bindingItem c) fun _ => ?_
  refine .isAhead_bind fun _ => .isFurtherAhead_bind fun _ => .ite (fun _ => nests_bindingItem c) fun _ => ?_
  exact nests_valueItem c

/-- An item nests in what is read. -/
theorem nests_item : Nests M item fun item => [item.spanTree] := by
  intro c
  refine .kind_bind ?_
  split
  · exact (nests_typeDecl c).map fun _ _ _ h => h
  · refine .isAhead_bind fun _ => .ite (fun _ => ?_) fun _ => nests_valueItem c
    exact (nests_ruleDecl _ c).map fun _ _ _ h => h
  · exact nests_namedItem c
  · exact goes_failExpecting _
  · exact nests_valueItem c

/-- Looking for more items proceeds. -/
theorem proceeds_moreItems : Proceeds M moreItems := fun c =>
  (proceeds_skipNewlines c).bind fun _ _ _ _ => .isAt_bind <| .pure fun _ => trivial

/-- An item and the end of its line. -/
def itemLine : Parser Item := do
  let item ← item
  endLine
  return item

/-- A document is rounds of one item. -/
theorem document_eq : document = (do return ⟨← rounds moreItems itemLine⟩) := rfl

/-- An item with the end of its line nests in what is read. -/
theorem nests_itemLine : Nests M itemLine fun item => [item.spanTree] := fun c =>
  (nests_item c).bind fun _ c₁ _ hitem => (proceeds_endLine c₁).bind fun _ _ h₂ _ => .pure fun _ =>
    ⟨hitem.1.trans_onward h₂.onward, hitem.2.before h₂⟩

/-- The items of a document nest in what is read. -/
theorem goes_document (c : Cursor) : Goes M c document fun d c' => Between M c c' d.spanTrees := by
  rw [document_eq]
  refine (goes_rounds proceeds_moreItems nests_itemLine c).bind fun items _ _ hitems => .pure fun _ => ?_
  rwa [← List.map_eq_flatMap] at hitems

end Items

end Parser

/-! ## Documents -/

/-- The tokens of a text are in order at places of the text. -/
theorem sound_of_scan {source : String} {tokens : List Token} (h : scan source = .ok tokens) :
    (Cursor.ofTokens tokens).Sound (.inText source) :=
  Cursor.sound_ofTokens (isStream_of_scan h) fun taken htaken => ⟨taken, htaken, rfl⟩

/-- **The spans of a document nest.**  Every node lies in the text, between two characters, and does not end before it
starts; its children lie inside it, and siblings stand one behind another, as the items do. -/
theorem Document.spans_nest {source : String} {d : Document} (h : read source = .ok d) :
    (∀ t ∈ d.spanTrees, t.Nested (Span.Within source)) ∧
      d.spanTrees.Pairwise fun s t => s.span.stop ≤ t.span.start := by
  obtain ⟨tokens, hscan, h⟩ := bind_eq_ok_iff.1 h
  have hsound := sound_of_scan (mapError_eq_ok_iff.1 hscan)
  have hread : (Parser.document.outcome (Cursor.ofTokens tokens)).1 = .ok d := mapError_eq_ok_iff.1 h
  have hitems := ((Parser.goes_document _).ok hsound (Prod.ext hread rfl)).2.row
  exact ⟨fun t ht => (hitems.nested t ht).mono fun _ => Span.within_of_covers, hitems.ordered⟩

/-- Conditions directly behind a constructor, others that are a clause of the type, and a list under a key. -/
def branching : String := "type t =\n  a {x: int} where (x) > 0 | b {} where x < 1 for a\nk:\n  - [1, t(2)]"

/-- A document of two items with spans inside one another. -/
theorem Document.spans_nest_branching : ∃ d, read branching = .ok d ∧ d.items.length = 2 ∧
    (∀ t ∈ d.spanTrees, t.Nested (Span.Within branching)) ∧
      d.spanTrees.Pairwise fun s t => s.span.stop ≤ t.span.start := by
  have htest : (read branching).toOption.any (fun d => d.items.length = 2) = true := by decide +kernel
  obtain ⟨d, hread, hitems⟩ := exists_ok_of_any htest
  exact ⟨d, hread, of_decide_eq_true hitems, spans_nest hread⟩

end TypedData
