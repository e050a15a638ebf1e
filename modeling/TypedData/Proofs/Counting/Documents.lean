import TypedData.Proofs.Counting.Data
import TypedData.Proofs.Counting.Expressions

/-!
# Counting the levels of documents

Between the items of a document no level is open, and neither is one where a type, an expression or data is read on
its own.  So the counter stands at zero there (`Reached.depth_eq_zero`), whatever has been read before and however that
ended, and every value has all levels to itself (`nesting_balanced`).  Groups are another matter: those of an expression
that fails stay open.
-/

namespace TypedData

namespace Parser

/-- Names of constructors keep the groups. -/
theorem keepsGroups_constructorNames : KeepsGroups constructorNames :=
  (keepsGroups_accept _).bind fun _ => .ite (keepsGroups_separatedUntil _ (keepsGroups_expectName _))
    (keepsGroups_commaSeparated (keepsGroups_expectName _))

/-- A scope keeps the groups. -/
theorem keepsGroups_scope : KeepsGroups scope := by
  have hnames (f : List String → Scope) : KeepsGroups (do return f (← constructorNames)) :=
    keepsGroups_constructorNames.bind fun _ => .pure _
  refine (keepsGroups_accept _).bind fun _ => .ite (hnames .only) ?_
  exact (keepsGroups_accept _).bind fun _ => .ite (hnames .except) (.pure _)

/-- A scope behind a clause keeps the groups. -/
theorem keepsGroups_scopeAfterClause : KeepsGroups scopeAfterClause := by
  refine (keepsGroups_isAt _).bind fun _ => (keepsGroups_isAhead _).bind fun _ => ?_
  refine (keepsGroups_isAhead _).bind fun _ => .ite ?_ keepsGroups_scope
  exact keepsGroups_advance.bind fun _ => keepsGroups_scope

/-- Looking for a block keeps the groups. -/
theorem keepsGroups_isBlockHere : KeepsGroups isBlockHere := .look _

/-- Looking for more clauses keeps the groups. -/
theorem keepsGroups_moreClauses : KeepsGroups moreClauses := by
  refine (keepsGroups_isAt _).bind fun _ => (keepsGroups_isAhead _).bind fun _ => .ite ?_ (keepsGroups_isAt _)
  exact keepsGroups_advance.bind fun _ => keepsGroups_isAt _

/-- Looking for more parameters keeps the groups. -/
theorem keepsGroups_moreParameters : KeepsGroups moreParameters := by
  refine keepsGroups_kind.bind fun kind => ?_
  cases kind <;> exact .pure _

/-- Looking for more items keeps the groups. -/
theorem keepsGroups_moreItems : KeepsGroups moreItems :=
  keepsGroups_skipNewlines.bind fun _ => (keepsGroups_isAt _).bind fun _ => .pure _

end Parser

namespace Counting

/-! ## Clauses -/

/-- A condition on a line of its own. -/
def conditionLine : Counting Expr := do
  let condition ← expr
  let _ ← Parser.accept (.mark .comma)
  Parser.endLine
  return condition

/-- The conditions of a clause: in one line, or one a line in a block. -/
def conditions : Counting (List Expr) := do
  if ← Parser.isBlockHere then
    Parser.advance
    Parser.advance
    let first ← conditionLine
    return first :: (← rounds Parser.moreLines conditionLine)
  else commaSeparated expr

/-- A clause, whose scope is read by `scope`. -/
def whereClause (scope : Parser Scope) : Counting WhereClause := do
  let start ← Parser.start
  Parser.expect (.keyword .where)
  let conditions ← conditions
  let scope ← scope
  return ⟨conditions, scope, ← Parser.spanFrom start⟩

/-! ## Types -/

/-- A field of a constructor. -/
def fieldDecl : Counting FieldDecl := do
  let start ← Parser.start
  let name ← Parser.acceptLabel
  let type ← type
  return ⟨name, type, ← Parser.spanFrom start⟩

/-- A constructor, perhaps with conditions directly after it. -/
def ctorDecl : Counting CtorDecl := do
  let start ← Parser.start
  let name ← Parser.expectName .constructorName
  Parser.expect (.mark .leftBrace)
  let fields ← separatedUntil .rightBrace fieldDecl
  let span ← Parser.spanFrom start
  let inlineWhere ←
    if ← Parser.isAt (.keyword .where) then some <$> whereClause (return .all) else pure none
  return ⟨name, fields, inlineWhere, span⟩

/-- Constructors with bars between them.  A scope after the conditions of the last one makes those
conditions a clause of the type. -/
def alternatives : Counting (List CtorDecl × List WhereClause) := do
  let _ ← Parser.accept (.mark .bar)
  let first ← ctorDecl
  let others ← rounds (Parser.accept (.mark .bar)) do
    Parser.skipNewlinesInGroup
    ctorDecl
  let ctors := first :: others
  if (← Parser.isAt (.keyword .for)) || (← Parser.isAt (.keyword .except)) then
    match Parser.takeLastInline ctors with
    | none => Parser.failExpecting .constructorOrLineEnd
    | some (ctors, clause) =>
      let scope ← Parser.scope
      return (ctors, [{ clause with scope := scope, span := ← Parser.spanFrom clause.span.start }])
  else return (ctors, [])

/-- A line of the block of a type: a clause, or constructors. -/
def typeLine : Counting (List CtorDecl × List WhereClause) := do
  let line ←
    if ← Parser.isAt (.keyword .where) then
      let clause ← whereClause Parser.scopeAfterClause
      pure ([], [clause])
    else alternatives
  Parser.endLine
  return line

/-- The lines of the block of a type. -/
def typeLines : Counting (List CtorDecl × List WhereClause) := do
  let lines ← rounds Parser.moreLines typeLine
  let ctors := lines.flatMap Prod.fst
  if ctors.isEmpty then Parser.failExpecting .constructor
  return (ctors, lines.flatMap Prod.snd)

/-- The declaration of a type. -/
def typeDecl : Counting TypeDecl := do
  let start ← Parser.start
  Parser.expect (.keyword .type)
  let name ← Parser.expectName .typeName
  let params ← rounds Parser.moreParameters (Parser.expectName .typeName)
  Parser.expect (.mark .equals)
  let (layout, ctors, clauses) ←
    if ← Parser.isBlockHere then
      Parser.advance
      Parser.advance
      pure (CtorLayout.lines, ← typeLines)
    else pure (CtorLayout.piped, ← alternatives)
  let more ← rounds Parser.moreClauses (whereClause Parser.scopeAfterClause)
  return ⟨name, params, layout, ctors, clauses ++ more, ← Parser.spanFrom start⟩

/-! ## Rules, bindings and documents -/

/-- A rule for texts.  Its target has to be a call. -/
def ruleDecl (template : Template) : Counting RuleDecl := do
  let start ← Parser.start
  Parser.advance
  Parser.expect (.mark .arrow)
  let found ← Parser.kind
  let target ← expr
  match target with
  | .call .. =>
    let guards ← if ← Parser.accept (.keyword .where) then commaSeparated expr else pure []
    return ⟨template, target, guards, ← Parser.spanFrom start⟩
  | _ => throw (.unexpectedToken .constructorCall found target.span)

/-- A binding. -/
def binding : Counting Binding := do
  let start ← Parser.start
  let name ← Parser.expectName .bindingName
  let type ← if ← Parser.accept (.mark .colon) then some <$> type else pure none
  Parser.expect (.mark .define)
  let value ← data
  return ⟨name, type, value, ← Parser.spanFrom start⟩

/-- An item that starts with a name: a binding or data. -/
def namedItem : Counting Item := do
  if ← Parser.isAhead (.mark .define) then .binding <$> binding
  else if (← Parser.isAhead (.mark .colon)) && !(← Parser.isFurtherAhead .newline) then .binding <$> binding
  else .value <$> data

/-- An item. -/
def item : Counting Item := do
  match ← Parser.kind with
  | .keyword .type => .type <$> typeDecl
  | .string template =>
    if ← Parser.isAhead (.mark .arrow) then .rule <$> ruleDecl template else .value <$> data
  | .name _ => namedItem
  | .indent => Parser.failExpecting .declarationOrValue
  | _ => .value <$> data

/-- All items up to the end of the text. -/
def document : Counting Document := do
  let items ← rounds Parser.moreItems do
    let item ← item
    Parser.endLine
    return item
  return ⟨items⟩

/-! ## Following the parsers of clauses -/

/-- Counting the levels of a line of conditions follows it. -/
theorem follows_conditionLine : Follows 0 0 conditionLine Parser.conditionLine :=
  follows_expr.bind fun _ => .lift_bind (Parser.keepsGroups_accept _) fun _ =>
    .lift_bind Parser.keepsGroups_endLine fun _ => .pure _

/-- Counting the levels of conditions follows them. -/
theorem follows_conditions : Follows 0 0 conditions Parser.conditions := by
  refine .lift_bind Parser.keepsGroups_isBlockHere fun _ => .ite ?_ (follows_commaSeparated follows_expr)
  refine .lift_bind Parser.keepsGroups_advance fun _ => .lift_bind Parser.keepsGroups_advance fun _ => ?_
  refine follows_conditionLine.bind fun _ => ?_
  exact (follows_rounds Parser.keepsGroups_moreLines follows_conditionLine).bind fun _ => .pure _

/-- Counting the levels of a clause follows the clause, whatever its scope is. -/
theorem follows_whereClause {scope : Parser Scope} (hscope : scope.KeepsGroups) :
    Follows 0 0 (whereClause scope) (Parser.whereClause scope) := by
  refine .lift_bind Parser.keepsGroups_start fun start => .lift_bind (Parser.keepsGroups_expect _) fun _ => ?_
  refine follows_conditions.bind fun conditions => .lift_bind hscope fun scope => ?_
  exact .spanned _ _

/-! ## Following the parsers of declarations -/

/-- Counting the levels of a field follows the field. -/
theorem follows_fieldDecl : Follows 0 0 fieldDecl Parser.fieldDecl := by
  refine .lift_bind Parser.keepsGroups_start fun start => .lift_bind Parser.keepsGroups_acceptLabel fun name => ?_
  exact follows_type.bind fun type => .spanned _ _

/-- Counting the levels of a constructor follows the constructor. -/
theorem follows_ctorDecl : Follows 0 0 ctorDecl Parser.ctorDecl := by
  refine .lift_bind Parser.keepsGroups_start fun start => .lift_bind (Parser.keepsGroups_expectName _) fun name => ?_
  refine .lift_bind (Parser.keepsGroups_expect _) fun _ => ?_
  refine (follows_separatedUntil _ follows_fieldDecl).bind fun fields => ?_
  refine .lift_bind (Parser.keepsGroups_spanFrom _) fun span => ?_
  refine .lift_bind (Parser.keepsGroups_isAt _) fun _ => .ite ?_ ?_
  · exact (follows_whereClause (.pure _)).map.bind fun _ => .pure _
  · exact .lift_bind (.pure none) fun _ => .pure _

/-- Counting the levels of constructors in one line follows them. -/
theorem follows_alternatives : Follows 0 0 alternatives Parser.alternatives := by
  refine .lift_bind (Parser.keepsGroups_accept _) fun _ => follows_ctorDecl.bind fun first => ?_
  refine (follows_rounds (Parser.keepsGroups_accept _) ?_).bind fun others => ?_
  · exact .lift_bind Parser.keepsGroups_skipNewlinesInGroup fun _ => follows_ctorDecl
  refine .lift_bind (Parser.keepsGroups_isAt _) fun _ => .lift_bind (Parser.keepsGroups_isAt _) fun _ => ?_
  refine .ite ?_ (.pure _)
  generalize Parser.takeLastInline (first :: others) = found
  rcases found with _ | ⟨ctors, clause⟩
  · exact .lift (Parser.keepsGroups_failExpecting _)
  · refine .lift_bind Parser.keepsGroups_scope fun scope => ?_
    exact .spanned _ _

/-- Counting the levels of a line of a type follows it. -/
theorem follows_typeLine : Follows 0 0 typeLine Parser.typeLine := by
  refine .lift_bind (Parser.keepsGroups_isAt _) fun _ => .ite ?_ ?_
  · refine (follows_whereClause Parser.keepsGroups_scopeAfterClause).bind fun clause => ?_
    exact .lift_bind (.pure _) fun _ => .lift_bind Parser.keepsGroups_endLine fun _ => .pure _
  · exact follows_alternatives.bind fun _ => .lift_bind Parser.keepsGroups_endLine fun _ => .pure _

/-- Counting the levels of the lines of a type follows them. -/
theorem follows_typeLines : Follows 0 0 typeLines Parser.typeLines := by
  refine (follows_rounds Parser.keepsGroups_moreLines follows_typeLine).bind fun lines => .ite ?_ (.pure _)
  exact .lift_bind (Parser.keepsGroups_failExpecting _) fun _ => .pure _

/-- Counting the levels of a declaration follows the declaration. -/
theorem follows_typeDecl : Follows 0 0 typeDecl Parser.typeDecl := by
  refine .lift_bind Parser.keepsGroups_start fun start => .lift_bind (Parser.keepsGroups_expect _) fun _ => ?_
  refine .lift_bind (Parser.keepsGroups_expectName _) fun name => ?_
  have hparam : Follows 0 0 _ (Parser.expectName .typeName) := .lift (Parser.keepsGroups_expectName _)
  refine (follows_rounds Parser.keepsGroups_moreParameters hparam).bind fun params => ?_
  have hclause := follows_whereClause Parser.keepsGroups_scopeAfterClause
  -- the clauses behind the constructors
  have hmore (layout : CtorLayout) (ctors : List CtorDecl) (clauses : List WhereClause) : Follows 0 0
      (do
        let more ← rounds Parser.moreClauses (whereClause Parser.scopeAfterClause)
        return TypeDecl.mk name params layout ctors (clauses ++ more) (← Parser.spanFrom start))
      (do
        let more ← Parser.rounds Parser.moreClauses (Parser.whereClause Parser.scopeAfterClause)
        return ⟨name, params, layout, ctors, clauses ++ more, ← Parser.spanFrom start⟩) :=
    (follows_rounds Parser.keepsGroups_moreClauses hclause).bind fun _ =>
      .spanned _ _
  refine .lift_bind (Parser.keepsGroups_expect _) fun _ => .lift_bind Parser.keepsGroups_isBlockHere fun _ => .ite ?_ ?_
  · refine .lift_bind Parser.keepsGroups_advance fun _ => .lift_bind Parser.keepsGroups_advance fun _ => ?_
    refine follows_typeLines.bind fun body => .lift_bind (.pure (CtorLayout.lines, body)) ?_
    rintro ⟨layout, ctors, clauses⟩
    exact hmore layout ctors clauses
  · refine follows_alternatives.bind fun body => .lift_bind (.pure (CtorLayout.piped, body)) ?_
    rintro ⟨layout, ctors, clauses⟩
    exact hmore layout ctors clauses

/-! ## Following the parsers of items -/

/-- Counting the levels of a rule follows the rule. -/
theorem follows_ruleDecl (template : Template) : Follows 0 0 (ruleDecl template) (Parser.ruleDecl template) := by
  refine .lift_bind Parser.keepsGroups_start fun start => .lift_bind Parser.keepsGroups_advance fun _ => ?_
  refine .lift_bind (Parser.keepsGroups_expect _) fun _ => .lift_bind Parser.keepsGroups_kind fun found => ?_
  refine follows_expr.bind fun target => ?_
  cases target with
  | call =>
    refine .lift_bind (Parser.keepsGroups_accept _) fun _ => .ite ?_ ?_
    · refine (follows_commaSeparated follows_expr).bind fun guards => ?_
      exact .spanned _ _
    · exact .lift_bind (.pure []) fun _ => .spanned _ _
  | _ => exact .lift (.throw _)

/-- Counting the levels of a binding follows the binding. -/
theorem follows_binding : Follows 0 0 binding Parser.binding := by
  refine .lift_bind Parser.keepsGroups_start fun start => .lift_bind (Parser.keepsGroups_expectName _) fun name => ?_
  -- the value, behind a type or not
  have hvalue (type : Option TypeExpr) : Follows 0 0
      (do
        Parser.expect (.mark .define)
        let value ← data
        return Binding.mk name type value (← Parser.spanFrom start))
      (do
        Parser.expect (.mark .define)
        let value ← Parser.data
        return ⟨name, type, value, ← Parser.spanFrom start⟩) :=
    .lift_bind (Parser.keepsGroups_expect _) fun _ => follows_data.bind fun value =>
      .spanned _ _
  refine .lift_bind (Parser.keepsGroups_accept _) fun _ => .ite ?_ ?_
  · exact follows_type.map.bind hvalue
  · exact .lift_bind (.pure none) hvalue

/-- Counting the levels of an item that begins with a name follows the item. -/
theorem follows_namedItem : Follows 0 0 namedItem Parser.namedItem := by
  refine .lift_bind (Parser.keepsGroups_isAhead _) fun _ => .ite follows_binding.map ?_
  refine .lift_bind (Parser.keepsGroups_isAhead _) fun _ => .lift_bind (Parser.keepsGroups_isFurtherAhead _) fun _ => ?_
  exact .ite follows_binding.map follows_data.map

/-- Counting the levels of an item follows the item. -/
theorem follows_item : Follows 0 0 item Parser.item := by
  refine .lift_bind Parser.keepsGroups_kind fun kind => ?_
  cases kind with
  | keyword word =>
    cases word with
    | type => exact follows_typeDecl.map
    | _ => exact follows_data.map
  | string template =>
    exact .lift_bind (Parser.keepsGroups_isAhead _) fun _ => .ite (follows_ruleDecl template).map follows_data.map
  | name => exact follows_namedItem
  | indent => exact .lift (Parser.keepsGroups_failExpecting _)
  | _ => exact follows_data.map

/-- **Counting the levels of a document follows the document:** it is parsed in the same way, and every level that is
entered is left. -/
theorem follows_document : Follows 0 0 document Parser.document := by
  refine (follows_rounds Parser.keepsGroups_moreItems ?_).bind fun _ => .pure _
  exact follows_item.bind fun _ => .lift_bind Parser.keepsGroups_endLine fun _ => .pure _

/-! ## Calls from outside -/

/-- What a text is read for. -/
inductive Call where
  | expr
  | data
  | type
  | document

namespace Call

/-- What a call gives. -/
def Tree : Call → Type
  | expr => Expr
  | data => Data
  | type => TypeExpr
  | document => Document

/-- The call with a counter. -/
def counting : (call : Call) → Counting call.Tree
  | expr => Counting.expr
  | data => Counting.data
  | type => Counting.type
  | document => Counting.document

/-- The call with all levels left. -/
def parser : (call : Call) → Parser call.Tree
  | expr => Parser.exprWithin maxNesting 0
  | data => Parser.dataWithin maxNesting
  | type => Parser.typeWithin maxNesting
  | document => Parser.document

/-- A call that starts at no depth does what it does with all levels left. -/
theorem follows (call : Call) : Follows 0 0 call.counting call.parser := by
  cases call with
  | expr => exact follows_expr
  | data => exact follows_data
  | type => exact follows_type
  | document => exact follows_document

end Call

/-- Where calls from outside may start: at the first token, and wherever an earlier call has stopped, for whatever
reason. -/
inductive Reached (tokens : List Token) : Counted → Prop
  | start : Reached tokens ⟨.ofTokens tokens, 0⟩
  | call {s : Counted} (call : Call) : Reached tokens s → Reached tokens (call.counting.outcome s).2

variable {tokens : List Token} {s : Counted}

/-- Between calls no level is open. -/
theorem Reached.depth_eq_zero (h : Reached tokens s) : s.depth = 0 := by
  induction h with
  | start => rfl
  | @call s call _ ih =>
    obtain ⟨c, depth⟩ := s
    obtain rfl : depth = 0 := ih
    exact call.follows.restores c (.inl (Nat.zero_lt_succ _))

/-- **The counters of nesting are balanced.**  Wherever a call from outside starts, the counter stands afterwards where
it stood before, whether the call succeeds or fails, and if it succeeds then as many groups are open as before.  So what
a call gives, and where it stops, does not depend on the levels that were opened before it: it is what the parser gives
that has all levels left. -/
theorem nesting_balanced (h : Reached tokens s) (call : Call) :
    (call.counting.outcome s).2.depth = s.depth ∧
      (∀ tree, (call.counting.outcome s).1 = .ok tree → (call.counting.outcome s).2.cursor.groups = s.cursor.groups) ∧
      ((call.counting.outcome s).1, (call.counting.outcome s).2.cursor) = call.parser.outcome s.cursor := by
  have hafter := (h.call call).depth_eq_zero
  refine ⟨hafter.trans h.depth_eq_zero.symm, ?_⟩
  obtain ⟨c, depth⟩ := s
  obtain rfl : depth = 0 := h.depth_eq_zero
  obtain ⟨⟨depth', hsame⟩, hgroups⟩ := call.follows.agrees c (Nat.zero_le _)
  rw [hsame]
  exact ⟨fun tree htree => hgroups tree _ (Prod.ext htree rfl), rfl⟩

/-- As many groups inside one another as there are levels, and a value that would be a level too many in them. -/
def crowded : List Token :=
  List.replicate maxNesting ⟨.mark .leftParen, .zero⟩ ++ [⟨.keyword .null, .zero⟩, ⟨.eof, .zero⟩]

/-- An expression fails for its depth and leaves its groups open; the value where it failed can be read then. -/
theorem nesting_balanced_crowded : ∃ s, Reached crowded s ∧ s.cursor.groups = maxNesting ∧
    ((Call.expr.counting.outcome ⟨.ofTokens crowded, 0⟩).1.map fun _ => ()) = .error (.tooDeep .zero) ∧
    (Call.data.counting.outcome s).1.isOk ∧ (Call.data.counting.outcome s).2.depth = s.depth ∧
    (∀ tree, (Call.data.counting.outcome s).1 = .ok tree →
      (Call.data.counting.outcome s).2.cursor.groups = s.cursor.groups) ∧
    ((Call.data.counting.outcome s).1, (Call.data.counting.outcome s).2.cursor) =
      Call.data.parser.outcome s.cursor := by
  have hreached : Reached crowded (Call.expr.counting.outcome ⟨.ofTokens crowded, 0⟩).2 := Reached.start.call .expr
  have hgroups : (Call.expr.counting.outcome ⟨.ofTokens crowded, 0⟩).2.cursor.groups = maxNesting := by decide +kernel
  have hdeep : ((Call.expr.counting.outcome ⟨.ofTokens crowded, 0⟩).1.map fun _ => ()) = .error (.tooDeep .zero) := by
    decide +kernel
  have hread : (Call.data.counting.outcome (Call.expr.counting.outcome ⟨.ofTokens crowded, 0⟩).2).1.isOk := by
    decide +kernel
  exact ⟨_, hreached, hgroups, hdeep, hread, nesting_balanced hreached .data⟩

end Counting

end TypedData
