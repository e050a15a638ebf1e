import TypedData.Proofs.Counting.Basic

/-!
# Counting the levels of types and expressions

A type opens a level.  So does an expression, and each field and binary operator of a chain opens another one, which
stays open until the whole chain has been read; the operands of the chain are read on top of that.

The number that the recursive parsers here are given bounds how many of them run inside one another.  Past it they would
complain about the token they stand at, which never happens: as many as there are levels are enough (`follows_typeUpTo`,
`follows_exprUpTo`).
-/

namespace TypedData

namespace Parser

/-- Looking for more arguments of a type keeps the groups. -/
theorem keepsGroups_moreTypeArguments : KeepsGroups moreTypeArguments := by
  refine keepsGroups_kind.bind fun kind => ?_
  cases kind with
  | mark mark => cases mark <;> exact .pure _
  | _ => exact .pure _

/-- Looking for an operator or a field keeps the groups. -/
theorem keepsGroups_continuation? (least : Nat) : KeepsGroups (continuation? least) := by
  refine keepsGroups_kind.bind fun kind => ?_
  split
  · exact .pure _
  · split <;> exact .pure _

end Parser

namespace Counting

/-! ## Types -/

/-- A type in parentheses. -/
def groupedType (type : Counting TypeExpr) : Counting TypeExpr := do
  Parser.expect (.mark .leftParen)
  Parser.skipNewlines
  let inner ← type
  Parser.skipNewlines
  Parser.expect (.mark .rightParen)
  return inner

/-- An argument of a type: a name, or a type in parentheses. -/
def typeArgument (type : Counting TypeExpr) : Counting TypeExpr := do
  match ← Parser.kind with
  | .name text =>
    let span := (← get).cursor.current.span
    Parser.advance
    return .named span text []
  | _ => groupedType type

/-- A type whose parts are read by `type`. -/
def typeForm (type : Counting TypeExpr) : Counting TypeExpr := do
  let start ← Parser.start
  match ← Parser.kind with
  | .keyword .optional =>
    Parser.advance
    let inner ← type
    return .optional (← Parser.spanFrom start) inner
  | .keyword .list =>
    Parser.advance
    let inner ← type
    return .list (← Parser.spanFrom start) inner
  | .mark .leftParen => groupedType type
  | .name text =>
    Parser.advance
    let args ← rounds Parser.moreTypeArguments (typeArgument type)
    return .named (← Parser.spanFrom start) text args
  | _ => Parser.failExpecting .type

/-- A type in which no more than `fuel` types stand inside one another. -/
def typeUpTo : (fuel : Nat) → Counting TypeExpr
  | 0 => Parser.failExpecting .type
  | fuel + 1 => nested (typeForm (typeUpTo fuel))

/-- A type. -/
def type : Counting TypeExpr := typeUpTo (maxNesting + 1)

/-! ## Expressions -/

/-- An argument of a call, perhaps with its name. -/
def callArgument (operand : Counting Expr) : Counting (Argument Expr) := do
  let name ← Parser.acceptLabel
  return ⟨name, ← operand⟩

/-- The arguments of a call, in parentheses. -/
def callArguments (operand : Counting Expr) : Counting (List (Argument Expr)) := do
  Parser.expect (.mark .leftParen)
  Parser.openGroup
  let args ← separatedUntil .rightParen (callArgument operand)
  Parser.closeGroup
  return args

/-- An expression without binary operators and fields, whose parts are read by `operand`. -/
def primary (operand : (least : Nat) → Counting Expr) : Counting Expr := do
  let start ← Parser.start
  match ← Parser.kind with
  | .int n =>
    Parser.advance
    return .int (← Parser.spanFrom start) n
  | .float x =>
    Parser.advance
    return .float (← Parser.spanFrom start) x
  | .string template =>
    Parser.advance
    return .str (← Parser.spanFrom start) template.text
  | .keyword .true =>
    Parser.advance
    return .bool (← Parser.spanFrom start) true
  | .keyword .false =>
    Parser.advance
    return .bool (← Parser.spanFrom start) false
  | .keyword .null =>
    Parser.advance
    return .null (← Parser.spanFrom start)
  | .name text =>
    Parser.advance
    if ← Parser.isAt (.mark .leftParen) then
      let args ← callArguments (operand 0)
      return .call (← Parser.spanFrom start) text args
    else return .name (← Parser.spanFrom start) text
  | .mark .leftParen =>
    Parser.advance
    Parser.openGroup
    let inner ← operand 0
    Parser.skipNewlinesInGroup
    Parser.expect (.mark .rightParen)
    Parser.closeGroup
    return inner
  | .mark .leftBracket =>
    Parser.advance
    Parser.openGroup
    let items ← separatedUntil .rightBracket (operand 0)
    Parser.closeGroup
    return .list (← Parser.spanFrom start) items
  | .keyword .not =>
    Parser.advance
    let inner ← operand Parser.notPower
    return .unary (← Parser.spanFrom start) .not inner
  | .mark .minus =>
    Parser.advance
    let inner ← operand Parser.negPower
    return .unary (← Parser.spanFrom start) .neg inner
  | _ => Parser.failExpecting .expression

mutual

/-- An expression of which at least the power `least` is demanded.  However many levels its chain opens, they are closed
together at its end. -/
def exprUpTo : (fuel least : Nat) → Counting Expr
  | 0, _ => Parser.failExpecting .expression
  | fuel + 1, least => restored do
    enter
    Parser.skipNewlinesInGroup
    let first ← primary (exprUpTo fuel)
    chainUpTo fuel least first

/-- What follows an operand: fields and binary operators, each of which opens a level. -/
def chainUpTo : (fuel least : Nat) → (lhs : Expr) → Counting Expr
  | 0, _, _ => Parser.failExpecting .expression
  | fuel + 1, least, lhs => do
    match ← Parser.continuation? least with
    | none => return lhs
    | some .field =>
      enter
      Parser.advance
      let name ← Parser.expectName .fieldName
      chainUpTo fuel least (.field (← Parser.spanFrom lhs.span.start) lhs name)
    | some (.binary op) =>
      enter
      Parser.advance
      let rhs ← exprUpTo fuel op.powers.2
      chainUpTo fuel least (.binary (lhs.span.through rhs.span) op lhs rhs)

end

/-- An expression. -/
def expr : Counting Expr := exprUpTo (maxNesting + 1) 0

/-! ## Following the parsers of types -/

variable {depth levels fuel : Nat}

section Types

variable {type : Counting TypeExpr} {type' : Parser TypeExpr} (htype : Follows depth 0 type type')

include htype

/-- Counting the levels of a type in parentheses follows it. -/
theorem follows_groupedType : Follows depth 0 (groupedType type) (Parser.groupedType type') :=
  .lift_bind (Parser.keepsGroups_expect _) fun _ => .lift_bind Parser.keepsGroups_skipNewlines fun _ =>
    htype.bind fun _ => .lift_bind Parser.keepsGroups_skipNewlines fun _ =>
      .lift_bind (Parser.keepsGroups_expect _) fun _ => .pure _

/-- Counting the levels of an argument of a type follows it. -/
theorem follows_typeArgument : Follows depth 0 (typeArgument type) (Parser.typeArgument type') := by
  refine .lift_bind Parser.keepsGroups_kind fun kind => ?_
  cases kind with
  | name text => exact .get_bind fun _ => .lift_bind Parser.keepsGroups_advance fun _ => .pure _
  | _ => exact follows_groupedType htype

/-- Counting the levels of a type follows it, if it does so for the types inside. -/
theorem follows_typeForm : Follows depth 0 (typeForm type) (Parser.typeForm type') := by
  refine .lift_bind Parser.keepsGroups_start fun start => .lift_bind Parser.keepsGroups_kind fun kind => ?_
  cases kind with
  | keyword word =>
    cases word with
    | optional | list =>
      refine .lift_bind Parser.keepsGroups_advance fun _ => htype.bind fun _ => ?_
      exact .spanned _ _
    | _ => exact .lift (Parser.keepsGroups_failExpecting _)
  | mark mark =>
    cases mark with
    | leftParen => exact follows_groupedType htype
    | _ => exact .lift (Parser.keepsGroups_failExpecting _)
  | name text =>
    refine .lift_bind Parser.keepsGroups_advance fun _ => ?_
    refine (follows_rounds Parser.keepsGroups_moreTypeArguments (follows_typeArgument htype)).bind fun args => ?_
    exact .spanned _ _
  | _ => exact .lift (Parser.keepsGroups_failExpecting _)

end Types

/-- With the levels that are left at a depth, the counter has run out where they have. -/
theorem follows_typeUpTo (hlevels : depth + levels = maxNesting) (hfuel : levels < fuel) :
    Follows depth 0 (typeUpTo fuel) (Parser.typeWithin levels) := by
  induction levels generalizing depth fuel with
  | zero =>
    obtain ⟨fuel, rfl⟩ := Nat.exists_eq_add_one_of_ne_zero (Nat.ne_zero_of_lt hfuel)
    exact follows_nested_tooDeep (Nat.le_of_eq hlevels.symm)
  | succ levels ih =>
    obtain ⟨fuel, rfl⟩ := Nat.exists_eq_add_one_of_ne_zero (Nat.ne_zero_of_lt hfuel)
    have hlevels : depth + 1 + levels = maxNesting := by omega
    exact follows_nested (by omega) (follows_typeForm (ih hlevels (Nat.lt_of_succ_lt_succ hfuel))).agrees

/-- Counting the levels of a type follows the type. -/
theorem follows_type : Follows 0 0 type Parser.type := follows_typeUpTo (Nat.zero_add _) (Nat.lt_succ_self _)

/-! ## Following the parsers of expressions -/

section Operands

variable {operand : Nat → Counting Expr} {operand' : Nat → Parser Expr}
  (hoperand : ∀ least, Follows depth 0 (operand least) (operand' least))

include hoperand

/-- Counting the levels of an argument of a call follows it. -/
theorem follows_callArgument : Follows depth 0 (callArgument (operand 0)) (Parser.callArgument (operand' 0)) :=
  .lift_bind Parser.keepsGroups_acceptLabel fun _ => (hoperand 0).bind fun _ => .pure _

/-- Counting the levels of the arguments of a call follows them. -/
theorem follows_callArguments : Follows depth 0 (callArguments (operand 0)) (Parser.callArguments (operand' 0)) := by
  refine .lift_bind (Parser.keepsGroups_expect _) fun _ => .openGroup_bind ?_
  refine (follows_separatedUntil _ (follows_callArgument hoperand)).bind fun args => ?_
  exact .closeGroup_bind (.pure _)

/-- Counting the levels of an operand follows it, if it does so for the expressions inside. -/
theorem follows_primary : Follows depth 0 (primary operand) (Parser.primary operand') := by
  refine .lift_bind Parser.keepsGroups_start fun start => .lift_bind Parser.keepsGroups_kind fun kind => ?_
  cases kind with
  | int | float | string => exact .token start _
  | name text =>
    refine .lift_bind Parser.keepsGroups_advance fun _ => .lift_bind (Parser.keepsGroups_isAt _) fun _ => .ite ?_ ?_
    · refine (follows_callArguments hoperand).bind fun args => ?_
      exact .spanned _ _
    · exact .spanned _ _
  | keyword word =>
    cases word with
    | true | false | null => exact .token start _
    | not =>
      refine .lift_bind Parser.keepsGroups_advance fun _ => (hoperand _).bind fun inner => ?_
      exact .spanned _ _
    | _ => exact .lift (Parser.keepsGroups_failExpecting _)
  | mark mark =>
    cases mark with
    | leftParen =>
      refine .lift_bind Parser.keepsGroups_advance fun _ => .openGroup_bind <| (hoperand 0).bind fun inner => ?_
      refine .lift_bind Parser.keepsGroups_skipNewlinesInGroup fun _ => ?_
      exact .lift_bind (Parser.keepsGroups_expect _) fun _ => .closeGroup_bind (.pure _)
    | leftBracket =>
      refine .lift_bind Parser.keepsGroups_advance fun _ => .openGroup_bind ?_
      refine (follows_separatedUntil _ (hoperand 0)).bind fun items => .closeGroup_bind ?_
      exact .spanned _ _
    | minus =>
      refine .lift_bind Parser.keepsGroups_advance fun _ => (hoperand _).bind fun inner => ?_
      exact .spanned _ _
    | _ => exact .lift (Parser.keepsGroups_failExpecting _)
  | _ => exact .lift (Parser.keepsGroups_failExpecting _)

end Operands

/-- With the levels that are left at a depth, an expression gives the levels of its chain back, and a chain does not. -/
theorem follows_exprUpTo_and_agrees_chainUpTo (hlevels : depth + levels = maxNesting) (hfuel : levels < fuel) :
    (∀ least, Follows depth 0 (exprUpTo fuel least) (Parser.exprWithin levels least)) ∧
      ∀ least lhs, Agrees depth 0 (chainUpTo fuel least lhs) (Parser.chainWithin levels least lhs) := by
  induction levels generalizing depth fuel with
  | zero =>
    have hdepth : maxNesting ≤ depth := Nat.le_of_eq hlevels.symm
    obtain ⟨fuel, rfl⟩ := Nat.exists_eq_add_one_of_ne_zero (Nat.ne_zero_of_lt hfuel)
    refine ⟨fun least => ?_, fun least lhs => ?_⟩
    · rw [exprUpTo, Parser.exprWithin]
      exact follows_restored (.enter_bind_tooDeep hdepth)
    · rw [chainUpTo, Parser.chainWithin]
      refine .bind (.lift (Parser.keepsGroups_continuation? least)) fun found => ?_
      rcases found with _ | _ | op
      · exact (Follows.pure _).agrees
      · exact .enter_bind_tooDeep hdepth
      · exact .enter_bind_tooDeep hdepth
  | succ levels ih =>
    have hdepth : depth < maxNesting := by omega
    obtain ⟨fuel, rfl⟩ := Nat.exists_eq_add_one_of_ne_zero (Nat.ne_zero_of_lt hfuel)
    have hlevels : depth + 1 + levels = maxNesting := by omega
    obtain ⟨hexpr, hchain⟩ := ih hlevels (Nat.lt_of_succ_lt_succ hfuel)
    refine ⟨fun least => ?_, fun least lhs => ?_⟩
    · rw [exprUpTo, Parser.exprWithin]
      refine follows_restored <| .enter_bind hdepth <| .bind (.lift Parser.keepsGroups_skipNewlinesInGroup) fun _ => ?_
      exact .bind (follows_primary hexpr) fun first => hchain least first
    · rw [chainUpTo, Parser.chainWithin]
      refine .bind (.lift (Parser.keepsGroups_continuation? least)) fun found => ?_
      rcases found with _ | _ | op
      · exact (Follows.pure _).agrees
      · refine .enter_bind hdepth <| .bind (.lift Parser.keepsGroups_advance) fun _ => ?_
        refine .bind (.lift (Parser.keepsGroups_expectName _)) fun name => ?_
        exact .bind (.lift (Parser.keepsGroups_spanFrom _)) fun span => hchain _ _
      · refine .enter_bind hdepth <| .bind (.lift Parser.keepsGroups_advance) fun _ => ?_
        exact .bind (hexpr _) fun rhs => hchain _ _

/-- Counting the levels of an expression follows the expression. -/
theorem follows_expr : Follows 0 0 expr Parser.expr :=
  (follows_exprUpTo_and_agrees_chainUpTo (Nat.zero_add _) (Nat.lt_succ_self _)).1 0

end Counting

end TypedData
