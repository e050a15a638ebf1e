import TypedData.Document.Parser.Data
import TypedData.Document.Parser.Expr

/-!
# Parsing items and documents

An item is recognised by its first tokens: the word `type`, a text before an arrow, a name before
`:=` or before a colon with a type on the same line; anything else is data.
-/

namespace TypedData

namespace Parser

/-! ## Clauses -/

/-- The names of constructors: between braces, or with commas between them. -/
def constructorNames : Parser (List String) := do
  if ← accept (.mark .leftBrace) then separatedUntil .rightBrace (expectName .constructorName)
  else commaSeparated (expectName .constructorName)

/-- The scope of a clause. -/
def scope : Parser Scope := do
  if ← accept (.keyword .for) then return .only (← constructorNames)
  else if ← accept (.keyword .except) then return .except (← constructorNames)
  else return .all

/-- A condition on a line of its own. -/
def conditionLine : Parser Expr := do
  let condition ← expr
  let _ ← accept (.mark .comma)
  endLine
  return condition

/-- Whether a block of indented lines starts here. -/
def isBlockHere : Parser Bool := return (← isAt .newline) && (← isAhead .indent)

/-- The conditions of a clause: in one line, or one a line in a block. -/
def conditions : Parser (List Expr) := do
  if ← isBlockHere then
    advance
    advance
    let first ← conditionLine
    return first :: (← rounds moreLines conditionLine)
  else commaSeparated expr

/-- The scope of a clause, perhaps on the next line. -/
def scopeAfterClause : Parser Scope := do
  if (← isAt .newline) && ((← isAhead (.keyword .for)) || (← isAhead (.keyword .except))) then
    advance
  scope

/-- A clause, whose scope is read by `scope`. -/
def whereClause (scope : Parser Scope) : Parser WhereClause := do
  let start ← start
  expect (.keyword .where)
  let conditions ← conditions
  let scope ← scope
  return ⟨conditions, scope, ← spanFrom start⟩

/-! ## Types -/

/-- A field of a constructor. -/
def fieldDecl : Parser FieldDecl := do
  let start ← start
  let name ← acceptLabel
  let type ← type
  return ⟨name, type, ← spanFrom start⟩

/-- A constructor, perhaps with conditions directly after it. -/
def ctorDecl : Parser CtorDecl := do
  let start ← start
  let name ← expectName .constructorName
  expect (.mark .leftBrace)
  let fields ← separatedUntil .rightBrace fieldDecl
  let span ← spanFrom start
  let inlineWhere ←
    if ← isAt (.keyword .where) then some <$> whereClause (return .all) else pure none
  return ⟨name, fields, inlineWhere, span⟩

/-- Takes the conditions away from the last constructor. -/
def takeLastInline : List CtorDecl → Option (List CtorDecl × WhereClause)
  | [] => none
  | [ctor] => ctor.inlineWhere.map fun clause => ([{ ctor with inlineWhere := none }], clause)
  | ctor :: ctors => (takeLastInline ctors).map fun (rest, clause) => (ctor :: rest, clause)

/-- Constructors with bars between them.  A scope after the conditions of the last one makes those
conditions a clause of the type. -/
def alternatives : Parser (List CtorDecl × List WhereClause) := do
  let _ ← accept (.mark .bar)
  let first ← ctorDecl
  let others ← rounds (accept (.mark .bar)) do
    skipNewlinesInGroup
    ctorDecl
  let ctors := first :: others
  if (← isAt (.keyword .for)) || (← isAt (.keyword .except)) then
    match takeLastInline ctors with
    | none => failExpecting .constructorOrLineEnd
    | some (ctors, clause) =>
      let scope ← scope
      return (ctors, [{ clause with scope := scope, span := ← spanFrom clause.span.start }])
  else return (ctors, [])

/-- A line of the block of a type: a clause, or constructors. -/
def typeLine : Parser (List CtorDecl × List WhereClause) := do
  let line ←
    if ← isAt (.keyword .where) then
      let clause ← whereClause scopeAfterClause
      pure ([], [clause])
    else alternatives
  endLine
  return line

/-- The lines of the block of a type. -/
def typeLines : Parser (List CtorDecl × List WhereClause) := do
  let lines ← rounds moreLines typeLine
  let ctors := lines.flatMap Prod.fst
  if ctors.isEmpty then failExpecting .constructor
  return (ctors, lines.flatMap Prod.snd)

/-- Whether a clause follows a type, here or on the next line. -/
def moreClauses : Parser Bool := do
  if (← isAt .newline) && (← isAhead (.keyword .where)) then advance
  isAt (.keyword .where)

/-- Whether another type parameter follows. -/
def moreParameters : Parser Bool := do
  match ← kind with
  | .name _ => return true
  | _ => return false

/-- The declaration of a type. -/
def typeDecl : Parser TypeDecl := do
  let start ← start
  expect (.keyword .type)
  let name ← expectName .typeName
  let params ← rounds moreParameters (expectName .typeName)
  expect (.mark .equals)
  let (layout, ctors, clauses) ←
    if ← isBlockHere then
      advance
      advance
      pure (CtorLayout.lines, ← typeLines)
    else pure (CtorLayout.piped, ← alternatives)
  let more ← rounds moreClauses (whereClause scopeAfterClause)
  return ⟨name, params, layout, ctors, clauses ++ more, ← spanFrom start⟩

/-! ## Rules, bindings and documents -/

/-- A rule for texts.  Its target has to be a call. -/
def ruleDecl (template : Template) : Parser RuleDecl := do
  let start ← start
  advance
  expect (.mark .arrow)
  let found ← kind
  let target ← expr
  match target with
  | .call .. =>
    let guards ← if ← accept (.keyword .where) then commaSeparated expr else pure []
    return ⟨template, target, guards, ← spanFrom start⟩
  | _ => throw (.unexpectedToken .constructorCall found target.span)

/-- A binding. -/
def binding : Parser Binding := do
  let start ← start
  let name ← expectName .bindingName
  let type ← if ← accept (.mark .colon) then some <$> type else pure none
  expect (.mark .define)
  let value ← data
  return ⟨name, type, value, ← spanFrom start⟩

/-- An item that starts with a name: a binding or data. -/
def namedItem : Parser Item := do
  if ← isAhead (.mark .define) then .binding <$> binding
  else if (← isAhead (.mark .colon)) && !(← isFurtherAhead .newline) then .binding <$> binding
  else .value <$> data

/-- An item. -/
def item : Parser Item := do
  match ← kind with
  | .keyword .type => .type <$> typeDecl
  | .string template =>
    if ← isAhead (.mark .arrow) then .rule <$> ruleDecl template else .value <$> data
  | .name _ => namedItem
  | .indent => failExpecting .declarationOrValue
  | _ => .value <$> data

/-- Whether another item follows; blank lines are passed. -/
def moreItems : Parser Bool := do
  skipNewlines
  return !(← isAt .eof)

/-- All items up to the end of the text. -/
def document : Parser Document := do
  let items ← rounds moreItems do
    let item ← item
    endLine
    return item
  return ⟨items⟩

end Parser

end TypedData
