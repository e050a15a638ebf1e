import TypedData.Document.Parser.Basic
import TypedData.Document.Tree

/-!
# Parsing data

Data is nested at most `maxNesting` deep.  A value after a key is either data on the same line or a
block on the lines below; a block takes one level, like any value.
-/

namespace TypedData

namespace Parser

/-- A key: a name or a text. -/
def key : Parser String := do
  match ← kind with
  | .name text =>
    advance
    return text
  | .string template =>
    advance
    return template.text
  | _ => failExpecting .key

/-- A key, a colon and a value. -/
def entry (value : Parser Data) : Parser (Entry Data) := do
  let start ← start
  let key ← key
  expect (.mark .colon)
  let value ← value
  return ⟨key, ← spanFrom start, value⟩

/-- An argument of a constructor, perhaps with its name. -/
def dataArgument (value : Parser Data) : Parser (Argument Data) := do
  let name ← acceptLabel
  return ⟨name, ← value⟩

/-- A use of a bound name. -/
def reference : Parser (String × List String) := do
  expect (.mark .bang)
  let name ← expectName .bindingName
  let path ← rounds (accept (.mark .dot)) (expectName .fieldName)
  return (name, path)

/-- Entries, one a line, up to the end of their block.  Their values are read by `value`. -/
def entryLines (value : Parser Data) : Parser (List (Entry Data)) :=
  rounds moreLines do
    let entry ← entry value
    endLine
    return entry

/-- Whether an item after a dash starts with a key. -/
def isEntryAhead : Parser Bool := do
  match ← kind with
  | .name _ | .string _ => isAhead (.mark .colon)
  | _ => return false

/-- An item after a dash: a record with further entries under it, or data. -/
def dashItem (item value : Parser Data) : Parser Data := do
  let start ← start
  expect (.mark .minus)
  if ← isEntryAhead then
    let first ← entry value
    endLine
    let more ← if ← accept .indent then entryLines value else pure []
    return .dashRecord (← spanFrom start) (first :: more)
  else
    let item ← item
    endLine
    return item

/-- Items after dashes, one a line, up to the end of their block. -/
def dashItems (item value : Parser Data) : Parser (List Data) :=
  rounds moreLines (dashItem item value)

/-- A block under a key. -/
def block (item value : Parser Data) : Parser Data := do
  let start ← start
  advance
  expect .indent
  if ← isAt (.mark .minus) then
    let items ← dashItems item value
    return .dashList (← spanFrom start) items
  else
    let entries ← entryLines value
    return .fieldBlock (← spanFrom start) entries

/-- What follows the name of a constructor: arguments, a block, or nothing. -/
def constructorForm (start : Nat) (ctor : String) (item value : Parser Data) : Parser Data := do
  if ← isAhead (.mark .leftParen) then
    advance
    expect (.mark .leftParen)
    let args ← separatedUntil .rightParen (dataArgument item)
    return .call (← spanFrom start) ctor args
  else if (← isAhead (.mark .colon)) && (← isFurtherAhead .newline) then
    advance
    advance
    advance
    expect .indent
    if ← isAt (.mark .minus) then
      let items ← dashItems item value
      return .listBlock (← spanFrom start) ctor items
    else
      let entries ← entryLines value
      return .ctorBlock (← spanFrom start) ctor entries
  else
    advance
    return .call (← spanFrom start) ctor []

/-- Data whose parts are read by `item`, or by `value` after a key on a line of a block. -/
def dataForm (item value : Parser Data) : Parser Data := do
  let start ← start
  match ← kind with
  | .string template =>
    advance
    return .str (← spanFrom start) template.text
  | .int n =>
    advance
    return .int (← spanFrom start) n
  | .float x =>
    advance
    return .float (← spanFrom start) x
  | .keyword .true =>
    advance
    return .bool (← spanFrom start) true
  | .keyword .false =>
    advance
    return .bool (← spanFrom start) false
  | .keyword .null =>
    advance
    return .null (← spanFrom start)
  | .mark .leftBracket =>
    advance
    let items ← separatedUntil .rightBracket item
    return .list (← spanFrom start) items
  | .mark .leftBrace =>
    advance
    let entries ← separatedUntil .rightBrace (entry item)
    return .record (← spanFrom start) entries
  | .mark .bang =>
    let (name, path) ← reference
    return .reference (← spanFrom start) name path
  | .name ctor => constructorForm start ctor item value
  | _ => failExpecting .value

mutual

/-- Data nested at most `levels` deep. -/
def dataWithin : (levels : Nat) → Parser Data
  | 0 => failTooDeep
  | levels + 1 => dataForm (dataWithin levels) (valueWithin levels)

/-- A value after a key on a line of a block, nested at most `levels` deep. -/
def valueWithin : (levels : Nat) → Parser Data
  | 0 => failTooDeep
  | levels + 1 => do
    if ← isAt .newline then block (dataWithin levels) (valueWithin levels)
    else dataForm (dataWithin levels) (valueWithin levels)

end

/-- Data. -/
def data : Parser Data := dataWithin maxNesting

end Parser

end TypedData
