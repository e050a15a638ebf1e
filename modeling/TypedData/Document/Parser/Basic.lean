import TypedData.Document.Error

/-!
# Parsers

A parser reads tokens from a `Cursor`.  A cursor always stands at a token, the last of them being the
end of the text, which is never passed.  When a parser fails, the cursor stays where it failed.

Repetitions ask before each round whether there is another one.  Every round of a repetition in this
library passes a token, so the number of tokens bounds the number of rounds.
-/

namespace TypedData

/-- A place in a sequence of tokens. -/
structure Cursor where
  /-- The token that was passed last. -/
  previous : Option Token
  current : Token
  upcoming : List Token
  /-- How many groups of an expression are open; line breaks inside them mean nothing. -/
  groups : Nat

namespace Cursor

/-- The beginning of a sequence of tokens. -/
def ofTokens : List Token → Cursor
  | [] => ⟨none, ⟨.eof, .zero⟩, [], 0⟩
  | token :: tokens => ⟨none, token, tokens, 0⟩

/-- Passes a token, unless it is the last. -/
def advance (c : Cursor) : Cursor :=
  match c.upcoming with
  | [] => c
  | token :: tokens => { c with previous := some c.current, current := token, upcoming := tokens }

/-- The kind of the token here. -/
def kind (c : Cursor) : TokenKind := c.current.kind

/-- The kind of the token after this one. -/
def kindAhead? (c : Cursor) : Option TokenKind := c.upcoming[0]?.map Token.kind

/-- The kind of the second token after this one. -/
def kindFurtherAhead? (c : Cursor) : Option TokenKind := c.upcoming[1]?.map Token.kind

/-- The offset where the token here starts. -/
def start (c : Cursor) : Nat := c.current.span.start

/-- The offset where the token before this one ends. -/
def lastEnd (c : Cursor) : Nat := (c.previous.map (·.span.stop)).getD 0

/-- The cursor after the newlines that start with the given tokens. -/
def skipNewlinesFrom (groups : Nat) (previous : Option Token) (current : Token) :
    List Token → Cursor
  | [] => ⟨previous, current, [], groups⟩
  | token :: tokens =>
    if current.kind = .newline then skipNewlinesFrom groups (some current) token tokens
    else ⟨previous, current, token :: tokens, groups⟩

/-- Passes the newlines here. -/
def skipNewlines (c : Cursor) : Cursor := skipNewlinesFrom c.groups c.previous c.current c.upcoming

end Cursor

/-- A parser of things of type `α`. -/
abbrev Parser (α : Type) := ExceptT ParseError (StateM Cursor) α

namespace Parser

/-- Fails at the token here. -/
def failExpecting {α : Type} (expected : Expectation) : Parser α := do
  let c ← get
  if c.kind = .eof then throw (.unexpectedEnd expected ⟨c.start, c.start⟩)
  else throw (.unexpectedToken expected c.kind c.current.span)

/-- Fails because the token here would be nested too deeply. -/
def failTooDeep {α : Type} : Parser α := do throw (.tooDeep (← get).current.span)

/-- Passes the token here. -/
def advance : Parser Unit := modify Cursor.advance

/-- Passes any newlines. -/
def skipNewlines : Parser Unit := modify Cursor.skipNewlines

/-- Passes any newlines, inside a group. -/
def skipNewlinesInGroup : Parser Unit :=
  modify fun c => if 0 < c.groups then c.skipNewlines else c

/-- The kind of the token here. -/
def kind : Parser TokenKind := return (← get).kind

/-- Whether the token here is of a kind. -/
def isAt (kind : TokenKind) : Parser Bool := return (← get).kind = kind

/-- Whether the next token is of a kind. -/
def isAhead (kind : TokenKind) : Parser Bool := return (← get).kindAhead? = some kind

/-- Whether the second token after this one is of a kind. -/
def isFurtherAhead (kind : TokenKind) : Parser Bool :=
  return (← get).kindFurtherAhead? = some kind

/-- Passes the token here if it is of a kind, and says whether it was. -/
def accept (kind : TokenKind) : Parser Bool := do
  if ← isAt kind then
    advance
    return true
  else return false

/-- Passes a token of a kind. -/
def expect (kind : TokenKind) : Parser Unit := do
  unless ← accept kind do failExpecting (.token kind)

/-- Passes a name. -/
def expectName (expected : Expectation) : Parser String := do
  match ← kind with
  | .name text =>
    advance
    return text
  | _ => failExpecting expected

/-- The span from an offset to the end of the token passed last. -/
def spanFrom (start : Nat) : Parser Span := return ⟨start, (← get).lastEnd⟩

/-- The offset where the token here starts. -/
def start : Parser Nat := return (← get).start

/-- Rounds of `item`, as long as `more` says so, but no more than `fuel`. -/
def roundsUpTo {α : Type} (fuel : Nat) (more : Parser Bool) (item : Parser α) :
    Parser (List α) :=
  match fuel with
  | 0 => return []
  | fuel + 1 => do
    if ← more then
      let first ← item
      return first :: (← roundsUpTo fuel more item)
    else return []

/-- Rounds of `item`, as long as `more` says so. -/
def rounds {α : Type} (more : Parser Bool) (item : Parser α) : Parser (List α) := do
  roundsUpTo ((← get).upcoming.length + 2) more item

/-- Passes a separator inside brackets: a comma or line breaks or both.  Says whether there was
one. -/
def acceptSeparator : Parser Bool := do
  let broken ← isAt .newline
  skipNewlines
  if ← accept (.mark .comma) then
    skipNewlines
    return true
  else return broken

/-- Items with separators between them, up to a closing bracket, which is passed. -/
def separatedUntil {α : Type} (close : Mark) (item : Parser α) : Parser (List α) := do
  skipNewlines
  let items ← rounds (return !(← isAt (.mark close))) do
    let item ← item
    unless (← acceptSeparator) || (← isAt (.mark close)) do failExpecting (.separatorOr close)
    return item
  expect (.mark close)
  return items

/-- One or more items with commas between them. -/
def commaSeparated {α : Type} (item : Parser α) : Parser (List α) := do
  let first ← item
  return first :: (← rounds (accept (.mark .comma)) item)

/-- Passes the end of a line.  A line also ends where a block ended or ends. -/
def endLine : Parser Unit := do
  unless ← accept .newline do
    let c ← get
    unless c.previous.map Token.kind = some .dedent || c.kind = .dedent || c.kind = .eof do
      failExpecting .lineEnd

/-- Whether another line of a block follows.  The mark of the block's end is passed. -/
def moreLines : Parser Bool := do
  if ← accept .dedent then return false
  else return !(← isAt .eof)

/-- The name of a field in front of an argument, and the colon after it. -/
def acceptLabel : Parser (Option String) := do
  match ← kind with
  | .name text =>
    if ← isAhead (.mark .colon) then
      advance
      advance
      return some text
    else return none
  | _ => return none

end Parser

end TypedData
