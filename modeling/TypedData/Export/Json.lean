import TypedData.Export.Tree
import TypedData.Number.Layout
import TypedData.Document.Printer
import TypedData.Text.Hexadecimal

/-!
# Trees as JSON

Each item and each member stands on a line of its own, two spaces further in than the brackets around
it.  Empty lists and maps are written as a pair of brackets.  The text does not end with a line feed.
-/

namespace TypedData

namespace Json

/-- How a character is written between quotes.  Only quotes, backslashes and control characters need
an escape, and five of the latter have a letter. -/
def escapeChar (c : Char) : List Char :=
  if c = '"' || c = '\\' then ['\\', c]
  else if c = '\n' then ['\\', 'n']
  else if c = '\r' then ['\\', 'r']
  else if c = '\t' then ['\\', 't']
  else if c.toNat = 0x08 then ['\\', 'b']
  else if c.toNat = 0x0C then ['\\', 'f']
  else if c.toNat < 0x20 then '\\' :: 'u' :: hexDigits 4 c.toNat
  else [c]

/-- How a text is written. -/
def string (text : String) : String :=
  "\"" ++ String.ofList (text.toList.flatMap escapeChar) ++ "\""

/-- The spaces before a line that stands inside `depth` brackets. -/
def indentation (depth : Nat) : String := String.ofList (List.replicate (2 * depth) ' ')

/-- Parts between brackets, which stand inside `depth` others. -/
def bracketed (opening closing : String) (depth : Nat) (parts : List String) : String :=
  if parts.isEmpty then opening ++ closing
  else
    opening ++ "\n"
      ++ String.intercalate ",\n" (parts.map fun part => indentation (depth + 1) ++ part)
      ++ "\n" ++ indentation depth ++ closing

mutual

/-- How a tree is written inside `depth` brackets. -/
def render (depth : Nat) : PlainTree → String
  | .null => "null"
  | .bool b => boolText b
  | .int n => n.text
  | .float x => x.text .json
  | .str text => string text
  | .list items => bracketed "[" "]" depth (renderItems (depth + 1) items)
  | .map members => bracketed "\x7b" "\x7d" depth (renderMembers (depth + 1) members)

/-- How the items of a list are written. -/
def renderItems (depth : Nat) : List PlainTree → List String
  | [] => []
  | t :: ts => render depth t :: renderItems depth ts

/-- How the members of a map are written. -/
def renderMembers (depth : Nat) : List (Member PlainTree) → List String
  | [] => []
  | ⟨key, t⟩ :: members =>
    (string key ++ ": " ++ render depth t) :: renderMembers depth members

end

end Json

/-- A tree as JSON. -/
def PlainTree.toJson (t : PlainTree) : String := Json.render 0 t

end TypedData
