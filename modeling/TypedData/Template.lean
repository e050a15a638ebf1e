import TypedData.Text.Word
import TypedData.Text.Escaped

/-!
# Templates

A text literal may hold placeholders: a name between braces.  As data such a literal is just its
`Template.text`; as the left side of a pattern rule its pieces count.  A brace that is neither escaped
nor part of a placeholder is kept as a piece of its own, so that a rule can refuse it.
-/

namespace TypedData

/-- A piece of a text literal. -/
inductive Piece where
  | text (text : String)
  /-- A placeholder, written as a name between braces. -/
  | slot (name : String)
  /-- A brace that belongs to no placeholder and is not escaped. -/
  | stray (brace : Char)
deriving DecidableEq, Repr

namespace Piece

/-- The piece as data. -/
def asText : Piece → String
  | text t => t
  | slot name => "\x7b" ++ name ++ "\x7d"
  | stray brace => String.singleton brace

/-- The piece as it is written in a document. -/
def print : Piece → String
  | text t => escaped t
  | slot name => "\x7b" ++ name ++ "\x7d"
  | stray brace => String.singleton brace

end Piece

/-- A text literal, as the pieces between its quotes. -/
structure Template where
  pieces : List Piece
deriving DecidableEq, Repr

namespace Template

/-- The literal as data. -/
def text (t : Template) : String := String.join (t.pieces.map Piece.asText)

/-- The literal of a text without placeholders. -/
def plain (text : String) : Template := ⟨if text = "" then [] else [.text text]⟩

/-- The literal as it is written in a document. -/
def print (t : Template) : String := "\"" ++ String.join (t.pieces.map Piece.print) ++ "\""

end Template

namespace Piece

/-- Puts a character in front of the pieces. -/
def pushChar (c : Char) : List Piece → List Piece
  | .text t :: pieces => .text (String.singleton c ++ t) :: pieces
  | pieces => .text (String.singleton c) :: pieces

/-- Puts an opening brace in front of the pieces.  It opens a placeholder when a word and a closing
brace follow. -/
def pushOpening : List Piece → List Piece
  | .text t :: .stray '}' :: pieces =>
    if isWord t.toList then .slot t :: pieces
    else .stray '{' :: .text t :: .stray '}' :: pieces
  | pieces => .stray '{' :: pieces

/-- Puts a closing brace in front of the pieces. -/
def pushClosing (pieces : List Piece) : List Piece := .stray '}' :: pieces

end Piece

end TypedData
