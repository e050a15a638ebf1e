/-!
# Texts in documents

The notation writes a text in double quotes.  Quotes, backslashes and braces take a backslash, and
line feed, carriage return and tab are written by their letters; everything else stands for itself.
Braces are escaped because a pair of them marks a placeholder.
-/

namespace TypedData

/-- How a document writes one character of a text. -/
def escapeChar (c : Char) : List Char :=
  if c = '"' then ['\\', '"']
  else if c = '\\' then ['\\', '\\']
  else if c = '\n' then ['\\', 'n']
  else if c = '\r' then ['\\', 'r']
  else if c = '\t' then ['\\', 't']
  else if c = '{' then ['\\', '{']
  else if c = '}' then ['\\', '}']
  else [c]

/-- A text with its special characters escaped, without the quotes around it. -/
def escaped (text : String) : String := String.ofList (text.toList.flatMap escapeChar)

/-- How a document writes a text. -/
def literal (text : String) : String := "\"" ++ escaped text ++ "\""

/-- The character that a backslash and `c` stand for; `none` where the backslash stands for itself. -/
def unescape? (c : Char) : Option Char :=
  if c = 'n' then some '\n'
  else if c = 'r' then some '\r'
  else if c = 't' then some '\t'
  else if c = '"' || c = '\\' || c = '{' || c = '}' then some c
  else none

/-- An escaped character is the character itself, or a backslash and what it is read from. -/
theorem escapeChar_eq (c : Char) :
    escapeChar c = [c] ∨ ∃ d, escapeChar c = ['\\', d] ∧ unescape? d = some c := by
  unfold escapeChar
  split <;> try (right; subst_vars; exact ⟨_, rfl, by decide⟩)
  repeat (split <;> try (right; subst_vars; exact ⟨_, rfl, by decide⟩))
  exact .inl rfl

end TypedData
