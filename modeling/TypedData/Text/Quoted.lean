import TypedData.Text.Unprintable
import TypedData.Text.Combining

/-!
# Texts in messages

A message shows a text in double quotes.  A quote and a backslash are written with a backslash
before them, line feed, carriage return, tab and the null character by their letters, and a character
that is unprintable or combining by its code point in lower-case hexadecimal.
-/

namespace TypedData

/-- How a message shows one character of a text. -/
def quoteChar (c : Char) : List Char :=
  if c = '"' then ['\\', '"']
  else if c = '\\' then ['\\', '\\']
  else if c = '\n' then ['\\', 'n']
  else if c = '\r' then ['\\', 'r']
  else if c = '\t' then ['\\', 't']
  else if c.toNat = 0 then ['\\', '0']
  else if isUnprintable c || isCombining c then
    ['\\', 'u', '{'] ++ Nat.toDigits 16 c.toNat ++ ['}']
  else [c]

/-- How a message shows a text. -/
def quoted (text : String) : String :=
  "\"" ++ String.ofList (text.toList.flatMap quoteChar) ++ "\""

end TypedData
