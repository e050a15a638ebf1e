import TypedData.Number.Decimal
import TypedData.Text.Hexadecimal

/-!
# Texts as YAML scalars

A text is written in the first of these styles that suits it:

| style | for |
| --- | --- |
| double quotes, with escapes | unprintable characters; spaces where a line break would lose them |
| literal block | texts of several lines |
| single quotes | texts that would be read as something else, or that plain style does not allow |
| plain | all others |

A text would be read as something else if it is empty, a word for null, a truth value or a special
number, a number, or decimal digits after a leading zero.
-/

namespace TypedData

namespace Yaml

/-! ## Characters -/

/-- Whether the character ends a line. -/
def isBreak (c : Char) : Bool :=
  c = '\n' || c = '\r' || c.toNat = 0x85 || c.toNat = 0x2028 || c.toNat = 0x2029

/-- Whether the character is a space. -/
def isSpace (c : Char) : Bool := c = ' '

/-- Whether the character may stand outside double quotes. -/
def isPrintable (c : Char) : Bool :=
  let n := c.toNat
  n = 0x0A || (0x20 ≤ n && n ≤ 0x7E) || (0xA0 ≤ n && n ≤ 0xFFFD && n ≠ 0xFEFF) || 0x10000 ≤ n

/-- Whether a character of one kind stands directly before one of another. -/
def hasPair (first second : Char → Bool) : List Char → Bool
  | a :: b :: cs => (first a && second b) || hasPair first second (b :: cs)
  | _ => false

/-- Whether the text ends with a character of a kind. -/
def endsWith (kind : Char → Bool) (text : List Char) : Bool := text.getLast?.any kind

/-! ## Numbers -/

/-- The value of a digit, of which there are sixteen. -/
def digit? (c : Char) : Option Nat :=
  if '0' ≤ c && c ≤ '9' then some (c.toNat - '0'.toNat)
  else if 'a' ≤ c && c ≤ 'f' then some (c.toNat - 'a'.toNat + 10)
  else if 'A' ≤ c && c ≤ 'F' then some (c.toNat - 'A'.toNat + 10)
  else none

/-- The value of at least one digit in a base. -/
def digits? (base : Nat) (text : List Char) : Option Nat :=
  if text = [] then none
  else text.foldlM (fun value c => do
    let d ← digit? c
    if d < base then some (base * value + d) else none) 0

/-- The value of digits after a mark that tells the base. -/
def marked? : List Char → Option Nat
  | '0' :: 'x' :: cs => digits? 16 cs
  | '0' :: 'o' :: cs => digits? 8 cs
  | '0' :: 'b' :: cs => digits? 2 cs
  | _ => none

/-- Whether the text is an integer of 128 bits in a base other than ten. -/
def isMarkedInteger (text : List Char) : Bool :=
  let (negative, rest) := splitSign text
  (marked? rest).any fun n => n < 1 <<< 128 && (!negative || n ≤ 1 <<< 127)

/-- Whether the text is a finite decimal number. -/
def isFiniteNumber (text : List Char) : Bool :=
  match Double.ofText? text with
  | some (.finite ..) => true
  | _ => false

/-- Whether the text is all digits, the first a zero and not the only one. -/
def isPaddedNumber (text : List Char) : Bool :=
  match (splitSign text).2 with
  | '0' :: d :: ds => (d :: ds).all Char.isDigit
  | _ => false

/-- The words that do not stand for themselves. -/
def reservedWords : List String :=
  ["", "null", "Null", "NULL", "~", "true", "True", "TRUE", "false", "False", "FALSE",
    ".nan", ".NaN", ".NAN", ".inf", ".Inf", ".INF", "+.inf", "+.Inf", "+.INF",
    "-.inf", "-.Inf", "-.INF"]

/-- Whether a plain text would be read as something else. -/
def isReserved (text : List Char) : Bool :=
  reservedWords.any (fun word => word.toList = text) || isMarkedInteger text
    || isFiniteNumber text || isPaddedNumber text

/-! ## Styles -/

/-- The characters that no plain text starts with. -/
def indicators : List Char := "#,[]\x7b\x7d&*!|>'\"%@".toList ++ [Char.ofNat 0x60]

/-- Whether the text starts like something other than a plain text. -/
def startsAsIndicator (text : List Char) : Bool :=
  ['-', '-', '-'].isPrefixOf text || ['.', '.', '.'].isPrefixOf text ||
    match text with
    | [] => false
    | [c] => indicators.contains c || c = '?' || c = '-'
    | c :: next :: _ => indicators.contains c || ((c = '?' || c = '-') && isSpace next)

/-- Whether plain style can hold the text. -/
def isPlain (text : List Char) : Bool :=
  !(text.any isBreak || startsAsIndicator text
    || text.head?.any isSpace || endsWith isSpace text
    || hasPair (· == ':') isSpace text || endsWith (· == ':') text
    || hasPair isSpace (· == '#') text)

/-- How a text is set off. -/
inductive Style where
  | plain
  | single
  | double
  | literal
deriving DecidableEq, Repr

/-- The style that suits a text. -/
def Style.of (text : List Char) : Style :=
  if text.any (!isPrintable ·) || hasPair isSpace isBreak text then .double
  else if text.contains '\n' then
    if endsWith isSpace text then .double else .literal
  else if hasPair isBreak isSpace text then .double
  else if isReserved text || !isPlain text then .single
  else .plain

/-- The letter of an escape. -/
def escapeLetter? (c : Char) : Option Char :=
  match c.toNat with
  | 0x00 => some '0'
  | 0x07 => some 'a'
  | 0x08 => some 'b'
  | 0x09 => some 't'
  | 0x0A => some 'n'
  | 0x0B => some 'v'
  | 0x0C => some 'f'
  | 0x0D => some 'r'
  | 0x1B => some 'e'
  | 0x22 => some '"'
  | 0x5C => some '\\'
  | 0x85 => some 'N'
  | 0x2028 => some 'L'
  | 0x2029 => some 'P'
  | _ => none

/-- How a character is written in double quotes.  Beyond four hexadecimal digits every character is
printable. -/
def doubleChar (c : Char) : List Char :=
  match escapeLetter? c with
  | some letter => ['\\', letter]
  | none =>
    if isPrintable c then [c]
    else if c.toNat ≤ 0xFF then '\\' :: 'x' :: (hexDigits 2 c.toNat).map Char.toUpper
    else '\\' :: 'u' :: (hexDigits 4 c.toNat).map Char.toUpper

/-- How a character is written in single quotes. -/
def singleChar (c : Char) : List Char := if c = '\'' then [c, c] else [c]

/-- The first line of a literal block.  It tells the indentation where the text starts with a blank,
and what becomes of line breaks at the end where it is not just one. -/
def literalHeader (text : List Char) : List Char :=
  let indentation := if text.head?.any (fun c => isSpace c || isBreak c) then ['2'] else []
  let ending :=
    match text.reverse with
    | [] => ['-']
    | [c] => if isBreak c then ['+'] else ['-']
    | c :: d :: _ => if !isBreak c then ['-'] else if isBreak d then ['+'] else []
  '|' :: indentation ++ ending

/-- How a text is written. -/
def scalar (text : List Char) : List Char :=
  match Style.of text with
  | .plain => text
  | .single => '\'' :: text.flatMap singleChar ++ ['\'']
  | .double => '"' :: text.flatMap doubleChar ++ ['"']
  | .literal => literalHeader text ++ '\n' :: text

end Yaml

end TypedData
