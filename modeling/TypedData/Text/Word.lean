/-!
# Words

A word is what the notation writes without quotes: an ASCII letter or underscore, then ASCII letters,
digits and underscores.  Twelve words are reserved; the others are names.
-/

namespace TypedData

/-- An ASCII letter, an ASCII digit or an underscore. -/
def isWordChar (c : Char) : Bool := c.isAlphanum || c = '_'

/-- A character that a word can start with. -/
def isWordStart (c : Char) : Bool := c.isAlpha || c = '_'

/-- Whether the characters make a word, reserved or not. -/
def isWord : List Char → Bool
  | [] => false
  | c :: cs => isWordStart c && cs.all isWordChar

/-- The reserved words. -/
inductive Keyword where
  | type | «where» | «for» | except | optional | list
  | and | or | not | true | false | null
deriving DecidableEq, Repr

namespace Keyword

/-- Every reserved word. -/
def all : List Keyword :=
  [type, «where», «for», except, optional, list, and, or, not, true, false, null]

/-- How a reserved word is written. -/
def spelling : Keyword → String
  | type => "type"
  | «where» => "where"
  | «for» => "for"
  | except => "except"
  | optional => "optional"
  | list => "list"
  | and => "and"
  | or => "or"
  | not => "not"
  | true => "true"
  | false => "false"
  | null => "null"

/-- The reserved word with the given spelling. -/
def ofSpelling? (word : String) : Option Keyword :=
  all.find? fun keyword => keyword.spelling == word

/-- A keyword is found by its spelling. -/
theorem ofSpelling?_spelling (k : Keyword) : ofSpelling? k.spelling = some k := by
  cases k <;> decide

end Keyword

/-- The words that the printer does not write as names. -/
def reservedWords : List String :=
  ["type", "where", "for", "except", "optional", "list", "and", "or", "not", "true", "false", "null"]

/-- A word cannot be written as a name if and only if it is a reserved word. -/
theorem mem_reservedWords_iff {word : String} : word ∈ reservedWords ↔ Keyword.ofSpelling? word ≠ none := by
  have hwords : reservedWords = Keyword.all.map Keyword.spelling := rfl
  rw [hwords, List.mem_map, Keyword.ofSpelling?, Ne, List.find?_eq_none]
  simp

/-- Whether a text can be written as a name: it is a word and is not reserved. -/
def isName (text : String) : Bool := isWord text.toList && !reservedWords.contains text

/-- A name is a word that is not a keyword. -/
theorem isName_iff {text : String} :
    isName text = true ↔ isWord text.toList = true ∧ Keyword.ofSpelling? text = none := by
  have hreserved : reservedWords.contains text = true ↔ Keyword.ofSpelling? text ≠ none :=
    List.contains_iff_mem.trans mem_reservedWords_iff
  rw [isName, Bool.and_eq_true, Bool.not_eq_true', ← Bool.not_eq_true, hreserved, Ne, Decidable.not_not]

end TypedData
