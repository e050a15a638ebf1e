import Std.Data.HashSet
import TypedData.Text.Blank

/-!
# Fitting a text to a template

The left side of a rule is a sequence of segments: literal texts and slots.  A text fits when it is the
segments one after another, every slot filled with a text that is not empty.  A slot extends to the first
occurrence of the literal after it that lets the rest fit; occurrences are looked for from left to
right without overlaps, and one at the very beginning of the slot does not count.

A template may end in an **omissible** tail: a blank literal, followed by blank literals and slots
only.  Where the text ends before such a tail, the tail may be left out, and its slots are empty.  A
template as a whole is never left out.

`fit?` says this directly, trying every occurrence.  `search` goes through the same occurrences, adds
captures to those that there are, and may remember which segments have failed at which places, so that
it tries nothing twice.
-/

namespace TypedData

/-- A segment of a template. -/
inductive Segment where
  | text (text : String)
  | slot (name : String)
deriving DecidableEq, Repr

/-- What the slots of a template are filled with, in the order of the template. -/
abbrev Captures := List (String × String)

/-- Whether a text is not empty and holds nothing but blanks. -/
def isBlankText (text : String) : Bool := !text.isEmpty && text.toList.all isBlank

namespace Segment

/-- Whether the segment is a blank literal or a slot. -/
def isLoose : Segment → Bool
  | text t => isBlankText t
  | slot _ => true

/-- Whether the segments may be left out at the end of a text. -/
def areOmissible : List Segment → Bool
  | text t :: segments => isBlankText t && segments.all isLoose
  | _ => false

/-- The slots of segments that are left out. -/
def emptyCaptures (segments : List Segment) : Captures :=
  segments.filterMap fun | slot name => some (name, "") | text _ => none

/-- What is left of a text after a literal that it starts with. -/
def strip? : (literal input : List Char) → Option (List Char)
  | [], input => some input
  | _ :: _, [] => none
  | l :: literal, c :: input => if l = c then strip? literal input else none

/-- The places in a text where a literal occurs, from left to right without overlaps: how many
characters stand before it, and the text from there on.  Before the given characters stand `offset`
others, and the first `covered` of them belong to an occurrence.  An empty literal occurs before every
character and at the end. -/
def occurrencesFrom (literal : List Char) (offset covered : Nat) :
    (input : List Char) → List (Nat × List Char)
  | [] => if literal.isEmpty then [(offset, [])] else []
  | c :: input =>
    match covered with
    | covered + 1 => occurrencesFrom literal (offset + 1) covered input
    | 0 =>
      if literal.isPrefixOf (c :: input) then
        (offset, c :: input) :: occurrencesFrom literal (offset + 1) (literal.length - 1) input
      else occurrencesFrom literal (offset + 1) 0 input

/-- Where a slot can end before a literal: the occurrences of it, except at the beginning. -/
def slotEnds (literal : String) (input : List Char) : List (Nat × List Char) :=
  (occurrencesFrom literal.toList 0 0 input).filter fun (stop, _) => 0 < stop

/-- A slot filled with the first characters of a text. -/
def capture (name : String) (input : List Char) : String × String := (name, String.ofList input)

/-- Fits a text to segments.  `inside` says whether they are preceded by others. -/
def fit? (inside : Bool) : List Segment → (input : List Char) → Option Captures
  | [], input => if input.isEmpty then some [] else none
  | .text literal :: more, input =>
    if input.isEmpty && inside && areOmissible (.text literal :: more) then
      some (emptyCaptures (.text literal :: more))
    else (strip? literal.toList input).bind (fit? true more)
  | .slot name :: more, input =>
    match more with
    | [] => if input.isEmpty then none else some [capture name input]
    | .slot _ :: _ => none
    | .text literal :: _ =>
      let fitted := (slotEnds literal input).findSome? fun (stop, rest) =>
        (fit? true more rest).map (capture name (input.take stop) :: ·)
      match fitted with
      | some captures => some captures
      | none =>
        if !input.isEmpty && areOmissible more then
          some (capture name input :: emptyCaptures more)
        else none

/-- What is known to fail: how many segments are left, and at which place in the text. -/
abbrev Failures := Std.HashSet (Nat × Nat)

/-- What a search has come to: what is known to fail, and what slots are filled with. -/
structure Search where
  failures : Failures
  captures : Captures

namespace Search

/-- Adds captures behind those that there are. -/
def append (captures : Captures) : StateM Search Unit :=
  modify fun s => { s with captures := s.captures ++ captures }

/-- Puts a capture behind the first `mark` of those that there are. -/
def insert (mark : Nat) (captured : String × String) : StateM Search Unit :=
  modify fun s => { s with captures := s.captures.insertIdx mark captured }

end Search

/-- A way to try whether so many segments fit at a place in the text. -/
abbrev Attempt := (here : Nat × Nat) → (fit : StateM Search Bool) → StateM Search Bool

/-- Tries whatever is not known to fail, and remembers what does. -/
def remembering : Attempt := fun here fit => do
  if (← get).failures.contains here then return false
  if ← fit then return true
  modify fun s => { s with failures := s.failures.insert here }
  return false

/-- Tries everything, and remembers nothing. -/
def forgetful : Attempt := fun _ fit => fit

/-- Fits a text to segments and adds what their slots are filled with, if it fits.  Before the given
characters stand `offset` others. -/
def search (attempt : Attempt) (inside : Bool) :
    List Segment → (offset : Nat) → (input : List Char) → StateM Search Bool
  | [], offset, input => attempt (0, offset) (return input.isEmpty)
  | .text literal :: more, offset, input =>
    attempt (more.length + 1, offset) do
      if input.isEmpty && inside && areOmissible (.text literal :: more) then
        Search.append (emptyCaptures (.text literal :: more))
        return true
      else
        match strip? literal.toList input with
        | some rest => search attempt true more (offset + literal.length) rest
        | none => return false
  | .slot name :: more, offset, input =>
    attempt (more.length + 1, offset) <|
      match more with
      | [] => do
        if input.isEmpty then return false
        Search.append [capture name input]
        return true
      | .slot _ :: _ => return false
      | .text literal :: _ => do
        let mark := (← get).captures.length
        let fitted ← (slotEnds literal input).anyM fun (stop, rest) => do
          let fitted ← search attempt true more (offset + stop) rest
          if fitted then Search.insert mark (capture name (input.take stop))
          return fitted
        if fitted then return true
        if !input.isEmpty && areOmissible more then
          Search.append (capture name input :: emptyCaptures more)
          return true
        return false

/-- Fits a text to the segments from one of them on, behind so many characters. -/
def searchFrom (attempt : Attempt) (segments : List Segment) (text : List Char) (seg offset : Nat) :
    StateM Search Bool :=
  search attempt (0 < seg) (segments.drop seg) offset (text.drop offset)

/-- Fits a whole text to a template. -/
def fitText? (segments : List Segment) (text : List Char) : Option Captures :=
  let (fitted, found) := (searchFrom remembering segments text 0 0).run ⟨∅, []⟩
  if fitted then some found.captures else none

end Segment

end TypedData
