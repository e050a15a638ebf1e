import TypedData.Number.Integer
import TypedData.Number.Double

/-!
# Decimal numbers and doubles

A decimal is a natural number of digits and a power of ten.  Reading a decimal rounds its exact value
once to a double.  Writing goes the other way by search: `Double.shortest` is the decimal with the
fewest digits that reads back as the double and, of those, the nearest.  Since the search asks the
reader itself, what it finds reads back by construction, and the exact decimal expansion, which every
double has, stands in reserve where no decimal of 17 digits does.
-/

namespace TypedData

-- A power of naturals is core's, whatever other instance is in scope.
attribute [local instance (high)] instPowNat

/-- The number `digits * 10 ^ exponent`. -/
structure Decimal where
  digits : Nat
  exponent : Int
deriving DecidableEq

namespace Double

/-- The double nearest to a decimal.  A decimal from `10 ^ 400` on is beyond every finite double, and
one with an exponent so far below zero that it is less than half a unit is zero; powers of ten of
such a size are not formed. -/
def ofDecimal (negative : Bool) (d : Decimal) : Double :=
  if d.digits = 0 then zero negative
  else if 400 < d.exponent then .infinite negative
  else if d.exponent < -(d.digits.log2 + 1101) then zero negative
  else if 0 ≤ d.exponent then ofRatio negative (d.digits * 10 ^ d.exponent.toNat * one) 1
  else ofRatio negative (d.digits * one) (10 ^ (-d.exponent).toNat)

end Double

namespace Decimal

/-- Reads an exponent: an optional sign and at least one digit. -/
def readExponent? (text : List Char) : Option Int :=
  match splitSign text with
  | (negative, digits) =>
    if digits = [] || !digits.all Char.isDigit then none
    else if negative then some (-digitsValue digits) else some (digitsValue digits)

/-- Splits off a point and the digits after it: the digits, and the rest. -/
def splitFraction : List Char → List Char × List Char
  | '.' :: after => (after.takeWhile Char.isDigit, after.dropWhile Char.isDigit)
  | rest => ([], rest)

/-- Reads digits, a point and more digits, at least one digit in all, then an optional exponent after
the letter E. -/
def ofText? (text : List Char) : Option Decimal :=
  let whole := text.takeWhile Char.isDigit
  let (fraction, rest) := splitFraction (text.dropWhile Char.isDigit)
  if whole = [] && fraction = [] then none
  else
    let digits := digitsValue (whole ++ fraction)
    match rest with
    | [] => some ⟨digits, -fraction.length⟩
    | e :: rest =>
      if e = 'e' || e = 'E' then
        (readExponent? rest).map fun exponent => ⟨digits, exponent - fraction.length⟩
      else none

end Decimal

namespace Double

/-- Reads a number with an optional sign: a decimal, or the words for infinity and NaN in any
mixture of cases. -/
def ofText? (text : List Char) : Option Double :=
  match splitSign text with
  | (negative, rest) =>
    let word := rest.map Char.toLower
    if word = "inf".toList || word = "infinity".toList then some (.infinite negative)
    else if word = "nan".toList then some .nan
    else (Decimal.ofText? rest).map (ofDecimal negative)

/-- How to choose between two decimals that are equally near to a number. -/
inductive TieRule where
  | up
  | toEven
deriving DecidableEq

/-- Where the decimal point stands in `u` units: `u / 2 ^ 1074` lies from `10 ^ (point - 1)` up to
`10 ^ point`. -/
def point (u : Nat) : Int :=
  if one ≤ u then (Nat.toDigits 10 (u / one)).length
  else 1 - (Nat.toDigits 10 (one / u)).length

/-- Whether a decimal reads back as `u` units. -/
def readsBack (u : Nat) (d : Decimal) : Bool :=
  match ofDecimal false d with
  | .finite false v _ => v == u
  | _ => false

/-- The multiple of `10 ^ exponent` that is nearest to `u` units among the two next to it that read
back; `none` where neither does. -/
def nearestMultiple? (tie : TieRule) (u : Nat) (exponent : Int) : Option Decimal :=
  let num := if 0 ≤ exponent then u else u * 10 ^ (-exponent).toNat
  let den := if 0 ≤ exponent then one * 10 ^ exponent.toNat else one
  let below := num / den
  let rest := num % den
  let low : Decimal := ⟨below, exponent⟩
  let high : Decimal := ⟨below + 1, exponent⟩
  match readsBack u low, readsBack u high with
  | true, true =>
    if 2 * rest < den then some low
    else if den < 2 * rest then some high
    else match tie with
      | .up => some high
      | .toEven => if below % 2 = 0 then some low else some high
  | true, false => some low
  | false, true => some high
  | false, false => none

/-- The decimal with the fewest digits that reads back as `u` units; of several, the nearest. -/
def shortest (tie : TieRule) (u : Nat) : Decimal :=
  let candidate (count : Nat) := nearestMultiple? tie u (point u - (count + 1))
  ((List.range 17).findSome? candidate).getD ⟨u * 5 ^ places, -places⟩

end Double

end TypedData
