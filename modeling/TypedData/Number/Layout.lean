import TypedData.Number.Decimal

/-!
# How numbers are written

A finite double is written by its shortest decimal.  What remains to be settled is a matter of each
output: between which sizes the digits stand in positional notation, whether a whole number keeps
`.0`, how the exponent is written, and the words for what is not finite.  A `Layout` holds these
decisions, and `Double.text` follows it.
-/

namespace TypedData

/-- The decisions about a number's form that an output makes. -/
structure Layout where
  /-- The positions of the decimal point for which positional notation is used, both included;
  `none` where it is always used. -/
  positional : Option (Int × Int)
  /-- What follows a whole number in positional notation. -/
  wholeSuffix : String
  /-- The sign of an exponent that is not negative. -/
  exponentPlus : String
  /-- The choice between two decimals that are equally near. -/
  tie : Double.TieRule
  /-- The words for NaN, infinity and negative infinity. -/
  nan : String
  infinity : String
  negativeInfinity : String

namespace Layout

/-- Documents and values write a number positionally from `10 ^ -4` up to `10 ^ 16`, and always with a
decimal point there. -/
def value : Layout where
  positional := some (-3, 16)
  wholeSuffix := ".0"
  exponentPlus := ""
  tie := .up
  nan := "NaN"
  infinity := "inf"
  negativeInfinity := "-inf"

/-- Messages about a token write all digits positionally. -/
def message : Layout where
  positional := none
  wholeSuffix := ""
  exponentPlus := ""
  tie := .up
  nan := "NaN"
  infinity := "inf"
  negativeInfinity := "-inf"

/-- JSON has no words for what is not finite, and signs every exponent. -/
def json : Layout where
  positional := some (-4, 16)
  wholeSuffix := ".0"
  exponentPlus := "+"
  tie := .toEven
  nan := "null"
  infinity := "null"
  negativeInfinity := "null"

/-- YAML signs only negative exponents. -/
def yaml : Layout where
  positional := some (-4, 16)
  wholeSuffix := ".0"
  exponentPlus := ""
  tie := .toEven
  nan := ".nan"
  infinity := ".inf"
  negativeInfinity := "-.inf"

end Layout

/-- Digits with the point before the first of them, moved by `point` places. -/
structure DigitText where
  digits : List Char
  point : Int

namespace DigitText

/-- The digits of a decimal without the zeros at their end. -/
def ofDecimal (d : Decimal) : DigitText :=
  let all := Nat.toDigits 10 d.digits
  ⟨(all.reverse.dropWhile (· == '0')).reverse, d.exponent + all.length⟩

/-- The digits in positional notation. -/
def positional (wholeSuffix : String) (t : DigitText) : String :=
  if t.point ≤ 0 then
    "0." ++ String.ofList (List.replicate (-t.point).toNat '0' ++ t.digits)
  else
    let whole := t.point.toNat
    if t.digits.length ≤ whole then
      String.ofList (t.digits ++ List.replicate (whole - t.digits.length) '0') ++ wholeSuffix
    else String.ofList (t.digits.take whole) ++ "." ++ String.ofList (t.digits.drop whole)

/-- The digits with the point after the first of them, and an exponent. -/
def scientific (exponentPlus : String) (t : DigitText) : String :=
  let exponent := t.point - 1
  let sign := if exponent < 0 then "" else exponentPlus
  let fraction := match t.digits.drop 1 with
    | [] => ""
    | rest => "." ++ String.ofList rest
  String.ofList (t.digits.take 1) ++ fraction ++ "e" ++ sign ++ toString exponent

end DigitText

namespace Layout

/-- The text of a number of units, without a sign. -/
def magnitude (layout : Layout) (units : Nat) : String :=
  if units = 0 then "0" ++ layout.wholeSuffix
  else
    let t := DigitText.ofDecimal (Double.shortest layout.tie units)
    match layout.positional with
    | none => t.positional layout.wholeSuffix
    | some (lowest, highest) =>
      if lowest ≤ t.point && t.point ≤ highest then t.positional layout.wholeSuffix
      else t.scientific layout.exponentPlus

end Layout

/-- The text of a double in a layout. -/
def Double.text (layout : Layout) : Double → String
  | .nan => layout.nan
  | .infinite false => layout.infinity
  | .infinite true => layout.negativeInfinity
  | .finite s u _ => (if s then "-" else "") ++ layout.magnitude u

end TypedData
