/-!
# Hexadecimal digits

Escapes name a character by its code point in hexadecimal, often with a fixed number of digits.
-/

namespace TypedData

/-- The hexadecimal digits of a number, in lower case, with zeros before them where there are fewer
than `width`. -/
def hexDigits (width n : Nat) : List Char :=
  let digits := Nat.toDigits 16 n
  List.replicate (width - digits.length) '0' ++ digits

/-- There are at least as many digits as asked for. -/
theorem length_hexDigits (width n : Nat) : width ≤ (hexDigits width n).length := by
  simp only [hexDigits, List.length_append, List.length_replicate]; omega

end TypedData
