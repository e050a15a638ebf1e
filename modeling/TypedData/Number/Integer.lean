/-!
# Integers

The integers of the notation are those of 64 bits in two's complement, from `-2 ^ 63` up to
`2 ^ 63 - 1`.  Arithmetic is exact or refused: each operation takes the mathematical result and
answers `none` where that does not fit.
-/

namespace TypedData

/-- An integer of 64 bits. -/
structure Integer where
  val : Int
  lower : -0x8000000000000000 ≤ val
  upper : val < 0x8000000000000000
deriving DecidableEq

namespace Integer

/-- The number as an integer of 64 bits, where it fits. -/
def ofInt? (n : Int) : Option Integer :=
  if h : -0x8000000000000000 ≤ n ∧ n < 0x8000000000000000 then some ⟨n, h.1, h.2⟩ else none

/-- An integer is made of a number exactly if it has that value. -/
theorem ofInt?_eq_some_iff {n : Int} {a : Integer} : ofInt? n = some a ↔ a.val = n := by
  unfold ofInt?
  constructor
  · intro h; split at h
    · cases h; rfl
    · cases h
  · rintro rfl; rw [dif_pos ⟨a.lower, a.upper⟩]

/-- No integer is made of a number outside the 64-bit range, and only of such. -/
theorem ofInt?_eq_none_iff {n : Int} :
    ofInt? n = none ↔ n < -0x8000000000000000 ∨ 0x8000000000000000 ≤ n := by
  unfold ofInt?; split <;> simp <;> omega

/-- The value of an integer makes the integer again. -/
@[simp] theorem ofInt?_val (a : Integer) : ofInt? a.val = some a := ofInt?_eq_some_iff.2 rfl

/-- Integers with the same value are the same. -/
@[ext] theorem ext_val {a b : Integer} (h : a.val = b.val) : a = b := by
  cases a; cases b; cases h; rfl

/-- The integer zero. -/
def zero : Integer := ⟨0, by decide, by decide⟩

/-- The integer one. -/
def one : Integer := ⟨1, by decide, by decide⟩

/-- The sum, where it fits. -/
def add? (a b : Integer) : Option Integer := ofInt? (a.val + b.val)

/-- The difference, where it fits. -/
def sub? (a b : Integer) : Option Integer := ofInt? (a.val - b.val)

/-- The product, where it fits. -/
def mul? (a b : Integer) : Option Integer := ofInt? (a.val * b.val)

/-- The negative, where it fits. -/
def neg? (a : Integer) : Option Integer := ofInt? (-a.val)

/-- The absolute value, where it fits. -/
def abs? (a : Integer) : Option Integer := ofInt? a.val.natAbs

/-- The remainder of the division that goes toward zero.  Where the quotient does not fit, neither
does the division. -/
def rem? (a b : Integer) : Option Integer :=
  if (ofInt? (a.val.tdiv b.val)).isNone then none else ofInt? (a.val.tmod b.val)

/-- The decimal digits, after a minus sign where the integer is negative. -/
def text (a : Integer) : String := toString a.val

end Integer

/-- The value of a list of decimal digits. -/
def digitsValue (digits : List Char) : Nat :=
  digits.foldl (fun value d => 10 * value + (d.toNat - '0'.toNat)) 0

/-- Splits off the sign that a number starts with: whether it is a minus, and the rest. -/
def splitSign : List Char → Bool × List Char
  | '-' :: cs => (true, cs)
  | '+' :: cs => (false, cs)
  | cs => (false, cs)

/-- Reads an optional sign and at least one decimal digit, where the number fits. -/
def Integer.ofText? (text : List Char) : Option Integer :=
  match splitSign text with
  | (negative, digits) =>
    if digits = [] || !digits.all Char.isDigit then none
    else if negative then ofInt? (-digitsValue digits) else ofInt? (digitsValue digits)

end TypedData
