/-!
# Double-precision numbers

A finite double is a sign and a whole number of **units**, the unit being the least positive double
`2 ^ -1074`.  So the value of `finite s u` is `± u / 2 ^ 1074`, and exact arithmetic on doubles is
arithmetic on natural numbers: `1.0` is `2 ^ 1074` units, and the remainder of a division of doubles
is the remainder of their units.

| value | representation |
| --- | --- |
| zeros | `finite false 0`, `finite true 0` |
| `1.0` | `finite false (2 ^ 1074)` |
| largest finite | `finite false ((2 ^ 53 - 1) * 2 ^ 2045)` |
| beyond it | `infinite` |

A whole number of units is a double when it has at most 53 significant bits and lies below `2 ^ 2098`
(`Representable`).  Every operation is the exact result, rounded once to the nearest representable
number of units, a tie going to the even one (`ofRatio`).  There is one NaN; its sign never shows.
-/

namespace TypedData

-- A power of naturals is core's, whatever other instance is in scope.
attribute [local instance (high)] instPowNat

/-- The distance of two neighbouring representable numbers of units from `u` on: one below
`2 ^ 53`, and doubled at every power of two above. -/
def gap (u : Nat) : Nat := 2 ^ (u.log2 - 52)

/-- Numbers next to each other never coincide. -/
theorem gap_pos (u : Nat) : 0 < gap u := Nat.two_pow_pos _

/-- The number of binary digits of the largest finite doubles in units. -/
def maxBits : Nat := 2098

/-- The numbers of units that are doubles. -/
def Representable (u : Nat) : Prop := u % gap u = 0 ∧ u < 2 ^ maxBits

instance (u : Nat) : Decidable (Representable u) := inferInstanceAs (Decidable (_ ∧ _))

/-- Zero can be represented. -/
theorem representable_zero : Representable 0 := ⟨Nat.zero_mod _, Nat.two_pow_pos maxBits⟩

/-- A binary floating-point number of double precision. -/
inductive Double where
  | nan
  | infinite (negative : Bool)
  | finite (negative : Bool) (units : Nat) (representable : Representable units)
deriving DecidableEq

/-- The whole number nearest to `num / den`; a tie goes to the even one. -/
def roundEven (num den : Nat) : Nat :=
  let whole := num / den
  let rest := num % den
  if 2 * rest < den then whole
  else if den < 2 * rest then whole + 1
  else whole + whole % 2

/-- A whole number is its own rounding. -/
theorem roundEven_one (n : Nat) : roundEven n 1 = n := by
  simp [roundEven, Nat.mod_one]

/-- A multiple of the divisor is rounded to the quotient exactly. -/
theorem roundEven_mul_right {n d : Nat} (h : 0 < d) : roundEven (n * d) d = n := by
  simp [roundEven, Nat.mul_div_cancel _ h, h]

namespace Double

/-- The unit is `2 ^ -places`. -/
def places : Nat := 1074

/-- The number of units in `1.0`. -/
def one : Nat := 2 ^ places

/-- The number one has a positive number of units. -/
theorem one_pos : 0 < one := Nat.two_pow_pos places

/-- The zero of a sign. -/
def zero (negative : Bool) : Double := .finite negative 0 representable_zero

/-- The number of units on the grid at `num / den` that is nearest to `num / den`. -/
def nearestUnits (num den : Nat) : Nat :=
  let spacing := gap (num / den)
  roundEven num (den * spacing) * spacing

/-- The double nearest to `num / den` units.  What rounds to `2 ^ 2098` units or more is infinite. -/
def ofRatio (negative : Bool) (num den : Nat) : Double :=
  let units := nearestUnits num den
  if h : Representable units then .finite negative units h else .infinite negative

/-- A number that can be represented is the nearest one to itself. -/
theorem nearestUnits_of_representable {u d : Nat} (hd : 0 < d) (h : Representable u) :
    nearestUnits (u * d) d = u := by
  have hu : u / gap u * gap u = u := Nat.div_mul_cancel (Nat.dvd_of_mod_eq_zero h.1)
  unfold nearestUnits
  simp only [Nat.mul_div_cancel _ hd]
  have : u * d = u / gap u * (d * gap u) := by
    rw [Nat.mul_comm d, ← Nat.mul_assoc, hu]
  rw [this, roundEven_mul_right (Nat.mul_pos hd (gap_pos u)), hu]

/-- A representable number of units is not changed by rounding, whatever fraction it is given as. -/
theorem ofRatio_of_representable {s : Bool} {u d : Nat} (hd : 0 < d) (h : Representable u) :
    ofRatio s (u * d) d = .finite s u h := by
  unfold ofRatio
  simp only [nearestUnits_of_representable hd h, dif_pos h]

/-- The double nearest to an integer. -/
def ofInt (n : Int) : Double := ofRatio (n < 0) (n.natAbs * one) 1

/-- Whether the number is neither infinite nor NaN. -/
def isFinite : Double → Bool
  | .finite .. => true
  | _ => false

/-- Whether the sign is a minus; NaN has none. -/
def isNegative : Double → Bool
  | .nan => false
  | .infinite s => s
  | .finite s _ _ => s

/-- Whether the number is a zero, of either sign. -/
def isZero : Double → Bool
  | .finite _ 0 _ => true
  | _ => false

/-- The number with the opposite sign. -/
def neg : Double → Double
  | .nan => .nan
  | .infinite s => .infinite !s
  | .finite s u h => .finite (!s) u h

/-- The number without its sign. -/
def abs : Double → Double
  | .nan => .nan
  | .infinite _ => .infinite false
  | .finite _ u h => .finite false u h

/-- A number of units with a sign. -/
def signed (negative : Bool) (units : Nat) : Int := if negative then -units else units

/-- The sum.  The sum of two zeros of minus sign has a minus sign, any other zero sum has not. -/
def add : Double → Double → Double
  | .nan, _ | _, .nan => .nan
  | .infinite s, .infinite t => if s = t then .infinite s else .nan
  | .infinite s, .finite .. => .infinite s
  | .finite .., .infinite t => .infinite t
  | .finite s a _, .finite t b _ =>
    let sum := signed s a + signed t b
    if sum = 0 then zero (s && t) else ofRatio (sum < 0) sum.natAbs 1

/-- The difference. -/
def sub (x y : Double) : Double := x.add y.neg

/-- The product. -/
def mul : Double → Double → Double
  | .nan, _ | _, .nan => .nan
  | .infinite s, .infinite t => .infinite (s != t)
  | .infinite s, .finite t b _ => if b = 0 then .nan else .infinite (s != t)
  | .finite s a _, .infinite t => if a = 0 then .nan else .infinite (s != t)
  | .finite s a _, .finite t b _ => ofRatio (s != t) (a * b) one

/-- The quotient. -/
def div : Double → Double → Double
  | .nan, _ | _, .nan => .nan
  | .infinite _, .infinite _ => .nan
  | .infinite s, .finite t _ _ => .infinite (s != t)
  | .finite s _ _, .infinite t => zero (s != t)
  | .finite s a _, .finite t b _ =>
    if b = 0 then (if a = 0 then .nan else .infinite (s != t))
    else ofRatio (s != t) (a * one) b

/-- The remainder of the division that goes toward zero; it has the sign of the dividend. -/
def rem : Double → Double → Double
  | .nan, _ | _, .nan | .infinite _, _ => .nan
  | .finite s a h, .infinite _ => .finite s a h
  | .finite s a _, .finite _ b _ => if b = 0 then .nan else ofRatio s (a % b) 1

/-- The integer next to the number on the side of zero, where there is one. -/
def truncate? : Double → Option Int
  | .finite s u _ => some (signed s (u / one))
  | _ => none

/-- How two numbers are ordered; NaN is ordered with nothing. -/
def compare? : Double → Double → Option Ordering
  | .nan, _ | _, .nan => none
  | .infinite s, .infinite t =>
    some (if s = t then .eq else if s then .lt else .gt)
  | .infinite s, .finite .. => some (if s then .lt else .gt)
  | .finite .., .infinite t => some (if t then .gt else .lt)
  | .finite s a _, .finite t b _ => some (compare (signed s a) (signed t b))

/-- Whether two numbers are numerically equal: NaN equals nothing, and the two zeros are equal. -/
def equal (x y : Double) : Bool := x.compare? y == some .eq

end Double

end TypedData
