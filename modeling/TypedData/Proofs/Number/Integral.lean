import TypedData.Number.Integer
import TypedData.Proofs.Number.Rounding

/-!
# Integers as doubles

The double of an integer is found on the integers themselves: it is the nearest of those with 53 significant bits
(`Double.rounded`, `Double.ofInt_eq`).  An integer below `2 ^ 53` is its own double, and beyond that the double is
off by half a gap at most.

So doubles do not tell all integers apart.  Two different integers of one double are **blurred**
(`Integer.Blurred`); both reach `2 ^ 53`, and they are close to each other in proportion to their size
(`Integer.Blurred.far`, `Integer.Blurred.close`).
-/

namespace TypedData

-- A power of naturals is core's, whatever other instance is in scope.
attribute [local instance (high)] instPowNat

/-! ## Gaps -/

/-- Small numbers stand next to each other. -/
theorem gap_of_lt {u : Nat} (h : u < 2 ^ 53) : gap u = 1 := by
  have hlog : u.log2 ≤ 52 := by
    rcases Nat.eq_zero_or_pos u with rfl | hpos
    · decide
    · exact Nat.le_of_lt_succ ((Nat.log2_lt (by omega)).2 h)
  rw [gap, show u.log2 - 52 = 0 by omega, Nat.pow_zero]

/-- In proportion to the number, gaps are small. -/
theorem gap_mul_le {u : Nat} (h : 2 ^ 52 ≤ u) : gap u * 2 ^ 52 ≤ u := by
  have hne : u ≠ 0 := by omega
  have hlog : 52 ≤ u.log2 := (Nat.le_log2 hne).2 h
  calc gap u * 2 ^ 52 = 2 ^ u.log2 := by rw [gap, ← Nat.pow_add, Nat.sub_add_cancel hlog]
    _ ≤ u := Nat.log2_self_le hne

/-- A number is less than 53 bits times the gap at it. -/
theorem lt_gap_mul (u : Nat) : u < gap u * 2 ^ 53 := by
  calc u < 2 ^ (u.log2 + 1) := Nat.lt_log2_self
    _ ≤ 2 ^ (u.log2 - 52 + 53) := Nat.pow_le_pow_right Nat.two_pos (by omega)
    _ = gap u * 2 ^ 53 := by rw [gap, ← Nat.pow_add]

/-- A power of two shifts the length of a number. -/
theorem log2_mul_two_pow {m : Nat} (h : m ≠ 0) (k : Nat) : (m * 2 ^ k).log2 = m.log2 + k := by
  have hpos : 0 < 2 ^ k := Nat.two_pow_pos k
  refine (Nat.log2_eq_iff (Nat.mul_ne_zero h hpos.ne')).2 ⟨?_, ?_⟩
  · rw [Nat.pow_add]
    exact Nat.mul_le_mul_right _ (Nat.log2_self_le h)
  · rw [Nat.add_right_comm, Nat.pow_add]
    exact Nat.mul_lt_mul_of_pos_right Nat.lt_log2_self hpos

/-- A number of at most 53 binary digits, shifted, is a double. -/
theorem representable_of_shift {m k : Nat} (hm : m ≤ 2 ^ 53) (hlt : m * 2 ^ k < 2 ^ maxBits) :
    Representable (m * 2 ^ k) := by
  refine ⟨Nat.mod_eq_zero_of_dvd ?_, hlt⟩
  rcases Nat.eq_zero_or_pos m with rfl | hpos
  · rw [Nat.zero_mul]
    exact Nat.dvd_zero _
  · have hlog : (m * 2 ^ k).log2 = m.log2 + k := log2_mul_two_pow (by omega) k
    rw [gap, hlog]
    rcases Nat.lt_or_eq_of_le hm with hlt | rfl
    · have hdigits : m.log2 < 53 := (Nat.log2_lt (by omega)).2 hlt
      exact Nat.dvd_mul_left_of_dvd (Nat.pow_dvd_pow 2 (by omega)) m
    · rw [Nat.log2_two_pow, ← Nat.pow_add]
      exact Nat.pow_dvd_pow 2 (by omega)

/-! ## Rounding to a whole number -/

/-- A rounded quotient is at most one more than the quotient. -/
theorem roundEven_le (num den : Nat) : roundEven num den ≤ num / den + 1 := by
  unfold roundEven
  dsimp only
  split
  · omega
  · split <;> omega

/-- Rounding is off by half a step at most. -/
theorem two_mul_dist_roundEven_le (num : Nat) {den : Nat} (h : 0 < den) :
    2 * (roundEven num den * den) ≤ 2 * num + den ∧ 2 * num ≤ 2 * (roundEven num den * den) + den := by
  have hnum : num / den * den + num % den = num := Nat.div_add_mod' num den
  have hrest : num % den < den := Nat.mod_lt num h
  unfold roundEven
  dsimp only
  split
  · omega
  · split
    · rw [Nat.add_mul, Nat.one_mul]
      omega
    · rcases Nat.mod_two_eq_zero_or_one (num / den) with heven | hodd
      · rw [heven, Nat.add_zero]
        omega
      · rw [hodd, Nat.add_mul, Nat.one_mul]
        omega

namespace Double

/-- A whole number is rounded to a multiple of the gap at it. -/
theorem nearestUnits_one (n : Nat) : nearestUnits n 1 = roundEven n (gap n) * gap n := by
  rw [nearestUnits, Nat.div_one, Nat.one_mul]

/-- A whole number of at most 53 binary digits is its own rounding. -/
theorem nearestUnits_of_lt {n : Nat} (h : n < 2 ^ 53) : nearestUnits n 1 = n := by
  rw [nearestUnits_one, gap_of_lt h, roundEven_one, Nat.mul_one]

/-- A number of 54 binary digits or more does not round to one of less. -/
theorem le_nearestUnits {n : Nat} (h : 2 ^ 53 ≤ n) : 2 ^ 53 ≤ nearestUnits n 1 := by
  have hne : n ≠ 0 := by omega
  have hlog : 53 ≤ n.log2 := (Nat.le_log2 hne).2 h
  exact (Nat.pow_le_pow_right Nat.two_pos hlog).trans (two_pow_log2_le_nearestUnits hne)

/-- Only zero is rounded to zero. -/
theorem nearestUnits_eq_zero_iff {n : Nat} : nearestUnits n 1 = 0 ↔ n = 0 := by
  constructor
  · intro h
    by_contra hne
    have hle : 2 ^ n.log2 ≤ nearestUnits n 1 := two_pow_log2_le_nearestUnits hne
    have hpos : 0 < 2 ^ n.log2 := Nat.two_pow_pos _
    omega
  · rintro rfl
    rfl

/-- The unit is a power of two, so rounding in units is rounding to a whole number. -/
theorem nearestUnits_mul_one (n : Nat) : nearestUnits (n * one) 1 = nearestUnits n 1 * one := by
  -- Below `2 ^ 53` a whole number is its own rounding, and from there on the gap is scaled like the number.
  rcases Nat.lt_or_ge n (2 ^ 53) with hlt | hge
  · have hunits : n * one < 2 ^ maxBits := by
      calc n * one < 2 ^ 53 * one := Nat.mul_lt_mul_of_pos_right hlt one_pos
        _ = 2 ^ (53 + places) := by rw [one, ← Nat.pow_add]
        _ ≤ 2 ^ maxBits := Nat.pow_le_pow_right Nat.two_pos (by decide)
    have hrep : Representable (n * one) := representable_of_shift hlt.le hunits
    have hself : nearestUnits (n * one * 1) 1 = n * one := nearestUnits_of_representable Nat.one_pos hrep
    rw [Nat.mul_one] at hself
    rw [hself, nearestUnits_of_lt hlt]
  · have hne : n ≠ 0 := by omega
    have hlog : 53 ≤ n.log2 := (Nat.le_log2 hne).2 hge
    have hgap : gap (n * one) = gap n * one := by
      rw [gap, one, log2_mul_two_pow hne, gap, ← Nat.pow_add]
      congr 1
      omega
    rw [nearestUnits_one, nearestUnits_one, hgap, roundEven_mul_mul one_pos, Nat.mul_assoc]

/-- What a 64-bit number is rounded to can be represented. -/
theorem representable_nearestUnits {n : Nat} (h : n < 2 ^ 64) : Representable (nearestUnits n 1 * one) := by
  have hwhole : n / gap n < 2 ^ 53 := (Nat.div_lt_iff_lt_mul (gap_pos n)).2 (Nat.mul_comm .. ▸ lt_gap_mul n)
  have hdigits : roundEven n (gap n) ≤ 2 ^ 53 := (roundEven_le n (gap n)).trans hwhole
  have hlog : n.log2 < 64 := by
    rcases Nat.eq_zero_or_pos n with rfl | hpos
    · decide
    · exact (Nat.log2_lt (by omega)).2 h
  have hunits : nearestUnits n 1 * one = roundEven n (gap n) * 2 ^ (n.log2 - 52 + places) := by
    rw [nearestUnits_one, Nat.mul_assoc, Nat.pow_add]
    rfl
  rw [hunits]
  refine representable_of_shift hdigits ?_
  calc roundEven n (gap n) * 2 ^ (n.log2 - 52 + places)
      ≤ 2 ^ 53 * 2 ^ (n.log2 - 52 + places) := Nat.mul_le_mul_right _ hdigits
    _ = 2 ^ (53 + (n.log2 - 52 + places)) := (Nat.pow_add ..).symm
    _ < 2 ^ maxBits := Nat.pow_lt_pow_right (by decide) (by rw [maxBits, places]; omega)

/-! ## The double of an integer -/

/-- The integer of at most 53 binary digits that is nearest to an integer. -/
def rounded (n : Int) : Int := signed (n < 0) (nearestUnits n.natAbs 1)

/-- A sign does not change the size. -/
theorem natAbs_signed (negative : Bool) (u : Nat) : (signed negative u).natAbs = u := by
  cases negative <;> simp [signed]

/-- A sign goes with a product. -/
theorem signed_mul (negative : Bool) (u k : Nat) : signed negative (u * k) = signed negative u * k := by
  cases negative <;> simp [signed]

/-- Rounding does not look at the sign. -/
theorem natAbs_rounded (n : Int) : (rounded n).natAbs = nearestUnits n.natAbs 1 := natAbs_signed _ _

/-- Rounding keeps the sign. -/
theorem rounded_neg_iff {n : Int} : rounded n < 0 ↔ n < 0 := by
  have hzero : nearestUnits n.natAbs 1 = 0 ↔ n.natAbs = 0 := nearestUnits_eq_zero_iff
  simp only [rounded, signed, decide_eq_true_eq]
  split <;> omega

/-- Numbers below 53 bits are exact. -/
theorem rounded_of_lt {n : Int} (h : n.natAbs < 2 ^ 53) : rounded n = n := by
  rw [rounded, nearestUnits_of_lt h]
  simp only [signed, decide_eq_true_eq]
  split <;> omega

/-- The rounding of an integer is off by half a gap at most. -/
theorem two_mul_dist_rounded_le (n : Int) : 2 * (rounded n - n).natAbs ≤ gap n.natAbs := by
  obtain ⟨hle, hge⟩ := two_mul_dist_roundEven_le n.natAbs (gap_pos n.natAbs)
  rw [← nearestUnits_one] at hle hge
  simp only [rounded, signed, decide_eq_true_eq]
  split <;> omega

/-- **The double of an integer is its rounding,** in units. -/
theorem ofInt_eq {n : Int} (h : n.natAbs < 2 ^ 64) :
    ∃ hrep, ofInt n = .finite (n < 0) (nearestUnits n.natAbs 1 * one) hrep :=
  ⟨representable_nearestUnits h, ofRatio_of_nearestUnits (nearestUnits_mul_one _) _ _⟩

end Double

namespace Integer

open Double hiding one one_pos

/-- Integers have at most 64 bits. -/
theorem natAbs_lt (a : Integer) : a.val.natAbs < 2 ^ 64 := by
  have := a.lower
  have := a.upper
  omega

/-- Two integers are equal as doubles if they round to one. -/
theorem equal_ofInt_iff {a b : Integer} :
    (ofInt a.val).equal (ofInt b.val) = true ↔ rounded a.val = rounded b.val := by
  obtain ⟨_, ha⟩ := ofInt_eq a.natAbs_lt
  obtain ⟨_, hb⟩ := ofInt_eq b.natAbs_lt
  have hone : (Double.one : Int) ≠ 0 := Int.natCast_ne_zero.2 Double.one_pos.ne'
  rw [ha, hb, equal, compare?, beq_iff_eq, Option.some.injEq, compare_eq_iff_eq, signed_mul, signed_mul,
    Int.mul_eq_mul_right_iff hone]
  rfl

/-- Two integers have one double if they round to one. -/
theorem ofInt_eq_ofInt_iff {a b : Integer} :
    ofInt a.val = ofInt b.val ↔ rounded a.val = rounded b.val := by
  constructor
  · intro h
    rw [← equal_ofInt_iff, h, equal_ofInt_iff]
  · intro h
    obtain ⟨_, ha⟩ := ofInt_eq a.natAbs_lt
    obtain ⟨_, hb⟩ := ofInt_eq b.natAbs_lt
    have hunits : nearestUnits a.val.natAbs 1 = nearestUnits b.val.natAbs 1 := by
      rw [← natAbs_rounded, h, natAbs_rounded]
    have hsign : decide (a.val < 0) = decide (b.val < 0) := by
      rw [decide_eq_decide, ← rounded_neg_iff, h, rounded_neg_iff]
    simp only [ha, hb, hunits, hsign]

/-- Two integers that doubles do not tell apart. -/
def Blurred (a b : Integer) : Prop := a ≠ b ∧ ofInt a.val = ofInt b.val

/-- Integers are equal as doubles if they are the same or blurred. -/
theorem equal_ofInt_iff_same {a b : Integer} :
    (ofInt a.val).equal (ofInt b.val) = true ↔ a = b ∨ Blurred a b := by
  rw [equal_ofInt_iff, ← ofInt_eq_ofInt_iff, Blurred]
  constructor
  · intro h
    exact (em (a = b)).imp_right fun hne => ⟨hne, h⟩
  · rintro (rfl | ⟨-, h⟩)
    · rfl
    · exact h

namespace Blurred

variable {a b : Integer}

/-- Two integers have the same nearest float in either order. -/
theorem symm (h : Blurred a b) : Blurred b a := ⟨h.1.symm, h.2.symm⟩

/-- Only integers beyond 53 bits have the nearest float of another one. -/
theorem far_left (h : Blurred a b) : 2 ^ 53 ≤ a.val.natAbs := by
  by_contra ha
  have hrounded : rounded a.val = rounded b.val := ofInt_eq_ofInt_iff.1 h.2
  rw [rounded_of_lt (by omega)] at hrounded
  rcases Nat.lt_or_ge b.val.natAbs (2 ^ 53) with hb | hb
  · rw [rounded_of_lt hb] at hrounded
    exact h.1 (ext_val hrounded)
  · have hle : 2 ^ 53 ≤ (rounded b.val).natAbs := natAbs_rounded b.val ▸ le_nearestUnits hb
    omega

/-- Blurred integers have 54 binary digits or more. -/
theorem far (h : Blurred a b) : 2 ^ 53 ≤ a.val.natAbs ∧ 2 ^ 53 ≤ b.val.natAbs := ⟨h.far_left, h.symm.far_left⟩

/-- Blurred integers are close to each other in proportion to their size. -/
theorem close (h : Blurred a b) : 2 ^ 53 * (a.val - b.val).natAbs ≤ a.val.natAbs + b.val.natAbs := by
  obtain ⟨hfar, hfar'⟩ := h.far
  have hrounded : rounded a.val = rounded b.val := ofInt_eq_ofInt_iff.1 h.2
  have ha := two_mul_dist_rounded_le a.val
  have hb := two_mul_dist_rounded_le b.val
  have hgap : gap a.val.natAbs * 2 ^ 52 ≤ a.val.natAbs := gap_mul_le (by omega)
  have hgap' : gap b.val.natAbs * 2 ^ 52 ≤ b.val.natAbs := gap_mul_le (by omega)
  omega

end Blurred

end Integer

end TypedData
