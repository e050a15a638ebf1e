import Mathlib.Tactic.Ring
import Mathlib.Tactic.Linarith
import TypedData.Number.Decimal

/-!
# Decimals and the doubles next to them

Rounding depends on the ratio only and not on the numbers it is given as (`Double.ofRatio_congr`).  Reading
a decimal forms no powers of ten of extreme size, but it gives what rounding the exact value would give
(`Double.ofDecimal_eq_ofRatio`), so decimals of one value are read as one double
(`Double.ofDecimal_mul_pow`).  The shortest decimal of a double is read as that double
(`Double.ofDecimal_shortest`).
-/

namespace TypedData

-- A power of naturals is core's, whatever other instance is in scope.
attribute [local instance (high)] instPowNat

/-! ## Rounding -/

/-- A rounded quotient does not change with a common factor. -/
theorem roundEven_mul_mul {k : Nat} (hk : 0 < k) (num den : Nat) :
    roundEven (num * k) (den * k) = roundEven num den := by
  have hbelow : 2 * (num % den * k) < den * k ↔ 2 * (num % den) < den := by
    rw [← Nat.mul_assoc, Nat.mul_lt_mul_right hk]
  have habove : den * k < 2 * (num % den * k) ↔ den < 2 * (num % den) := by
    rw [← Nat.mul_assoc, Nat.mul_lt_mul_right hk]
  simp only [roundEven, Nat.mul_mod_mul_right, Nat.mul_div_mul_right _ _ hk, hbelow, habove]

/-- A rounded quotient is at least the quotient. -/
theorem div_le_roundEven (num den : Nat) : num / den ≤ roundEven num den := by
  unfold roundEven
  dsimp only
  split
  · exact Nat.le_refl _
  · split <;> omega

/-- Less than half is rounded to zero. -/
theorem roundEven_of_two_mul_lt {num den : Nat} (h : 2 * num < den) : roundEven num den = 0 := by
  have hlt : num < den := by omega
  simp [roundEven, Nat.div_eq_of_lt hlt, Nat.mod_eq_of_lt hlt, h]

namespace Double

/-- The nearest number does not change with a common factor. -/
theorem nearestUnits_mul_mul {k : Nat} (hk : 0 < k) (num den : Nat) :
    nearestUnits (num * k) (den * k) = nearestUnits num den := by
  unfold nearestUnits
  dsimp only
  rw [Nat.mul_div_mul_right _ _ hk, Nat.mul_right_comm, roundEven_mul_mul hk]

/-- A ratio is the same float with a common factor. -/
theorem ofRatio_mul_mul (s : Bool) {k : Nat} (hk : 0 < k) (num den : Nat) :
    ofRatio s (num * k) (den * k) = ofRatio s num den := by
  unfold ofRatio
  rw [nearestUnits_mul_mul hk]

/-- **Rounding depends on the ratio only.** -/
theorem ofRatio_congr (s : Bool) {num den num' den' : Nat} (hden : 0 < den) (hden' : 0 < den')
    (h : num * den' = num' * den) : ofRatio s num den = ofRatio s num' den' := by
  rw [← ofRatio_mul_mul s hden' num den, ← ofRatio_mul_mul s hden num' den', h, Nat.mul_comm den]

/-- The sign takes no part in rounding. -/
theorem ofRatio_of_false {s : Bool} {num den u : Nat} {hu : Representable u}
    (h : ofRatio false num den = .finite false u hu) : ofRatio s num den = .finite s u hu := by
  unfold ofRatio at h ⊢
  dsimp only at h ⊢
  split at h
  · rename_i hunits
    rw [dif_pos hunits]
    injection h with _ hu'
    subst hu'
    rfl
  · cases h

/-- A ratio is the float that its nearest number makes. -/
theorem ofRatio_of_nearestUnits {num den u : Nat} (h : nearestUnits num den = u)
    (hu : Representable u) (s : Bool) : ofRatio s num den = .finite s u hu := by
  subst h
  exact dif_pos hu

/-- Zero over anything is zero. -/
theorem ofRatio_zero (s : Bool) (den : Nat) : ofRatio s 0 den = zero s := by
  have hunits : nearestUnits 0 den = 0 := by simp [nearestUnits, roundEven]
  exact ofRatio_of_nearestUnits hunits representable_zero s

/-- What is less than half a unit is zero. -/
theorem ofRatio_of_two_mul_lt (s : Bool) {num den : Nat} (h : 2 * num < den) :
    ofRatio s num den = zero s := by
  have hgap : gap 0 = 1 := rfl
  have hunits : nearestUnits num den = 0 := by
    rw [nearestUnits, Nat.div_eq_of_lt (by omega), hgap, Nat.mul_one, Nat.mul_one,
      roundEven_of_two_mul_lt h]
  exact ofRatio_of_nearestUnits hunits representable_zero s

/-- Rounding does not go below a power of two. -/
theorem two_pow_log2_le_nearestUnits {n : Nat} (h : n ≠ 0) : 2 ^ n.log2 ≤ nearestUnits n 1 := by
  have hdvd : gap n ∣ 2 ^ n.log2 := Nat.pow_dvd_pow 2 (Nat.sub_le _ _)
  rw [nearestUnits, Nat.div_one, Nat.one_mul]
  calc 2 ^ n.log2 = 2 ^ n.log2 / gap n * gap n := (Nat.div_mul_cancel hdvd).symm
    _ ≤ n / gap n * gap n := by gcongr; exact Nat.log2_self_le h
    _ ≤ roundEven n (gap n) * gap n := by gcongr; exact div_le_roundEven _ _

/-- What is beyond every finite double is infinite. -/
theorem ofRatio_of_le (s : Bool) {num : Nat} (h : 2 ^ maxBits ≤ num) :
    ofRatio s num 1 = .infinite s := by
  have hne : num ≠ 0 := by
    have := Nat.two_pow_pos maxBits
    omega
  have hlog : maxBits ≤ num.log2 := (Nat.le_log2 hne).2 h
  have hle : 2 ^ num.log2 ≤ nearestUnits num 1 := two_pow_log2_le_nearestUnits hne
  have hnot : ¬ Representable (nearestUnits num 1) := fun hrep => by
    have hpow : 2 ^ maxBits ≤ 2 ^ num.log2 := Nat.pow_le_pow_right Nat.two_pos hlog
    have := hrep.2
    omega
  unfold ofRatio
  dsimp only
  rw [dif_neg hnot]

/-! ## Decimals -/

/-- **Reading a decimal is rounding its value once.** -/
theorem ofDecimal_eq_ofRatio (s : Bool) (d : Decimal) :
    ofDecimal s d = ofRatio s (d.digits * 10 ^ d.exponent.toNat * one) (10 ^ (-d.exponent).toNat) := by
  unfold ofDecimal
  split
  · rename_i hzero
    rw [hzero, Nat.zero_mul, Nat.zero_mul, ofRatio_zero]
  · rename_i hdigits
    split
    · rename_i hlarge
      rw [show (-d.exponent).toNat = 0 by omega, Nat.pow_zero, ofRatio_of_le]
      obtain ⟨k, n, hk, hle, hn⟩ : ∃ k n, maxBits = k + places ∧ k ≤ 3 * n ∧ n = 400 :=
        ⟨1024, 400, rfl, by decide, rfl⟩
      rw [hk, Nat.pow_add]
      refine Nat.mul_le_mul_right _ ?_
      calc 2 ^ k ≤ 2 ^ (3 * n) := Nat.pow_le_pow_right Nat.two_pos hle
        _ = 8 ^ n := by rw [Nat.pow_mul]
        _ ≤ 10 ^ n := Nat.pow_le_pow_left (by decide) _
        _ ≤ 10 ^ d.exponent.toNat := Nat.pow_le_pow_right (by decide) (by omega)
        _ ≤ d.digits * 10 ^ d.exponent.toNat := Nat.le_mul_of_pos_left _ (by omega)
    · split
      · rename_i hsmall
        have hexp : d.exponent.toNat = 0 := by omega
        rw [hexp, Nat.pow_zero, Nat.mul_one, ofRatio_of_two_mul_lt]
        calc 2 * (d.digits * one) < 2 * (2 ^ (d.digits.log2 + 1) * one) :=
              Nat.mul_lt_mul_of_pos_left (Nat.mul_lt_mul_of_pos_right Nat.lt_log2_self one_pos)
                Nat.two_pos
          _ = 2 ^ (1 + (d.digits.log2 + 1 + places)) := by
              rw [one, Nat.pow_add 2 1, Nat.pow_one, Nat.pow_add 2 (d.digits.log2 + 1)]
          _ ≤ 2 ^ (d.digits.log2 + 1101) := Nat.pow_le_pow_right Nat.two_pos (by rw [places]; omega)
          _ ≤ 10 ^ (d.digits.log2 + 1101) := Nat.pow_le_pow_left (by decide) _
          _ ≤ 10 ^ (-d.exponent).toNat := Nat.pow_le_pow_right (by decide) (by omega)
      · split
        · rw [show (-d.exponent).toNat = 0 by omega, Nat.pow_zero]
        · rw [show d.exponent.toNat = 0 by omega, Nat.pow_zero, Nat.mul_one]

/-- Decimals of one value are read as one double. -/
theorem ofDecimal_mul_pow (s : Bool) (digits zeros : Nat) (exponent : Int) :
    ofDecimal s ⟨digits * 10 ^ zeros, exponent⟩ = ofDecimal s ⟨digits, exponent + zeros⟩ := by
  rw [ofDecimal_eq_ofRatio, ofDecimal_eq_ofRatio]
  refine ofRatio_congr s (Nat.pow_pos (by decide)) (Nat.pow_pos (by decide)) ?_
  have hpow : 10 ^ zeros * (10 ^ exponent.toNat * 10 ^ (-(exponent + zeros)).toNat) =
      10 ^ (exponent + zeros).toNat * 10 ^ (-exponent).toNat := by
    rw [← Nat.pow_add, ← Nat.pow_add, ← Nat.pow_add]
    congr 1
    omega
  calc digits * 10 ^ zeros * 10 ^ exponent.toNat * one * 10 ^ (-(exponent + zeros)).toNat
      = digits * one * (10 ^ zeros * (10 ^ exponent.toNat * 10 ^ (-(exponent + zeros)).toNat)) := by
        ring
    _ = digits * 10 ^ (exponent + zeros).toNat * one * 10 ^ (-exponent).toNat := by
        rw [hpow]
        ring

/-! ## The shortest decimal -/

/-- A decimal that reads back as a number is the float of that number. -/
theorem ofDecimal_of_readsBack {u : Nat} {d : Decimal} (hu : Representable u)
    (h : readsBack u d = true) (s : Bool) : ofDecimal s d = .finite s u hu := by
  unfold readsBack at h
  split at h
  · rename_i v hv hread
    obtain rfl := beq_iff_eq.1 h
    rw [ofDecimal_eq_ofRatio] at hread ⊢
    exact ofRatio_of_false hread
  · cases h

/-- The nearest multiple that is chosen for a number reads back as it. -/
theorem readsBack_of_nearestMultiple? {tie : TieRule} {u : Nat} {exponent : Int} {d : Decimal}
    (h : nearestMultiple? tie u exponent = some d) : readsBack u d = true := by
  unfold nearestMultiple? at h
  lift_lets at h
  extract_lets num den below rest low high at h
  split at h
  · rename_i hlow hhigh
    split at h
    · exact Option.some.inj h ▸ hlow
    · split at h
      · exact Option.some.inj h ▸ hhigh
      · split at h
        · exact Option.some.inj h ▸ hhigh
        · split at h
          · exact Option.some.inj h ▸ hlow
          · exact Option.some.inj h ▸ hhigh
  · rename_i hlow _
    exact Option.some.inj h ▸ hlow
  · rename_i _ hhigh
    exact Option.some.inj h ▸ hhigh
  · cases h

/-- The exact expansion of a double is read as the double. -/
theorem ofDecimal_exact {u : Nat} (hu : Representable u) (s : Bool) :
    ofDecimal s ⟨u * 5 ^ places, -places⟩ = .finite s u hu := by
  have hten : 10 ^ places = 5 ^ places * one := by
    rw [one, ← Nat.mul_pow]
  rw [ofDecimal_eq_ofRatio]
  dsimp only
  rw [show (-(places : Int)).toNat = 0 by omega, show (- -(places : Int)).toNat = places by omega,
    Nat.pow_zero, Nat.mul_one, Nat.mul_assoc, ← hten]
  exact ofRatio_of_representable (Nat.pow_pos (by decide)) hu

/-- **The shortest decimal of a double is read as the double.** -/
theorem ofDecimal_shortest (tie : TieRule) {u : Nat} (hu : Representable u) (s : Bool) :
    ofDecimal s (shortest tie u) = .finite s u hu := by
  unfold shortest
  extract_lets candidate
  cases hfound : (List.range 17).findSome? candidate with
  | none => exact ofDecimal_exact hu s
  | some d =>
    obtain ⟨count, -, hcount⟩ := List.exists_of_findSome?_eq_some hfound
    exact ofDecimal_of_readsBack hu (readsBack_of_nearestMultiple? hcount) s

end Double

end TypedData
