import TypedData.Proofs.Number.Rounding
import TypedData.Token.Lexeme

/-!
# Numbers that are written and read

A number is written as digits, a point and more digits, and an exponent, of which the last two may be
missing (`NumberText`).  A reader takes all of it and nothing else (`Numeral.read_chars`), and what it takes
stands for the number: the texts of integers and of finite doubles are read as themselves
(`Integer.ofText?_text`, `Double.ofText?_text`).
-/

namespace TypedData

/-! ## Runs of characters -/

section Runs

variable {α : Type} {class_ : α → Bool} {run rest : List α}

/-- A run is taken up to what is not of its class. -/
theorem takeWhile_run (hrun : ∀ c ∈ run, class_ c = true) (hrest : ∀ c ∈ rest.head?, class_ c = false) :
    (run ++ rest).takeWhile class_ = run := by
  rw [List.takeWhile_append_of_pos hrun]
  cases rest with
  | nil => exact List.append_nil run
  | cons c rest => rw [List.takeWhile_cons_of_neg (by rw [hrest c rfl]; decide), List.append_nil]

/-- What follows a run is left. -/
theorem dropWhile_run (hrun : ∀ c ∈ run, class_ c = true) (hrest : ∀ c ∈ rest.head?, class_ c = false) :
    (run ++ rest).dropWhile class_ = rest := by
  rw [List.dropWhile_append_of_pos hrun]
  cases rest with
  | nil => rfl
  | cons c rest => rw [List.dropWhile_cons_of_neg (by rw [hrest c rfl]; decide)]

end Runs

/-! ## Numbers as they are written -/

/-- The exponent of a number as it is written. -/
structure ExponentText where
  negative : Bool
  digits : List Char
  digits_ne_nil : digits ≠ []
  isDigit : ∀ c ∈ digits, c.isDigit = true

/-- The exponent with the letter before it. -/
def ExponentText.chars (e : ExponentText) : List Char :=
  'e' :: ((if e.negative then ['-'] else []) ++ e.digits)

/-- A number without its sign as it is written. -/
structure NumberText where
  whole : List Char
  /-- The digits after the point; without any of them there is no point. -/
  fraction : List Char
  exponent : Option ExponentText
  whole_ne_nil : whole ≠ []
  isDigit : ∀ c ∈ whole ++ fraction, c.isDigit = true

/-- What may follow a number: no letter and no digit, and no point with a digit after it. -/
structure EndsNumber (rest : List Char) : Prop where
  isWordChar : ∀ c ∈ rest.head?, isWordChar c = false
  isDigit : ∀ d tail, rest = '.' :: d :: tail → d.isDigit = false

/-- Digits are word characters. -/
theorem isWordChar_of_isDigit {c : Char} (h : c.isDigit = true) : isWordChar c = true := by
  simp [isWordChar, Char.isAlphanum, h]

/-- What is not a word character is not a digit. -/
theorem isDigit_eq_false {c : Char} (h : isWordChar c = false) : c.isDigit = false :=
  Bool.eq_false_iff.2 fun hdigit => by simp [isWordChar_of_isDigit hdigit] at h

namespace NumberText

/-- The characters after the whole digits, up to the exponent. -/
def fractionChars (t : NumberText) : List Char :=
  if t.fraction = [] then [] else '.' :: t.fraction

/-- The characters of the exponent. -/
def exponentChars (t : NumberText) : List Char := (t.exponent.map ExponentText.chars).getD []

/-- The characters of the number. -/
def chars (t : NumberText) : List Char := t.whole ++ (t.fractionChars ++ t.exponentChars)

/-- Whether the number has a point or an exponent. -/
def isFractional (t : NumberText) : Bool := !t.fraction.isEmpty || t.exponent.isSome

/-- The power of ten that is written after the number. -/
def power (t : NumberText) : Int :=
  match t.exponent with
  | none => 0
  | some e => if e.negative then -digitsValue e.digits else digitsValue e.digits

/-- The value of the number. -/
def decimal (t : NumberText) : Decimal :=
  ⟨digitsValue (t.whole ++ t.fraction), t.power - t.fraction.length⟩

/-- The whole part of a number is made of digits. -/
theorem whole_isDigit (t : NumberText) : ∀ c ∈ t.whole, c.isDigit = true :=
  fun c hc => t.isDigit c (List.mem_append_left _ hc)

/-- The fraction of a number is made of digits. -/
theorem fraction_isDigit (t : NumberText) : ∀ c ∈ t.fraction, c.isDigit = true :=
  fun c hc => t.isDigit c (List.mem_append_right _ hc)

/-- A number starts with a digit. -/
theorem exists_chars (t : NumberText) : ∃ d tail, t.chars = d :: tail ∧ d.isDigit = true := by
  obtain ⟨d, tail, hwhole⟩ := List.exists_cons_of_ne_nil t.whole_ne_nil
  refine ⟨d, tail ++ (t.fractionChars ++ t.exponentChars), ?_, ?_⟩
  · rw [chars, hwhole, List.cons_append]
  · exact t.whole_isDigit d (hwhole ▸ List.mem_cons_self)

end NumberText

/-! ## Reading -/

namespace Lexeme.Numeral

variable {taken rest : List Char} {f v : Bool}

/-- A run is taken up to what is not of its class, behind what was taken before. -/
theorem takeRun_run (taken : List Char) (f v : Bool) {class_ : Char → Bool} {run : List Char}
    (hrun : ∀ c ∈ run, class_ c = true) (hrest : ∀ c ∈ rest.head?, class_ c = false) :
    takeRun class_ ⟨taken, run ++ rest, f, v⟩ = ⟨taken ++ run, rest, f, v⟩ := by
  rw [takeRun]
  dsimp only
  rw [takeWhile_run hrun hrest, dropWhile_run hrun hrest]

/-- Without a digit behind the point there is no fraction. -/
theorem takeFraction?_eq_none (h : ∀ d tail, rest = '.' :: d :: tail → d.isDigit = false) :
    takeFraction? ⟨taken, rest, f, v⟩ = none := by
  unfold takeFraction?
  dsimp only
  split
  · rename_i d tail
    rw [h d tail rfl]
    rfl
  · rfl

/-- A point with digits behind it is a fraction. -/
theorem takeFraction?_eq_some {fraction : List Char} (hne : fraction ≠ [])
    (hfraction : ∀ c ∈ fraction, c.isDigit = true) (hrest : ∀ c ∈ rest.head?, c.isDigit = false) :
    takeFraction? ⟨taken, '.' :: (fraction ++ rest), f, v⟩ =
      some ⟨taken ++ '.' :: fraction, rest, f, v⟩ := by
  obtain ⟨d, digits, rfl⟩ := List.exists_cons_of_ne_nil hne
  have hrun := takeRun_run (taken ++ ['.']) f v hfraction hrest
  change (if d.isDigit = true then
    some (takeRun Char.isDigit ⟨taken ++ ['.'], d :: digits ++ rest, f, v⟩) else none) = _
  rw [if_pos (hfraction d List.mem_cons_self), hrun, List.append_assoc]
  rfl

/-- The fraction of a number is read, where it has one. -/
theorem takeFractions_chars (t : NumberText) {tail : List Char}
    (htail : ∀ c ∈ tail.head?, c.isDigit = false ∧ c ≠ '.') (hrest : EndsNumber rest) :
    takeFractions ⟨taken, t.fractionChars ++ (tail ++ rest), f, v⟩ =
      ⟨taken ++ t.fractionChars, tail ++ rest, f || !t.fraction.isEmpty, v⟩ := by
  have hdigit : ∀ c ∈ (tail ++ rest).head?, c.isDigit = false := by
    cases tail with
    | nil => exact fun c hc => isDigit_eq_false (hrest.isWordChar c hc)
    | cons c tail => exact fun c hc => (htail c hc).1
  have hnone : ∀ taken f v, takeFraction? ⟨taken, tail ++ rest, f, v⟩ = none := by
    intro taken f v
    refine takeFraction?_eq_none fun d after hpoint => ?_
    cases tail with
    | nil => exact hrest.isDigit d after hpoint
    | cons c tail =>
      obtain ⟨rfl, -⟩ := List.cons.inj hpoint
      exact absurd rfl (htail _ rfl).2
  unfold takeFractions NumberText.fractionChars
  by_cases hfraction : t.fraction = []
  · rw [if_pos hfraction, List.nil_append, hnone, hfraction, List.append_nil, List.isEmpty_nil,
      Bool.not_true, Bool.or_false]
  · rw [if_neg hfraction, List.cons_append,
      takeFraction?_eq_some hfraction t.fraction_isDigit hdigit]
    dsimp only
    rw [hnone, List.isEmpty_eq_false_iff.2 hfraction, Bool.not_false, Bool.or_true]

/-- An exponent is read. -/
theorem takeExponent_chars (e : ExponentText) (hrest : EndsNumber rest) :
    takeExponent ⟨taken, e.chars ++ rest, f, v⟩ = ⟨taken ++ e.chars, rest, true, v⟩ := by
  have hdigit : ∀ c ∈ rest.head?, c.isDigit = false :=
    fun c hc => isDigit_eq_false (hrest.isWordChar c hc)
  obtain ⟨d, digits, hdigits⟩ := List.exists_cons_of_ne_nil e.digits_ne_nil
  have hd : d.isDigit = true := e.isDigit d (hdigits ▸ List.mem_cons_self)
  have hsign : takeSign ⟨taken ++ ['e'], (if e.negative then ['-'] else []) ++ (e.digits ++ rest),
      true, v⟩ = ⟨taken ++ ['e'] ++ (if e.negative then ['-'] else []), e.digits ++ rest, true, v⟩ := by
    split
    · rfl
    · rw [hdigits]
      unfold takeSign
      dsimp only [List.nil_append, List.cons_append]
      split
      · rename_i heq
        obtain ⟨rfl, -⟩ := List.cons.inj heq
        cases hd
      · rename_i heq
        obtain ⟨rfl, -⟩ := List.cons.inj heq
        cases hd
      · rw [List.append_nil]
  have hrun := takeRun_run (taken ++ ['e'] ++ (if e.negative then ['-'] else [])) true v e.isDigit hdigit
  unfold takeExponent ExponentText.chars
  dsimp only [List.cons_append]
  rw [if_pos (by decide), List.append_assoc, hsign]
  dsimp only
  rw [show ((e.digits ++ rest).head?.map Char.isDigit).getD false = true by rw [hdigits]; exact hd,
    Bool.and_true, hrun]
  simp only [List.append_assoc, List.cons_append, List.nil_append]

/-- Nothing more is read at the end of a number. -/
theorem takeExponent_of_ends (hrest : EndsNumber rest) :
    takeExponent ⟨taken, rest, f, v⟩ = ⟨taken, rest, f, v⟩ := by
  cases rest with
  | nil => rfl
  | cons c rest =>
    have hc := hrest.isWordChar c rfl
    unfold takeExponent
    dsimp only
    rw [if_neg]
    intro he
    rcases Bool.or_eq_true_iff.1 he with he | he
    · rw [of_decide_eq_true he] at hc
      cases hc
    · rw [of_decide_eq_true he] at hc
      cases hc

/-- Nothing is taken where a number ends. -/
theorem takeTail_of_ends (hrest : EndsNumber rest) :
    takeTail ⟨taken, rest, f, v⟩ = ⟨taken, rest, f, v⟩ := by
  have hglued : (rest.head?.map isWordChar).getD false = false := by
    cases rest with
    | nil => rfl
    | cons c rest => exact hrest.isWordChar c rfl
  have hrun : takeRun isWordChar ⟨taken, [] ++ rest, f, v⟩ = ⟨taken ++ [], rest, f, v⟩ :=
    takeRun_run taken f v (List.forall_mem_nil _) hrest.isWordChar
  unfold takeTail
  dsimp only
  rw [hglued, Bool.not_false, Bool.and_true]
  rwa [List.nil_append, List.append_nil] at hrun

/-- **A number is read to its end.** -/
theorem read_chars (t : NumberText) (sign : List Char) (hrest : EndsNumber rest) :
    read sign (t.chars ++ rest) = ⟨sign ++ t.chars, rest, t.isFractional, true⟩ := by
  have htail : ∀ c ∈ t.exponentChars.head?, c.isDigit = false ∧ c ≠ '.' := by
    unfold NumberText.exponentChars
    cases t.exponent with
    | none => rintro _ ⟨⟩
    | some e =>
      rintro _ ⟨⟩
      exact ⟨rfl, by decide⟩
  have hdigit : ∀ c ∈ (t.fractionChars ++ (t.exponentChars ++ rest)).head?, c.isDigit = false := by
    unfold NumberText.fractionChars
    split
    · cases hexp : t.exponentChars with
      | nil => exact fun c hc => isDigit_eq_false (hrest.isWordChar c hc)
      | cons c tail =>
        rw [hexp] at htail
        exact fun c hc => (htail c hc).1
    · rintro _ ⟨⟩
      rfl
  unfold read NumberText.chars
  rw [List.append_assoc, List.append_assoc, takeRun_run sign false true t.whole_isDigit hdigit,
    takeFractions_chars t htail hrest, Bool.false_or]
  unfold NumberText.exponentChars NumberText.isFractional
  cases t.exponent with
  | none =>
    rw [Option.map_none, Option.getD_none, List.nil_append, takeExponent_of_ends hrest,
      takeTail_of_ends hrest, List.append_nil, List.append_assoc, Option.isSome_none, Bool.or_false]
  | some e =>
    rw [Option.map_some, Option.getD_some, takeExponent_chars e hrest, takeTail_of_ends hrest,
      List.append_assoc, List.append_assoc, Option.isSome_some, Bool.or_true]

end Lexeme.Numeral

/-! ## Values -/

/-- The value of digits is that of the library, in base ten. -/
theorem digitsValue_eq (digits : List Char) : digitsValue digits = Nat.ofDigitChars 10 digits 0 :=
  Nat.ofDigitChars_eq_foldl.symm

/-- The digits of a number have its value. -/
theorem digitsValue_toDigits (n : Nat) : digitsValue (Nat.toDigits 10 n) = n := by
  rw [digitsValue_eq, Nat.ofDigitChars_ten_toDigits]

/-- The value of digits is shifted by those behind them. -/
theorem digitsValue_append (digits digits' : List Char) :
    digitsValue (digits ++ digits') = digitsValue digits * 10 ^ digits'.length + digitsValue digits' := by
  rw [digitsValue_eq, Nat.ofDigitChars_append, Nat.ofDigitChars_eq_ofDigitChars_zero, digitsValue_eq,
    digitsValue_eq, Nat.mul_comm]

/-- Zeros have no value. -/
theorem digitsValue_zeros (n : Nat) : digitsValue (List.replicate n '0') = 0 := by
  rw [digitsValue_eq, Nat.ofDigitChars_replicate_zero, Nat.mul_zero]

/-- The digits of a number are digits. -/
theorem isDigit_toDigits (n : Nat) : ∀ c ∈ Nat.toDigits 10 n, c.isDigit = true :=
  fun _ => Nat.isDigit_of_mem_toDigits (by decide) (by decide)

/-- A minus is a sign. -/
theorem splitSign_minus (tail : List Char) : splitSign ('-' :: tail) = (true, tail) := rfl

/-- Digits start with no sign. -/
theorem splitSign_of_isDigit {d : Char} (hd : d.isDigit = true) (tail : List Char) :
    splitSign (d :: tail) = (false, d :: tail) := by
  unfold splitSign
  split
  · rename_i heq
    obtain ⟨rfl, -⟩ := List.cons.inj heq
    cases hd
  · rename_i heq
    obtain ⟨rfl, -⟩ := List.cons.inj heq
    cases hd
  · rfl

/-- An integer is written as a sign, where it is negative, and digits. -/
theorem toList_toString (n : Int) :
    (toString n).toList = (if n < 0 then ['-'] else []) ++ Nat.toDigits 10 n.natAbs := by
  cases n with
  | ofNat n =>
    change (Nat.repr n).toList = _
    rw [Nat.repr_eq_ofList_toDigits, String.toList_ofList, if_neg (by simp)]
    rfl
  | negSucc n =>
    change ("-" ++ Nat.repr (n + 1)).toList = _
    rw [String.toList_append, Nat.repr_eq_ofList_toDigits, if_pos (Int.negSucc_lt_zero n),
      String.toList_ofList, String.toList_ofList, Int.natAbs_negSucc]

/-- Digits are there, and nothing else. -/
theorem not_unreadable_toDigits (n : Nat) :
    ¬ ((Nat.toDigits 10 n = [] || !(Nat.toDigits 10 n).all Char.isDigit) = true) := by
  rw [List.all_eq_true.2 (isDigit_toDigits n), decide_eq_false Nat.toDigits_ne_nil]
  decide

/-- Digits after a minus are read as the negative number, where it fits. -/
theorem Integer.ofText?_minus (n : Nat) : Integer.ofText? ('-' :: Nat.toDigits 10 n) = ofInt? (-n) := by
  unfold Integer.ofText?
  rw [splitSign_minus]
  dsimp only
  rw [if_neg (not_unreadable_toDigits n), if_pos rfl, digitsValue_toDigits]

/-- **The text of an integer is read as the integer.** -/
theorem Integer.ofText?_text (a : Integer) : Integer.ofText? a.text.toList = some a := by
  obtain ⟨d, tail, hdigits⟩ := List.exists_cons_of_ne_nil (Nat.toDigits_ne_nil (n := a.val.natAbs) (b := 10))
  have hd : d.isDigit = true := isDigit_toDigits a.val.natAbs d (hdigits ▸ List.mem_cons_self)
  rw [Integer.text, toList_toString]
  by_cases hneg : a.val < 0
  · rw [if_pos hneg, List.singleton_append, ofText?_minus, show -((a.val.natAbs : Nat) : Int) = a.val by omega,
      ofInt?_val]
  · rw [if_neg hneg, List.nil_append, hdigits]
    unfold Integer.ofText?
    rw [splitSign_of_isDigit hd, ← hdigits]
    dsimp only
    rw [if_neg (not_unreadable_toDigits _), if_neg (by decide), digitsValue_toDigits,
      show ((a.val.natAbs : Nat) : Int) = a.val by omega, ofInt?_val]

namespace NumberText

/-- The exponent of a number stands for its power of ten. -/
theorem readExponent?_chars (e : ExponentText) :
    Decimal.readExponent? ((if e.negative then ['-'] else []) ++ e.digits) =
      some (if e.negative then -(digitsValue e.digits : Int) else digitsValue e.digits) := by
  obtain ⟨d, tail, hdigits⟩ := List.exists_cons_of_ne_nil e.digits_ne_nil
  have hd : d.isDigit = true := e.isDigit d (hdigits ▸ List.mem_cons_self)
  have hne : ¬ ((e.digits = [] || !e.digits.all Char.isDigit) = true) := by
    rw [List.all_eq_true.2 e.isDigit, decide_eq_false e.digits_ne_nil]
    decide
  unfold Decimal.readExponent?
  cases e.negative with
  | true =>
    rw [if_pos rfl, List.singleton_append, splitSign_minus]
    dsimp only
    rw [if_neg hne]
    rfl
  | false =>
    rw [if_neg (by decide), List.nil_append, hdigits, splitSign_of_isDigit hd, ← hdigits]
    dsimp only
    rw [if_neg hne]
    rfl

/-- **A number is read as its value.** -/
theorem ofText?_chars (t : NumberText) : Decimal.ofText? t.chars = some t.decimal := by
  have htail : ∀ c ∈ t.exponentChars.head?, c.isDigit = false ∧ c ≠ '.' := by
    unfold exponentChars
    cases t.exponent with
    | none => rintro _ ⟨⟩
    | some e =>
      rintro _ ⟨⟩
      exact ⟨rfl, by decide⟩
  have hdigit : ∀ c ∈ (t.fractionChars ++ t.exponentChars).head?, c.isDigit = false := by
    unfold fractionChars
    split
    · exact fun c hc => (htail c hc).1
    · rintro _ ⟨⟩
      rfl
  have hfraction : Decimal.splitFraction (t.fractionChars ++ t.exponentChars) =
      (t.fraction, t.exponentChars) := by
    unfold fractionChars
    by_cases hnil : t.fraction = []
    · rw [if_pos hnil, List.nil_append, hnil]
      unfold Decimal.splitFraction
      split
      · rename_i after hpoint
        exact absurd rfl (htail '.' (by rw [hpoint]; rfl)).2
      · rfl
    · rw [if_neg hnil, List.cons_append, Decimal.splitFraction,
        takeWhile_run t.fraction_isDigit fun c hc => (htail c hc).1,
        dropWhile_run t.fraction_isDigit fun c hc => (htail c hc).1]
  unfold Decimal.ofText? chars
  dsimp only
  rw [takeWhile_run t.whole_isDigit hdigit, dropWhile_run t.whole_isDigit hdigit, hfraction]
  dsimp only
  rw [decide_eq_false t.whole_ne_nil, Bool.false_and, if_neg (by decide)]
  unfold exponentChars decimal power
  cases t.exponent with
  | none => rw [Option.map_none, Option.getD_none, zero_sub]
  | some e =>
    rw [Option.map_some, Option.getD_some, ExponentText.chars]
    dsimp only
    rw [if_pos (by decide), readExponent?_chars]
    rfl

end NumberText

/-! ## Doubles -/

namespace DigitText

/-- The digits of a decimal are those of its text and zeros. -/
theorem exists_zeros (d : Decimal) : ∃ zeros, Nat.toDigits 10 d.digits =
    (ofDecimal d).digits ++ List.replicate zeros '0' := by
  have hsplit := List.takeWhile_append_dropWhile (p := (· == '0')) (l := (Nat.toDigits 10 d.digits).reverse)
  refine ⟨((Nat.toDigits 10 d.digits).reverse.takeWhile (· == '0')).length, ?_⟩
  have hzeros : (Nat.toDigits 10 d.digits).reverse.takeWhile (· == '0') =
      List.replicate ((Nat.toDigits 10 d.digits).reverse.takeWhile (· == '0')).length '0' :=
    List.eq_replicate_iff.2 ⟨rfl, fun c hc => beq_iff_eq.1 (List.all_eq_true.1 List.all_takeWhile c hc)⟩
  have hreverse := congrArg List.reverse hsplit
  rw [List.reverse_append, List.reverse_reverse, hzeros, List.reverse_replicate] at hreverse
  exact hreverse.symm

/-- The digits of a decimal are digits. -/
theorem isDigit_ofDecimal (d : Decimal) : ∀ c ∈ (ofDecimal d).digits, c.isDigit = true := by
  obtain ⟨zeros, hdigits⟩ := exists_zeros d
  exact fun c hc => isDigit_toDigits d.digits c (hdigits ▸ List.mem_append_left _ hc)

/-- The value of digits that have the point before them, moved by some places. -/
def decimal (t : DigitText) : Decimal := ⟨digitsValue t.digits, t.point - t.digits.length⟩

/-- The digits of a decimal have its value. -/
theorem ofDecimal_decimal (s : Bool) (d : Decimal) :
    Double.ofDecimal s (ofDecimal d).decimal = Double.ofDecimal s d := by
  obtain ⟨zeros, hdigits⟩ := exists_zeros d
  have hvalue : d.digits = digitsValue (ofDecimal d).digits * 10 ^ zeros := by
    have h := digitsValue_toDigits d.digits
    rw [hdigits, digitsValue_append, digitsValue_zeros, List.length_replicate, Nat.add_zero] at h
    exact h.symm
  have hpoint : (ofDecimal d).point - (ofDecimal d).digits.length = d.exponent + zeros := by
    change d.exponent + (Nat.toDigits 10 d.digits).length - _ = _
    rw [hdigits, List.length_append, List.length_replicate]
    omega
  have hd : d = ⟨digitsValue (ofDecimal d).digits * 10 ^ zeros, d.exponent⟩ := by
    cases d
    exact congrArg (Decimal.mk · _) hvalue
  rw [decimal, hpoint, ← Double.ofDecimal_mul_pow, ← hd]

/-- Digits that are left have a value. -/
theorem ofDecimal_ne_nil {d : Decimal} (h : d.digits ≠ 0) : (ofDecimal d).digits ≠ [] := by
  intro hnil
  obtain ⟨zeros, hdigits⟩ := exists_zeros d
  have hvalue := digitsValue_toDigits d.digits
  rw [hdigits, hnil, List.nil_append, digitsValue_zeros] at hvalue
  exact h hvalue.symm

variable {t : DigitText}

/-- The text is that of a number with a point or an exponent, which has the value of the digits. -/
def IsWritten (t : DigitText) (text : String) : Prop :=
  ∃ n : NumberText, text.toList = n.chars ∧ n.isFractional = true ∧
    ∀ s, Double.ofDecimal s n.decimal = Double.ofDecimal s t.decimal

/-- Zeros are digits. -/
theorem isDigit_zeros (k : Nat) : ∀ c ∈ List.replicate k '0', c.isDigit = true :=
  fun _ hc => (List.eq_of_mem_replicate hc).symm ▸ rfl

/-- All digits stand behind the point, after some zeros. -/
theorem isWritten_behind (hne : t.digits ≠ []) (hdigit : ∀ c ∈ t.digits, c.isDigit = true) (hpoint : t.point ≤ 0) :
    t.IsWritten ("0." ++ String.ofList (List.replicate (-t.point).toNat '0' ++ t.digits)) := by
  have hall : ∀ c ∈ ['0'] ++ (List.replicate (-t.point).toNat '0' ++ t.digits), c.isDigit = true :=
    List.forall_mem_append.2 ⟨isDigit_zeros 1, List.forall_mem_append.2 ⟨isDigit_zeros _, hdigit⟩⟩
  have hvalue : digitsValue (['0'] ++ (List.replicate (-t.point).toNat '0' ++ t.digits)) =
      digitsValue t.digits := by
    rw [← List.append_assoc, ← List.replicate_one, List.replicate_append_replicate,
      digitsValue_append, digitsValue_zeros, Nat.zero_mul, Nat.zero_add]
  refine ⟨⟨['0'], _, none, by decide, hall⟩, ?_, ?_, fun s => congrArg (Double.ofDecimal s) ?_⟩
  · simp [NumberText.chars, NumberText.fractionChars, NumberText.exponentChars, hne]
  · simp [NumberText.isFractional, hne]
  · unfold NumberText.decimal decimal
    rw [hvalue, List.length_append, List.length_replicate]
    congr 1
    change (0 : Int) - _ = _
    omega

/-- All digits stand before the point, and some zeros after them. -/
theorem isWritten_before (hne : t.digits ≠ []) (hdigit : ∀ c ∈ t.digits, c.isDigit = true)
    (hpoint : ¬ t.point ≤ 0) (hle : t.digits.length ≤ t.point.toNat) :
    t.IsWritten (String.ofList (t.digits ++ List.replicate (t.point.toNat - t.digits.length) '0') ++ ".0") := by
  have hall : ∀ c ∈ t.digits ++ List.replicate (t.point.toNat - t.digits.length) '0' ++ ['0'],
      c.isDigit = true :=
    List.forall_mem_append.2 ⟨List.forall_mem_append.2 ⟨hdigit, isDigit_zeros _⟩, isDigit_zeros 1⟩
  have hvalue : digitsValue (t.digits ++ List.replicate (t.point.toNat - t.digits.length) '0' ++ ['0']) =
      digitsValue t.digits * 10 ^ (t.point.toNat - t.digits.length + 1) := by
    rw [List.append_assoc, ← List.replicate_one, List.replicate_append_replicate,
      digitsValue_append, digitsValue_zeros, Nat.add_zero, List.length_replicate]
  refine ⟨⟨_, ['0'], none, by simp [hne], hall⟩, ?_, rfl, fun s => ?_⟩
  · simp [NumberText.chars, NumberText.fractionChars, NumberText.exponentChars]
  · unfold NumberText.decimal decimal
    rw [hvalue, Double.ofDecimal_mul_pow]
    congr 2
    change (0 : Int) - 1 + _ = _
    omega

/-- The point stands between the digits. -/
theorem isWritten_between (hdigit : ∀ c ∈ t.digits, c.isDigit = true) (hpoint : ¬ t.point ≤ 0)
    (hlt : ¬ t.digits.length ≤ t.point.toNat) :
    t.IsWritten
      (String.ofList (t.digits.take t.point.toNat) ++ "." ++ String.ofList (t.digits.drop t.point.toNat)) := by
  have hall : ∀ c ∈ t.digits.take t.point.toNat ++ t.digits.drop t.point.toNat, c.isDigit = true := by
    rwa [List.take_append_drop]
  have hwhole : t.digits.take t.point.toNat ≠ [] := by
    rw [← List.length_pos_iff, List.length_take]
    omega
  have hfraction : t.digits.drop t.point.toNat ≠ [] := by
    rw [← List.length_pos_iff, List.length_drop]
    omega
  refine ⟨⟨_, _, none, hwhole, hall⟩, ?_, ?_, fun s => congrArg (Double.ofDecimal s) ?_⟩
  · simp [NumberText.chars, NumberText.fractionChars, NumberText.exponentChars, hfraction]
  · simp [NumberText.isFractional, hfraction]
  · unfold NumberText.decimal decimal
    rw [List.take_append_drop, List.length_drop]
    congr 1
    change (0 : Int) - _ = _
    omega

/-- A number in positional notation has a point. -/
theorem isWritten_positional (hne : t.digits ≠ []) (hdigit : ∀ c ∈ t.digits, c.isDigit = true) :
    t.IsWritten (t.positional ".0") := by
  unfold positional
  split
  · rename_i hpoint
    exact isWritten_behind hne hdigit hpoint
  · rename_i hpoint
    dsimp only
    split
    · rename_i hle
      exact isWritten_before hne hdigit hpoint hle
    · rename_i hlt
      exact isWritten_between hdigit hpoint hlt

/-- The text of an integer as an exponent. -/
def exponentText (n : Int) : ExponentText :=
  ⟨n < 0, Nat.toDigits 10 n.natAbs, Nat.toDigits_ne_nil, isDigit_toDigits _⟩

/-- An exponent is written with its sign and its digits. -/
theorem toList_exponentText (n : Int) : (toString n).toList =
    (if (exponentText n).negative then ['-'] else []) ++ (exponentText n).digits := by
  rw [toList_toString]
  simp [exponentText]

/-- The text of an exponent has its value. -/
theorem digitsValue_exponentText (n : Int) :
    (if (exponentText n).negative then -(digitsValue (exponentText n).digits : Int)
      else digitsValue (exponentText n).digits) = n := by
  unfold exponentText
  dsimp only
  rw [digitsValue_toDigits]
  by_cases hneg : n < 0
  · rw [if_pos (decide_eq_true hneg)]
    omega
  · rw [if_neg (by simpa using hneg)]
    omega

/-- A number with an exponent. -/
theorem isWritten_scientific (hne : t.digits ≠ []) (hdigit : ∀ c ∈ t.digits, c.isDigit = true) :
    t.IsWritten (t.scientific "") := by
  have hall : ∀ c ∈ t.digits.take 1 ++ t.digits.drop 1, c.isDigit = true := by
    rwa [List.take_append_drop]
  have hwhole : t.digits.take 1 ≠ [] := by
    rw [Ne, List.take_eq_nil_iff]
    rintro (h | h)
    · omega
    · exact hne h
  refine ⟨⟨_, _, some (exponentText (t.point - 1)), hwhole, hall⟩, ?_, ?_, fun s => ?_⟩
  · unfold scientific NumberText.chars NumberText.fractionChars NumberText.exponentChars
    have hexponent := toList_exponentText (t.point - 1)
    dsimp only
    by_cases hdrop : t.digits.drop 1 = []
    · rw [if_pos hdrop, hdrop]
      simp only [ExponentText.chars, ← hexponent, Option.map_some, Option.getD_some]
      simp
    · obtain ⟨d, fraction, hcons⟩ := List.exists_cons_of_ne_nil hdrop
      rw [if_neg hdrop, hcons]
      simp only [ExponentText.chars, ← hexponent, Option.map_some, Option.getD_some]
      simp
  · exact Bool.or_true _
  · have hpos := List.length_pos_iff.2 hne
    unfold NumberText.decimal NumberText.power decimal
    dsimp only
    rw [List.take_append_drop, List.length_drop, digitsValue_exponentText]
    congr 2
    omega

end DigitText

/-- A finite double is written as a number with a point or an exponent that is read as the double. -/
theorem Layout.exists_magnitude {u : Nat} (hu : Representable u) :
    ∃ n : NumberText, (Layout.value.magnitude u).toList = n.chars ∧ n.isFractional = true ∧
      ∀ s, Double.ofDecimal s n.decimal = .finite s u hu := by
  unfold magnitude
  by_cases hzero : u = 0
  · subst hzero
    rw [if_pos rfl]
    exact ⟨⟨['0'], ['0'], none, by simp, by simp⟩, rfl, rfl, fun s => rfl⟩
  · have hshortest := fun s => Double.ofDecimal_shortest Layout.value.tie hu s
    have hdigits : (Double.shortest Layout.value.tie u).digits ≠ 0 := by
      intro hnone
      have hfinite := hshortest false
      unfold Double.ofDecimal at hfinite
      rw [if_pos hnone] at hfinite
      injection hfinite with _ hunits
      exact hzero hunits.symm
    have hne := DigitText.ofDecimal_ne_nil hdigits
    have hdigit := DigitText.isDigit_ofDecimal (Double.shortest Layout.value.tie u)
    rw [if_neg hzero]
    dsimp only [Layout.value]
    split
    · obtain ⟨n, hchars, hpoint, hread⟩ := DigitText.isWritten_positional hne hdigit
      exact ⟨n, hchars, hpoint, fun s => by
        rw [hread, DigitText.ofDecimal_decimal]
        exact hshortest s⟩
    · obtain ⟨n, hchars, hpoint, hread⟩ := DigitText.isWritten_scientific hne hdigit
      exact ⟨n, hchars, hpoint, fun s => by
        rw [hread, DigitText.ofDecimal_decimal]
        exact hshortest s⟩

/-- Digits have no capital letters. -/
theorem toLower_of_isDigit {c : Char} (h : c.isDigit = true) : c.toLower = c := by
  unfold Char.isDigit at h
  unfold Char.toLower
  rw [dif_neg]
  simp only [Bool.and_eq_true, decide_eq_true_eq, ge_iff_le, UInt32.le_iff_toNat_le] at h ⊢
  intro hupper
  have h₁ := h.2
  have h₂ := hupper.1
  exact absurd (Nat.le_trans h₂ h₁) (by decide)

/-- A number is read as the double next to it. -/
theorem Double.ofText?_chars (n : NumberText) (s : Bool) :
    Double.ofText? ((if s then ['-'] else []) ++ n.chars) = some (ofDecimal s n.decimal) := by
  obtain ⟨d, tail, hchars, hd⟩ := n.exists_chars
  have hsplit : splitSign ((if s then ['-'] else []) ++ n.chars) = (s, n.chars) := by
    cases s with
    | true => exact splitSign_minus _
    | false =>
      rw [if_neg (by decide), List.nil_append, hchars]
      exact splitSign_of_isDigit hd tail
  have hword : ∀ c letters, c.isDigit = false →
      decide (n.chars.map Char.toLower = c :: letters) = false := by
    intro c letters hc
    refine decide_eq_false fun heq => ?_
    rw [hchars, List.map_cons, toLower_of_isDigit hd] at heq
    rw [(List.cons.inj heq).1, hc] at hd
    cases hd
  unfold Double.ofText?
  rw [hsplit]
  dsimp only
  rw [show "inf".toList = ['i', 'n', 'f'] from rfl, hword 'i' _ rfl,
    show "infinity".toList = 'i' :: "nfinity".toList from rfl, hword 'i' _ rfl,
    show "nan".toList = ['n', 'a', 'n'] from rfl, if_neg (by decide),
    if_neg (of_decide_eq_false (hword 'n' _ rfl)), n.ofText?_chars]
  rfl

end TypedData
