import TypedData.Proofs.Number.Text
import TypedData.Token.Lexeme

/-!
# How far a lexeme reaches

Words, numbers and marks are made of certain characters (`Lexeme.found_of_read`), so they do not reach over a blank or a
line break.  What a lexeme does not reach does not matter for it: it is read as if the text ended there
(`Lexeme.read_of_isNeutral`, `Lexeme.read_of_suffix`).  In particular it is decided before the next line feed which
lexeme it is (`Lexeme.read_append`).
-/

namespace TypedData

/-- A character of a word or of a number. -/
def isNumeralChar (c : Char) : Bool := isWordChar c || c = '.' || c = '+' || c = '-'

/-- A character of a word is one of a number or a word. -/
theorem isNumeralChar_of_isWordChar {c : Char} (h : isWordChar c = true) : isNumeralChar c = true := by
  simp [isNumeralChar, h]

/-- A digit is a character of a number or a word. -/
theorem isNumeralChar_of_isDigit {c : Char} (h : c.isDigit = true) : isNumeralChar c = true :=
  isNumeralChar_of_isWordChar (isWordChar_of_isDigit h)

/-- No word, number or mark goes on with the text. -/
def IsNeutral (text : List Char) : Prop := ∀ c ∈ text.head?, isNumeralChar c = false ∧ c ≠ '=' ∧ c ≠ '>'

/-! ## Runs of characters -/

/-- A run of characters that no line feed belongs to is not longer for what stands behind a line feed. -/
theorem takeWhile_append_of_mem {p : Char → Bool} (hp : p '\n' = false) {cs : List Char} (h : '\n' ∈ cs)
    (more : List Char) : (cs ++ more).takeWhile p = cs.takeWhile p := by
  obtain ⟨front, back, rfl⟩ := List.append_of_mem h
  simp only [List.append_assoc, List.cons_append, List.takeWhile_append, List.takeWhile_cons, hp, Bool.false_eq_true,
    if_false]

/-- What is left behind a run ends with what stands behind a line feed. -/
theorem dropWhile_append_of_mem {p : Char → Bool} (hp : p '\n' = false) {cs : List Char} (h : '\n' ∈ cs)
    (more : List Char) : (cs ++ more).dropWhile p = cs.dropWhile p ++ more := by
  refine (List.append_right_inj (cs.takeWhile p)).1 ?_
  rw [← List.append_assoc, List.takeWhile_append_dropWhile, ← takeWhile_append_of_mem hp h more,
    List.takeWhile_append_dropWhile]

/-- A line feed that belongs to no run is left. -/
theorem mem_dropWhile_of_mem {p : Char → Bool} (hp : p '\n' = false) {cs : List Char} (h : '\n' ∈ cs) :
    '\n' ∈ cs.dropWhile p := by
  rw [← List.takeWhile_append_dropWhile (p := p) (l := cs)] at h
  refine (List.mem_append.1 h).resolve_left fun hmem => ?_
  have := List.all_eq_true.1 (List.all_takeWhile (p := p) (l := cs)) '\n' hmem
  rw [hp] at this
  cases this

/-- What is shorter does not end with the text. -/
theorem not_suffix_of_suffix_tail {c : Char} {cs rest : List Char} (h : rest <:+ cs) : ¬ (c :: cs) <:+ rest := fun h' =>
  absurd (h'.length_le.trans h.length_le) (by simp)

/-- A run that does not reach into a text does not start in it. -/
theorem head?_of_suffix_dropWhile {p : Char → Bool} {more : List Char} (h : more <:+ more.dropWhile p) :
    (more.head?.map p).getD false = false ∧ more.takeWhile p = [] ∧ more.dropWhile p = more := by
  cases more with
  | nil => exact ⟨rfl, rfl, rfl⟩
  | cons c more =>
    by_cases hc : p c = true
    · rw [List.dropWhile_cons_of_pos hc] at h
      exact absurd h (not_suffix_of_suffix_tail (List.dropWhile_suffix p))
    · exact ⟨by simpa using hc, List.takeWhile_cons_of_neg hc, List.dropWhile_cons_of_neg hc⟩

/-- What a run does not reach does not matter for it. -/
theorem run_of_suffix {p : Char → Bool} (cs : List Char) {more : List Char} (h : more <:+ (cs ++ more).dropWhile p) :
    ((cs ++ more).head?.map p).getD false = (cs.head?.map p).getD false ∧
      (cs ++ more).takeWhile p = cs.takeWhile p ∧ (cs ++ more).dropWhile p = cs.dropWhile p ++ more := by
  refine ⟨?_, ?_⟩
  · cases cs with
    | nil => exact (head?_of_suffix_dropWhile h).1
    | cons c cs => rfl
  · induction cs with
    | nil => exact (head?_of_suffix_dropWhile h).2
    | cons c cs ih =>
      by_cases hc : p c = true
      · rw [List.cons_append, List.dropWhile_cons_of_pos hc] at h
        obtain ⟨htake, hdrop⟩ := ih h
        rw [List.cons_append, List.takeWhile_cons_of_pos hc, List.takeWhile_cons_of_pos hc, htake,
          List.dropWhile_cons_of_pos hc, List.dropWhile_cons_of_pos hc, hdrop]
        exact ⟨rfl, rfl⟩
      · rw [List.cons_append, List.takeWhile_cons_of_neg hc, List.takeWhile_cons_of_neg hc,
          List.dropWhile_cons_of_neg hc, List.dropWhile_cons_of_neg hc]
        exact ⟨rfl, rfl⟩

/-- No run of characters of words and numbers reaches what is neutral. -/
theorem IsNeutral.suffix_dropWhile {p : Char → Bool} (hp : ∀ c, p c = true → isNumeralChar c = true)
    {more : List Char} (h : IsNeutral more) (cs : List Char) : more <:+ (cs ++ more).dropWhile p := by
  rw [List.dropWhile_append]
  split
  · cases more with
    | nil => exact List.nil_suffix
    | cons c more =>
      have hc : ¬ p c = true := fun hc => Bool.false_ne_true ((h c rfl).1.symm.trans (hp c hc))
      exact ⟨[], (List.dropWhile_cons_of_neg hc).symm⟩
  · exact List.suffix_append _ _

namespace Lexeme

/-! ## Numbers -/

namespace Numeral

/-- The number, with more text behind it. -/
def extend (more : List Char) (n : Numeral) : Numeral := { n with rest := n.rest ++ more }

/-- A number that goes on takes from what is left. -/
theorem Continues.rest_suffix {n m : Numeral} (h : Continues n m) : m.rest <:+ n.rest := by
  obtain ⟨taken, htaken⟩ := h.taken_grows
  have hall := h.all_eq
  unfold all at hall
  rw [← htaken, List.append_assoc] at hall
  exact ⟨taken, List.append_cancel_left hall⟩

/-- A step in the reading of a number.  It takes characters of numbers only, and what it does not reach does not matter
for it. -/
structure IsLocal (step : Numeral → Numeral) : Prop where
  taken : ∀ {n : Numeral}, (∀ c ∈ n.taken, isNumeralChar c = true) → ∀ c ∈ (step n).taken, isNumeralChar c = true
  rest : ∀ n : Numeral, (step n).rest <:+ n.rest
  extend : ∀ {n : Numeral} {more : List Char}, more <:+ (step (n.extend more)).rest →
    step (n.extend more) = (step n).extend more

/-- Two local steps, one after the other, are a local step. -/
theorem IsLocal.comp {step step' : Numeral → Numeral} (h' : IsLocal step') (h : IsLocal step) :
    IsLocal fun n => step' (step n) where
  taken hn := h'.taken (h.taken hn)
  rest n := (h'.rest _).trans (h.rest n)
  extend hmore := by
    have heq := h.extend (hmore.trans (h'.rest _))
    rw [heq] at hmore ⊢
    exact h'.extend hmore

/-- A run, where it may matter to the number whether there is one. -/
theorem isLocal_run {p : Char → Bool} (hp : ∀ c, p c = true → isNumeralChar c = true) (valid : Bool → Bool → Bool) :
    IsLocal fun n => takeRun p { n with valid := valid n.valid ((n.rest.head?.map p).getD false) } where
  taken hn c hc := by
    rcases List.mem_append.1 hc with hc | hc
    · exact hn c hc
    · exact hp c (List.all_eq_true.1 List.all_takeWhile c hc)
  rest n := List.dropWhile_suffix p
  extend {n more} hmore := by
    obtain ⟨hhead, htake, hdrop⟩ := run_of_suffix n.rest hmore
    unfold takeRun Numeral.extend
    dsimp only
    rw [hhead, htake, hdrop]

/-- Taking digits is local. -/
theorem isLocal_takeDigits : IsLocal (takeRun Char.isDigit) :=
  isLocal_run (fun _ => isNumeralChar_of_isDigit) fun valid _ => valid

/-- What a fraction does not reach does not matter for it. -/
theorem takeFraction?_extend {n : Numeral} {more : List Char}
    (h : ∀ m, (n.extend more).takeFraction? = some m → more <:+ m.rest) :
    (n.extend more).takeFraction? = n.takeFraction?.map (extend more) := by
  obtain ⟨taken, rest, fractional, valid⟩ := n
  -- the point and the digit behind it belong to the number
  have hreach : ∀ {d : Char} {ds : List Char}, d.isDigit = true → ∀ taken : List Char,
      (takeRun Char.isDigit ⟨taken, d :: ds, fractional, valid⟩).rest <:+ ds := by
    intro d ds hd taken
    change (d :: ds).dropWhile Char.isDigit <:+ ds
    rw [List.dropWhile_cons_of_pos hd]
    exact List.dropWhile_suffix _
  unfold takeFraction? Numeral.extend at *
  dsimp only at h ⊢
  match rest, h with
  | [], h =>
    match more, h with
    | [], _ => rfl
    | [c], _ => by_cases hc : c = '.' <;> simp [hc]
    | c :: d :: ds, h =>
      by_cases hc : c = '.'
      · subst hc
        by_cases hd : d.isDigit = true
        · simp only [List.nil_append, hd, if_true] at h
          exact absurd (h _ rfl) (not_suffix_of_suffix_tail ((hreach hd _).trans (List.suffix_cons d ds)))
        · simp [hd]
      · simp [hc]
  | [c], h =>
    match more, h with
    | [], _ => by_cases hc : c = '.' <;> simp [hc]
    | d :: ds, h =>
      by_cases hc : c = '.'
      · subst hc
        by_cases hd : d.isDigit = true
        · simp only [List.cons_append, List.nil_append, hd, if_true] at h
          exact absurd (h _ rfl) (not_suffix_of_suffix_tail (hreach hd _))
        · simp [hd]
      · simp [hc]
  | c :: d :: ds, h =>
    by_cases hc : c = '.'
    · subst hc
      by_cases hd : d.isDigit = true
      · simp only [List.cons_append, hd, if_true, Option.map_some] at h ⊢
        exact congrArg some (isLocal_takeDigits.extend (n := ⟨taken ++ ['.'], d :: ds, fractional, valid⟩) (h _ rfl))
      · simp only [List.cons_append, hd, Bool.false_eq_true, if_false, Option.map_none]
    · simp [hc]

/-- A fraction takes characters of numbers only. -/
theorem numeral_of_takeFraction? {n m : Numeral} (hm : n.takeFraction? = some m)
    (hn : ∀ c ∈ n.taken, isNumeralChar c = true) : ∀ c ∈ m.taken, isNumeralChar c = true := by
  unfold takeFraction? at hm
  split at hm
  · rename_i d rest hrest
    split at hm
    · cases hm
      refine isLocal_takeDigits.taken (n := ⟨n.taken ++ ['.'], d :: rest, n.fractional, n.valid⟩) ?_
      exact List.forall_mem_append.2 ⟨hn, List.forall_mem_singleton.2 rfl⟩
    · cases hm
  · cases hm

/-- Taking fractions is local. -/
theorem isLocal_takeFractions : IsLocal takeFractions where
  taken {n} hn := by
    unfold takeFractions
    split
    · exact hn
    · rename_i m hm
      split
      · exact fun c hc => numeral_of_takeFraction? hm hn c hc
      · rename_i k hk
        exact fun c hc => numeral_of_takeFraction? hk (numeral_of_takeFraction? hm hn) c hc
  rest n := (continues_takeFractions n).rest_suffix
  extend {n more} hmore := by
    have hfirst : (n.extend more).takeFraction? = n.takeFraction?.map (extend more) := by
      refine takeFraction?_extend fun m hm => hmore.trans ?_
      unfold takeFractions
      rw [hm]
      dsimp only
      cases hk : m.takeFraction? with
      | none => exact List.suffix_rfl
      | some k => exact (continues_takeFraction hk).rest_suffix
    unfold takeFractions at hmore ⊢
    rw [hfirst] at hmore ⊢
    cases hm : n.takeFraction? with
    | none => rfl
    | some m =>
      rw [hm] at hmore
      dsimp only [Option.map_some] at hmore ⊢
      have hsecond : (m.extend more).takeFraction? = m.takeFraction?.map (extend more) := by
        refine takeFraction?_extend fun k hk => ?_
        rw [hk] at hmore
        exact hmore
      rw [hsecond]
      cases m.takeFraction? <;> rfl

/-- Taking a sign is local. -/
theorem isLocal_takeSign : IsLocal takeSign where
  taken {n} hn := by
    unfold takeSign
    split
    · exact List.forall_mem_append.2 ⟨hn, List.forall_mem_singleton.2 rfl⟩
    · exact List.forall_mem_append.2 ⟨hn, List.forall_mem_singleton.2 rfl⟩
    · exact hn
  rest n := (continues_takeSign n).rest_suffix
  extend {n more} hmore := by
    obtain ⟨taken, rest, fractional, valid⟩ := n
    unfold takeSign Numeral.extend at *
    cases rest with
    | nil =>
      dsimp only [List.nil_append] at hmore ⊢
      split at hmore
      · exact absurd hmore (not_suffix_of_suffix_tail List.suffix_rfl)
      · exact absurd hmore (not_suffix_of_suffix_tail List.suffix_rfl)
      · rfl
    | cons c rest =>
      dsimp only [List.cons_append]
      split
      · rename_i hrest
        cases hrest
        rfl
      · rename_i hrest
        cases hrest
        rfl
      · rename_i hplus hminus
        split
        · rename_i hrest
          cases hrest
          exact absurd rfl (hplus _)
        · rename_i hrest
          cases hrest
          exact absurd rfl (hminus _)
        · rfl

/-- The sign and the digits of an exponent. -/
theorem isLocal_exponent : IsLocal fun n => takeRun Char.isDigit
    { n.takeSign with valid := n.takeSign.valid && (n.takeSign.rest.head?.map Char.isDigit).getD false } :=
  (isLocal_run (fun _ => isNumeralChar_of_isDigit) fun valid digits => valid && digits).comp isLocal_takeSign

/-- Taking an exponent is local. -/
theorem isLocal_takeExponent : IsLocal takeExponent where
  taken {n} hn := by
    unfold takeExponent
    split
    · rename_i e rest hrest
      split
      · rename_i he
        refine isLocal_exponent.taken (n := ⟨n.taken ++ [e], rest, true, n.valid⟩) ?_
        refine List.forall_mem_append.2 ⟨hn, List.forall_mem_singleton.2 ?_⟩
        rcases Bool.or_eq_true_iff.1 he with he | he <;> rw [of_decide_eq_true he] <;> decide
      · exact hn
    · exact hn
  rest n := (continues_takeExponent n).rest_suffix
  extend {n more} hmore := by
    obtain ⟨taken, rest, fractional, valid⟩ := n
    unfold takeExponent Numeral.extend at *
    cases rest with
    | nil =>
      cases more with
      | nil => rfl
      | cons e more =>
        dsimp only [List.nil_append] at hmore ⊢
        split at hmore
        · have hrest := isLocal_exponent.rest ⟨taken ++ [e], more, true, valid⟩
          exact absurd hmore (not_suffix_of_suffix_tail hrest)
        · rename_i he
          rw [if_neg he]
    | cons e rest =>
      dsimp only [List.cons_append] at hmore ⊢
      split at hmore
      · rename_i he
        rw [if_pos he, if_pos he]
        exact isLocal_exponent.extend (n := ⟨taken ++ [e], rest, true, valid⟩) hmore
      · rename_i he
        rw [if_neg he, if_neg he]
        rfl

/-- Taking what makes a number malformed is local. -/
theorem isLocal_takeTail : IsLocal takeTail :=
  isLocal_run (fun _ => isNumeralChar_of_isWordChar) fun valid glued => valid && !glued

/-- Reading a whole number is local. -/
theorem isLocal_read : IsLocal fun n => takeTail (takeExponent (takeFractions (takeRun Char.isDigit n))) :=
  (isLocal_takeTail.comp isLocal_takeExponent).comp <| isLocal_takeFractions.comp isLocal_takeDigits

/-- What a number does not reach does not matter for it. -/
theorem read_of_suffix {sign rest more : List Char} (h : more <:+ (read sign (rest ++ more)).rest) :
    read sign (rest ++ more) = (read sign rest).extend more :=
  isLocal_read.extend (n := ⟨sign, rest, false, true⟩) h

/-- A number takes characters of numbers only. -/
theorem numeral_of_read {sign : List Char} (hsign : ∀ c ∈ sign, isNumeralChar c = true) (rest : List Char) :
    ∀ c ∈ (read sign rest).taken, isNumeralChar c = true :=
  isLocal_read.taken (n := ⟨sign, rest, false, true⟩) hsign

/-- A number does not reach what no number goes on with. -/
theorem suffix_of_isNeutral {sign : List Char} (hsign : ∀ c ∈ sign, isNumeralChar c = true) (rest : List Char)
    {more : List Char} (h : IsNeutral more) : more <:+ (read sign (rest ++ more)).rest := by
  have hall := all_read sign (rest ++ more)
  have htaken := numeral_of_read hsign (rest ++ more)
  unfold all at hall
  rw [← List.append_assoc] at hall
  rcases List.append_eq_append_iff.1 hall with ⟨back, -, hrest⟩ | ⟨front, hfront, hmore⟩
  · exact ⟨back, hrest.symm⟩
  · cases front with
    | nil => exact ⟨[], hmore⟩
    | cons c front =>
      rw [hfront] at htaken
      have hc := (h c (by rw [hmore]; rfl)).1
      rw [htaken c (by simp)] at hc
      cases hc

end Numeral

/-- The lexeme, with more text behind it. -/
def extend (more : List Char) (lexeme : Lexeme) : Lexeme := { lexeme with rest := lexeme.rest ++ more }

/-- What a number does not reach does not matter for its lexeme. -/
theorem number_extend (start : Nat) {sign : List Char} (rest : List Char) {more : List Char}
    (h : more <:+ (Numeral.read sign (rest ++ more)).rest) :
    number start sign (rest ++ more) = (number start sign rest).map (extend more) := by
  have hkind (n : Numeral) : (n.extend more).kind? = n.kind? := rfl
  unfold number
  rw [Numeral.read_of_suffix h]
  dsimp only
  rw [hkind]
  cases (Numeral.read sign rest).kind? <;> rfl

/-- A number is what looks like one, and its kind is that of its value. -/
theorem of_number {start : Nat} {sign rest : List Char} {lexeme : Lexeme} (h : number start sign rest = .ok lexeme) :
    lexeme.taken = (Numeral.read sign rest).taken ∧ (Numeral.read sign rest).kind? = some lexeme.kind ∧
      lexeme.rest = (Numeral.read sign rest).rest := by
  unfold number at h
  dsimp only at h
  split at h
  · rename_i kind hkind
    cases h
    exact ⟨rfl, hkind, rfl⟩
  · cases h

/-! ## Words and marks -/

/-- What a word does not reach does not matter for its lexeme. -/
theorem word_extend (input : List Char) {more : List Char} (h : more <:+ (word (input ++ more)).rest) :
    word (input ++ more) = (word input).extend more := by
  obtain ⟨-, htake, hdrop⟩ := run_of_suffix input h
  unfold word extend
  dsimp only
  rw [htake, hdrop]

/-- A mark of two characters ends with an equals sign or with an angle. -/
theorem markOfTwo?_eq_none {c d : Char} (h : d ≠ '=' ∧ d ≠ '>') : markOfTwo? c d = none := by
  unfold markOfTwo?
  split <;> first | exact absurd rfl h.1 | exact absurd rfl h.2 | rfl

/-- What a mark does not reach does not matter for its lexeme. -/
theorem mark?_extend {c : Char} {rest more : List Char}
    (h : rest = [] → ∀ d ∈ more.head?, markOfTwo? c d = none) :
    mark? (c :: (rest ++ more)) = (mark? (c :: rest)).map (extend more) := by
  match rest, more, h with
  | [], [], _ =>
    simp only [mark?, List.nil_append]
    cases markOfOne? c <;> rfl
  | [], d :: more, h =>
    simp only [mark?, List.nil_append]
    rw [h rfl d rfl]
    cases markOfOne? c <;> rfl
  | d :: rest, more, _ =>
    simp only [mark?, List.cons_append]
    cases markOfTwo? c d with
    | some mark => rfl
    | none => cases markOfOne? c <;> rfl

/-! ## All lexemes -/

/-- **What stands behind a character that no lexeme goes on with does not matter,** if the lexeme is no literal. -/
theorem read_of_isNeutral (start : Nat) (afterValue : Bool) {c : Char} (hquote : c ≠ '"') (rest : List Char)
    {more : List Char} (h : IsNeutral more) :
    read start afterValue c (rest ++ more) = (read start afterValue c rest).map (extend more) := by
  have hdigit := (run_of_suffix rest (h.suffix_dropWhile (fun _ => isNumeralChar_of_isDigit) rest)).1
  unfold read
  rw [if_neg hquote, if_neg hquote, hdigit]
  split
  · exact number_extend start (c :: rest)
      (Numeral.suffix_of_isNeutral (List.forall_mem_nil _) (c :: rest) h)
  split
  · exact congrArg Except.ok (word_extend (c :: rest)
      (h.suffix_dropWhile (fun _ => isNumeralChar_of_isWordChar) (c :: rest)))
  split
  · exact number_extend start rest (Numeral.suffix_of_isNeutral (List.forall_mem_singleton.2 (by decide)) rest h)
  · rw [mark?_extend fun _ d hd => markOfTwo?_eq_none (h d hd).2]
    cases mark? (c :: rest) <;> rfl

/-- **A lexeme that ends before a text is read as if the text were not there.** -/
theorem read_of_suffix {start : Nat} {afterValue : Bool} {c : Char} (hquote : c ≠ '"') {rest more : List Char}
    {lexeme : Lexeme} (h : read start afterValue c (rest ++ more) = .ok lexeme) (hmore : more <:+ lexeme.rest) :
    read start afterValue c (rest ++ more) = (read start afterValue c rest).map (extend more) := by
  unfold read at *
  rw [if_neg hquote] at h
  rw [if_neg hquote, if_neg hquote]
  split at h
  · rename_i hc
    rw [if_pos hc, if_pos hc]
    exact number_extend start (c :: rest) ((of_number h).2.2 ▸ hmore)
  rename_i hc
  rw [if_neg hc, if_neg hc]
  split at h
  · rename_i hword
    rw [if_pos hword, if_pos hword]
    cases h
    exact congrArg Except.ok (word_extend (c :: rest) hmore)
  rename_i hword
  rw [if_neg hword, if_neg hword]
  split at h
  · rename_i hsign
    have hsuffix := (of_number h).2.2 ▸ hmore
    have hdigits := (Numeral.continues_read ['-'] (rest ++ more)).rest_suffix
    rw [(run_of_suffix rest (hsuffix.trans hdigits)).1] at hsign ⊢
    rw [if_pos hsign, if_pos hsign]
    exact number_extend start rest hsuffix
  · rename_i hsign
    have hnone : ¬ (c = '-' && !afterValue && (rest.head?.map Char.isDigit).getD false) = true := by
      cases rest with
      | nil => simp
      | cons d rest => exact hsign
    rw [if_neg hsign, if_neg hnone, mark?_extend]
    · cases mark? (c :: rest) <;> rfl
    · -- the second character of a mark is not behind it
      rintro rfl d hd
      obtain ⟨more, rfl⟩ := List.head?_eq_some_iff.1 hd
      refine Option.eq_none_iff_forall_ne_some.2 fun mark hmark => ?_
      simp only [List.nil_append, mark?, hmark] at h
      cases h
      exact not_suffix_of_suffix_tail List.suffix_rfl hmore

/-- **What a lexeme is, is decided before the next line feed,** if it is no literal. -/
theorem read_append (start : Nat) (afterValue : Bool) {c : Char} {rest : List Char} (hquote : c ≠ '"')
    (h : '\n' ∈ rest) (more : List Char) :
    read start afterValue c (rest ++ more) = (read start afterValue c rest).map (extend more) := by
  obtain ⟨front, back, rfl⟩ := List.append_of_mem h
  have hneutral : ∀ back : List Char, IsNeutral ('\n' :: back) := by
    rintro back c ⟨⟩
    decide
  rw [List.append_assoc, List.cons_append, read_of_isNeutral start afterValue hquote front (hneutral _),
    read_of_isNeutral start afterValue hquote front (hneutral _)]
  cases read start afterValue c front with
  | error e => rfl
  | ok lexeme => simp [Except.map, extend]

/-- A character that ends no line, and neither opens a literal nor may open a comment. -/
def IsInert (c : Char) : Prop := c ≠ '\n' ∧ c ≠ '"' ∧ c ≠ '/'

/-- Characters of numbers and words are inert. -/
theorem isInert_of_isNumeralChar {c : Char} (h : isNumeralChar c = true) : IsInert c := by
  refine ⟨?_, ?_, ?_⟩ <;>
  · rintro rfl
    revert h
    decide

/-- A kind of tokens that are no layout and no literals. -/
def IsPlain : TokenKind → Prop
  | .newline | .indent | .dedent | .eof | .string _ => False
  | _ => True

/-- **The lexemes:** a literal, a slash, and those that are made of inert characters. -/
inductive Found : Char → List Char → Lexeme → Prop
  | literal {rest : List Char} {q : Quotation} : Quotation.read? rest = some q →
      Found '"' rest ⟨.string ⟨q.pieces⟩, '"' :: q.taken, q.rest⟩
  | slash {rest : List Char} : Found '/' rest ⟨.mark .slash, ['/'], rest⟩
  | inert {c : Char} {rest : List Char} {lexeme : Lexeme} : lexeme.Splits (c :: rest) →
      (∀ d ∈ lexeme.taken, IsInert d) → IsPlain lexeme.kind → Found c rest lexeme

/-- A number is no layout and no literal. -/
theorem isPlain_of_kind? {n : Numeral} {kind : TokenKind} (h : n.kind? = some kind) : IsPlain kind := by
  unfold Numeral.kind? at h
  split at h
  · cases h
  · split at h
    · obtain ⟨_, -, rfl⟩ := Option.map_eq_some_iff.1 h
      trivial
    · obtain ⟨_, -, rfl⟩ := Option.map_eq_some_iff.1 h
      trivial

/-- A number that is read is made of inert characters. -/
theorem found_of_number {start : Nat} {sign rest : List Char} {c : Char} {cs : List Char} {lexeme : Lexeme}
    (hsign : ∀ c ∈ sign, isNumeralChar c = true) (hinput : sign ++ rest = c :: cs)
    (hs : sign ≠ [] ∨ ∃ d, rest.head? = some d ∧ d.isDigit = true)
    (h : number start sign rest = .ok lexeme) : Found c cs lexeme := by
  obtain ⟨htaken, hkind, -⟩ := of_number h
  refine .inert (hinput ▸ number_splits h hs) (fun d hd => ?_) (isPlain_of_kind? hkind)
  exact isInert_of_isNumeralChar (Numeral.numeral_of_read hsign rest d (htaken ▸ hd))

/-- A word that is read is made of inert characters. -/
theorem found_of_word {c : Char} {rest : List Char} (h : isWordStart c = true) : Found c rest (word (c :: rest)) := by
  refine .inert (word_splits h) (fun d hd => ?_) ?_
  · exact isInert_of_isNumeralChar (isNumeralChar_of_isWordChar (List.all_eq_true.1 List.all_takeWhile d hd))
  · unfold word wordKind
    dsimp only
    split <;> trivial

/-- A mark is one character or two. -/
theorem mark?_cases {c : Char} {rest : List Char} {lexeme : Lexeme} (h : mark? (c :: rest) = some lexeme) :
    ∃ mark, lexeme.kind = .mark mark ∧
      ((lexeme.taken = [c] ∧ markOfOne? c = some mark) ∨ ∃ d, lexeme.taken = [c, d] ∧ markOfTwo? c d = some mark) := by
  match rest, h with
  | [], h =>
    obtain ⟨mark, hmark, rfl⟩ := Option.map_eq_some_iff.1 h
    exact ⟨mark, rfl, .inl ⟨rfl, hmark⟩⟩
  | d :: rest, h =>
    unfold mark? at h
    dsimp only at h
    split at h
    · rename_i mark hmark
      cases h
      exact ⟨mark, rfl, .inr ⟨d, rfl, hmark⟩⟩
    · obtain ⟨mark, hmark, rfl⟩ := Option.map_eq_some_iff.1 h
      exact ⟨mark, rfl, .inl ⟨rfl, hmark⟩⟩

/-- A mark of two characters is made of inert ones. -/
theorem isInert_of_markOfTwo? {c d : Char} {mark : Mark} (h : markOfTwo? c d = some mark) : IsInert c ∧ IsInert d := by
  unfold markOfTwo? at h
  split at h
  case h_7 => cases h
  all_goals exact ⟨⟨by decide, by decide, by decide⟩, by decide, by decide, by decide⟩

/-- A mark of one character is inert, unless it is a slash. -/
theorem isInert_of_markOfOne? {c : Char} {mark : Mark} (h : markOfOne? c = some mark) (hc : c ≠ '/') : IsInert c := by
  refine ⟨?_, ?_, hc⟩ <;>
  · rintro rfl
    revert h
    decide +revert

/-- A mark that is read is a slash or made of inert characters. -/
theorem found_of_mark {c : Char} {rest : List Char} {lexeme : Lexeme} (h : mark? (c :: rest) = some lexeme) :
    Found c rest lexeme := by
  by_cases hslash : c = '/'
  · subst hslash
    match rest, h with
    | [], h | _ :: _, h =>
      cases h
      exact .slash
  obtain ⟨mark, hkind, ⟨htaken, hmark⟩ | ⟨d, htaken, hmark⟩⟩ := mark?_cases h
  · refine .inert (mark_splits h) ?_ (hkind ▸ trivial)
    rw [htaken]
    exact List.forall_mem_singleton.2 (isInert_of_markOfOne? hmark hslash)
  · refine .inert (mark_splits h) ?_ (hkind ▸ trivial)
    obtain ⟨hc, hd⟩ := isInert_of_markOfTwo? hmark
    rw [htaken]
    exact List.forall_mem_cons.2 ⟨hc, List.forall_mem_singleton.2 hd⟩

/-- **Every lexeme that is read is one of these.** -/
theorem found_of_read {start : Nat} {afterValue : Bool} {c : Char} {rest : List Char} {lexeme : Lexeme}
    (h : read start afterValue c rest = .ok lexeme) : Found c rest lexeme := by
  unfold read at h
  split at h
  · rename_i hc
    subst hc
    unfold quotation at h
    split at h
    · rename_i q hq
      cases h
      exact .literal hq
    · cases h
  split at h
  · rename_i hd
    exact found_of_number (List.forall_mem_nil _) rfl (.inr ⟨c, rfl, hd⟩) h
  split at h
  · rename_i hw
    cases h
    exact found_of_word hw
  split at h
  · rename_i hm
    simp only [Bool.and_eq_true, decide_eq_true_eq] at hm
    obtain ⟨⟨rfl, -⟩, -⟩ := hm
    exact found_of_number (List.forall_mem_singleton.2 (by decide)) rfl (.inl (List.cons_ne_nil _ _)) h
  split at h
  · rename_i hm
    cases h
    exact found_of_mark hm
  · cases h

/-- The kinds of tokens that the layout makes. -/
def IsLayout : TokenKind → Prop
  | .newline | .indent | .dedent | .eof => True
  | _ => False

/-- No lexeme that is read is layout. -/
theorem kind_ne_of_read {start : Nat} {afterValue : Bool} {c : Char} {rest : List Char} {lexeme : Lexeme}
    {kind : TokenKind} (hkind : IsLayout kind) (h : read start afterValue c rest = .ok lexeme) :
    lexeme.kind ≠ kind := by
  rintro rfl
  cases found_of_read h with
  | literal | slash => exact hkind
  | inert _ _ hplain =>
    revert hplain hkind
    cases lexeme.kind <;> first | exact fun _ => id | exact False.elim

end Lexeme

end TypedData
