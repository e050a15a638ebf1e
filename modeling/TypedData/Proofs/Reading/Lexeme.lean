import TypedData.Proofs.Number.Text
import TypedData.Proofs.Reading.Quotation

/-!
# Tokens that are read back

Every token that holds characters has a spelling (`TokenKind.spelling`).  If the token can be read at all
(`TokenKind.Legible`) and what follows does not run into it (`TokenKind.EndsAt`), its spelling is read as
the token and nothing else is taken (`Lexeme.read_spelling`).
-/

namespace TypedData

namespace TokenKind

/-- How a token is written; marks of the layout have no characters of their own. -/
def spelling : TokenKind → List Char
  | name text => text.toList
  | string template => template.print.toList
  | int n => n.text.toList
  | float x => (x.text .value).toList
  | keyword word => word.spelling.toList
  | mark m => m.spelling.toList
  | eof | newline | indent | dedent => []

/-- Whether the token is one that a reader gives. -/
def Legible : TokenKind → Prop
  | name text => isName text = true
  | string template => Piece.Regular template.pieces
  | float x => x.isFinite = true
  | int _ | keyword _ | mark _ => True
  | eof | newline | indent | dedent => False

/-- Whether the token is a number with a minus sign. -/
def isNegative : TokenKind → Bool
  | int n => n.val < 0
  | float x => x.isNegative
  | _ => false

/-- Whether the token is a finite number without a sign. -/
def isUnsigned : TokenKind → Bool
  | int n => !(n.val < 0)
  | float x => x.isFinite && !x.isNegative
  | _ => false

/-- The number with a sign before it. -/
def signed : TokenKind → TokenKind
  | int n => int (n.neg?.getD n)
  | float x => float x.neg
  | kind => kind

/-- Whether the token ends before these characters.  A mark could be the beginning of a longer one, a minus
the sign of a number, and a slash the beginning of a comment. -/
def EndsAt : TokenKind → List Char → Prop
  | name _, rest | keyword _, rest => ∀ c ∈ rest.head?, isWordChar c = false
  | int _, rest | float _, rest => EndsNumber rest
  | mark m, rest => ∀ d ∈ rest.head?,
      (∀ c, m.spelling.toList = [c] → Lexeme.markOfTwo? c d = none) ∧
        (m = .minus → d.isDigit = false) ∧ (m = .slash → d ≠ '/')
  | _, _ => True

end TokenKind

namespace Lexeme

variable {start : Nat} {afterValue : Bool} {rest : List Char}

/-- A word starts with the first of its characters. -/
theorem isWordStart_of_isWord {c : Char} {t : List Char} (h : isWord (c :: t) = true) :
    isWordStart c = true := (Bool.and_eq_true_iff.1 h).1

/-- No word starts with a digit. -/
theorem isDigit_of_isWordStart {c : Char} (h : isWordStart c = true) : c.isDigit = false := by
  unfold isWordStart Char.isAlpha Char.isUpper Char.isLower at h
  refine Bool.eq_false_iff.2 fun hdigit => ?_
  unfold Char.isDigit at hdigit
  simp only [Bool.or_eq_true, Bool.and_eq_true, decide_eq_true_eq, ge_iff_le, UInt32.le_iff_toNat_le] at h hdigit
  rcases h with (h | h) | rfl
  · exact absurd (Nat.le_trans h.1 hdigit.2) (by decide)
  · exact absurd (Nat.le_trans h.1 hdigit.2) (by decide)
  · exact absurd hdigit.2 (by decide)

/-- A word is read to its end. -/
theorem read_word {c : Char} {t : List Char} (hword : isWord (c :: t) = true)
    (hrest : ∀ c ∈ rest.head?, isWordChar c = false) :
    read start afterValue c (t ++ rest) = .ok ⟨wordKind (c :: t), c :: t, rest⟩ := by
  have hstart := isWordStart_of_isWord hword
  have hrun := Quotation.forall_isWordChar_of_isWord hword
  unfold read
  rw [if_neg, if_neg (by rw [isDigit_of_isWordStart hstart]; decide), if_pos hstart, word,
    ← List.cons_append, takeWhile_run hrun hrest, dropWhile_run hrun hrest]
  rintro rfl
  cases hstart

/-- Keywords are spelled as words. -/
theorem isWord_spelling (k : Keyword) : isWord k.spelling.toList = true := by
  cases k <;> decide

/-- A number is read to its end. -/
theorem read_number (t : NumberText) (negative : Bool) (hneg : negative = true → afterValue = false)
    (hrest : EndsNumber rest) {kind : TokenKind}
    (hkind : Numeral.kind? ⟨(if negative then ['-'] else []) ++ t.chars, rest, t.isFractional, true⟩ =
      some kind) {c : Char} {tail : List Char}
    (hchars : (if negative then ['-'] else []) ++ t.chars = c :: tail) :
    read start afterValue c (tail ++ rest) = .ok ⟨kind, c :: tail, rest⟩ := by
  obtain ⟨d, digits, ht, hd⟩ := t.exists_chars
  have hread : ∀ sign, Numeral.read sign (t.chars ++ rest) = ⟨sign ++ t.chars, rest, t.isFractional, true⟩ :=
    fun sign => Numeral.read_chars t sign hrest
  unfold read
  cases negative with
  | true =>
    rw [if_pos rfl, List.singleton_append] at hchars hkind
    obtain ⟨rfl, rfl⟩ := List.cons.inj hchars
    rw [if_neg (by decide), if_neg (by decide), if_neg (by decide), if_pos]
    · unfold number
      dsimp only
      rw [hread, List.singleton_append]
      dsimp only
      rw [hkind]
    · rw [hneg rfl, ht]
      exact hd
  | false =>
    rw [if_neg (by decide), List.nil_append] at hchars hkind
    have hc : c = d := (List.cons.inj (hchars.symm.trans ht)).1
    subst hc
    rw [if_neg, if_pos hd]
    · unfold number
      dsimp only
      rw [← List.cons_append, ← hchars, hread, List.nil_append]
      dsimp only
      rw [hkind]
    · rintro rfl
      cases hd

/-- A numeral with a fraction or an exponent is a float. -/
theorem isFractional_kind? {t : NumberText} {negative : Bool} (h : t.isFractional = true) :
    Numeral.kind? ⟨(if negative then ['-'] else []) ++ t.chars, rest, t.isFractional, true⟩ =
      some (.float (Double.ofDecimal negative t.decimal)) := by
  unfold Numeral.kind?
  dsimp only
  rw [h, if_neg (by decide), if_pos rfl, Double.ofText?_chars, Option.map_some]

/-- The digits of an integer. -/
def digitText (n : Nat) : NumberText :=
  ⟨Nat.toDigits 10 n, [], none, Nat.toDigits_ne_nil, by rw [List.append_nil]; exact isDigit_toDigits n⟩

/-- A number without a fraction is its digits. -/
theorem chars_digitText (n : Nat) : (digitText n).chars = Nat.toDigits 10 n := List.append_nil _

/-- An integer is written as its digits, behind a minus if it is negative. -/
theorem integer_text (a : Integer) : a.text.toList =
    (if decide (a.val < 0) then ['-'] else []) ++ (digitText a.val.natAbs).chars := by
  rw [Integer.text, toList_toString, chars_digitText]
  simp

/-- A finite float is written as a number with a fraction or an exponent, which stands for the float. -/
theorem double_text {x : Double} (h : x.isFinite = true) : ∃ t : NumberText,
    (x.text .value).toList = (if x.isNegative then ['-'] else []) ++ t.chars ∧
      t.isFractional = true ∧ Double.ofDecimal x.isNegative t.decimal = x := by
  cases x with
  | nan => cases h
  | infinite => cases h
  | finite s u hu =>
    obtain ⟨t, hchars, hpoint, hread⟩ := Layout.exists_magnitude hu
    refine ⟨t, ?_, hpoint, hread s⟩
    rw [Double.text, String.toList_append, hchars]
    cases s <;> rfl

/-- A mark of one character is read where no mark of two begins with it. -/
theorem mark?_of_one {c d : Char} {m : Mark} (hone : markOfOne? c = some m)
    (htwo : markOfTwo? c d = none) (rest : List Char) :
    mark? (c :: d :: rest) = some ⟨.mark m, [c], d :: rest⟩ := by
  unfold mark?
  dsimp only
  rw [htwo, hone]
  rfl

/-- A mark is read, if no longer one starts with it. -/
theorem mark?_spelling {m : Mark} (h : (TokenKind.mark m).EndsAt rest) :
    mark? (m.spelling.toList ++ rest) = some ⟨.mark m, m.spelling.toList, rest⟩ := by
  cases rest with
  | nil => cases m <;> rfl
  | cons d rest =>
    have hone := fun c hc => (h d rfl).1 c hc
    cases m
    case define | arrow | equal | notEqual | lessEqual | greaterEqual => rfl
    all_goals exact mark?_of_one rfl (hone _ rfl) rest

/-- A mark is read back where it ends. -/
theorem read_mark {m : Mark} (h : (TokenKind.mark m).EndsAt rest) {c : Char} {tail : List Char}
    (hspelling : (TokenKind.mark m).spelling = c :: tail) :
    read start afterValue c (tail ++ rest) = .ok ⟨.mark m, c :: tail, rest⟩ := by
  have hmark := mark?_spelling h
  change m.spelling.toList = c :: tail at hspelling
  rw [hspelling, List.cons_append] at hmark
  have hword : c ≠ '"' ∧ c.isDigit = false ∧ isWordStart c = false := by
    cases m <;> (obtain ⟨rfl, -⟩ := List.cons.inj hspelling; decide)
  unfold read
  rw [if_neg hword.1, if_neg (by rw [hword.2.1]; decide), if_neg (by rw [hword.2.2]; decide), if_neg, hmark]
  -- a minus before a digit is excluded
  intro hsign
  obtain ⟨hminus, hdigit⟩ := Bool.and_eq_true_iff.1 hsign
  have hc : c = '-' := of_decide_eq_true (Bool.and_eq_true_iff.1 hminus).1
  have hm : m = .minus := by
    subst hc
    cases m <;> first | rfl | cases (List.cons.inj hspelling).1
  subst hm hc
  obtain rfl : tail = [] := (List.cons.inj hspelling).2.symm
  cases rest with
  | nil => cases hdigit
  | cons d rest => exact absurd ((h d rfl).2.1 rfl) (by rw [show d.isDigit = true from hdigit]; decide)

/-- **What is written for a token is read as the token.** -/
theorem read_spelling {kind : TokenKind} (h : kind.Legible) (hrest : kind.EndsAt rest)
    (hsign : kind.isNegative = true → afterValue = false) {c : Char} {tail : List Char}
    (hspelling : kind.spelling = c :: tail) :
    read start afterValue c (tail ++ rest) = .ok ⟨kind, c :: tail, rest⟩ := by
  cases kind with
  | eof | newline | indent | dedent => cases h
  | name text =>
    obtain ⟨hword, hkeyword⟩ := isName_iff.1 h
    change text.toList = c :: tail at hspelling
    rw [hspelling] at hword
    rw [read_word hword hrest, wordKind, ← hspelling, String.ofList_toList, hkeyword]
  | keyword word =>
    change word.spelling.toList = c :: tail at hspelling
    have hword := isWord_spelling word
    rw [hspelling] at hword
    rw [read_word hword hrest, wordKind, ← hspelling, String.ofList_toList,
      Keyword.ofSpelling?_spelling]
  | int n =>
    have hchars := (integer_text n).symm.trans hspelling
    refine read_number _ (decide (n.val < 0)) hsign hrest ?_ hchars
    have htext := Integer.ofText?_text n
    rw [integer_text] at htext
    unfold Numeral.kind?
    dsimp only
    rw [if_neg (by decide), if_neg (by rintro ⟨⟩), htext, Option.map_some]
  | float x =>
    obtain ⟨t, htext, hpoint, hread⟩ := double_text h
    have hchars := htext.symm.trans hspelling
    refine read_number t x.isNegative hsign hrest ?_ hchars
    rw [isFractional_kind? hpoint, hread]
  | string template =>
    have htext : '"' :: ((String.join (template.pieces.map Piece.print)).toList ++ ['"']) = c :: tail := by
      rw [← hspelling, TokenKind.spelling, Template.print, String.toList_append, String.toList_append]
      rfl
    obtain ⟨rfl, rfl⟩ := List.cons.inj htext
    unfold read
    rw [if_pos rfl, quotation, List.append_assoc, List.singleton_append, Quotation.read?_print h]
  | mark m => exact read_mark hrest hspelling

/-- **A sign and the number after it are read as one token.** -/
theorem read_signed {kind : TokenKind} (h : kind.isUnsigned = true) (hrest : EndsNumber rest) :
    read start false '-' (kind.spelling ++ rest) = .ok ⟨kind.signed, '-' :: kind.spelling, rest⟩ := by
  cases kind with
  | int n =>
    have hsign : ¬ n.val < 0 := of_decide_eq_false (Bool.not_eq_true' _ ▸ h)
    have htext : n.text.toList = (digitText n.val.natAbs).chars := by
      rw [integer_text, decide_eq_false hsign, if_neg Bool.false_ne_true, List.nil_append]
    obtain ⟨m, hm⟩ : ∃ m, n.neg? = some m := by
      cases hm : n.neg? with
      | some m => exact ⟨m, rfl⟩
      | none =>
        have hlower := n.lower
        have hupper := n.upper
        rcases Integer.ofInt?_eq_none_iff.1 hm with hlow | hhigh <;> omega
    have hread : Integer.ofText? ('-' :: (digitText n.val.natAbs).chars) = some m := by
      rw [chars_digitText, Integer.ofText?_minus, Int.natAbs_of_nonneg (Int.not_lt.1 hsign)]
      exact hm
    rw [TokenKind.spelling, htext, TokenKind.signed, hm]
    refine read_number _ true (fun _ => rfl) hrest ?_ rfl
    unfold Numeral.kind?
    dsimp only
    rw [if_neg (by decide), if_neg (by rintro ⟨⟩), if_pos rfl, List.singleton_append, hread]
    rfl
  | float x =>
    obtain ⟨hfinite, hsign⟩ := Bool.and_eq_true_iff.1 h
    cases x with
    | nan | infinite => cases hfinite
    | finite s u hu =>
      obtain rfl : s = false := Bool.not_eq_true' _ ▸ hsign
      obtain ⟨t, hchars, hpoint, hread⟩ := Layout.exists_magnitude hu
      have htext : ((Double.finite false u hu).text .value).toList = t.chars := by
        rw [Double.text, String.toList_append, hchars]
        rfl
      rw [TokenKind.spelling, htext]
      refine read_number t true (fun _ => rfl) hrest ?_ rfl
      rw [isFractional_kind? hpoint, hread]
      rfl
  | name | keyword | string | mark | eof | newline | indent | dedent => cases h

/-- A token starts with a character that is none of a blank, a line break and the beginning of a comment. -/
structure StartsToken (c : Char) (rest : List Char) : Prop where
  ne_space : c ≠ ' '
  ne_tab : c ≠ '\t'
  ne_return : c ≠ '\r'
  ne_lineFeed : c ≠ '\n'
  not_comment : c = '/' → ∀ d ∈ rest.head?, d ≠ '/'

/-- A word character starts a token. -/
theorem StartsToken.of_isWordChar {c : Char} (h : isWordChar c = true) (rest : List Char) :
    StartsToken c rest := by
  constructor <;> (rintro rfl; cases h)

/-- The spelling of a token starts the token, whatever comes behind it. -/
theorem exists_spelling {kind : TokenKind} (h : kind.Legible) (hrest : kind.EndsAt rest) :
    ∃ c tail, kind.spelling = c :: tail ∧ StartsToken c (tail ++ rest) := by
  have hnumber : ∀ (negative : Bool) (t : NumberText), ∃ c tail,
      (if negative then ['-'] else []) ++ t.chars = c :: tail ∧ StartsToken c (tail ++ rest) := by
    intro negative t
    obtain ⟨d, tail, ht, hd⟩ := t.exists_chars
    rw [ht]
    cases negative with
    | true => exact ⟨'-', d :: tail, rfl, by constructor <;> rintro ⟨⟩⟩
    | false => exact ⟨d, tail, rfl, .of_isWordChar (isWordChar_of_isDigit hd) _⟩
  have hword : ∀ {t : List Char}, isWord t = true → ∃ c tail, t = c :: tail ∧
      StartsToken c (tail ++ rest) := by
    intro t ht
    cases t with
    | nil => cases ht
    | cons c tail =>
      exact ⟨c, tail, rfl, .of_isWordChar (Quotation.forall_isWordChar_of_isWord ht c (.head _)) _⟩
  cases kind with
  | eof | newline | indent | dedent => cases h
  | name text => exact hword (Bool.and_eq_true_iff.1 h).1
  | keyword word => exact hword (isWord_spelling word)
  | int n =>
    obtain ⟨c, tail, hchars, hstarts⟩ := hnumber (decide (n.val < 0)) (digitText n.val.natAbs)
    exact ⟨c, tail, (integer_text n).trans hchars, hstarts⟩
  | float x =>
    obtain ⟨t, htext, -, -⟩ := double_text h
    obtain ⟨c, tail, hchars, hstarts⟩ := hnumber x.isNegative t
    exact ⟨c, tail, htext.trans hchars, hstarts⟩
  | string template =>
    refine ⟨'"', (String.join (template.pieces.map Piece.print)).toList ++ ['"'], ?_, ?_⟩
    · rw [TokenKind.spelling, Template.print, String.toList_append, String.toList_append]
      rfl
    · constructor <;> rintro ⟨⟩
  | mark m =>
    cases m
    case slash => exact ⟨'/', [], rfl, by
      constructor
      · decide
      · decide
      · decide
      · decide
      · exact fun _ d hd => (hrest d hd).2.2 rfl⟩
    all_goals exact ⟨_, _, rfl, by constructor <;> rintro ⟨⟩⟩

end Lexeme

end TypedData
