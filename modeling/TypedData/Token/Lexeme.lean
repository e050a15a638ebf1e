import TypedData.Token
import TypedData.Token.Error

/-!
# One token

`Lexeme.read?` reads the token that a text starts with.  A reader answers what kind of token it is,
the characters it took and the rest of the text, and nothing is lost between them (`Lexeme.Splits`).

Numbers are read greedily: whatever looks like the continuation of a number belongs to it, and only
then is it decided whether the whole is one.  So `12abc` and `1.2.3` are invalid numbers, and no
sequences of tokens.
-/

namespace TypedData

/-- A token at the beginning of a text, the characters it took, and the rest of the text. -/
structure Lexeme where
  kind : TokenKind
  taken : List Char
  rest : List Char

namespace Lexeme

/-- The token takes at least one character of `input`, and nothing is lost. -/
structure Splits (lexeme : Lexeme) (input : List Char) : Prop where
  append_eq : lexeme.taken ++ lexeme.rest = input
  taken_ne_nil : lexeme.taken ≠ []

/-- A token takes at least one character of what is read. -/
theorem Splits.rest_lt {lexeme : Lexeme} {input : List Char} (h : lexeme.Splits input) :
    lexeme.rest.length < input.length := by
  have := List.length_pos_iff.2 h.taken_ne_nil
  simp only [← h.append_eq, List.length_append]; omega

/-! ## Words -/

/-- A reserved word or a name. -/
def wordKind (word : List Char) : TokenKind :=
  match Keyword.ofSpelling? (String.ofList word) with
  | some keyword => .keyword keyword
  | none => .name (String.ofList word)

/-- Reads a word. -/
def word (input : List Char) : Lexeme :=
  let taken := input.takeWhile isWordChar
  ⟨wordKind taken, taken, input.dropWhile isWordChar⟩

/-! ## Numbers -/

/-- A number that is being read. -/
structure Numeral where
  taken : List Char
  rest : List Char
  fractional : Bool
  valid : Bool

namespace Numeral

/-- Moves the longest run of characters of a class from the rest to the number. -/
def takeRun (class_ : Char → Bool) (n : Numeral) : Numeral :=
  { n with
    taken := n.taken ++ n.rest.takeWhile class_
    rest := n.rest.dropWhile class_ }

/-- Reads a point and the digits after it, where a digit follows the point. -/
def takeFraction? (n : Numeral) : Option Numeral :=
  match n.rest with
  | '.' :: d :: rest =>
    if d.isDigit then
      some (takeRun Char.isDigit { n with taken := n.taken ++ ['.'], rest := d :: rest })
    else none
  | _ => none

/-- Reads a fraction; a second fraction makes the number invalid. -/
def takeFractions (n : Numeral) : Numeral :=
  match n.takeFraction? with
  | none => n
  | some n =>
    match n.takeFraction? with
    | none => { n with fractional := true }
    | some n => { n with fractional := true, valid := false }

/-- Reads the sign of an exponent. -/
def takeSign (n : Numeral) : Numeral :=
  match n.rest with
  | '+' :: rest => { n with taken := n.taken ++ ['+'], rest := rest }
  | '-' :: rest => { n with taken := n.taken ++ ['-'], rest := rest }
  | _ => n

/-- Reads an exponent after the letter `e`; without digits it makes the number invalid. -/
def takeExponent (n : Numeral) : Numeral :=
  match n.rest with
  | e :: rest =>
    if e = 'e' || e = 'E' then
      let n := takeSign { n with taken := n.taken ++ [e], rest := rest, fractional := true }
      let digitFollows := (n.rest.head?.map Char.isDigit).getD false
      takeRun Char.isDigit { n with valid := n.valid && digitFollows }
    else n
  | [] => n

/-- Reads letters and digits that are glued to the number; they make it invalid. -/
def takeTail (n : Numeral) : Numeral :=
  let gluedFollows := (n.rest.head?.map isWordChar).getD false
  takeRun isWordChar { n with valid := n.valid && !gluedFollows }

/-- Reads everything that looks like a number. -/
def read (sign rest : List Char) : Numeral :=
  takeTail (takeExponent (takeFractions (takeRun Char.isDigit ⟨sign, rest, false, true⟩)))

/-- The token that the number is, if it is one. -/
def kind? (n : Numeral) : Option TokenKind :=
  if !n.valid then none
  else if n.fractional then (Double.ofText? n.taken).map TokenKind.float
  else (Integer.ofText? n.taken).map TokenKind.int

end Numeral

/-- Reads a number after the sign, or none, that was read before. -/
def number (start : Nat) (sign rest : List Char) : Except TokenError Lexeme :=
  let n := Numeral.read sign rest
  match n.kind? with
  | some kind => .ok ⟨kind, n.taken, n.rest⟩
  | none =>
    .error (.invalidNumber (String.ofList n.taken) ⟨start, start + utf8Length n.taken⟩)

/-! ## Texts -/

/-- The pieces of a text literal, the characters up to its closing quote, and what follows. -/
structure Quotation where
  pieces : List Piece
  taken : List Char
  rest : List Char

namespace Quotation

/-- Puts read characters, and what they mean, in front. -/
def push (taken : List Char) (change : List Piece → List Piece) (q : Quotation) : Quotation :=
  ⟨change q.pieces, taken ++ q.taken, q.rest⟩

/-- Reads a text literal after its opening quote; `none` where the line ends before the text.  A
backslash before a character that needs none stands for itself. -/
def read? : List Char → Option Quotation
  | [] => none
  | '"' :: rest => some ⟨[], ['"'], rest⟩
  | '\n' :: _ => none
  | ['\\'] => none
  | '\\' :: c :: rest =>
    (read? rest).map <| push ['\\', c] fun pieces =>
      match unescape? c with
      | some d => Piece.pushChar d pieces
      | none => Piece.pushChar '\\' (Piece.pushChar c pieces)
  | '{' :: rest => (read? rest).map (push ['{'] Piece.pushOpening)
  | '}' :: rest => (read? rest).map (push ['}'] Piece.pushClosing)
  | c :: rest => (read? rest).map (push [c] (Piece.pushChar c))

end Quotation

/-- Reads a text literal. -/
def quotation (start : Nat) (rest : List Char) : Except TokenError Lexeme :=
  match Quotation.read? rest with
  | some q => .ok ⟨.string ⟨q.pieces⟩, '"' :: q.taken, q.rest⟩
  | none => .error (.unterminatedString ⟨start, start + 1⟩)

/-! ## Marks -/

/-- The mark of two characters, where they are one. -/
def markOfTwo? (c d : Char) : Option Mark :=
  match c, d with
  | ':', '=' => some .define
  | '=', '=' => some .equal
  | '=', '>' => some .arrow
  | '!', '=' => some .notEqual
  | '<', '=' => some .lessEqual
  | '>', '=' => some .greaterEqual
  | _, _ => none

/-- The mark of one character. -/
def markOfOne? (c : Char) : Option Mark :=
  match c with
  | '{' => some .leftBrace
  | '}' => some .rightBrace
  | '[' => some .leftBracket
  | ']' => some .rightBracket
  | '(' => some .leftParen
  | ')' => some .rightParen
  | ',' => some .comma
  | '.' => some .dot
  | '|' => some .bar
  | '+' => some .plus
  | '*' => some .star
  | '/' => some .slash
  | '%' => some .percent
  | ':' => some .colon
  | '=' => some .equals
  | '!' => some .bang
  | '<' => some .less
  | '>' => some .greater
  | '-' => some .minus
  | _ => none

/-- Reads a mark, the longest there is. -/
def mark? : List Char → Option Lexeme
  | [] => none
  | [c] => (markOfOne? c).map fun mark => ⟨.mark mark, [c], []⟩
  | c :: d :: rest =>
    match markOfTwo? c d with
    | some mark => some ⟨.mark mark, [c, d], rest⟩
    | none => (markOfOne? c).map fun mark => ⟨.mark mark, [c], d :: rest⟩

/-! ## All kinds -/

/-- Reads the token at the beginning of a text that starts with `c` at the offset `start`.  A minus
before a digit is a sign, unless a value stands before it. -/
def read (start : Nat) (afterValue : Bool) (c : Char) (rest : List Char) :
    Except TokenError Lexeme :=
  if c = '"' then quotation start rest
  else if c.isDigit then number start [] (c :: rest)
  else if isWordStart c then .ok (word (c :: rest))
  else if c = '-' && !afterValue && (rest.head?.map Char.isDigit).getD false then
    number start ['-'] rest
  else
    match mark? (c :: rest) with
    | some lexeme => .ok lexeme
    | none => .error (.unexpectedCharacter c ⟨start, start + c.utf8Size⟩)

/-! ## Nothing is lost -/

/-- A word is split off from the text that begins with it. -/
theorem word_splits {c : Char} {rest : List Char} (h : isWordStart c = true) :
    (word (c :: rest)).Splits (c :: rest) where
  append_eq := List.takeWhile_append_dropWhile
  taken_ne_nil := by
    have : isWordChar c = true := by
      simp only [isWordStart, isWordChar, Char.isAlphanum, Bool.or_eq_true] at h ⊢
      exact h.imp_left .inl
    simp [word, this]

namespace Numeral

/-- The characters of a number and the rest together. -/
def all (n : Numeral) : List Char := n.taken ++ n.rest

/-- `m` is `n` with perhaps more characters taken. -/
structure Continues (n m : Numeral) : Prop where
  all_eq : m.all = n.all
  taken_grows : n.taken <+: m.taken

/-- Every numeral goes on from itself. -/
theorem Continues.refl (n : Numeral) : Continues n n := ⟨rfl, List.prefix_rfl⟩

/-- Going on in two steps is going on. -/
theorem Continues.trans {n m k : Numeral} (h : Continues n m) (h' : Continues m k) :
    Continues n k :=
  ⟨h'.all_eq.trans h.all_eq, h.taken_grows.trans h'.taken_grows⟩

/-- Changing what is known about a number takes no characters. -/
theorem Continues.mark {n m : Numeral} (h : Continues n m) (f v : Bool) :
    Continues n { m with fractional := f, valid := v } :=
  ⟨h.all_eq, h.taken_grows⟩

/-- A run of characters goes on with the numeral. -/
theorem continues_takeRun (p : Char → Bool) (n : Numeral) : Continues n (n.takeRun p) where
  all_eq := by simp [takeRun, all, List.append_assoc, List.takeWhile_append_dropWhile]
  taken_grows := List.prefix_append ..

/-- A fraction goes on with the numeral. -/
theorem continues_takeFraction {n m : Numeral} (h : n.takeFraction? = some m) :
    Continues n m := by
  unfold takeFraction? at h
  split at h
  · rename_i d rest hr
    split at h
    · cases h
      refine Continues.trans ⟨?_, ?_⟩ (continues_takeRun _ _)
      · simp [all, hr]
      · exact List.prefix_append ..
    · cases h
  · cases h

/-- Any number of fractions goes on with the numeral. -/
theorem continues_takeFractions (n : Numeral) : Continues n n.takeFractions := by
  unfold takeFractions
  split
  · exact .refl n
  · rename_i m hm
    split
    · exact (continues_takeFraction hm).mark _ _
    · rename_i k hk
      exact ((continues_takeFraction hm).trans (continues_takeFraction hk)).mark _ _

/-- A sign goes on with the numeral. -/
theorem continues_takeSign (n : Numeral) : Continues n n.takeSign := by
  unfold takeSign
  split
  · rename_i rest hr
    exact ⟨by simp [all, hr], List.prefix_append ..⟩
  · rename_i rest hr
    exact ⟨by simp [all, hr], List.prefix_append ..⟩
  · exact .refl n

/-- An exponent goes on with the numeral. -/
theorem continues_takeExponent (n : Numeral) : Continues n n.takeExponent := by
  unfold takeExponent
  split
  · rename_i e rest hr
    split
    · have first : Continues n
          { n with taken := n.taken ++ [e], rest := rest, fractional := true } :=
        ⟨by simp [all, hr], List.prefix_append ..⟩
      exact ((first.trans (continues_takeSign _)).mark _ _).trans (continues_takeRun _ _)
    · exact .refl n
  · exact .refl n

/-- Everything that may follow the digits goes on with the numeral. -/
theorem continues_takeTail (n : Numeral) : Continues n n.takeTail :=
  ((Continues.refl n).mark _ _).trans (continues_takeRun _ _)

/-- Reading a numeral goes on with its leading digits. -/
theorem continues_read (sign rest : List Char) :
    Continues (takeRun Char.isDigit ⟨sign, rest, false, true⟩) (read sign rest) :=
  ((continues_takeFractions _).trans (continues_takeExponent _)).trans (continues_takeTail _)

/-- What a numeral takes and what it leaves is the text that it is read from. -/
theorem all_read (sign rest : List Char) : (read sign rest).all = sign ++ rest :=
  (continues_read sign rest).all_eq.trans (continues_takeRun _ _).all_eq

/-- A numeral that has a sign or starts with a digit takes at least one character. -/
theorem read_taken_ne_nil {sign rest : List Char}
    (h : sign ≠ [] ∨ ∃ d, rest.head? = some d ∧ d.isDigit = true) :
    (read sign rest).taken ≠ [] := by
  have hp := (continues_read sign rest).taken_grows
  intro he
  rw [he, List.prefix_nil] at hp
  simp only [takeRun, List.append_eq_nil_iff] at hp
  rcases h with h | ⟨d, hd, hdigit⟩
  · exact h hp.1
  · cases rest with
    | nil => cases hd
    | cons c cs =>
      cases hd
      have := hp.2
      simp [hdigit] at this

end Numeral

/-- A number is split off from the text that begins with it. -/
theorem number_splits {start : Nat} {sign rest : List Char} {lexeme : Lexeme}
    (h : number start sign rest = .ok lexeme)
    (hs : sign ≠ [] ∨ ∃ d, rest.head? = some d ∧ d.isDigit = true) :
    lexeme.Splits (sign ++ rest) := by
  unfold number at h
  simp only at h
  split at h
  · cases h
    exact ⟨Numeral.all_read sign rest, Numeral.read_taken_ne_nil hs⟩
  · cases h

/-- What a quotation takes and what it leaves is the text that it is read from. -/
theorem Quotation.append_of_read {input : List Char} {q : Quotation} (h : read? input = some q) :
    q.taken ++ q.rest = input := by
  fun_induction read? input generalizing q with
  | case1 => cases h
  | case2 rest => cases h; rfl
  | case3 => cases h
  | case4 => cases h
  | case5 c rest ih | case6 rest ih | case7 rest ih | case8 c rest _ _ _ _ _ _ ih =>
    obtain ⟨r, hr, rfl⟩ := Option.map_eq_some_iff.1 h
    simp [push, ih hr]

/-- A quotation is split off from the text that begins with it, its opening quote included. -/
theorem quotation_splits {start : Nat} {rest : List Char} {lexeme : Lexeme}
    (h : quotation start rest = .ok lexeme) : lexeme.Splits ('"' :: rest) := by
  unfold quotation at h
  split at h
  · rename_i q hq
    cases h
    exact ⟨by simp [Quotation.append_of_read hq], by simp⟩
  · cases h

/-- A mark is split off from the text that begins with it. -/
theorem mark_splits {input : List Char} {lexeme : Lexeme} (h : mark? input = some lexeme) :
    lexeme.Splits input := by
  unfold mark? at h
  split at h
  · cases h
  · obtain ⟨_, _, rfl⟩ := Option.map_eq_some_iff.1 h
    exact ⟨rfl, by simp⟩
  · split at h
    · cases h; exact ⟨rfl, by simp⟩
    · obtain ⟨_, _, rfl⟩ := Option.map_eq_some_iff.1 h
      exact ⟨rfl, by simp⟩

/-- Reading a token takes some characters and keeps the others. -/
theorem read_splits {start : Nat} {afterValue : Bool} {c : Char} {rest : List Char}
    {lexeme : Lexeme} (h : read start afterValue c rest = .ok lexeme) :
    lexeme.Splits (c :: rest) := by
  unfold read at h
  split at h
  · subst_vars; exact quotation_splits h
  split at h
  · rename_i hd
    exact number_splits h (.inr ⟨c, rfl, hd⟩)
  split at h
  · rename_i hw
    cases h
    exact word_splits hw
  split at h
  · rename_i hm
    simp only [Bool.and_eq_true, decide_eq_true_eq] at hm
    obtain ⟨⟨rfl, _⟩, _⟩ := hm
    exact number_splits h (.inl (by simp))
  split at h
  · rename_i hm
    cases h
    exact mark_splits hm
  · cases h

end Lexeme

end TypedData
