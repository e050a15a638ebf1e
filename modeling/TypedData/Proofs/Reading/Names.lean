import TypedData.Proofs.Reading.Making
import TypedData.Proofs.Reading.Quotation

/-!
# Names and literals

Every name in a text is a word that is not reserved, and the pieces of every literal are regular (`lexical_spelled`).
So it is in the document that is read from the text.
-/

namespace TypedData

namespace TokenKind

/-- A name is a word that is not reserved, and a literal has regular pieces. -/
def Spelled : TokenKind → Prop
  | name text => isName text = true
  | string template => Piece.Regular template.pieces
  | _ => True

end TokenKind

namespace Lexeme

/-- A word that is read is spelled as a name or a keyword. -/
theorem spelled_word {c : Char} (h : isWordStart c = true) (rest : List Char) :
    (word (c :: rest)).kind.Spelled := by
  have hc : isWordChar c = true := Quotation.isWordChar_of_isWordStart h
  have hword : isWord ((c :: rest).takeWhile isWordChar) = true := by
    rw [List.takeWhile_cons_of_pos hc, isWord, h, Bool.true_and, List.all_takeWhile]
  unfold word wordKind
  dsimp only
  split
  · trivial
  · rename_i hnone
    rw [TokenKind.Spelled, isName_iff, String.toList_ofList]
    exact ⟨hword, hnone⟩

/-- What is read as a mark is one. -/
theorem exists_mark {input : List Char} {lexeme : Lexeme} (h : mark? input = some lexeme) :
    ∃ m, lexeme.kind = .mark m := by
  unfold mark? at h
  split at h
  · cases h
  · obtain ⟨m, -, rfl⟩ := Option.map_eq_some_iff.1 h
    exact ⟨m, rfl⟩
  · split at h
    · cases h
      exact ⟨_, rfl⟩
    · obtain ⟨m, -, rfl⟩ := Option.map_eq_some_iff.1 h
      exact ⟨m, rfl⟩

/-- A number that is read is spelled as one. -/
theorem spelled_number (start : Nat) (sign rest : List Char) :
    Yields (fun lexeme => lexeme.kind.Spelled) (number start sign rest) := by
  unfold number
  dsimp only
  split
  · rename_i kind hkind
    refine .ok ?_
    unfold Numeral.kind? at hkind
    split at hkind
    · cases hkind
    · split at hkind
      · obtain ⟨_, -, rfl⟩ := Option.map_eq_some_iff.1 hkind
        trivial
      · obtain ⟨_, -, rfl⟩ := Option.map_eq_some_iff.1 hkind
        trivial
  · exact .error _

/-- Every token that is read can be spelled. -/
theorem spelled_read (start : Nat) (afterValue : Bool) (c : Char) (rest : List Char) :
    Yields (fun lexeme => lexeme.kind.Spelled) (read start afterValue c rest) := by
  unfold read
  split
  · unfold quotation
    split
    · rename_i q hquotation
      exact .ok (Quotation.regular_of_read? hquotation)
    · exact .error _
  split
  · exact spelled_number _ _ _
  split
  · rename_i hstart
    exact .ok (spelled_word hstart rest)
  split
  · exact spelled_number _ _ _
  split
  · rename_i lexeme hmark
    obtain ⟨m, hm⟩ := exists_mark hmark
    exact .ok (by rw [hm]; trivial)
  · exact .error _

end Lexeme

/-- Tokens whose names are words that are not reserved, and whose literals have regular pieces. -/
def Material.spelled : Material := .ofKinds TokenKind.Spelled trivial

/-- The tokens of every text can be spelled. -/
theorem lexical_spelled : Lexical .spelled where
  newline := trivial
  indent := trivial
  dedent := trivial
  lexeme := Lexeme.spelled_read

end TypedData
