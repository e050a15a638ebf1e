import TypedData.Token.Lexeme

/-!
# Text literals that are read back

The pieces of a literal are regular (`Piece.Regular`): texts are not empty and have no texts next to them,
and no stray braces around a word could be a placeholder.  Reading a literal gives regular pieces
(`Lexeme.Quotation.regular_of_read?`), and regular pieces that are written are read back
(`Lexeme.Quotation.read?_print`).
-/

namespace TypedData

namespace Piece

/-- Whether the pieces start with a text. -/
def startsWithText : List Piece → Bool
  | text _ :: _ => true
  | _ => false

/-- Whether an opening brace before the pieces opens a placeholder. -/
def closesPlaceholder : List Piece → Bool
  | text t :: stray '}' :: _ => isWord t.toList
  | _ => false

/-- The pieces are as a reader gives them. -/
def Regular : List Piece → Prop
  | [] => True
  | text t :: pieces => t ≠ "" ∧ startsWithText pieces = false ∧ Regular pieces
  | slot name :: pieces => isWord name.toList = true ∧ Regular pieces
  | stray brace :: pieces =>
    (brace = '}' ∨ brace = '{' ∧ closesPlaceholder pieces = false) ∧ Regular pieces

/-- The pieces of a plain text are regular. -/
theorem regular_plain (t : String) : Regular (Template.plain t).pieces := by
  unfold Template.plain
  split
  · trivial
  · rename_i hne
    exact ⟨hne, rfl, trivial⟩

/-! ## What is read is regular -/

/-- Pieces stay regular when a character is put before them. -/
theorem regular_pushChar (c : Char) {pieces : List Piece} (h : Regular pieces) :
    Regular (pushChar c pieces) := by
  have hne : ∀ t : String, String.singleton c ++ t ≠ "" := by
    intro t hempty
    have := congrArg String.toList hempty
    simp at this
  unfold pushChar
  split
  · rename_i t pieces
    exact ⟨hne t, h.2⟩
  · rename_i hstart
    refine ⟨?_, ?_, h⟩
    · have := hne ""
      rwa [String.append_empty] at this
    · unfold startsWithText
      split
      · rename_i t pieces
        exact absurd rfl (hstart t pieces)
      · rfl

/-- A brace that opens no placeholder stands for itself. -/
theorem pushOpening_of_not_closes {pieces : List Piece} (h : closesPlaceholder pieces = false) :
    pushOpening pieces = stray '{' :: pieces := by
  unfold pushOpening
  split
  · rename_i t pieces
    change isWord t.toList = false at h
    rw [if_neg (by rw [h]; decide)]
  · rfl

/-- Pieces stay regular when an opening brace is put before them. -/
theorem regular_pushOpening {pieces : List Piece} (h : Regular pieces) :
    Regular (pushOpening pieces) := by
  cases hcloses : closesPlaceholder pieces with
  | false =>
    rw [pushOpening_of_not_closes hcloses]
    exact ⟨.inr ⟨rfl, hcloses⟩, h⟩
  | true =>
    unfold closesPlaceholder at hcloses
    split at hcloses
    · rename_i t pieces
      rw [pushOpening, if_pos hcloses]
      exact ⟨hcloses, h.2.2.2⟩
    · cases hcloses

end Piece

namespace Lexeme.Quotation

/-- The pieces of every literal that is read are regular. -/
theorem regular_of_read? {input : List Char} {q : Quotation} (h : read? input = some q) :
    Piece.Regular q.pieces := by
  fun_induction read? input generalizing q with
  | case1 => cases h
  | case2 rest => cases h; trivial
  | case3 => cases h
  | case4 => cases h
  | case5 c rest ih =>
    obtain ⟨r, hr, rfl⟩ := Option.map_eq_some_iff.1 h
    unfold push
    dsimp only
    split
    · exact Piece.regular_pushChar _ (ih hr)
    · exact Piece.regular_pushChar _ (Piece.regular_pushChar _ (ih hr))
  | case6 rest ih =>
    obtain ⟨r, hr, rfl⟩ := Option.map_eq_some_iff.1 h
    exact Piece.regular_pushOpening (ih hr)
  | case7 rest ih =>
    obtain ⟨r, hr, rfl⟩ := Option.map_eq_some_iff.1 h
    exact ⟨.inl rfl, ih hr⟩
  | case8 c rest _ _ _ _ _ _ ih =>
    obtain ⟨r, hr, rfl⟩ := Option.map_eq_some_iff.1 h
    exact Piece.regular_pushChar _ (ih hr)

/-! ## What is written is read -/

/-- Reading after some characters that are a part of the literal. -/
def Reads (written : List Char) (change : List Piece → List Piece) : Prop :=
  ∀ rest, read? (written ++ rest) = (read? rest).map (push written change)

/-- What is pushed twice is pushed at once. -/
theorem push_push (written written' : List Char) (change change' : List Piece → List Piece) (q : Quotation) :
    push written change (push written' change' q) = push (written ++ written') (change ∘ change') q := by
  simp [push]

/-- Texts that are read one after the other change the pieces one after the other. -/
theorem Reads.append {written written' : List Char} {change change' : List Piece → List Piece}
    (h : Reads written change) (h' : Reads written' change') :
    Reads (written ++ written') (change ∘ change') := by
  intro rest
  rw [List.append_assoc, h, h', Option.map_map]
  exact congrArg (Option.map · _) (funext (push_push written written' change change'))

/-- No text is read and changes nothing. -/
theorem reads_nil : Reads [] id := by
  intro rest
  rw [List.nil_append]
  exact (congrFun Option.map_id _).symm

/-- An opening brace is read. -/
theorem reads_opening : Reads ['{'] Piece.pushOpening := fun _ => by
  rw [List.singleton_append, read?]

/-- A closing brace is read. -/
theorem reads_closing : Reads ['}'] Piece.pushClosing := fun _ => by
  rw [List.singleton_append, read?]

/-- A character that needs no backslash is read as itself. -/
theorem reads_char {c : Char} (h : escapeChar c = [c]) : Reads [c] (Piece.pushChar c) := by
  intro rest
  rw [List.singleton_append, read?]
  all_goals
    intros
    subst_vars
    cases h

/-- A character that is written with a backslash is read as itself. -/
theorem reads_escaped {c d : Char} (h : unescape? d = some c) :
    Reads ['\\', d] (Piece.pushChar c) := by
  intro rest
  rw [List.cons_append, List.singleton_append, read?]
  rw [h]

/-- An escaped character is read as the character. -/
theorem reads_escapeChar (c : Char) : Reads (escapeChar c) (Piece.pushChar c) := by
  rcases escapeChar_eq c with h | ⟨d, h, hd⟩
  · rw [h]
    exact reads_char h
  · rw [h]
    exact reads_escaped hd

/-- The characters of a text are put in front of the pieces. -/
def pushAll (t : List Char) (pieces : List Piece) : List Piece := t.foldr Piece.pushChar pieces

/-- An escaped text is read as its characters. -/
theorem reads_escaped_text (t : List Char) : Reads (t.flatMap escapeChar) (pushAll t) := by
  induction t with
  | nil => exact reads_nil
  | cons c t ih => exact (reads_escapeChar c).append ih

/-- A character before what starts with no text is a text of its own. -/
theorem pushChar_of_not_starts (c : Char) {pieces : List Piece}
    (h : Piece.startsWithText pieces = false) :
    Piece.pushChar c pieces = .text (String.singleton c) :: pieces := by
  unfold Piece.pushChar
  split
  · cases h
  · rfl

/-- A text before what starts with no text is a piece of its own. -/
theorem pushAll_eq {t : List Char} (hne : t ≠ []) {pieces : List Piece}
    (h : Piece.startsWithText pieces = false) :
    pushAll t pieces = .text (String.ofList t) :: pieces := by
  induction t with
  | nil => exact absurd rfl hne
  | cons c t ih =>
    cases t with
    | nil => exact pushChar_of_not_starts c h
    | cons d t =>
      change Piece.pushChar c (pushAll (d :: t) pieces) = _
      rw [ih (List.cons_ne_nil d t), Piece.pushChar, String.ofList_cons (c := c)]

/-- No character of a word is escaped. -/
theorem escapeChar_of_isWordChar {c : Char} (h : isWordChar c = true) : escapeChar c = [c] := by
  unfold escapeChar
  repeat' split
  all_goals first | rfl | (subst_vars; cases h)

/-- Words need no backslash. -/
theorem flatMap_escapeChar_of_isWord {t : List Char} (h : ∀ c ∈ t, isWordChar c = true) :
    t.flatMap escapeChar = t := by
  induction t with
  | nil => rfl
  | cons c t ih =>
    obtain ⟨hc, ht⟩ := List.forall_mem_cons.1 h
    rw [List.flatMap_cons, escapeChar_of_isWordChar hc, ih ht, List.singleton_append]

/-- What a word starts with is a character of a word. -/
theorem isWordChar_of_isWordStart {c : Char} (h : isWordStart c = true) : isWordChar c = true := by
  unfold isWordStart at h
  unfold isWordChar Char.isAlphanum
  rcases Bool.or_eq_true_iff.1 h with h | h
  · rw [h]
    rfl
  · rw [h, Bool.or_true]

/-- A word is made of characters of words. -/
theorem forall_isWordChar_of_isWord {t : List Char} (h : isWord t = true) :
    ∀ c ∈ t, isWordChar c = true := by
  cases t with
  | nil => cases h
  | cons c t =>
    obtain ⟨hc, ht⟩ := Bool.and_eq_true_iff.1 h
    exact List.forall_mem_cons.2 ⟨isWordChar_of_isWordStart hc, List.all_eq_true.1 ht⟩

/-- Pieces that are written are put in front of those after them. -/
theorem reads_pieces : (pieces : List Piece) → Piece.Regular pieces →
    ∃ change, Reads (String.join (pieces.map Piece.print)).toList change ∧ change [] = pieces
  | [], _ => ⟨id, reads_nil, rfl⟩
  | .text t :: pieces, h => by
    obtain ⟨change, hreads, hchange⟩ := reads_pieces pieces h.2.2
    refine ⟨pushAll t.toList ∘ change, ?_, ?_⟩
    · rw [List.map_cons, String.join_cons, String.toList_append, Piece.print, escaped, String.toList_ofList]
      exact (reads_escaped_text t.toList).append hreads
    · have hne : t.toList ≠ [] := fun hnil => h.1 (String.toList_eq_nil_iff.1 hnil)
      rw [Function.comp_apply, hchange, pushAll_eq hne h.2.1, String.ofList_toList]
  | .slot name :: pieces, h => by
    obtain ⟨change, hreads, hchange⟩ := reads_pieces pieces h.2
    have hword := forall_isWordChar_of_isWord h.1
    have hname := reads_escaped_text name.toList
    rw [flatMap_escapeChar_of_isWord hword] at hname
    refine ⟨Piece.pushOpening ∘ pushAll name.toList ∘ Piece.pushClosing ∘ change, ?_, ?_⟩
    · rw [List.map_cons, String.join_cons, String.toList_append, Piece.print, String.toList_append,
        String.toList_append, List.append_assoc, List.append_assoc]
      exact reads_opening.append (hname.append (reads_closing.append hreads))
    · have hne : name.toList ≠ [] := fun hnil => by
        have hword := h.1
        rw [hnil] at hword
        cases hword
      simp only [Function.comp_apply, hchange, Piece.pushClosing]
      rw [pushAll_eq hne rfl, String.ofList_toList, Piece.pushOpening, if_pos h.1]
  | .stray brace :: pieces, h => by
    obtain ⟨change, hreads, hchange⟩ := reads_pieces pieces h.2
    rw [List.map_cons, String.join_cons, String.toList_append, Piece.print, String.toList_singleton]
    rcases h.1 with rfl | ⟨rfl, hcloses⟩
    · exact ⟨_, reads_closing.append hreads, congrArg Piece.pushClosing hchange⟩
    · refine ⟨_, reads_opening.append hreads, ?_⟩
      rw [Function.comp_apply, hchange, Piece.pushOpening_of_not_closes hcloses]

/-- **Regular pieces that are written are read back.** -/
theorem read?_print {pieces : List Piece} (h : Piece.Regular pieces) (rest : List Char) :
    read? ((String.join (pieces.map Piece.print)).toList ++ '"' :: rest) =
      some ⟨pieces, (String.join (pieces.map Piece.print)).toList ++ ['"'], rest⟩ := by
  obtain ⟨change, hreads, hchange⟩ := reads_pieces pieces h
  rw [hreads, read?, Option.map_some, push, hchange]

end Lexeme.Quotation

end TypedData
