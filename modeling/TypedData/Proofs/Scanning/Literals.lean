import TypedData.Proofs.Reading.Data
import TypedData.Proofs.Scanning.Stream

/-!
# Literals that are written again

A text that is written as a literal is scanned as that text, without placeholders.  And every literal that a scan finds
in a text stands there between quotation marks, has the text that is spelled between them, and is the same literal when
it is written again (`literals_survive`).

What is written again need not be what was there: a backslash that stands for itself gets another one.  It is the
pieces that are the same, since a scan gives regular ones only.
-/

namespace TypedData

/-! ## What a literal spells -/

/-- The text that the characters between two quotation marks spell. -/
def spelled : List Char → List Char
  | [] => []
  | ['\\'] => ['\\']
  | '\\' :: c :: cs => ((unescape? c).map fun d => [d]).getD ['\\', c] ++ spelled cs
  | c :: cs => c :: spelled cs

/-- A character that is no backslash stands for itself. -/
theorem spelled_cons {c : Char} (h : c ≠ '\\') (cs : List Char) : spelled (c :: cs) = c :: spelled cs := by
  cases cs <;> exact spelled.eq_4 _ _ (fun hc _ => h hc) fun _ _ hc _ => h hc

namespace Piece

/-- The text of pieces. -/
def textOf (pieces : List Piece) : List Char := (String.join (pieces.map asText)).toList

/-- The text of pieces is that of the first, and then that of the others. -/
theorem textOf_cons (piece : Piece) (pieces : List Piece) :
    textOf (piece :: pieces) = piece.asText.toList ++ textOf pieces := by
  unfold textOf
  rw [List.map_cons, String.join_cons, String.toList_append]

/-- A character before pieces stands before their text. -/
theorem textOf_pushChar (c : Char) (pieces : List Piece) : textOf (pushChar c pieces) = c :: textOf pieces := by
  unfold pushChar
  split
  · rename_i t pieces
    rw [textOf_cons, textOf_cons, asText, asText, String.toList_append, String.toList_singleton]
    rfl
  · rw [textOf_cons, asText, String.toList_singleton]
    rfl

/-- An opening brace before pieces stands before their text. -/
theorem textOf_pushOpening (pieces : List Piece) : textOf (pushOpening pieces) = '{' :: textOf pieces := by
  unfold pushOpening
  split
  · rename_i t pieces
    split
    · simp only [textOf_cons, asText, String.toList_append, String.toList_singleton, List.append_assoc]
      rfl
    · rw [textOf_cons, asText, String.toList_singleton]
      rfl
  · rw [textOf_cons, asText, String.toList_singleton]
    rfl

/-- A closing brace before pieces stands before their text. -/
theorem textOf_pushClosing (pieces : List Piece) : textOf (pushClosing pieces) = '}' :: textOf pieces := by
  rw [pushClosing, textOf_cons, asText, String.toList_singleton]
  rfl

end Piece

/-- **The pieces of a literal make the text that it spells.** -/
theorem Lexeme.Quotation.textOf_of_read? {input : List Char} {q : Quotation} (h : read? input = some q) :
    ∃ body, q.taken = body ++ ['"'] ∧ Piece.textOf q.pieces = spelled body := by
  fun_induction read? input generalizing q with
  | case1 | case3 | case4 => cases h
  | case2 =>
    cases h
    exact ⟨[], rfl, rfl⟩
  | case5 c rest ih =>
    obtain ⟨r, hr, rfl⟩ := Option.map_eq_some_iff.1 h
    obtain ⟨body, htaken, htext⟩ := ih hr
    refine ⟨'\\' :: c :: body, congrArg (['\\', c] ++ ·) htaken, ?_⟩
    unfold push
    dsimp only
    rw [spelled]
    cases unescape? c with
    | some d => rw [Piece.textOf_pushChar, htext]; rfl
    | none => rw [Piece.textOf_pushChar, Piece.textOf_pushChar, htext]; rfl
  | case6 rest ih =>
    obtain ⟨r, hr, rfl⟩ := Option.map_eq_some_iff.1 h
    obtain ⟨body, htaken, htext⟩ := ih hr
    exact ⟨'{' :: body, congrArg ('{' :: ·) htaken, (Piece.textOf_pushOpening _).trans (congrArg ('{' :: ·) htext)⟩
  | case7 rest ih =>
    obtain ⟨r, hr, rfl⟩ := Option.map_eq_some_iff.1 h
    obtain ⟨body, htaken, htext⟩ := ih hr
    exact ⟨'}' :: body, congrArg ('}' :: ·) htaken, (Piece.textOf_pushClosing _).trans (congrArg ('}' :: ·) htext)⟩
  | case8 c rest _ _ hend hescape _ _ ih =>
    obtain ⟨r, hr, rfl⟩ := Option.map_eq_some_iff.1 h
    obtain ⟨body, htaken, htext⟩ := ih hr
    refine ⟨c :: body, congrArg (c :: ·) htaken, (Piece.textOf_pushChar _ _).trans ?_⟩
    rw [htext, spelled_cons (ne_backslash hend hescape)]

/-! ## Literals are written again -/

/-- A literal that is written is scanned as it is. -/
theorem exists_scan_print {template : Template} (h : Piece.Regular template.pieces) :
    ∃ tokens, scan template.print = .ok tokens ∧ kinds tokens = [.string template, .newline, .eof] := by
  have htext : template.print.toList = Glyph.text [.token (.string template)] := (List.append_nil _).symm
  exact exists_scan_row htext ⟨_, _, rfl, by rintro ⟨⟩⟩ ⟨h, trivial, by rintro ⟨⟩, trivial⟩ rfl

/-- **A text survives being written as a literal.** -/
theorem exists_scan_literal (t : String) :
    ∃ tokens, scan (literal t) = .ok tokens ∧ kinds tokens = [.string (.plain t), .newline, .eof] := by
  rw [← Parser.print_plain]
  exact exists_scan_print (Piece.regular_plain t)

/-! ## Literals that are found -/

/-- The token is a lexeme of the text, where it stands, or belongs to the layout. -/
inductive Stands (source : List Char) : Token → Prop
  | layout {token : Token} : Lexeme.IsLayout token.kind → Stands source token
  | lexeme {before rest : List Char} {c : Char} {lexeme : Lexeme} : source = before ++ c :: rest →
      Lexeme.Found c rest lexeme →
      Stands source ⟨lexeme.kind, ⟨utf8Length before, utf8Length (before ++ lexeme.taken)⟩⟩

/-- The tokens of the layout stand in the text. -/
theorem Aligns.stands {source : List Char} {st st' : ScanState} {text rest : List Char} {tokens : List Token}
    (h : Aligns st text tokens st' rest) : ∀ token ∈ tokens, Stands source token := by
  cases h with
  | none | blank => exact List.forall_mem_nil _
  | opens => exact List.forall_mem_singleton.2 (.layout trivial)
  | closes =>
    intro token ht
    obtain ⟨_, -, rfl⟩ := List.mem_map.1 ht
    exact .layout trivial

/-- The tokens of what is passed stand in the text. -/
theorem Move.stands {source : List Char} {st st' : ScanState} {text rest : List Char} {before tokens : List Token}
    (h : Move st text tokens st' rest) (hplaced : IsPlaced source before st text) :
    ∀ token ∈ tokens, Stands source token := by
  obtain ⟨passed, hsource, hoffset, -, -⟩ := hplaced
  cases h with
  | blank | comment => exact List.forall_mem_nil _
  | lineFeed =>
    unfold ScanState.newlines
    split
    · exact List.forall_mem_singleton.2 (.layout trivial)
    · exact List.forall_mem_nil _
  | lexeme _ _ hread =>
    refine List.forall_mem_singleton.2 ?_
    have hstands := Stands.lexeme hsource (Lexeme.found_of_read hread)
    rw [utf8Length_append, ← hoffset] at hstands
    exact hstands

/-- **Every token of a text stands in it.** -/
theorem stands_of_scan {source : String} {tokens : List Token} (h : scan source = .ok tokens) :
    ∀ token ∈ tokens, Stands source.toList token := by
  obtain ⟨more, st, ⟨-, hmore⟩, rfl⟩ := exists_of_scanFrom
    (I := fun tokens st text => IsPlaced source.toList tokens st text ∧ ∀ token ∈ tokens, Stands source.toList token)
    (fun h hmove => ⟨h.1.aligns hmove, List.forall_mem_append.2 ⟨h.2, hmove.stands⟩⟩)
    (fun h hmove => ⟨h.1.move hmove, List.forall_mem_append.2 ⟨h.2, hmove.stands h.1⟩⟩)
    ⟨⟨[], rfl, rfl, trivial, .nil _⟩, List.forall_mem_nil _⟩ h
  refine List.forall_mem_append.2 ⟨hmore, fun token ht => .layout ?_⟩
  rcases (mem_finish ht).1 with hkind | hkind | hkind <;> exact hkind ▸ trivial

/-- Where a literal stands in a text: `body` is what stands between its quotation marks. -/
def Quotes (source : List Char) (span : Span) (body : List Char) : Prop :=
  ∃ before after, source = before ++ ('"' :: body ++ ['"']) ++ after ∧
    span = ⟨utf8Length before, utf8Length (before ++ ('"' :: body ++ ['"']))⟩

/-- A literal of a text stands in it. -/
theorem Stands.literal {source : List Char} {template : Template} {span : Span}
    (h : Stands source ⟨.string template, span⟩) : ∃ body, Quotes source span body ∧
      Piece.textOf template.pieces = spelled body ∧ Piece.Regular template.pieces := by
  generalize htoken : (⟨.string template, span⟩ : Token) = token at h
  cases h with
  | layout hkind =>
    subst htoken
    cases hkind
  | @lexeme before rest c lexeme hsource hfound =>
    obtain ⟨hkind, rfl⟩ := Token.mk.inj htoken
    cases hfound with
    | slash => cases hkind
    | inert _ _ hplain =>
      rw [← hkind] at hplain
      cases hplain
    | @literal _ q hq =>
      obtain rfl := TokenKind.string.inj hkind
      obtain ⟨body, htaken, htext⟩ := Lexeme.Quotation.textOf_of_read? hq
      refine ⟨body, ⟨before, q.rest, ?_, ?_⟩, htext, Lexeme.Quotation.regular_of_read? hq⟩
      · rw [hsource, ← Lexeme.Quotation.append_of_read hq, htaken]
        simp
      · rw [htaken]
        rfl

/-- **Literals survive being written.**  A text that is written as a literal is scanned as one token, with that text
and without placeholders.  And every literal that is found in a text stands there between quotation marks; the text of
its pieces is what is spelled between them; and when it is written again, it is scanned as one token, with the same
pieces. -/
theorem literals_survive :
    (∀ t : String, (Template.plain t).text = t ∧
      ∃ tokens, scan (literal t) = .ok tokens ∧ kinds tokens = [.string (.plain t), .newline, .eof]) ∧
    ∀ source tokens, scan source = .ok tokens → ∀ template span, ⟨.string template, span⟩ ∈ tokens →
      (∃ body, Quotes source.toList span body ∧
        String.join (template.pieces.map Piece.asText) = .ofList (spelled body)) ∧
      ∃ again, scan template.print = .ok again ∧ kinds again = [.string template, .newline, .eof] := by
  refine ⟨fun t => ⟨Parser.text_plain t, exists_scan_literal t⟩, fun source tokens hscan template span hmem => ?_⟩
  obtain ⟨body, hquotes, htext, hregular⟩ := (stands_of_scan hscan _ hmem).literal
  exact ⟨⟨body, hquotes, String.toList_inj.1 (htext.trans String.toList_ofList.symm)⟩, exists_scan_print hregular⟩

/-- A literal with a placeholder, stray braces next to one, an escaped brace and a backslash that stands for itself. -/
def braced : String := "k: \"\x7b\x7ba\x7d\x7db\x7d\\\x7bc\x7d\\q\"\n"

/-- Its pieces. -/
def bracedPieces : List Piece :=
  [.stray '\x7b', .slot "a", .stray '\x7d', .text "b", .stray '\x7d', .text "\x7bc", .stray '\x7d', .text "\\q"]

/-- A literal with a slot, braces and a backslash survives being written. -/
theorem literals_survive_braced : ∃ tokens, scan braced = .ok tokens ∧ ⟨.string ⟨bracedPieces⟩, ⟨3, 18⟩⟩ ∈ tokens ∧
    (∃ body, Quotes braced.toList ⟨3, 18⟩ body ∧ String.join (bracedPieces.map Piece.asText) = .ofList (spelled body)) ∧
    ∃ again, scan (Template.mk bracedPieces).print = .ok again ∧
      kinds again = [.string ⟨bracedPieces⟩, .newline, .eof] := by
  have htest : (scan braced).toOption.any (fun tokens =>
      tokens[2]? = some ⟨.string ⟨bracedPieces⟩, ⟨3, 18⟩⟩) = true := by
    decide +kernel
  obtain ⟨tokens, hscan, htoken⟩ := exists_ok_of_any htest
  have hmem := List.mem_of_getElem? (of_decide_eq_true htoken)
  exact ⟨tokens, hscan, hmem, literals_survive.2 braced tokens hscan _ _ hmem⟩

end TypedData
