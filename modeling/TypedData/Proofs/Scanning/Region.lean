import TypedData.Proofs.Scanning.Extent
import TypedData.Proofs.Scanning.Round

/-!
# Literals and comments in a text

Whether a place in a text lies in a text literal or in a comment can be told without scanning it, by a machine of five
states that goes over the characters before it (`Region.behind`).  The scanner agrees with the machine: whatever it
passes, it begins outside (`Aligns.outside`, `Move.outside`), so a lexeme or a comment begins where the machine sees
one begin.
-/

namespace TypedData

/-- What the characters before a place say about it. -/
inductive Region where
  /-- It lies outside literals and comments. -/
  | plain
  /-- It lies outside, behind a slash that may open a comment. -/
  | slash
  /-- It lies in a literal. -/
  | literal
  /-- It lies in a literal, behind a backslash. -/
  | escape
  /-- It lies in a comment. -/
  | comment
deriving DecidableEq, Repr

namespace Region

/-- The region behind a character.  A line feed ends a comment, and a literal that is not closed before it. -/
def after : Region → Char → Region
  | plain, c => if c = '"' then literal else if c = '/' then slash else plain
  | slash, c => if c = '"' then literal else if c = '/' then comment else plain
  | literal, c => if c = '"' || c = '\n' then plain else if c = '\\' then escape else literal
  | escape, _ => literal
  | comment, c => if c = '\n' then plain else comment

/-- The region behind some characters. -/
def across (r : Region) (cs : List Char) : Region := cs.foldl after r

/-- The region behind the characters that a text begins with. -/
def behind (before : List Char) : Region := across plain before

/-- The region behind two texts is the region behind the second, from that behind the first. -/
theorem across_append (r : Region) (cs ds : List Char) : r.across (cs ++ ds) = (r.across cs).across ds :=
  List.foldl_append ..

/-- The region behind a beginning is the region behind its second part, from that behind the first. -/
theorem behind_append (cs ds : List Char) : behind (cs ++ ds) = (behind cs).across ds := across_append ..

/-- A lexeme or a comment may begin here, where `rest` follows, if one does. -/
def Outside : Region → List Char → Prop
  | plain, _ => True
  | slash, rest => rest.head? ≠ some '/'
  | literal, _ | escape, _ => False
  | comment, rest => ∀ c ∈ rest.head?, c = '\n'

/-- Behind an inert character where a lexeme may begin, the region is plain. -/
theorem Outside.after_inert {r : Region} {c : Char} {rest : List Char} (h : r.Outside (c :: rest))
    (hc : Lexeme.IsInert c) : r.after c = plain := by
  obtain ⟨hbreak, hquote, hslash⟩ := hc
  cases r with
  | plain | slash => simp [after, hquote, hslash]
  | literal | escape => cases h
  | comment => exact absurd (h c rfl) hbreak

/-- Behind a line feed where a lexeme may begin, the region is plain. -/
theorem Outside.after_lineFeed {r : Region} {rest : List Char} (h : r.Outside ('\n' :: rest)) :
    r.after '\n' = plain := by
  cases r with
  | plain | slash | comment => rfl
  | literal | escape => cases h

/-- Behind a quotation mark where a lexeme may begin, the region is a literal. -/
theorem Outside.after_quote {r : Region} {rest : List Char} (h : r.Outside ('"' :: rest)) :
    r.after '"' = literal := by
  cases r with
  | plain | slash => rfl
  | literal | escape => cases h
  | comment => exact absurd (h '"' rfl) (by decide)

/-- A slash where a lexeme may begin stands in plain text. -/
theorem Outside.eq_plain {r : Region} {rest : List Char} (h : r.Outside ('/' :: rest)) : r = plain := by
  cases r with
  | plain => rfl
  | slash => exact absurd rfl h
  | literal | escape => cases h
  | comment => exact absurd (h '/' rfl) (by decide)

/-- Inert characters lead nowhere out of plain text. -/
theorem across_plain_of_inert {cs : List Char} (h : ∀ c ∈ cs, Lexeme.IsInert c) : plain.across cs = plain := by
  induction cs with
  | nil => rfl
  | cons c cs ih =>
    obtain ⟨hc, hcs⟩ := List.forall_mem_cons.1 h
    change (after plain c).across cs = plain
    rw [Outside.after_inert (show plain.Outside (c :: cs) from trivial) hc]
    exact ih hcs

/-- Behind inert characters where a lexeme may begin, the region is plain. -/
theorem Outside.across_inert {r : Region} {c : Char} {cs rest : List Char} (h : r.Outside (c :: cs ++ rest))
    (hcs : ∀ d ∈ c :: cs, Lexeme.IsInert d) : r.across (c :: cs) = plain := by
  obtain ⟨hc, hcs⟩ := List.forall_mem_cons.1 hcs
  change (r.after c).across cs = plain
  rw [h.after_inert hc, across_plain_of_inert hcs]

/-- A comment goes on as far as the next line feed. -/
theorem across_comment {text : List Char} (h : '\n' ∉ text) : comment.across text = comment := by
  induction text with
  | nil => rfl
  | cons c text ih =>
    obtain ⟨hc, htext⟩ := not_or.1 (mt List.mem_cons.2 h)
    change (comment.after c).across text = comment
    rw [after, if_neg (Ne.symm hc)]
    exact ih htext

/-- A literal goes on behind a character that is no quote, no line feed and no backslash. -/
theorem after_literal {c : Char} (hquote : c ≠ '"') (hbreak : c ≠ '\n') (hbackslash : c ≠ '\\') :
    literal.after c = literal := by
  simp [after, hquote, hbreak, hbackslash]

end Region

/-! ## Literals -/

namespace Lexeme.Quotation

/-- A character that is no escape is no backslash. -/
theorem ne_backslash {c : Char} {rest : List Char} (hend : c = '\\' → rest = [] → False)
    (hescape : ∀ d ds, c = '\\' → rest = d :: ds → False) : c ≠ '\\' := fun hc =>
  match rest, hend, hescape with
  | [], hend, _ => hend hc rfl
  | d :: ds, _, hescape => hescape d ds hc rfl

/-- The rest of a literal, with its closing quote, leads out of it. -/
theorem across_taken {input : List Char} {q : Quotation} (h : read? input = some q) :
    Region.literal.across q.taken = .plain := by
  fun_induction read? input generalizing q with
  | case1 | case3 | case4 => cases h
  | case2 =>
    cases h
    rfl
  | case5 c rest ih | case6 rest ih | case7 rest ih =>
    obtain ⟨r, hr, rfl⟩ := Option.map_eq_some_iff.1 h
    have hrest := ih hr
    exact hrest
  | case8 c rest hquote hbreak hend hescape _ _ ih =>
    obtain ⟨r, hr, rfl⟩ := Option.map_eq_some_iff.1 h
    change (Region.literal.after c).across r.taken = .plain
    rw [Region.after_literal hquote hbreak (ne_backslash hend hescape)]
    exact ih hr

/-- A literal ends with its closing quote. -/
theorem getLast?_taken {input : List Char} {q : Quotation} (h : read? input = some q) :
    q.taken.getLast? = some '"' := by
  fun_induction read? input generalizing q with
  | case1 | case3 | case4 => cases h
  | case2 =>
    cases h
    rfl
  | case5 c rest ih | case6 rest ih | case7 rest ih | case8 c rest _ _ _ _ _ _ ih =>
    obtain ⟨r, hr, rfl⟩ := Option.map_eq_some_iff.1 h
    unfold push
    rw [List.getLast?_append, ih hr]
    rfl

/-- The literal, with more text behind it. -/
def extend (more : List Char) (q : Quotation) : Quotation := { q with rest := q.rest ++ more }

/-- A literal is extended before or after characters are put before it. -/
theorem map_push_extend (more taken : List Char) (change : List Piece → List Piece) (q? : Option Quotation) :
    (q?.map (extend more)).map (push taken change) = (q?.map (push taken change)).map (extend more) := by
  cases q? <;> rfl

/-- What stands behind a text in which a literal comes to its end does not matter for the literal. -/
theorem read?_append {input : List Char} (h : Region.literal.across input = .plain) (more : List Char) :
    read? (input ++ more) = (read? input).map (extend more) := by
  fun_induction read? input with
  | case1 | case4 => cases h
  | case2 | case3 => rfl
  | case5 c rest ih | case6 rest ih | case7 rest ih =>
    simp only [List.cons_append, read?]
    rw [ih h, map_push_extend]
  | case8 c rest hquote hbreak hend hescape hopening hclosing ih =>
    have hne := ne_backslash hend hescape
    have hrest : Region.literal.across rest = .plain := by
      change (Region.literal.after c).across rest = .plain at h
      rwa [Region.after_literal hquote hbreak hne] at h
    rw [List.cons_append, read?.eq_8 _ _ hquote hbreak (fun hc => absurd hc hne) (fun _ _ hc => absurd hc hne) hopening
      hclosing, ih hrest, map_push_extend]

end Lexeme.Quotation

/-! ## The scanner -/

namespace Region

/-- Where a lexeme may begin before blanks, one may begin behind them. -/
theorem Outside.blanks {r : Region} {blanks rest : List Char} (h : r.Outside (blanks ++ rest))
    (hblanks : ∀ c ∈ blanks, isIndentChar c = true) : (r.across blanks).Outside rest := by
  cases blanks with
  | nil => exact h
  | cons c blanks =>
    rw [h.across_inert]
    · trivial
    · intro d hd
      have := hblanks d hd
      refine ⟨?_, ?_, ?_⟩ <;>
      · rintro rfl
        revert this
        decide

end Region

/-- Where a lexeme may begin before the layout, one may begin behind it. -/
theorem Aligns.outside {st st' : ScanState} {text rest : List Char} {tokens : List Token} {r : Region}
    (h : Aligns st text tokens st' rest) (hr : r.Outside text) :
    ∃ passed, text = passed ++ rest ∧ (r.across passed).Outside rest := by
  cases h with
  | none => exact ⟨[], rfl, hr⟩
  | blank hblanks | opens _ hblanks | closes hblanks => exact ⟨_, rfl, hr.blanks hblanks⟩

/-- Where a lexeme may begin before what is passed, one may begin behind it. -/
theorem Move.outside {st st' : ScanState} {text rest : List Char} {tokens : List Token} {r : Region}
    (h : Move st text tokens st' rest) (hr : r.Outside text) :
    ∃ passed, text = passed ++ rest ∧ (r.across passed).Outside rest := by
  cases h with
  | @blank c _ hc =>
    refine ⟨[c], rfl, ?_⟩
    have hinert : Lexeme.IsInert c := by
      rcases hc with rfl | rfl | rfl <;> exact ⟨by decide, by decide, by decide⟩
    change (r.after c).Outside rest
    rw [hr.after_inert hinert]
    trivial
  | lineFeed =>
    refine ⟨['\n'], rfl, ?_⟩
    change (r.after '\n').Outside rest
    rw [hr.after_lineFeed]
    trivial
  | @comment line _ hline hend =>
    refine ⟨'/' :: '/' :: line, rfl, ?_⟩
    obtain rfl := hr.eq_plain
    change (Region.comment.across line).Outside rest
    rw [Region.across_comment hline]
    exact hend
  | @lexeme c rest lexeme _ hcomment hread =>
    cases Lexeme.found_of_read hread with
    | @literal _ q hq =>
      refine ⟨'"' :: q.taken, congrArg ('"' :: ·) (Lexeme.Quotation.append_of_read hq).symm, ?_⟩
      change ((r.after '"').across q.taken).Outside q.rest
      rw [hr.after_quote, Lexeme.Quotation.across_taken hq]
      trivial
    | slash =>
      refine ⟨['/'], rfl, ?_⟩
      obtain rfl := hr.eq_plain
      exact hcomment rfl
    | inert hsplits hinert _ =>
      refine ⟨lexeme.taken, hsplits.append_eq.symm, ?_⟩
      obtain ⟨d, taken, htaken⟩ := List.exists_cons_of_ne_nil hsplits.taken_ne_nil
      rw [← hsplits.append_eq, htaken] at hr
      rw [htaken] at hinert ⊢
      rw [hr.across_inert hinert]
      trivial

end TypedData
