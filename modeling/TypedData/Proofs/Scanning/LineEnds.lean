import TypedData.Proofs.Scanning.BlankLines

/-!
# Line feeds with carriage returns

A text can be stored with a carriage return before every line feed (`withReturns`).  The scanner passes a carriage
return as a blank, so but for their places the tokens of such a text are those of the text with line feeds alone, and
the failure is the same if there is one (`scan_withReturns`).  There is one exception.  A backslash in a literal takes
the character behind it, whatever it is, so a literal goes on behind a backslash and a line feed; with carriage returns
the backslash takes the return instead, and the line feed ends the literal before its quotation mark.

A line is turned at its end only.  What stands before the end of the line is passed in the same rounds
(`passNext_append_of_endsLine`), and in the last round the return is either passed as a blank or belongs to the comment
that ends there (`withoutPlaces_lineEnd`).  The lines are turned one after the other, since behind a line feed outside
escapes no literal goes on.
-/

namespace TypedData

/-- The text with a carriage return before every line feed. -/
def addReturns (text : List Char) : List Char := text.flatMap fun c => if c = '\n' then ['\r', '\n'] else [c]

/-- The text with a carriage return before every line feed. -/
def withReturns (text : String) : String := String.ofList (addReturns text.toList)

/-- Behind characters that lead to the region `r`, the text has a line feed in the region `target`. -/
def LineFeedIn (target r : Region) (text : List Char) : Prop :=
  ∃ before after, text = before ++ '\n' :: after ∧ r.across before = target

/-- Somewhere in the text, a backslash in a literal has a line feed behind it. -/
def EscapesLineFeed (text : String) : Prop := LineFeedIn .escape .plain text.toList

namespace LineFeedIn

variable {target r : Region}

/-- The empty text has no line feed. -/
@[simp] theorem not_nil : ¬ LineFeedIn target r [] := by
  rintro ⟨before, after, htext, -⟩
  exact List.append_ne_nil_of_right_ne_nil before (List.cons_ne_nil _ _) htext.symm

/-- A line feed of a text is its first character, or stands in what is left. -/
theorem cons_iff {c : Char} {text : List Char} :
    LineFeedIn target r (c :: text) ↔ (c = '\n' ∧ r = target) ∨ LineFeedIn target (r.after c) text := by
  constructor
  · rintro ⟨before, after, htext, hregion⟩
    cases before with
    | nil => exact .inl ⟨(List.cons.inj htext).1, hregion⟩
    | cons d before =>
      obtain ⟨rfl, rfl⟩ := List.cons.inj htext
      exact .inr ⟨before, after, rfl, hregion⟩
  · rintro (⟨rfl, rfl⟩ | ⟨before, after, rfl, hregion⟩)
    · exact ⟨[], text, rfl, rfl⟩
    · exact ⟨c :: before, after, rfl, hregion⟩

/-- A line feed of two texts stands in one of them. -/
theorem append_iff {text more : List Char} :
    LineFeedIn target r (text ++ more) ↔ LineFeedIn target r text ∨ LineFeedIn target (r.across text) more := by
  induction text generalizing r with
  | nil => exact ⟨.inr, fun h => h.resolve_left not_nil⟩
  | cons c text ih => rw [List.cons_append, cons_iff, ih, cons_iff, or_assoc]; rfl

/-- A text with a line feed somewhere has one. -/
theorem mem {text : List Char} (h : LineFeedIn target r text) : '\n' ∈ text := by
  obtain ⟨before, after, rfl, -⟩ := h
  simp

instance : {r : Region} → (text : List Char) → Decidable (LineFeedIn target r text)
  | _, [] => .isFalse not_nil
  | r, c :: text =>
    have := instDecidable (r := r.after c) text
    decidable_of_iff' _ cons_iff

end LineFeedIn

instance (text : String) : Decidable (EscapesLineFeed text) := inferInstanceAs (Decidable (LineFeedIn ..))

/-! ## Turning the end of a line -/

/-- The text begins with the end of a line, of either sort. -/
def EndsLine (text : List Char) : Prop := ∃ after, text = '\n' :: after ∨ text = '\r' :: '\n' :: after

namespace EndsLine

variable {text : List Char}

/-- No lexeme goes on at the end of a line. -/
theorem isNeutral (h : EndsLine text) : IsNeutral text := by
  obtain ⟨after, rfl | rfl⟩ := h
  · rintro c ⟨⟩
    decide
  · rintro c ⟨⟩
    decide

/-- The end of a line is no slash. -/
theorem head?_ne_slash (h : EndsLine text) : text.head? ≠ some '/' := by
  obtain ⟨after, rfl | rfl⟩ := h <;> simp

/-- No literal starts at the end of a line. -/
theorem read?_eq_none (h : EndsLine text) : Lexeme.Quotation.read? text = none := by
  obtain ⟨after, rfl | rfl⟩ := h <;> rfl

/-- A line is as blank before its end, whatever way it ends. -/
theorem isLineBlank_append (h : EndsLine text) (line : List Char) : isLineBlank (line ++ text) = isLineBlank line := by
  obtain ⟨after, rfl | rfl⟩ := h
  all_goals
    match line with
    | [] => rfl
    | [c] =>
      rw [List.singleton_append, isLineBlank_cons_cons]
      unfold isLineBlank
      split <;> simp_all
    | c :: d :: line => rw [List.cons_append, List.cons_append, isLineBlank_cons_cons, isLineBlank_cons_cons]

/-- The indentation of a line does not go on at its end. -/
theorem suffix_dropWhile (h : EndsLine text) (line : List Char) :
    text <:+ (line ++ text).dropWhile isIndentChar := by
  rw [List.dropWhile_append]
  split
  · obtain ⟨after, rfl | rfl⟩ := h <;> exact List.suffix_rfl
  · exact List.suffix_append _ _

end EndsLine

/-- A literal ends before the end of its line or not at all, unless the end of the line is escaped. -/
theorem Lexeme.Quotation.read?_append_of_endsLine {input tail : List Char} (hline : '\n' ∉ input)
    (hescape : Region.literal.across input ≠ .escape) (htail : EndsLine tail) :
    read? (input ++ tail) = (read? input).map (extend tail) := by
  fun_induction read? input with
  | case1 => exact htail.read?_eq_none
  | case2 rest => rfl
  | case3 rest => exact absurd (.head _) hline
  | case4 => exact absurd rfl hescape
  | case5 c rest ih =>
    simp only [List.cons_append, read?]
    rw [ih (fun h => hline (.tail _ (.tail _ h))) hescape, map_push_extend]
  | case6 rest ih | case7 rest ih =>
    simp only [List.cons_append, read?]
    rw [ih (fun h => hline (.tail _ h)) hescape, map_push_extend]
  | case8 c rest hquote hbreak hend hescapes hopening hclosing ih =>
    have hne := ne_backslash hend hescapes
    have hrest : Region.literal.across rest ≠ .escape := by
      change (Region.literal.after c).across rest ≠ .escape at hescape
      rwa [Region.after_literal hquote hbreak hne] at hescape
    rw [List.cons_append, read?.eq_8 _ _ hquote hbreak (fun hc => absurd hc hne) (fun _ _ hc => absurd hc hne) hopening
      hclosing, ih (fun h => hline (.tail _ h)) hrest, map_push_extend]

variable {st : ScanState}

/-- What is passed in a line, if it is no comment, is passed whatever way the line ends. -/
theorem passNext_append_of_endsLine {r : Region} {c : Char} {rest tail : List Char} (hout : r.Outside (c :: rest))
    (hline : '\n' ∉ c :: rest) (hescape : r.across (c :: rest) ≠ .escape) (hcomment : c = '/' → rest.head? ≠ some '/')
    (htail : EndsLine tail) : st.passNext c (rest ++ tail) = (st.passNext c rest).map (extendRest tail) := by
  have hread : Lexeme.read st.offset st.afterValue c (rest ++ tail) =
      (Lexeme.read st.offset st.afterValue c rest).map (Lexeme.extend tail) := by
    by_cases hquote : c = '"'
    · subst hquote
      change (r.after '"').across rest ≠ .escape at hescape
      rw [hout.after_quote] at hescape
      change Lexeme.quotation st.offset (rest ++ tail) = (Lexeme.quotation st.offset rest).map (Lexeme.extend tail)
      unfold Lexeme.quotation
      rw [Lexeme.Quotation.read?_append_of_endsLine (fun h => hline (.tail _ h)) hescape htail]
      cases Lexeme.Quotation.read? rest <;> rfl
    · exact Lexeme.read_of_isNeutral st.offset st.afterValue hquote rest htail.isNeutral
  have hnone : ¬ (c = '/' && (rest ++ tail).head? = some '/') = true := by
    intro hboth
    obtain ⟨hc, hhead⟩ := Bool.and_eq_true_iff.1 hboth
    cases rest with
    | nil => exact htail.head?_ne_slash (of_decide_eq_true hhead)
    | cons d rest => exact hcomment (of_decide_eq_true hc) (of_decide_eq_true hhead)
  have hnone' : ¬ (c = '/' && rest.head? = some '/') = true := fun hboth =>
    have ⟨hc, hhead⟩ := Bool.and_eq_true_iff.1 hboth
    hcomment (of_decide_eq_true hc) (of_decide_eq_true hhead)
  unfold ScanState.passNext
  rw [if_neg hnone, if_neg hnone', hread]
  split
  · rfl
  split
  · rfl
  · cases Lexeme.read st.offset st.afterValue c rest <;> rfl

/-- Neither does the layout depend on the way the line ends. -/
theorem readLayout_append_of_endsLine (line : List Char) {tail : List Char} (htail : EndsLine tail) :
    readLayout st (line ++ tail) = (readLayout st line).map (extendRest tail) :=
  readLayout_extend line (htail.suffix_dropWhile line) (htail.isLineBlank_append _)

/-- Blanks at the end of a line may be passed. -/
theorem withoutPlaces_blanks {blanks : List Char} (hblanks : ∀ c ∈ blanks, isIndentChar c = true) {tail : List Char}
    (htail : EndsLine tail) :
    withoutPlaces (scanFrom st (blanks ++ tail)) = withoutPlaces (scanFrom st tail) := by
  induction blanks with
  | nil => rfl
  | cons c blanks ih =>
    obtain ⟨hc, hblanks⟩ := List.forall_mem_cons.1 hblanks
    rw [List.cons_append, withoutPlaces_blank ?_ ?_, ih hblanks]
    · simp only [isIndentChar, Bool.or_eq_true, decide_eq_true_eq] at hc
      exact hc.imp_right .inl
    · rw [List.dropWhile_append_of_pos hblanks, (head?_of_suffix_dropWhile (htail.suffix_dropWhile [])).2.2]
      exact htail.isLineBlank_append []

/-- A comment is passed as far as the next line feed. -/
theorem passNext_comment (st : ScanState) {text : List Char} (htext : '\n' ∉ text) (after : List Char) :
    st.passNext '/' ('/' :: (text ++ '\n' :: after)) = .ok ([], st.skip ('/' :: '/' :: text), '\n' :: after) := by
  have hall : ∀ c ∈ '/' :: text, (c != '\n') = true := List.forall_mem_cons.2
    ⟨rfl, fun c hc => bne_iff_ne.2 fun h => htext (h ▸ hc)⟩
  change Except.ok ([], st.skip ('/' :: ('/' :: text ++ '\n' :: after).takeWhile _),
    ('/' :: text ++ '\n' :: after).dropWhile _) = _
  rw [List.takeWhile_append_of_pos hall, List.dropWhile_append_of_pos hall, List.takeWhile_cons_of_neg (by decide),
    List.dropWhile_cons_of_neg (by decide), List.append_nil]

/-- **A line may end with a carriage return before its line feed.** -/
theorem withoutPlaces_lineEnd {r : Region} {line : List Char} (hout : r.Outside line) (hline : '\n' ∉ line)
    (hescape : r.across line ≠ .escape) (after : List Char) :
    withoutPlaces (scanFrom st (line ++ '\r' :: '\n' :: after)) =
      withoutPlaces (scanFrom st (line ++ '\n' :: after)) := by
  have hreturn : EndsLine ('\r' :: '\n' :: after) := ⟨after, .inr rfl⟩
  have hfeed : EndsLine ('\n' :: after) := ⟨after, .inl rfl⟩
  induction hlength : line.length using Nat.strongRecOn generalizing st r line with
  | ind n ih =>
    by_cases hblanks : ∀ c ∈ line, isIndentChar c = true
    · rw [withoutPlaces_blanks hblanks hreturn, withoutPlaces_blanks hblanks hfeed]
      exact withoutPlaces_blank (.inr (.inr rfl)) rfl
    · -- the first round passes something that stands in the line
      obtain ⟨c, hmem, hc⟩ : ∃ c ∈ line, isIndentChar c = false := by simpa using hblanks
      rw [scanFrom_eq, scanFrom_eq, readLayout_append_of_endsLine line hreturn,
        readLayout_append_of_endsLine line hfeed]
      cases hfirst : readLayout st line with
      | error e => rfl
      | ok first =>
        obtain ⟨tokens, next, rest⟩ := first
        have halign := aligns_of_readLayout hfirst
        have hrest := List.ne_nil_of_mem (halign.mem_rest hc hmem)
        have hle := halign.length_le
        obtain ⟨blanks, rfl, hnext⟩ := halign.outside hout
        rw [Region.across_append] at hescape
        have hline : '\n' ∉ rest := fun h => hline (List.mem_append.2 (.inr h))
        obtain ⟨d, rest, rfl⟩ := List.exists_cons_of_ne_nil hrest
        change withoutPlaces ((next.passNext d (rest ++ '\r' :: '\n' :: after)).bind _) =
          withoutPlaces ((next.passNext d (rest ++ '\n' :: after)).bind _)
        by_cases hcomment : d = '/' ∧ rest.head? = some '/'
        · obtain ⟨rfl, hhead⟩ := hcomment
          obtain ⟨text, rfl⟩ := List.head?_eq_some_iff.1 hhead
          have htext : '\n' ∉ text := fun h => hline (.tail _ (.tail _ h))
          have hreturn : '\n' ∉ text ++ ['\r'] := by simpa using htext
          have hpass := passNext_comment next hreturn after
          rw [List.append_assoc, List.singleton_append] at hpass
          rw [List.cons_append, List.cons_append, passNext_comment next htext, hpass]
          change withoutPlaces ((scanFrom _ _).map (tokens ++ [] ++ ·)) =
            withoutPlaces ((scanFrom _ _).map (tokens ++ [] ++ ·))
          rw [withoutPlaces_map, withoutPlaces_map]
          have halike : (next.skip ('/' :: '/' :: (text ++ ['\r']))).Alike (next.skip ('/' :: '/' :: text)) := rfl
          exact congrArg (Except.map _) (withoutPlaces_scanFrom halike _)
        · have hcomment : d = '/' → rest.head? ≠ some '/' := fun hd h => hcomment ⟨hd, h⟩
          rw [passNext_append_of_endsLine hnext hline hescape hcomment hreturn,
            passNext_append_of_endsLine hnext hline hescape hcomment hfeed]
          cases hsecond : next.passNext d rest with
          | error e => rfl
          | ok second =>
            obtain ⟨others, last, rest'⟩ := second
            have hmove := move_of_passNext hsecond
            have hlt := hmove.length_lt
            obtain ⟨piece, hpiece, hlater⟩ := hmove.outside hnext
            rw [hpiece] at hline hescape
            rw [Region.across_append] at hescape
            change withoutPlaces ((scanFrom last (rest' ++ _)).map (tokens ++ others ++ ·)) =
              withoutPlaces ((scanFrom last (rest' ++ _)).map (tokens ++ others ++ ·))
            rw [withoutPlaces_map, withoutPlaces_map]
            exact congrArg (Except.map _)
              (ih _ (by omega) hlater (fun h => hline (List.mem_append.2 (.inr h))) hescape rfl)

/-! ## Turning all lines -/

/-- Carriage returns are put into two texts, one behind the other, as into each of them. -/
theorem addReturns_append (text more : List Char) : addReturns (text ++ more) = addReturns text ++ addReturns more :=
  List.flatMap_append

/-- A text without line feeds stays as it is. -/
theorem addReturns_of_not_mem {text : List Char} (h : '\n' ∉ text) : addReturns text = text := by
  induction text with
  | nil => rfl
  | cons c text ih =>
    obtain ⟨hc, htext⟩ := not_or.1 (mt List.mem_cons.2 h)
    change (if c = '\n' then ['\r', '\n'] else [c]) ++ addReturns text = c :: text
    rw [if_neg (Ne.symm hc), ih htext]
    rfl

namespace Region

/-- A line feed ends everything but an escape. -/
theorem after_lineFeed_of_ne {r : Region} (h : r ≠ .escape) : r.after '\n' = plain := by
  cases r with
  | plain | slash | literal | comment => rfl
  | escape => exact absurd rfl h

/-- So does a line feed behind a carriage return. -/
theorem across_lineEnd {r : Region} (h : r ≠ .escape) : r.across ['\r', '\n'] = plain := by
  cases r with
  | plain | slash | literal | comment => rfl
  | escape => exact absurd rfl h

end Region

/-- A text with no line feed behind a backslash may have a carriage return before each of them. -/
theorem withoutPlaces_addReturns {text : List Char} (h : ¬ LineFeedIn .escape .plain text) :
    withoutPlaces (scanFrom st (addReturns text)) = withoutPlaces (scanFrom st text) := by
  induction hlength : text.length using Nat.strongRecOn generalizing st text with
  | ind n ih =>
    by_cases hmem : '\n' ∈ text
    · obtain ⟨line, after, rfl, hline⟩ := List.eq_append_cons_of_mem hmem
      obtain ⟨-, hafter⟩ := not_or.1 (mt LineFeedIn.append_iff.2 h)
      obtain ⟨hescape, hafter⟩ := not_or.1 (mt LineFeedIn.cons_iff.2 hafter)
      have hescape : Region.plain.across line ≠ .escape := fun hregion => hescape ⟨rfl, hregion⟩
      have hregion : Region.plain.across (line ++ ['\n']) = .plain := by
        rw [Region.across_append]
        exact Region.after_lineFeed_of_ne hescape
      rw [Region.after_lineFeed_of_ne hescape] at hafter
      have hout (text : List Char) : Region.plain.Outside text := trivial
      have hlines : addReturns (line ++ '\n' :: after) = line ++ '\r' :: '\n' :: addReturns after := by
        rw [addReturns_append, addReturns_of_not_mem hline]
        rfl
      rw [hlines, withoutPlaces_lineEnd (hout line) hline hescape, List.append_cons line '\n' (addReturns after),
        List.append_cons line '\n' after]
      refine withoutPlaces_append (hout _) hregion (by simp) fun next _ => ih _ ?_ hafter rfl
      simp only [List.length_append, List.length_cons] at hlength
      omega
    · rw [addReturns_of_not_mem hmem]

/-! ## Literals that are broken off -/

/-- A carriage return before a line feed takes the backslash away from it. -/
theorem lineFeedIn_addReturns {r : Region} {text : List Char} (h : LineFeedIn .escape r text) :
    LineFeedIn .literal r (addReturns text) := by
  induction text generalizing r with
  | nil => exact absurd h LineFeedIn.not_nil
  | cons c text ih =>
    change LineFeedIn .literal r ((if c = '\n' then ['\r', '\n'] else [c]) ++ addReturns text)
    rw [LineFeedIn.append_iff]
    rcases LineFeedIn.cons_iff.1 h with ⟨rfl, rfl⟩ | h
    · exact .inl (by decide)
    · by_cases hc : c = '\n'
      · subst hc
        by_cases hr : r = .escape
        · subst hr
          exact .inl (by decide)
        · rw [Region.after_lineFeed_of_ne hr] at h
          rw [if_pos rfl, Region.across_lineEnd hr]
          exact .inr (ih h)
      · rw [if_neg hc]
        exact .inr (ih h)

/-- No literal reaches over a line feed, unless it is escaped. -/
theorem Lexeme.Quotation.not_lineFeedIn {input : List Char} {q : Quotation} (h : read? input = some q) :
    ¬ LineFeedIn .literal .literal q.taken := by
  fun_induction read? input generalizing q with
  | case1 | case3 | case4 => cases h
  | case2 =>
    cases h
    exact mt LineFeedIn.mem (by simp)
  | case5 c rest ih =>
    obtain ⟨r, hr, rfl⟩ := Option.map_eq_some_iff.1 h
    change ¬ LineFeedIn .literal .literal ('\\' :: c :: r.taken)
    rw [LineFeedIn.cons_iff, LineFeedIn.cons_iff]
    simpa [Region.after] using ih hr
  | case6 rest ih | case7 rest ih =>
    obtain ⟨r, hr, rfl⟩ := Option.map_eq_some_iff.1 h
    refine mt LineFeedIn.cons_iff.1 ?_
    simpa [Region.after] using ih hr
  | case8 c rest hquote hbreak hend hescape _ _ ih =>
    obtain ⟨r, hr, rfl⟩ := Option.map_eq_some_iff.1 h
    refine mt LineFeedIn.cons_iff.1 ?_
    rw [Region.after_literal hquote hbreak (ne_backslash hend hescape)]
    exact not_or.2 ⟨fun h => hbreak h.1, ih hr⟩

/-- Neither does anything else that is passed. -/
theorem Move.not_lineFeedIn {st' : ScanState} {text passed rest : List Char} {tokens : List Token} {r : Region}
    (h : Move st text tokens st' rest) (hr : r.Outside text) (htext : text = passed ++ rest) :
    ¬ LineFeedIn .literal r passed := by
  cases h with
  | @blank c _ hc =>
    obtain rfl : [c] = passed := List.append_cancel_right htext
    refine mt LineFeedIn.mem ?_
    rcases hc with rfl | rfl | rfl <;> decide
  | lineFeed =>
    obtain rfl : ['\n'] = passed := List.append_cancel_right htext
    cases r with
    | plain | slash | comment => decide
    | literal | escape => cases hr
  | @comment line _ hline _ =>
    obtain rfl : '/' :: '/' :: line = passed := List.append_cancel_right htext
    exact mt LineFeedIn.mem (by simpa using hline)
  | @lexeme c rest lexeme hbreak hcomment hread =>
    have hsplits := (Lexeme.read_splits hread).append_eq
    obtain rfl : lexeme.taken = passed := List.append_cancel_right (hsplits.trans htext)
    cases Lexeme.found_of_read hread with
    | @literal _ q hq =>
      refine mt LineFeedIn.cons_iff.1 ?_
      rw [hr.after_quote]
      exact not_or.2 ⟨fun h => absurd h.1 (by decide), Lexeme.Quotation.not_lineFeedIn hq⟩
    | slash => exact mt LineFeedIn.mem (by simp)
    | inert _ hinert _ => exact mt LineFeedIn.mem fun hmem => (hinert _ hmem).1 rfl

/-- No line feed of the layout stands in a literal. -/
theorem Aligns.not_lineFeedIn {st' : ScanState} {text passed rest : List Char} {tokens : List Token} {r : Region}
    (h : Aligns st text tokens st' rest) (htext : text = passed ++ rest) : ¬ LineFeedIn .literal r passed := by
  have hblanks {blanks : List Char} (hblanks : ∀ c ∈ blanks, isIndentChar c = true) :
      ¬ LineFeedIn .literal r blanks := fun h => absurd (hblanks _ h.mem) (by decide)
  cases h with
  | none =>
    obtain rfl : [] = passed := List.append_cancel_right htext
    exact LineFeedIn.not_nil
  | @blank blanks _ hindent | @opens blanks _ _ hindent | @closes blanks _ _ _ hindent =>
    obtain rfl : blanks = passed := List.append_cancel_right htext
    exact hblanks hindent

/-- What has been passed of the text, up to `rest`, has no line feed in a literal. -/
def PassedUnbroken (text rest : List Char) : Prop :=
  ∃ passed, text = passed ++ rest ∧ (Region.behind passed).Outside rest ∧ ¬ LineFeedIn .literal .plain passed

/-- The layout may be passed with no line feed in a literal. -/
theorem PassedUnbroken.aligns {st' : ScanState} {text text' rest : List Char} {tokens : List Token}
    (h : PassedUnbroken text text') (halign : Aligns st text' tokens st' rest) : PassedUnbroken text rest := by
  obtain ⟨passed, rfl, hout, hnone⟩ := h
  obtain ⟨piece, rfl, hnext⟩ := halign.outside hout
  refine ⟨passed ++ piece, (List.append_assoc ..).symm, ?_, mt LineFeedIn.append_iff.1 ?_⟩
  · rwa [Region.behind_append]
  · exact not_or.2 ⟨hnone, halign.not_lineFeedIn rfl⟩

/-- A move keeps line feeds out of literals. -/
theorem PassedUnbroken.move {st' : ScanState} {text text' rest : List Char} {tokens : List Token}
    (h : PassedUnbroken text text') (hmove : Move st text' tokens st' rest) : PassedUnbroken text rest := by
  obtain ⟨passed, rfl, hout, hnone⟩ := h
  obtain ⟨piece, rfl, hnext⟩ := hmove.outside hout
  refine ⟨passed ++ piece, (List.append_assoc ..).symm, ?_, mt LineFeedIn.append_iff.1 ?_⟩
  · rwa [Region.behind_append]
  · exact not_or.2 ⟨hnone, hmove.not_lineFeedIn hout rfl⟩

/-- A text with a line feed in a literal cannot be scanned. -/
theorem exists_error_of_lineFeedIn {text : List Char} (h : LineFeedIn .literal .plain text) :
    ∃ e, scanFrom .initial text = .error e := by
  have hinitial : PassedUnbroken text text := ⟨[], rfl, trivial, LineFeedIn.not_nil⟩
  cases hscan : scanFrom .initial text with
  | error e => exact ⟨e, rfl⟩
  | ok tokens =>
    obtain ⟨_, _, ⟨passed, htext, -, hnone⟩, -⟩ :=
      @exists_of_scanFrom (fun _ _ rest => PassedUnbroken text rest) (fun h => h.aligns) (fun h => h.move)
        [] tokens _ _ hinitial hscan
    rw [List.append_nil] at htext
    exact absurd (htext ▸ h) hnone

/-! ## The two forms of a text -/

/-- **Line endings do not matter, but behind a backslash.**  Where no literal has a backslash before a line feed, a
carriage return before every line feed changes neither the tokens nor the failure, but for their places.  Where one has,
the text with carriage returns is never read. -/
theorem scan_withReturns (source : String) :
    (¬ EscapesLineFeed source → withoutPlaces (scan (withReturns source)) = withoutPlaces (scan source)) ∧
      (EscapesLineFeed source → ∃ e, scan (withReturns source) = .error e) := by
  unfold scan withReturns
  rw [String.toList_ofList]
  exact ⟨withoutPlaces_addReturns, fun h => exists_error_of_lineFeedIn (lineFeedIn_addReturns h)⟩

/-- A block, a comment, a literal that is closed in its line, and brackets over two lines. -/
theorem scan_withReturns_block : ¬ EscapesLineFeed "a:\n  - \"\\\\\" // b\n  - [1\n,2]\n" ∧
    withoutPlaces (scan (withReturns "a:\n  - \"\\\\\" // b\n  - [1\n,2]\n")) =
      withoutPlaces (scan "a:\n  - \"\\\\\" // b\n  - [1\n,2]\n") ∧
    (scan "a:\n  - \"\\\\\" // b\n  - [1\n,2]\n").isOk = true ∧
    EscapesLineFeed "\"a\\\n\"" ∧ ∃ e, scan (withReturns "\"a\\\n\"") = .error e := by
  have hplain : ¬ EscapesLineFeed "a:\n  - \"\\\\\" // b\n  - [1\n,2]\n" := by decide +kernel
  have hescape : EscapesLineFeed "\"a\\\n\"" := by decide +kernel
  exact ⟨hplain, (scan_withReturns _).1 hplain, by decide +kernel, hescape, (scan_withReturns _).2 hescape⟩

/-- A literal with a backslash at the end of its line goes on in the next, but not with a carriage return there. -/
theorem withReturns_breaks_literal : withReturns "\"a\\\nb\"" = "\"a\\\r\nb\"" ∧
    (scan "\"a\\\nb\"").isOk = true ∧ (scan (withReturns "\"a\\\nb\"")).isOk = false := by
  exact ⟨by decide +kernel, by decide +kernel, by decide +kernel⟩

end TypedData
