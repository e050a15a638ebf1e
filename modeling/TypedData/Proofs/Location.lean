import Mathlib.Data.List.Induction
import Mathlib.Data.Prod.Lex
import Mathlib.Order.Bounds.Defs
import Mathlib.Order.Interval.Set.Defs
import Mathlib.Order.Monotone.Defs
import TypedData.Text.Position

/-!
# Lines and columns

A line and a column tell where in a text an offset lies (`Location.line_and_column_identify`).  They are counted in
characters, while an offset counts bytes and need not stand between two characters.

What ties the two together is the list of the characters of a text with the offsets at which they start.  Of two
offsets, the greater one lies behind the other by just those characters that start in between
(`Location.ofOffset_of_le`).  So locations never go back.  They go on where such a character is, and they stand still
inside a character, where there is none.
-/

namespace TypedData

/-! ## Where characters start -/

/-- A character of a text and the offset at which it starts. -/
@[ext] structure PlacedChar where
  start : Nat
  char : Char
deriving DecidableEq, Repr

/-- Where the next character starts, or the text ends. -/
def PlacedChar.stop (s : PlacedChar) : Nat := s.start + s.char.utf8Size

/-- The characters of a text that itself starts at `offset`. -/
def placedFrom (offset : Nat) : List Char → List PlacedChar
  | [] => []
  | c :: cs => ⟨offset, c⟩ :: placedFrom (offset + c.utf8Size) cs

/-- The characters of a text. -/
def placedChars (source : String) : List PlacedChar := placedFrom 0 source.toList

/-- The characters that start before the offset `p`. -/
def charsBefore (source : String) (p : Nat) : List PlacedChar := (placedChars source).filter (·.start < p)

/-- The line feeds among some characters. -/
def lineFeeds (L : List PlacedChar) : List PlacedChar := L.filter (·.char = '\n')

/-- Those of some characters that start after the last line feed among them. -/
def lastLine (L : List PlacedChar) : List PlacedChar := L.filter fun s => ∀ f ∈ lineFeeds L, f.start < s.start

variable {offset p q : Nat} {cs : List Char} {source : String} {s t : PlacedChar} {L : List PlacedChar}

/-- Every character takes at least one byte. -/
theorem PlacedChar.start_lt_stop (s : PlacedChar) : s.start < s.stop :=
  Nat.lt_add_of_pos_right s.char.utf8Size_pos

/-- The characters of a text stand behind what comes before them. -/
theorem mem_placedFrom_iff : s ∈ placedFrom offset cs ↔
    ∃ before after, cs = before ++ s.char :: after ∧ s.start = offset + utf8Length before := by
  induction cs generalizing offset with
  | nil => simp [placedFrom]
  | cons c cs ih =>
    rw [placedFrom, List.mem_cons, ih]
    constructor
    · rintro (rfl | ⟨before, after, rfl, hstart⟩)
      · exact ⟨[], cs, rfl, rfl⟩
      · exact ⟨c :: before, after, rfl, by rw [hstart, utf8Length_cons, Nat.add_assoc]⟩
    · rintro ⟨_ | ⟨c', before⟩, after, hcs, hstart⟩
      · obtain ⟨rfl, rfl⟩ := List.cons.inj hcs
        exact .inl (PlacedChar.ext hstart rfl)
      · obtain ⟨rfl, rfl⟩ := List.cons.inj hcs
        exact .inr ⟨before, after, rfl, by rw [hstart, utf8Length_cons, Nat.add_assoc]⟩

/-- Characters stand at or behind the beginning. -/
theorem le_start_of_mem (hs : s ∈ placedFrom offset cs) : offset ≤ s.start := by
  obtain ⟨before, -, -, hstart⟩ := mem_placedFrom_iff.1 hs
  omega

/-- No two characters overlap. -/
theorem pairwise_placedFrom : (placedFrom offset cs).Pairwise fun s t => s.stop ≤ t.start := by
  induction cs generalizing offset with
  | nil => exact .nil
  | cons c cs ih => exact .cons (fun _ ht => le_start_of_mem ht) ih

/-- Characters start one behind another. -/
theorem pairwise_start_lt : (placedChars source).Pairwise fun s t => s.start < t.start :=
  pairwise_placedFrom.imp fun hle => Nat.lt_of_lt_of_le (PlacedChar.start_lt_stop _) hle

/-- Of two characters, the one that starts later starts where the other one has ended. -/
theorem stop_le_start_of_lt (hs : s ∈ placedChars source) (ht : t ∈ placedChars source) (h : s.start < t.start) :
    s.stop ≤ t.start := by
  obtain ⟨i, hi, rfl⟩ := List.getElem_of_mem hs
  obtain ⟨j, hj, rfl⟩ := List.getElem_of_mem ht
  rcases Nat.lt_trichotomy i j with hij | rfl | hji
  · exact List.pairwise_iff_getElem.1 pairwise_placedFrom i j hi hj hij
  · omega
  · have := List.pairwise_iff_getElem.1 pairwise_start_lt j i hj hi hji
    omega

/-- The end of a character is a place between characters. -/
theorem isValid_stop (hs : s ∈ placedChars source) : String.Pos.Raw.IsValid source ⟨s.stop⟩ := by
  obtain ⟨before, after, hsource, hstart⟩ := mem_placedFrom_iff.1 hs
  refine isValid_iff_exists_prefix.2 ⟨before ++ [s.char], ⟨after, ?_⟩, ?_⟩
  · rw [hsource, List.append_assoc, List.singleton_append]
  · simp [PlacedChar.stop, hstart]

/-- A character starts at each valid offset but the last one. -/
theorem exists_start_eq (hp : String.Pos.Raw.IsValid source ⟨p⟩) (hq : String.Pos.Raw.IsValid source ⟨q⟩)
    (h : p < q) : ∃ s ∈ placedChars source, s.start = p := by
  obtain ⟨before, ⟨after, hsource⟩, rfl⟩ := isValid_iff_exists_prefix.1 hp
  obtain ⟨before', ⟨after', hsource'⟩, rfl⟩ := isValid_iff_exists_prefix.1 hq
  cases after with
  | nil =>
    have hlength := congrArg utf8Length (hsource.trans hsource'.symm)
    rw [List.append_nil, utf8Length_append] at hlength
    omega
  | cons c after =>
    exact ⟨⟨_, c⟩, mem_placedFrom_iff.2 ⟨before, after, hsource.symm, (Nat.zero_add _).symm⟩, rfl⟩

/-- From inside a character, its end is the next valid offset. -/
theorem isLeast_stop (hs : s ∈ placedChars source) (hp : p ∈ Set.Ioo s.start s.stop) :
    IsLeast {q | p < q ∧ String.Pos.Raw.IsValid source ⟨q⟩} s.stop := by
  refine ⟨⟨hp.2, isValid_stop hs⟩, fun q hq => Nat.le_of_not_lt fun hlt => ?_⟩
  -- A character that started at `q` would overlap with the one that `q` lies in.
  obtain ⟨t, ht, rfl⟩ := exists_start_eq hq.2 (isValid_stop hs) hlt
  have hstop := stop_le_start_of_lt hs ht (hp.1.trans hq.1)
  omega

/-- What starts before an offset is followed by what starts on it or after it. -/
theorem filter_start_lt (hL : L.Pairwise fun s t => s.start < t.start) (h : p ≤ q) :
    L.filter (·.start < q) = L.filter (·.start < p) ++ L.filter fun s => p ≤ s.start ∧ s.start < q := by
  induction hL with
  | nil => rfl
  | @cons s L hs _ ih =>
    by_cases hp : s.start < p
    · have hq : s.start < q := by omega
      simp [hp, hq, ih]
    · -- From `s` on nothing starts before `p`, so both filters ask for `t.start < q` only.
      have hbehind : ∀ t ∈ s :: L, p ≤ t.start := by
        refine List.forall_mem_cons.2 ⟨by omega, fun t ht => ?_⟩
        have := hs t ht
        omega
      have hnone : (s :: L).filter (·.start < p) = [] :=
        List.filter_eq_nil_iff.2 fun t ht => by simpa using hbehind t ht
      rw [hnone, List.nil_append]
      exact List.filter_congr fun t ht => by simp [hbehind t ht]

/-! ## Lines of characters -/

/-- Behind a line feed the line is empty. -/
theorem lastLine_append_lineFeed (hlast : ∀ s ∈ L, s.start < t.start) (ht : t.char = '\n') :
    lastLine (L ++ [t]) = [] := by
  refine List.filter_eq_nil_iff.2 fun s hs => ?_
  have hmem : t ∈ lineFeeds (L ++ [t]) := List.mem_filter.2 ⟨List.mem_append_right L (.head _), by simpa using ht⟩
  have hle : s.start ≤ t.start := by
    rcases List.mem_append.1 hs with hs | hs
    · exact (hlast s hs).le
    · rw [List.mem_singleton.1 hs]
  intro hafter
  have hlt := of_decide_eq_true hafter t hmem
  omega

/-- Behind any other character the line goes on. -/
theorem lastLine_append_of_ne (hlast : ∀ s ∈ L, s.start < t.start) (ht : t.char ≠ '\n') :
    lastLine (L ++ [t]) = lastLine L ++ [t] := by
  have hfeeds : lineFeeds (L ++ [t]) = lineFeeds L := by simp [lineFeeds, ht]
  have hbehind : ∀ f ∈ lineFeeds L, f.start < t.start := fun f hf => hlast f ((List.mem_filter.1 hf).1)
  have hlastChar : [t].filter (fun s => ∀ f ∈ lineFeeds L, f.start < s.start) = [t] :=
    List.filter_cons_of_pos (decide_eq_true hbehind)
  rw [lastLine, hfeeds, List.filter_append, hlastChar, lastLine]

/-! ## Locations -/

namespace Location

/-- The line first, and then the column. -/
def key (l : Location) : ℕ ×ₗ ℕ := toLex (l.line, l.column)

/-- Line and column can be told from the key. -/
theorem key_injective : Function.Injective key := by
  rintro ⟨line, column⟩ ⟨line', column'⟩ h
  obtain ⟨rfl, rfl⟩ := Prod.mk.inj (toLex.injective h)
  rfl

/-- Locations are compared by their lines, and in one line by their columns. -/
instance : PartialOrder Location := PartialOrder.lift key key_injective

/-- A location comes before another one if its line does, or its column in the same line. -/
theorem lt_iff {l m : Location} : l < m ↔ l.line < m.line ∨ l.line = m.line ∧ l.column < m.column :=
  Prod.Lex.toLex_lt_toLex

variable {here : Location}

/-- The place after some characters, when the first of them stands `here`. -/
def afterAll (here : Location) (L : List PlacedChar) : Location := L.foldl (fun here s => here.after s.char) here

/-- After no characters the location is the same. -/
@[simp] theorem afterAll_nil : here.afterAll [] = here := rfl

/-- After some characters the location is that after all but the first, from behind the first. -/
@[simp] theorem afterAll_cons : here.afterAll (s :: L) = (here.after s.char).afterAll L := rfl

/-- After two parts of a text the location is that after the second, from behind the first. -/
@[simp] theorem afterAll_append {M : List PlacedChar} : here.afterAll (L ++ M) = (here.afterAll L).afterAll M :=
  List.foldl_append

/-- Every character leads further on. -/
theorem lt_after (here : Location) (c : Char) : here < here.after c := by
  rw [lt_iff, after]
  split
  · exact .inl (Nat.lt_succ_self _)
  · exact .inr ⟨rfl, Nat.lt_succ_self _⟩

/-- Characters lead no way back. -/
theorem le_afterAll (here : Location) (L : List PlacedChar) : here ≤ here.afterAll L := by
  induction L generalizing here with
  | nil => exact le_rfl
  | cons s L ih => exact (lt_after here s.char).le.trans (ih _)

/-- At least one character leads further on. -/
theorem lt_afterAll (hL : L ≠ []) : here < here.afterAll L := by
  obtain ⟨s, L, rfl⟩ := List.exists_cons_of_ne_nil hL
  exact (lt_after here s.char).trans_le (le_afterAll _ L)

/-- The line counts the line feeds. -/
theorem line_afterAll (here : Location) (L : List PlacedChar) :
    (here.afterAll L).line = here.line + (lineFeeds L).length := by
  induction L generalizing here with
  | nil => rfl
  | cons s L ih =>
    rw [afterAll_cons, ih, after, lineFeeds, lineFeeds]
    by_cases hs : s.char = '\n'
    · simp [hs]
      omega
    · simp [hs]

/-- The column counts the characters of the last line. -/
theorem column_afterAll (hL : L.Pairwise fun s t => s.start < t.start) :
    (afterAll ⟨1, 1⟩ L).column = 1 + (lastLine L).length := by
  -- The last character decides: a line feed leaves nothing behind it, any other one stands behind all line feeds.
  induction L using List.reverseRecOn with
  | nil => rfl
  | append_singleton L t ih =>
    obtain ⟨hL, -, hlast⟩ := List.pairwise_append.1 hL
    have hlast : ∀ s ∈ L, s.start < t.start := fun s hs => hlast s hs t (.head _)
    rw [afterAll_append, afterAll_cons, afterAll_nil, after]
    by_cases ht : t.char = '\n'
    · rw [lastLine_append_lineFeed hlast ht, if_pos ht]
      rfl
    · rw [lastLine_append_of_ne hlast ht, if_neg ht, ih hL, List.length_append, List.length_singleton, Nat.add_assoc]

/-- An offset is reached by passing the characters that start before it.  A character over which the offset does not
reach is passed as a whole, since the difference of offsets stops at zero. -/
theorem advance_eq (here : Location) (p offset : Nat) (cs : List Char) :
    here.advance (p - offset) cs = here.afterAll ((placedFrom offset cs).filter (·.start < p)) := by
  induction cs generalizing here offset with
  | nil => rfl
  | cons c cs ih =>
    rw [advance]
    split
    case isTrue hle =>
      have hnone : (placedFrom offset (c :: cs)).filter (·.start < p) = [] := by
        refine List.filter_eq_nil_iff.2 fun s hs => ?_
        have := le_start_of_mem hs
        rw [decide_eq_true_iff]
        omega
      rw [hnone, afterAll_nil]
    case isFalse hlt =>
      have hfirst : offset < p := by omega
      rw [Nat.sub_sub, ih, placedFrom, List.filter_cons_of_pos (by simpa using hfirst), afterAll_cons]

/-- A location is that after all characters that end before the offset. -/
theorem ofOffset_eq : ofOffset source p = afterAll ⟨1, 1⟩ (charsBefore source p) :=
  advance_eq ⟨1, 1⟩ p 0 source.toList

/-- The greater of two offsets lies behind the other one by the characters that start in between. -/
theorem ofOffset_of_le (h : p ≤ q) : ofOffset source q =
    (ofOffset source p).afterAll ((placedChars source).filter fun s => p ≤ s.start ∧ s.start < q) := by
  rw [ofOffset_eq, ofOffset_eq, charsBefore, filter_start_lt pairwise_start_lt h, afterAll_append, charsBefore]

/-- Locations do not go back where offsets go on. -/
theorem monotone_ofOffset : Monotone (ofOffset source) := by
  intro p q h
  rw [ofOffset_of_le h]
  exact le_afterAll _ _

/-- Between characters, different offsets have different locations. -/
theorem strictMonoOn_ofOffset : StrictMonoOn (ofOffset source) {p | String.Pos.Raw.IsValid source ⟨p⟩} := by
  intro p hp q hq h
  obtain ⟨s, hs, rfl⟩ := exists_start_eq hp hq h
  rw [ofOffset_of_le h.le]
  exact lt_afterAll (List.ne_nil_of_mem (List.mem_filter.2 ⟨hs, by simpa using h⟩))

/-- Inside a character the location is that of its end. -/
theorem ofOffset_eq_stop (hs : s ∈ placedChars source) (hp : p ∈ Set.Ioo s.start s.stop) :
    ofOffset source p = ofOffset source s.stop := by
  have hnone : (placedChars source).filter (fun t => p ≤ t.start ∧ t.start < s.stop) = [] := by
    refine List.filter_eq_nil_iff.2 fun t ht hin => ?_
    obtain ⟨hle, hlt⟩ := of_decide_eq_true hin
    have hstop := stop_le_start_of_lt hs ht (hp.1.trans_le hle)
    omega
  rw [ofOffset_of_le hp.2.le, hnone, afterAll_nil]

/-- The line counts the line feeds before an offset, and the column the characters since the last one. -/
theorem ofOffset_eq_counts : ofOffset source p =
    ⟨1 + (lineFeeds (charsBefore source p)).length, 1 + (lastLine (charsBefore source p)).length⟩ := by
  have hordered : (charsBefore source p).Pairwise fun s t => s.start < t.start := pairwise_start_lt.filter _
  rw [← column_afterAll hordered, ← line_afterAll ⟨1, 1⟩, ofOffset_eq]

/-- **Line and column identify a position.**  Locations never go back, and they go on from each start of a character to
every later one and to the end of the text.  An offset inside a character has the location of the next valid one.  The
line counts the line feeds before the offset, and the column counts the characters behind the last of these. -/
theorem line_and_column_identify (source : String) :
    Monotone (ofOffset source) ∧
    StrictMonoOn (ofOffset source) {p | String.Pos.Raw.IsValid source ⟨p⟩} ∧
    (∀ s ∈ placedChars source, ∀ p ∈ Set.Ioo s.start s.stop,
      IsLeast {q | p < q ∧ String.Pos.Raw.IsValid source ⟨q⟩} s.stop ∧
        ofOffset source p = ofOffset source s.stop) ∧
    ∀ p, ofOffset source p =
      ⟨1 + (lineFeeds (charsBefore source p)).length, 1 + (lastLine (charsBefore source p)).length⟩ :=
  ⟨monotone_ofOffset, strictMonoOn_ofOffset,
    fun _ hs _ hp => ⟨isLeast_stop hs hp, ofOffset_eq_stop hs hp⟩, fun _ => ofOffset_eq_counts⟩

/-- The third character starts a line and takes three bytes; the text ends at the offset 6. -/
theorem line_and_column_identify_wide :
    (4 ≤ 9 ∧ ofOffset "a\n€b" 4 ≤ ofOffset "a\n€b" 9) ∧
    ((String.Pos.Raw.IsValid "a\n€b" ⟨2⟩ ∧ String.Pos.Raw.IsValid "a\n€b" ⟨6⟩ ∧ 2 < 6) ∧
      ofOffset "a\n€b" 2 < ofOffset "a\n€b" 6) ∧
    ((⟨2, '€'⟩ ∈ placedChars "a\n€b" ∧ 3 ∈ Set.Ioo 2 5) ∧ ofOffset "a\n€b" 3 = ofOffset "a\n€b" 5) ∧
    ofOffset "a\n€b" 5 = ⟨2, 2⟩ := by
  obtain ⟨hmono, hstrict, hinside, hcounts⟩ := line_and_column_identify "a\n€b"
  have hstart : String.Pos.Raw.IsValid "a\n€b" ⟨2⟩ :=
    isValid_iff_exists_prefix.2 ⟨['a', '\n'], ⟨['€', 'b'], rfl⟩, rfl⟩
  have hend : String.Pos.Raw.IsValid "a\n€b" ⟨6⟩ :=
    isValid_iff_exists_prefix.2 ⟨['a', '\n', '€', 'b'], ⟨[], rfl⟩, rfl⟩
  have hmem : ⟨2, '€'⟩ ∈ placedChars "a\n€b" := by decide
  have hin : 3 ∈ Set.Ioo 2 5 := ⟨by decide, by decide⟩
  refine ⟨⟨by decide, hmono (by decide)⟩, ⟨⟨hstart, hend, by decide⟩, hstrict hstart hend (by decide)⟩,
    ⟨⟨hmem, hin⟩, (hinside _ hmem 3 hin).2⟩, ?_⟩
  rw [hcounts]
  decide

end Location

end TypedData
