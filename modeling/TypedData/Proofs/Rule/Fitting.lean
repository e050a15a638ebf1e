import Mathlib.Data.List.Chain
import TypedData.Rule.Segment

/-!
# What fits a template

`Segment.TakesApart segments text captures` says, without a word on how it is found, that the captures take a
text apart as a template demands.  Fitting segments to a text gives captures that do so, and of all such captures
those with the least lengths in lexicographic order (`Segment.isLeast_fit?`), if no two occurrences in the text of
a literal behind a slot overlap.

The condition is needed, since fitting looks for occurrences of a literal without overlaps: of two that overlap
it passes over the second, even where only the second lets the rest fit.  A literal no end of which is a beginning
of it (`Segment.Unbordered`), such as a single character, overlaps itself in no text.
-/

namespace TypedData

namespace Segment

variable {segments more : List Segment} {literal : String} {name : String} {captures : Captures}
  {text input rest : List Char} {inside : Bool}

/-! ## Taking a text apart -/

/-- The segments spell a text when the captures, none of them empty, are put for their slots. -/
inductive Spells : List Segment → Captures → List Char → Prop
  | nil : Spells [] [] []
  | text {more : List Segment} {captures : Captures} {rest : List Char} (literal : String) :
      Spells more captures rest → Spells (.text literal :: more) captures (literal.toList ++ rest)
  | slot {more : List Segment} {captures : Captures} {rest taken : List Char} (name : String) :
      taken ≠ [] → Spells more captures rest →
        Spells (.slot name :: more) (capture name taken :: captures) (taken ++ rest)

/-- The captures take the text apart: they make a first part of the segments spell it, and the other segments
are none, or an omissible tail whose slots are empty.  The segments as a whole are no such tail. -/
def TakesApart (segments : List Segment) (text : List Char) (captures : Captures) : Prop :=
  ∃ before after kept, segments = before ++ after ∧ Spells before kept text ∧
    (after = [] ∨ before ≠ [] ∧ areOmissible after = true) ∧ captures = kept ++ emptyCaptures after

/-- How long the captures are. -/
def lengths (captures : Captures) : List Nat := captures.map fun c => c.2.length

/-- The captures take the text apart, if other segments stand before or do not, as `inside` says.  This is
`TakesApart` one segment after another. -/
inductive Fits : Bool → List Segment → List Char → Captures → Prop
  | done {inside : Bool} : Fits inside [] [] []
  | omitted {segments : List Segment} :
      areOmissible segments = true → Fits true segments [] (emptyCaptures segments)
  | text {inside : Bool} {more : List Segment} {rest : List Char} {captures : Captures} (literal : String) :
      Fits true more rest captures → Fits inside (.text literal :: more) (literal.toList ++ rest) captures
  | slot {inside : Bool} {more : List Segment} {taken rest : List Char} {captures : Captures} (name : String) :
      taken ≠ [] → Fits true more rest captures →
        Fits inside (.slot name :: more) (taken ++ rest) (capture name taken :: captures)

/-- What fits is spelled by a first part of the segments, and the others are an omissible tail. -/
theorem Fits.exists_parts (h : Fits inside segments text captures) : ∃ before after kept,
    segments = before ++ after ∧ Spells before kept text ∧
      (after = [] ∨ (inside = true ∨ before ≠ []) ∧ areOmissible after = true) ∧
      captures = kept ++ emptyCaptures after := by
  induction h with
  | done => exact ⟨[], [], [], rfl, .nil, .inl rfl, rfl⟩
  | @omitted segments homissible =>
    exact ⟨[], segments, [], rfl, .nil, .inr ⟨.inl rfl, homissible⟩, rfl⟩
  | text literal _ ih =>
    obtain ⟨before, after, kept, rfl, hspells, hafter, rfl⟩ := ih
    exact ⟨.text literal :: before, after, kept, rfl, .text literal hspells,
      hafter.imp_right fun h => ⟨.inr (List.cons_ne_nil _ _), h.2⟩, rfl⟩
  | slot name htaken _ ih =>
    obtain ⟨before, after, kept, rfl, hspells, hafter, rfl⟩ := ih
    exact ⟨.slot name :: before, after, _ :: kept, rfl, .slot name htaken hspells,
      hafter.imp_right fun h => ⟨.inr (List.cons_ne_nil _ _), h.2⟩, rfl⟩

/-- A first part that spells the text fits, with an omissible tail behind it. -/
theorem Spells.fits {before after : List Segment} {kept : Captures} (h : Spells before kept text)
    (hafter : after = [] ∨ (inside = true ∨ before ≠ []) ∧ areOmissible after = true) :
    Fits inside (before ++ after) text (kept ++ emptyCaptures after) := by
  induction h generalizing inside with
  | nil =>
    rcases hafter with rfl | ⟨rfl | hbefore, homissible⟩
    · exact .done
    · exact .omitted homissible
    · exact absurd rfl hbefore
  | text literal _ ih => exact .text literal (ih (hafter.imp_right fun h => ⟨.inl rfl, h.2⟩))
  | slot name htaken _ ih => exact .slot name htaken (ih (hafter.imp_right fun h => ⟨.inl rfl, h.2⟩))

/-- Segments may be looked at one after another. -/
theorem takesApart_iff : TakesApart segments text captures ↔ Fits false segments text captures := by
  constructor
  · rintro ⟨before, after, kept, rfl, hspells, hafter, rfl⟩
    exact hspells.fits (hafter.imp_right fun h => ⟨.inr h.1, h.2⟩)
  · intro h
    obtain ⟨before, after, kept, hsegments, hspells, hafter, hcaptures⟩ := h.exists_parts
    exact ⟨before, after, kept, hsegments, hspells,
      hafter.imp_right fun h => ⟨h.1.resolve_left Bool.false_ne_true, h.2⟩, hcaptures⟩

/-- No segments fit the empty text only, with no captures. -/
theorem fits_nil_iff : Fits inside [] text captures ↔ text = [] ∧ captures = [] := by
  constructor
  · intro h
    cases h with
    | done => exact ⟨rfl, rfl⟩
    | omitted homissible => cases homissible
  · rintro ⟨rfl, rfl⟩
    exact .done

/-- A literal fits what it begins, if the others fit the rest; or all is left out at the end of the text. -/
theorem fits_text_iff : Fits inside (.text literal :: more) text captures ↔
    (∃ rest, text = literal.toList ++ rest ∧ Fits true more rest captures) ∨
      inside = true ∧ text = [] ∧ areOmissible (.text literal :: more) = true ∧
        captures = emptyCaptures (.text literal :: more) := by
  constructor
  · intro h
    cases h with
    | omitted homissible => exact .inr ⟨rfl, rfl, homissible, rfl⟩
    | text _ h => exact .inl ⟨_, rfl, h⟩
  · rintro (⟨rest, rfl, h⟩ | ⟨rfl, rfl, homissible, rfl⟩)
    · exact .text literal h
    · exact .omitted homissible

/-- A slot fits what it captures, if the others fit the rest. -/
theorem fits_slot_iff : Fits inside (.slot name :: more) text captures ↔
    ∃ taken rest captures', taken ≠ [] ∧ text = taken ++ rest ∧ Fits true more rest captures' ∧
      captures = capture name taken :: captures' := by
  constructor
  · intro h
    cases h with
    | omitted homissible => cases homissible
    | slot _ htaken h => exact ⟨_, _, _, htaken, rfl, h, rfl⟩
  · rintro ⟨taken, rest, captures', htaken, rfl, h, rfl⟩
    exact .slot name htaken h

/-! ## Occurrences of a literal -/

/-- A literal is stripped off what starts with it. -/
theorem strip?_eq_some_iff {literal input rest : List Char} :
    strip? literal input = some rest ↔ input = literal ++ rest := by
  induction literal generalizing input with
  | nil => exact Option.some_inj
  | cons l literal ih =>
    cases input with
    | nil =>
      constructor
      · rintro ⟨⟩
      · rintro ⟨⟩
    | cons c input =>
      rw [strip?, List.cons_append, List.cons.injEq]
      split
      · rename_i hl
        rw [ih, and_iff_right hl.symm]
      · rename_i hl
        constructor
        · rintro ⟨⟩
        · rintro ⟨hc, -⟩
          exact absurd hc.symm hl

/-- Two occurrences of the literal in the text are at least as far apart as it is long. -/
def Apart (literal text : List Char) : Prop :=
  ∀ before between rest, text = before ++ (between ++ rest) → between ≠ [] → literal <+: between ++ rest →
    literal <+: rest → literal.length ≤ between.length

/-- Occurrences that are apart in a text are so in every end of it. -/
theorem Apart.of_suffix {literal text rest : List Char} (h : Apart literal text) (hrest : rest <:+ text) :
    Apart literal rest := by
  obtain ⟨first, rfl⟩ := hrest
  rintro before between rest rfl
  exact h (first ++ before) between rest (List.append_assoc ..).symm

/-- No end of the literal is a beginning of it. -/
def Unbordered (literal : List Char) : Prop :=
  ∀ k < literal.length, 0 < k → ¬ literal.drop k <+: literal

instance (literal : List Char) : Decidable (Unbordered literal) :=
  inferInstanceAs (Decidable (∀ k < literal.length, 0 < k → ¬ literal.drop k <+: literal))

/-- A literal no end of which is a beginning of it overlaps itself nowhere. -/
theorem Unbordered.apart {literal : List Char} (h : Unbordered literal) (text : List Char) :
    Apart literal text := by
  rintro before between rest - hbetween hfirst hsecond
  by_contra hlt
  rw [Nat.not_le] at hlt
  refine h between.length hlt (List.length_pos_iff.2 hbetween) ?_
  obtain ⟨after, hafter⟩ := hfirst
  have hdrop : literal.drop between.length <+: rest := by
    have heq := congrArg (List.drop between.length) hafter
    rw [List.drop_left, List.drop_append_of_le_length (Nat.le_of_lt hlt)] at heq
    exact ⟨after, heq⟩
  refine List.prefix_of_prefix_length_le hdrop hsecond ?_
  rw [List.length_drop]
  omega

/-- An occurrence is found at a place where the literal stands. -/
theorem of_mem_occurrencesFrom {literal : List Char} {offset covered stop : Nat}
    (h : (stop, rest) ∈ occurrencesFrom literal offset covered input) :
    ∃ taken, input = taken ++ rest ∧ stop = offset + taken.length ∧ literal <+: rest := by
  induction input generalizing offset covered with
  | nil =>
    unfold occurrencesFrom at h
    split at h
    · rename_i hempty
      obtain rfl := List.isEmpty_iff.1 hempty
      cases List.mem_singleton.1 h
      exact ⟨[], rfl, rfl, List.nil_prefix⟩
    · cases h
  | cons c input ih =>
    have hlater : ∀ {covered}, (stop, rest) ∈ occurrencesFrom literal (offset + 1) covered input →
        ∃ taken, c :: input = taken ++ rest ∧ stop = offset + taken.length ∧ literal <+: rest := by
      intro covered h
      obtain ⟨taken, rfl, rfl, hrest⟩ := ih h
      exact ⟨c :: taken, rfl, by rw [List.length_cons]; omega, hrest⟩
    unfold occurrencesFrom at h
    split at h
    · exact hlater h
    · split at h
      · rename_i hprefix
        rcases List.mem_cons.1 h with h | h
        · obtain ⟨rfl, rfl⟩ := Prod.mk.inj h
          exact ⟨[], rfl, rfl, List.isPrefixOf_iff_prefix.1 hprefix⟩
        · exact hlater h
      · exact hlater h

/-- Every place is found where the literal stands, if its occurrences do not overlap. -/
theorem mem_occurrencesFrom {literal taken : List Char} (hapart : Apart literal (taken ++ rest)) (hne : literal ≠ [])
    (hrest : literal <+: rest) {offset covered : Nat} (hcovered : covered ≤ taken.length) :
    (offset + taken.length, rest) ∈ occurrencesFrom literal offset covered (taken ++ rest) := by
  induction taken generalizing offset covered with
  | nil =>
    obtain rfl := Nat.le_zero.1 hcovered
    cases rest with
    | nil => exact absurd (List.prefix_nil.1 hrest) hne
    | cons c rest =>
      rw [List.nil_append, occurrencesFrom, if_pos (List.isPrefixOf_iff_prefix.2 hrest)]
      exact .head _
  | cons c taken ih =>
    have hlater : ∀ {covered}, covered ≤ taken.length →
        (offset + (c :: taken).length, rest) ∈
          occurrencesFrom literal (offset + 1) covered (taken ++ rest) := by
      intro covered hcovered
      have h : (offset + 1 + taken.length, rest) ∈ occurrencesFrom literal (offset + 1) covered (taken ++ rest) :=
        ih (hapart.of_suffix (List.suffix_cons c _)) hcovered
      rwa [show offset + 1 + taken.length = offset + (c :: taken).length by
        rw [List.length_cons]; omega] at h
    rw [List.cons_append]
    unfold occurrencesFrom
    split
    · exact hlater (Nat.le_of_succ_le_succ hcovered)
    · split
      · rename_i hprefix
        have hlength := hapart [] (c :: taken) rest rfl (List.cons_ne_nil c taken)
          (List.isPrefixOf_iff_prefix.1 hprefix) hrest
        rw [List.length_cons] at hlength
        exact .tail _ (hlater (by omega))
      · exact hlater (Nat.zero_le _)

/-- Occurrences are found from the offset on. -/
theorem le_of_mem_occurrencesFrom {literal : List Char} {offset covered : Nat} {found : Nat × List Char}
    (h : found ∈ occurrencesFrom literal offset covered input) : offset ≤ found.1 := by
  obtain ⟨taken, -, hstop, -⟩ := of_mem_occurrencesFrom h
  omega

/-- Occurrences are found from left to right. -/
theorem pairwise_occurrencesFrom (literal : List Char) (offset covered : Nat) (input : List Char) :
    (occurrencesFrom literal offset covered input).Pairwise fun found found' => found.1 < found'.1 := by
  induction input generalizing offset covered with
  | nil =>
    unfold occurrencesFrom
    split
    · exact List.pairwise_singleton _ _
    · exact .nil
  | cons c input ih =>
    unfold occurrencesFrom
    split
    · exact ih _ _
    · split
      · exact .cons (fun found hfound => le_of_mem_occurrencesFrom hfound) (ih _ _)
      · exact ih _ _

/-- A slot can end where the literal after it stands, but not at its own beginning. -/
theorem mem_slotEnds_iff (hapart : Apart literal.toList input) (hne : literal ≠ "") {stop : Nat} :
    (stop, rest) ∈ slotEnds literal input ↔
      ∃ taken, taken ≠ [] ∧ input = taken ++ rest ∧ stop = taken.length ∧ literal.toList <+: rest := by
  rw [slotEnds, List.mem_filter]
  constructor
  · rintro ⟨h, hstop⟩
    obtain ⟨taken, hinput, rfl, hrest⟩ := of_mem_occurrencesFrom h
    rw [Nat.zero_add] at hstop
    exact ⟨taken, List.length_pos_iff.1 (of_decide_eq_true hstop), hinput, Nat.zero_add _, hrest⟩
  · rintro ⟨taken, htaken, rfl, rfl, hrest⟩
    refine ⟨?_, decide_eq_true (List.length_pos_iff.2 htaken)⟩
    have hliteral' : literal.toList ≠ [] := fun h => hne (String.toList_eq_nil_iff.1 h)
    have h : (0 + taken.length, rest) ∈ occurrencesFrom literal.toList 0 0 (taken ++ rest) :=
      mem_occurrencesFrom hapart hliteral' hrest (Nat.zero_le _)
    rwa [Nat.zero_add] at h

/-! ## Fitting -/

/-- A slot before a literal ends where the rest fits first, or takes what is left if the rest may be left out. -/
theorem fit?_slot (inside : Bool) (name literal : String) (more : List Segment) (input : List Char) :
    fit? inside (.slot name :: .text literal :: more) input =
      ((slotEnds literal input).findSome? fun found =>
        (fit? true (.text literal :: more) found.2).map (capture name (input.take found.1) :: ·)).or
      (if !input.isEmpty && areOmissible (.text literal :: more) then
        some (capture name input :: emptyCaptures (.text literal :: more))
      else none) := by
  rw [fit?]
  dsimp only
  generalize List.findSome? _ _ = fitted
  cases fitted <;> rfl

/-- **What is found fits.** -/
theorem fits_of_fit? (h : fit? inside segments input = some captures) : Fits inside segments input captures := by
  induction segments generalizing inside input captures with
  | nil =>
    rw [fit?] at h
    split at h
    · rename_i hempty
      cases h
      exact fits_nil_iff.2 ⟨List.isEmpty_iff.1 hempty, rfl⟩
    · cases h
  | cons segment more ih =>
    cases segment with
    | text literal =>
      rw [fit?] at h
      split at h
      · rename_i homitted
        obtain ⟨hinput, homissible⟩ := Bool.and_eq_true_iff.1 homitted
        obtain ⟨hempty, hinside⟩ := Bool.and_eq_true_iff.1 hinput
        cases h
        exact fits_text_iff.2 (.inr ⟨hinside, List.isEmpty_iff.1 hempty, homissible, rfl⟩)
      · obtain ⟨rest, hstrip, h⟩ := Option.bind_eq_some_iff.1 h
        exact fits_text_iff.2 (.inl ⟨rest, strip?_eq_some_iff.1 hstrip, ih h⟩)
    | slot name =>
      cases more with
      | nil =>
        rw [fit?] at h
        split at h
        · cases h
        · rename_i hempty
          cases h
          exact fits_slot_iff.2 ⟨input, [], [], fun hnil => hempty (List.isEmpty_iff.2 hnil),
            (List.append_nil _).symm, .done, rfl⟩
      | cons next more =>
        cases next with
        | slot name' =>
          rw [fit?] at h
          cases h
        | text literal =>
          rw [fit?_slot, Option.or_eq_some_iff] at h
          rcases h with h | ⟨-, h⟩
          · obtain ⟨⟨stop, rest⟩, hend, hfit⟩ := List.exists_of_findSome?_eq_some h
            obtain ⟨captures', hrest, rfl⟩ := Option.map_eq_some_iff.1 hfit
            obtain ⟨hfound, hstop⟩ := List.mem_filter.1 hend
            obtain ⟨taken, rfl, rfl, -⟩ := of_mem_occurrencesFrom hfound
            rw [Nat.zero_add] at hstop ⊢
            rw [List.take_left]
            exact .slot name (List.length_pos_iff.1 (of_decide_eq_true hstop)) (ih hrest)
          · split at h
            · rename_i homitted
              obtain ⟨hempty, homissible⟩ := Bool.and_eq_true_iff.1 homitted
              cases h
              refine fits_slot_iff.2 ⟨input, [], _, ?_, (List.append_nil _).symm, .omitted homissible, rfl⟩
              rintro rfl
              cases hempty
            · cases h

/-! ## The least captures -/

/-- The captures take the text apart with the least lengths; there are none only where nothing does. -/
def IsLeast (inside : Bool) (segments : List Segment) (text : List Char) : Option Captures → Prop
  | some captures => Fits inside segments text captures ∧
      ∀ captures', Fits inside segments text captures' →
        captures' = captures ∨ List.Lex (· < ·) (lengths captures) (lengths captures')
  | none => ∀ captures, ¬ Fits inside segments text captures

/-- The literals that stand directly behind slots. -/
def delimiters : List Segment → List String
  | .slot _ :: .text literal :: more => literal :: delimiters more
  | _ :: more => delimiters more
  | [] => []

/-- Whether the segment is a slot. -/
def isSlot : Segment → Bool
  | .slot _ => true
  | .text _ => false

/-- Literals and slots stand in turn, and no literal is empty. -/
structure Regular (segments : List Segment) : Prop where
  alternates : segments.IsChain fun s t => s.isSlot ≠ t.isSlot
  nonempty : ∀ literal, .text literal ∈ segments → literal ≠ ""

/-- Regular segments stay regular without the first of them. -/
theorem Regular.tail {segment : Segment} (h : Regular (segment :: more)) : Regular more :=
  ⟨h.alternates.of_cons, fun literal hliteral => h.nonempty literal (.tail _ hliteral)⟩

/-! ### Texts that are longer than their captures -/

/-- Whether what the segments capture is shorter than the text: they are not a single slot, with no more than a tail
behind it that may be left out. -/
def sheds : List Segment → Bool
  | .slot _ :: more => !more.isEmpty && !areOmissible more
  | _ => true

/-- No capture is longer than the text. -/
theorem Spells.length_le (h : Spells segments captures text) : ∀ c ∈ captures, c.2.length ≤ text.length := by
  induction h with
  | nil => exact List.forall_mem_nil _
  | text literal _ ih =>
    intro c hc
    rw [List.length_append]
    exact Nat.le_add_left_of_le (ih c hc)
  | @slot _ _ rest taken name _ _ ih =>
    rw [List.length_append]
    refine List.forall_mem_cons.2 ⟨?_, fun c hc => Nat.le_add_left_of_le (ih c hc)⟩
    rw [capture, String.length_ofList]
    exact Nat.le_add_right _ _

/-- What segments spell is not empty, unless there are none. -/
theorem Spells.length_pos (h : Spells segments captures text) (hne : segments ≠ [])
    (hliterals : ∀ literal, .text literal ∈ segments → literal ≠ "") : 0 < text.length := by
  cases h with
  | nil => exact absurd rfl hne
  | text literal _ =>
    have hliteral := List.length_pos_of_ne_nil (mt String.toList_eq_nil_iff.1 (hliterals literal (.head _)))
    rw [List.length_append]
    exact Nat.add_pos_left hliteral _
  | slot name htaken _ =>
    rw [List.length_append]
    exact Nat.add_pos_left (List.length_pos_of_ne_nil htaken) _

/-- **Captures are shorter than the text,** if the segments take something off it. -/
theorem TakesApart.length_lt (h : TakesApart segments text captures) (hregular : Regular segments)
    (hsheds : sheds segments = true) : ∀ c ∈ captures, c.2.length < text.length := by
  obtain ⟨before, after, kept, rfl, hspells, hafter, rfl⟩ := h
  have hliterals : ∀ literal, .text literal ∈ before → literal ≠ "" := fun literal hliteral =>
    hregular.nonempty literal (List.mem_append_left _ hliteral)
  have hempty : before ≠ [] → ∀ c ∈ emptyCaptures after, c.2.length < text.length := by
    intro hbefore c hc
    obtain ⟨segment, -, hsegment⟩ := List.mem_filterMap.1 hc
    cases segment with
    | text => cases hsegment
    | slot name =>
      obtain rfl := Option.some.inj hsegment
      exact hspells.length_pos hbefore hliterals
  rw [List.forall_mem_append]
  cases hspells with
  | nil =>
    rcases hafter with rfl | ⟨hbefore, -⟩
    · exact ⟨List.forall_mem_nil _, List.forall_mem_nil _⟩
    · exact absurd rfl hbefore
  | text literal hspells =>
    refine ⟨fun c hc => ?_, hempty (List.cons_ne_nil _ _)⟩
    have hliteral := List.length_pos_of_ne_nil (mt String.toList_eq_nil_iff.1 (hliterals literal (.head _)))
    have hle := hspells.length_le c hc
    rw [List.length_append]
    omega
  | @slot more _ rest taken name htaken hspells =>
    refine ⟨?_, hempty (List.cons_ne_nil _ _)⟩
    -- a single slot with nothing but an omissible tail behind it would take the whole text
    have hmore : more ≠ [] := by
      rintro rfl
      rw [List.cons_append, List.nil_append, sheds, Bool.and_eq_true, Bool.not_eq_true', Bool.not_eq_true',
        List.isEmpty_eq_false_iff] at hsheds
      rcases hafter with rfl | ⟨-, homissible⟩
      · exact hsheds.1 rfl
      · exact Bool.false_ne_true (hsheds.2.symm.trans homissible)
    have hrest := hspells.length_pos hmore fun literal hliteral => hliterals literal (.tail _ hliteral)
    have htaken := List.length_pos_of_ne_nil htaken
    rw [List.length_append]
    refine List.forall_mem_cons.2 ⟨?_, fun c hc => ?_⟩
    · rw [capture, String.length_ofList]
      omega
    · have hle := hspells.length_le c hc
      omega

/-- The delimiters of the others are among those of all. -/
theorem delimiters_subset_cons (segment : Segment) (more : List Segment) :
    delimiters more ⊆ delimiters (segment :: more) := by
  cases segment with
  | text literal => exact List.Subset.refl _
  | slot name =>
    cases more with
    | nil => exact List.Subset.refl _
    | cons next more =>
      cases next with
      | text literal => exact List.subset_cons_self _ _
      | slot name => exact List.Subset.refl _

/-- Only what fits decides which captures are the least. -/
theorem isLeast_congr {inside inside' : Bool} {segments segments' : List Segment} {text text' : List Char}
    (h : ∀ captures, Fits inside segments text captures ↔ Fits inside' segments' text' captures)
    (result : Option Captures) :
    IsLeast inside segments text result ↔ IsLeast inside' segments' text' result := by
  cases result with
  | none => simp only [IsLeast, h]
  | some captures => simp only [IsLeast, h]

/-- A capture in front has its own length, in front of those of the others. -/
theorem lengths_capture (name : String) (taken : List Char) (captures : Captures) :
    lengths (capture name taken :: captures) = taken.length :: lengths captures := by
  rw [lengths, List.map_cons, capture, String.length_ofList]
  rfl

/-- A literal is read, unless it stands at the beginning of a tail that is left out. -/
theorem isLeast_fit?_text (hliteral : literal ≠ "")
    (ih : ∀ rest, rest <:+ input → IsLeast true more rest (fit? true more rest)) (inside : Bool) :
    IsLeast inside (.text literal :: more) input (fit? inside (.text literal :: more) input) := by
  have hne : ∀ rest : List Char, literal.toList ++ rest ≠ [] := fun rest h =>
    hliteral (String.toList_eq_nil_iff.1 (List.append_eq_nil_iff.1 h).1)
  rw [fit?]
  split
  · rename_i h
    obtain ⟨⟨hempty, rfl⟩, homissible⟩ : (input.isEmpty = true ∧ inside = true) ∧ _ := by
      simpa only [Bool.and_eq_true] using h
    obtain rfl := List.isEmpty_iff.1 hempty
    refine ⟨.omitted homissible, fun captures' h' => ?_⟩
    rcases fits_text_iff.1 h' with ⟨rest, hrest, -⟩ | ⟨-, -, -, rfl⟩
    · exact absurd hrest.symm (hne rest)
    · exact .inl rfl
  · rename_i h
    have hstays : ∀ captures, Fits inside (.text literal :: more) input captures ↔
        ∃ rest, strip? literal.toList input = some rest ∧ Fits true more rest captures := by
      intro captures
      simp only [fits_text_iff, strip?_eq_some_iff]
      refine or_iff_left ?_
      rintro ⟨rfl, rfl, homissible, -⟩
      exact h (by rw [homissible]; rfl)
    cases hstrip : strip? literal.toList input with
    | none =>
      intro captures hfits
      obtain ⟨rest, hrest, -⟩ := (hstays captures).1 hfits
      cases hstrip.symm.trans hrest
    | some rest =>
      refine (isLeast_congr (fun captures => ?_) _).2 (ih rest ⟨_, (strip?_eq_some_iff.1 hstrip).symm⟩)
      rw [hstays, hstrip]
      simp

/-- A slot at the end of the segments is filled with all that is left. -/
theorem isLeast_fit?_lastSlot (name : String) (inside : Bool) (input : List Char) :
    IsLeast inside [.slot name] input (fit? inside [.slot name] input) := by
  have hfits : ∀ captures, Fits inside [.slot name] input captures ↔
      input ≠ [] ∧ captures = [capture name input] := by
    intro captures
    simp only [fits_slot_iff, fits_nil_iff]
    constructor
    · rintro ⟨taken, rest, captures', htaken, rfl, ⟨rfl, rfl⟩, rfl⟩
      rw [List.append_nil]
      exact ⟨htaken, rfl⟩
    · rintro ⟨hinput, rfl⟩
      exact ⟨input, [], [], hinput, (List.append_nil _).symm, ⟨rfl, rfl⟩, rfl⟩
  rw [fit?]
  split
  · rename_i hempty
    exact fun captures h => ((hfits captures).1 h).1 (List.isEmpty_iff.1 hempty)
  · rename_i hempty
    exact ⟨(hfits _).2 ⟨fun h => hempty (List.isEmpty_iff.2 h), rfl⟩,
      fun captures' h' => .inl ((hfits captures').1 h').2⟩

/-- A slot before a literal ends at an occurrence of the literal, or takes all that is left and is followed by
an omitted tail. -/
theorem fits_slot_text_iff (hapart : Apart literal.toList input) (hliteral : literal ≠ "") :
    Fits inside (.slot name :: .text literal :: more) input captures ↔
      (∃ stop rest captures', (stop, rest) ∈ slotEnds literal input ∧
        Fits true (.text literal :: more) rest captures' ∧
        captures = capture name (input.take stop) :: captures') ∨
      input ≠ [] ∧ areOmissible (.text literal :: more) = true ∧
        captures = capture name input :: emptyCaptures (.text literal :: more) := by
  rw [fits_slot_iff]
  constructor
  · rintro ⟨taken, rest, captures', htaken, rfl, h, rfl⟩
    rcases fits_text_iff.1 h with ⟨after, rfl, -⟩ | ⟨-, rfl, homissible, rfl⟩
    · refine .inl ⟨taken.length, _, captures', ?_, h, by rw [List.take_left]⟩
      exact (mem_slotEnds_iff hapart hliteral).2
        ⟨taken, htaken, rfl, rfl, List.prefix_append _ _⟩
    · rw [List.append_nil]
      exact .inr ⟨htaken, homissible, rfl⟩
  · rintro (⟨stop, rest, captures', hend, h, rfl⟩ | ⟨hinput, homissible, rfl⟩)
    · obtain ⟨taken, htaken, rfl, rfl, -⟩ := (mem_slotEnds_iff hapart hliteral).1 hend
      exact ⟨taken, rest, captures', htaken, rfl, h, by rw [List.take_left]⟩
    · exact ⟨input, [], _, hinput, (List.append_nil _).symm, .omitted homissible, rfl⟩

section Ends

variable (hapart : Apart literal.toList input) (hliteral : literal ≠ "")
  (ih : ∀ rest, rest <:+ input → IsLeast true (.text literal :: more) rest (fit? true (.text literal :: more) rest))

include hapart hliteral

/-- A slot ends before the end of the text, since a literal follows it. -/
theorem lt_of_mem_slotEnds {stop : Nat} {rest : List Char} (hend : (stop, rest) ∈ slotEnds literal input) :
    stop < input.length := by
  obtain ⟨taken, -, rfl, rfl, hrest⟩ := (mem_slotEnds_iff hapart hliteral).1 hend
  have hlength := hrest.length_le
  have hpos : 0 < literal.toList.length :=
    List.length_pos_iff.2 fun h => hliteral (String.toList_eq_nil_iff.1 h)
  rw [List.length_append]
  omega

include ih

/-- Behind an end of a slot, fitting gives the least captures. -/
theorem isLeast_of_mem_slotEnds {stop : Nat} {rest : List Char} (hend : (stop, rest) ∈ slotEnds literal input) :
    IsLeast true (.text literal :: more) rest (fit? true (.text literal :: more) rest) := by
  obtain ⟨taken, -, hinput, -, -⟩ := (mem_slotEnds_iff hapart hliteral).1 hend
  exact ih rest ⟨taken, hinput.symm⟩

/-- Behind an end of a slot where fitting fails, nothing fits. -/
theorem not_fits_of_mem_slotEnds {found : Nat × List Char} (hend : found ∈ slotEnds literal input)
    (hnone : fit? true (.text literal :: more) found.2 = none) (captures : Captures) :
    ¬ Fits true (.text literal :: more) found.2 captures := by
  have hleast := isLeast_of_mem_slotEnds hapart hliteral ih hend
  rw [hnone] at hleast
  exact hleast captures

/-- A slot ends where the rest fits first. -/
theorem isLeast_firstEnd {earlier later : List (Nat × List Char)} {stop : Nat} {rest : List Char}
    (hends : slotEnds literal input = earlier ++ (stop, rest) :: later)
    (hearlier : ∀ found ∈ earlier, fit? true (.text literal :: more) found.2 = none)
    (hrest : fit? true (.text literal :: more) rest = some captures) (inside : Bool) :
    IsLeast inside (.slot name :: .text literal :: more) input
      (some (capture name (input.take stop) :: captures)) := by
  have hend : (stop, rest) ∈ slotEnds literal input := hends ▸ List.mem_append_right _ (.head _)
  have hleast := isLeast_of_mem_slotEnds hapart hliteral ih hend
  rw [hrest] at hleast
  have hstop := lt_of_mem_slotEnds hapart hliteral hend
  refine ⟨(fits_slot_text_iff hapart hliteral).2 (.inl ⟨stop, rest, captures, hend, hleast.1, rfl⟩),
    fun captures' h' => ?_⟩
  rcases (fits_slot_text_iff hapart hliteral).1 h' with
    ⟨stop', rest', captures'', hend', h'', rfl⟩ | ⟨-, -, rfl⟩
  · have hstop' := lt_of_mem_slotEnds hapart hliteral hend'
    have hsorted : (earlier ++ (stop, rest) :: later).Pairwise fun found found' => found.1 < found'.1 := by
      rw [← hends]
      exact (pairwise_occurrencesFrom _ _ _ _).filter _
    have hmem := hend'
    rw [hends] at hmem
    rcases List.mem_append.1 hmem with hmem | hmem
    · exact absurd h'' (not_fits_of_mem_slotEnds hapart hliteral ih hend' (hearlier _ hmem) captures'')
    · rw [lengths_capture, lengths_capture]
      rcases List.mem_cons.1 hmem with hmem | hmem
      · obtain ⟨rfl, rfl⟩ := Prod.mk.inj hmem
        exact (hleast.2 captures'' h'').imp (congrArg _) .cons
      · have hlater := (List.pairwise_cons.1 (List.pairwise_append.1 hsorted).2.1).1 _ hmem
        refine .inr (.rel ?_)
        rw [List.length_take, List.length_take]
        dsimp only at hlater ⊢
        omega
  · rw [lengths_capture, lengths_capture]
    refine .inr (.rel ?_)
    rw [List.length_take]
    omega

/-- If the rest fits at no end of a slot, the slot takes the whole text, and the rest has to be left out. -/
theorem isLeast_noEnd
    (hnone : ∀ found ∈ slotEnds literal input, fit? true (.text literal :: more) found.2 = none) (inside : Bool) :
    IsLeast inside (.slot name :: .text literal :: more) input
      (if !input.isEmpty && areOmissible (.text literal :: more) then
        some (capture name input :: emptyCaptures (.text literal :: more))
      else none) := by
  have honly : ∀ captures, Fits inside (.slot name :: .text literal :: more) input captures ↔
      input ≠ [] ∧ areOmissible (.text literal :: more) = true ∧
        captures = capture name input :: emptyCaptures (.text literal :: more) := by
    intro captures
    rw [fits_slot_text_iff hapart hliteral]
    refine or_iff_right ?_
    rintro ⟨stop, rest, captures', hend, h, -⟩
    exact not_fits_of_mem_slotEnds hapart hliteral ih hend (hnone _ hend) captures' h
  split
  · rename_i h
    obtain ⟨hinput, homissible⟩ := Bool.and_eq_true_iff.1 h
    have hinput : input ≠ [] := by rintro rfl; cases hinput
    exact ⟨(honly _).2 ⟨hinput, homissible, rfl⟩, fun captures' h' => .inl ((honly captures').1 h').2.2⟩
  · rename_i h
    intro captures hfits
    obtain ⟨hinput, homissible, -⟩ := (honly captures).1 hfits
    refine h (Bool.and_eq_true_iff.2 ⟨?_, homissible⟩)
    cases input with
    | nil => exact absurd rfl hinput
    | cons c input => rfl

/-- A slot before a literal ends as early as the rest allows. -/
theorem isLeast_fit?_slot (inside : Bool) : IsLeast inside (.slot name :: .text literal :: more) input
    (fit? inside (.slot name :: .text literal :: more) input) := by
  rw [fit?]
  dsimp only
  split
  · rename_i captures hfitted
    obtain ⟨earlier, ⟨stop, rest⟩, later, hends, hfit, hearlier⟩ := List.findSome?_eq_some_iff.1 hfitted
    obtain ⟨captures₀, hrest, rfl⟩ := Option.map_eq_some_iff.1 hfit
    exact isLeast_firstEnd hapart hliteral ih hends
      (fun found hfound => Option.map_eq_none_iff.1 (hearlier found hfound)) hrest inside
  · rename_i hfitted
    exact isLeast_noEnd hapart hliteral ih
      (fun found hfound => Option.map_eq_none_iff.1 (List.findSome?_eq_none_iff.1 hfitted found hfound)) inside

end Ends

/-- **Fitting gives the least captures that take a text apart,** if no two occurrences in the text of a literal
behind a slot overlap. -/
theorem isLeast_fit? (hregular : Regular segments)
    (hapart : ∀ literal ∈ delimiters segments, Apart literal.toList input) (inside : Bool) :
    IsLeast inside segments input (fit? inside segments input) := by
  induction segments generalizing inside input with
  | nil =>
    rw [fit?]
    split
    · rename_i hempty
      exact ⟨fits_nil_iff.2 ⟨List.isEmpty_iff.1 hempty, rfl⟩, fun captures' h' => .inl (fits_nil_iff.1 h').2⟩
    · rename_i hempty
      exact fun captures h => hempty (List.isEmpty_iff.2 (fits_nil_iff.1 h).1)
  | cons segment more ih =>
    have ih : ∀ rest, rest <:+ input → IsLeast true more rest (fit? true more rest) := by
      refine fun rest hrest => ih hregular.tail (fun literal hliteral => ?_) true
      exact (hapart literal (delimiters_subset_cons segment more hliteral)).of_suffix hrest
    cases segment with
    | text literal => exact isLeast_fit?_text (hregular.nonempty literal (.head _)) ih inside
    | slot name =>
      cases more with
      | nil => exact isLeast_fit?_lastSlot name inside input
      | cons next more =>
        cases next with
        | slot name' => exact absurd rfl (List.isChain_cons_cons.1 hregular.alternates).1
        | text literal =>
          exact isLeast_fit?_slot (hapart literal (.head _)) (hregular.nonempty literal (.tail _ (.head _))) ih
            inside

end Segment

end TypedData
