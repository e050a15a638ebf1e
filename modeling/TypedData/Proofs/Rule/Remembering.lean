import TypedData.Proofs.Rule.Fitting

/-!
# Searching with remembered failures

A search fits segments to a text as `Segment.fit?` does, puts the captures behind those that there are, and leaves
these alone if nothing fits (`Segment.answers_search`).  This is so for every way to try a fit that changes no answer.
Trying everything changes none.  Neither does a table of failures that is **sound**: searching without one really
fails wherever the table says so.

So a search with a sound table has the success and the captures of one without a table, and leaves a sound table,
wherever it starts (`Segment.remembering_changes_nothing`); in particular it does so from the empty table
(`Segment.fitText?_eq`).
-/

namespace TypedData

namespace Segment

variable {S : Failures → Prop} {before captures : Captures} {result result' : Option Captures}
  {m m' : StateM Search Bool}

/-! ## Results of a search -/

/-- Behind these captures and from every table with `S`, the search has the result, and leaves a table with `S`. -/
def Answers (S : Failures → Prop) (before : Captures) (m : StateM Search Bool) (result : Option Captures) : Prop :=
  ∀ failures, S failures → ∃ failures', S failures' ∧
    m.run ⟨failures, before⟩ = (result.isSome, ⟨failures', before ++ result.getD []⟩)

/-- A capture that is put behind the captures before a search stands before those of the search. -/
theorem insertIdx_length_append {α : Type} (xs ys : List α) (x : α) :
    (xs ++ ys).insertIdx xs.length x = xs ++ x :: ys := by
  induction xs with
  | nil => rfl
  | cons y xs ih => exact congrArg (y :: ·) ih

namespace Answers

/-- A search that fails has no result. -/
theorem failure : Answers S before (return false) none := by
  intro failures hfailures
  exact ⟨failures, hfailures, by rw [Option.getD_none, List.append_nil]; rfl⟩

/-- A search that succeeds at once captures nothing. -/
theorem success : Answers S before (return true) (some []) := by
  intro failures hfailures
  exact ⟨failures, hfailures, by rw [Option.getD_some, List.append_nil]; rfl⟩

/-- A search that only captures has these captures as its result. -/
theorem append (captures : Captures) :
    Answers S before (do Search.append captures; return true) (some captures) :=
  fun failures hfailures => ⟨failures, hfailures, rfl⟩

/-- A search may look at the captures before it goes on. -/
theorem get_bind {k : Search → StateM Search Bool} (h : ∀ failures, Answers S before (k ⟨failures, before⟩) result) :
    Answers S before (do k (← get)) result := fun failures => h failures failures

/-- What comes first is tried first. -/
theorem or (h : Answers S before m result) (h' : result = none → Answers S before m' result') :
    Answers S before (do if ← m then return true else m') (result.or result') := by
  intro failures hfailures
  obtain ⟨failures', hfailures', hrun⟩ := h failures hfailures
  cases result with
  | some captures => exact ⟨failures', hfailures', by rw [StateT.run_bind, hrun]; rfl⟩
  | none =>
    obtain ⟨failures'', hfailures'', hrun'⟩ := h' rfl failures' hfailures'
    refine ⟨failures'', hfailures'', ?_⟩
    rw [Option.getD_none, List.append_nil] at hrun
    rw [StateT.run_bind, hrun]
    exact hrun'

/-- The first success of a list is the same, if it is the same for each item. -/
theorem anyM {X : Type} {f : X → StateM Search Bool} {g : X → Option Captures} {xs : List X}
    (h : ∀ x ∈ xs, Answers S before (f x) (g x)) : Answers S before (xs.anyM f) (xs.findSome? g) := by
  induction xs with
  | nil => exact failure
  | cons x xs ih =>
    obtain ⟨hx, hxs⟩ := List.forall_mem_cons.1 h
    have hstep : (x :: xs).anyM f = (do if ← f x then return true else xs.anyM f) := by
      refine congrArg (f x >>= ·) (funext fun fitted => ?_)
      cases fitted <;> rfl
    have hresult : (x :: xs).findSome? g = (g x).or (xs.findSome? g) := by
      rw [List.findSome?_cons]
      cases g x <;> rfl
    rw [hstep, hresult]
    exact hx.or fun _ => ih hxs

/-- A capture in front of those that are found. -/
theorem insert (h : Answers S before m result) (captured : String × String) :
    Answers S before (do
      let fitted ← m
      if fitted then Search.insert before.length captured
      return fitted) (result.map (captured :: ·)) := by
  intro failures hfailures
  obtain ⟨failures', hfailures', hrun⟩ := h failures hfailures
  refine ⟨failures', hfailures', ?_⟩
  rw [StateT.run_bind, hrun]
  cases result with
  | none => rfl
  | some captures =>
    exact congrArg (fun found => (true, Search.mk failures' found)) (insertIdx_length_append before captures captured)

/-- Looking a failure up and remembering it changes no answer, if failures are remembered where there is no
success. -/
theorem remembering {here : Nat × Nat} (h : Answers S before m result)
    (hknown : ∀ failures, S failures → failures.contains here = true → result = none)
    (hinsert : result = none → ∀ failures, S failures → S (failures.insert here)) :
    Answers S before (Segment.remembering here m) result := by
  intro failures hfailures
  have hlook : (Segment.remembering here m).run ⟨failures, before⟩ =
      (if failures.contains here then pure false
        else do
          if ← m then return true
          modify fun s => { s with failures := s.failures.insert here }
          return false : StateM Search Bool).run ⟨failures, before⟩ := rfl
  rw [hlook]
  split
  · rename_i hcontains
    obtain rfl := hknown failures hfailures hcontains
    exact failure failures hfailures
  · obtain ⟨failures', hfailures', hrun⟩ := h failures hfailures
    rw [StateT.run_bind, hrun]
    cases result with
    | some captures => exact ⟨failures', hfailures', rfl⟩
    | none => exact ⟨failures'.insert here, hinsert rfl failures' hfailures', rfl⟩

end Answers

/-! ## Searching -/

variable {segments more : List Segment} {text input : List Char} {inside : Bool} {offset : Nat} {attempt : Attempt}

/-- With these tables, trying a fit in this way changes no answer. -/
def Transparent (S : Failures → Prop) (segments : List Segment) (text : List Char) (attempt : Attempt) : Prop :=
  ∀ more offset before m, more <:+ segments →
    Answers S before m (fit? (decide (more.length < segments.length)) more (text.drop offset)) →
    Answers S before (attempt (more.length, offset) m)
      (fit? (decide (more.length < segments.length)) more (text.drop offset))

/-- The ends of a slot are tried with the same success, if what is behind them fits as it should. -/
theorem Answers.slotEnds {literal : String} (name : String)
    (h : ∀ offset, Answers S before (search attempt true more offset (text.drop offset))
      (fit? true more (text.drop offset))) (offset : Nat) :
    Answers S before
      ((Segment.slotEnds literal (text.drop offset)).anyM fun found => do
        let fitted ← search attempt true more (offset + found.1) found.2
        if fitted then Search.insert before.length (capture name ((text.drop offset).take found.1))
        return fitted)
      ((Segment.slotEnds literal (text.drop offset)).findSome? fun found =>
        (fit? true more found.2).map (capture name ((text.drop offset).take found.1) :: ·)) := by
  refine .anyM fun found hfound => ?_
  obtain ⟨taken, hinput, hstop, -⟩ := of_mem_occurrencesFrom (List.mem_filter.1 hfound).1
  have hrest : found.2 = text.drop (offset + found.1) := by
    rw [Nat.zero_add] at hstop
    rw [← List.drop_drop, hinput, hstop, List.drop_left]
  rw [hrest]
  exact (h _).insert _

/-- **A search has the success of fitting,** and adds the captures to those that there are. -/
theorem answers_search (hattempt : Transparent S segments text attempt) (hmore : more <:+ segments) (offset : Nat)
    (before : Captures) :
    Answers S before (search attempt (decide (more.length < segments.length)) more offset (text.drop offset))
      (fit? (decide (more.length < segments.length)) more (text.drop offset)) := by
  induction more generalizing offset with
  | nil =>
    rw [search]
    refine hattempt [] offset before _ hmore ?_
    rw [fit?]
    split
    · rename_i hempty
      rw [hempty]
      exact .success
    · rename_i hempty
      rw [Bool.eq_false_iff.2 hempty]
      exact .failure
  | cons segment more ih =>
    have htail := (List.suffix_cons segment more).trans hmore
    -- what is left of the segments has the first of them before it
    have hinside : true = decide (more.length < segments.length) :=
      (decide_eq_true (Nat.lt_of_lt_of_le (Nat.lt_succ_self _) hmore.length_le)).symm
    have ih := ih htail
    rw [← hinside] at ih
    cases segment with
    | text literal =>
      rw [search]
      refine hattempt (.text literal :: more) offset before _ hmore ?_
      rw [fit?]
      split
      · exact .append _
      · cases hstrip : strip? literal.toList (text.drop offset) with
        | none => exact .failure
        | some rest =>
          have hrest : rest = text.drop (offset + literal.length) := by
            have hinput := strip?_eq_some_iff.1 hstrip
            rw [← List.drop_drop, hinput, ← String.length_toList, List.drop_left]
          rw [hrest]
          exact ih _
    | slot name =>
      cases more with
      | nil =>
        rw [search]
        refine hattempt [.slot name] offset before _ hmore ?_
        rw [fit?]
        split
        · exact .failure
        · exact .append _
      | cons next more =>
        cases next with
        | slot name' =>
          rw [search]
          refine hattempt (.slot name :: .slot name' :: more) offset before _ hmore ?_
          rw [fit?]
          exact .failure
        | text literal =>
          rw [search]
          refine hattempt (.slot name :: .text literal :: more) offset before _ hmore ?_
          rw [fit?_slot]
          refine .get_bind fun failures => (Answers.slotEnds name ih offset).or fun _ => ?_
          split
          · exact .append _
          · exact .failure

/-- Segments are as good as how many of them are left. -/
theorem searchFrom_of_suffix (attempt : Attempt) (hmore : more <:+ segments) (text : List Char) (offset : Nat) :
    searchFrom attempt segments text (segments.length - more.length) offset =
      search attempt (decide (more.length < segments.length)) more offset (text.drop offset) := by
  rw [searchFrom, ← List.suffix_iff_eq_drop.1 hmore]
  congr 1
  exact decide_eq_decide.2 Nat.sub_pos_iff_lt

/-- Behind the last segment there is nothing to fit, wherever that is. -/
theorem searchFrom_min (attempt : Attempt) (segments : List Segment) (text : List Char) (seg offset : Nat) :
    searchFrom attempt segments text seg offset =
      searchFrom attempt segments text (min seg segments.length) offset := by
  rcases Nat.le_total seg segments.length with h | h
  · rw [Nat.min_eq_left h]
  · rw [Nat.min_eq_right h, searchFrom, searchFrom, List.drop_of_length_le h, List.drop_length, search, search]

/-- A search that remembers nothing has the success of fitting, and leaves the table as it was. -/
theorem run_forgetful (hmore : more <:+ segments) (text : List Char) (offset : Nat) (s : Search) :
    (searchFrom forgetful segments text (segments.length - more.length) offset).run s =
      let result := fit? (decide (more.length < segments.length)) more (text.drop offset)
      (result.isSome, ⟨s.failures, s.captures ++ result.getD []⟩) := by
  have htransparent : Transparent (· = s.failures) segments text forgetful := fun _ _ _ _ _ h => h
  obtain ⟨failures, rfl, hrun⟩ := answers_search htransparent hmore offset s.captures s.failures rfl
  rw [searchFrom_of_suffix forgetful hmore]
  exact hrun

/-! ## Sound tables -/

/-- A search that remembers nothing fails where the table says so: with the last `left` segments, behind `offset`
characters. -/
def Sound (segments : List Segment) (text : List Char) (failures : Failures) : Prop :=
  ∀ left offset, failures.contains (left, offset) = true →
    ((searchFrom forgetful segments text (segments.length - left) offset).run ⟨∅, []⟩).1 = false

/-- No failures are remembered at first, so that all that are remembered are sound. -/
theorem sound_empty (segments : List Segment) (text : List Char) : Sound segments text ∅ := by
  intro left offset h
  rw [Std.HashSet.contains_empty] at h
  cases h

/-- Where a sound table says so, nothing fits. -/
theorem Sound.fit?_eq_none {failures : Failures} (h : Sound segments text failures) (hmore : more <:+ segments)
    (hcontains : failures.contains (more.length, offset) = true) :
    fit? (decide (more.length < segments.length)) more (text.drop offset) = none := by
  have hfails := h more.length offset hcontains
  rw [run_forgetful hmore] at hfails
  exact Option.isSome_eq_false_iff.1 hfails |> Option.isNone_iff_eq_none.1

/-- Where nothing fits, a sound table may say so. -/
theorem Sound.insert {failures : Failures} (h : Sound segments text failures) (hmore : more <:+ segments)
    (hnone : fit? (decide (more.length < segments.length)) more (text.drop offset) = none) :
    Sound segments text (failures.insert (more.length, offset)) := by
  intro left offset' hcontains
  rw [Std.HashSet.contains_insert, Bool.or_eq_true] at hcontains
  rcases hcontains with heq | hcontains
  · obtain ⟨rfl, rfl⟩ := Prod.mk.inj (beq_iff_eq.1 heq)
    rw [run_forgetful hmore, hnone]
    rfl
  · exact h left offset' hcontains

/-- **Remembering failures changes no answer,** as long as only failures are remembered. -/
theorem transparent_remembering (segments : List Segment) (text : List Char) :
    Transparent (Sound segments text) segments text remembering :=
  fun _ _ _ _ hmore h => h.remembering (fun _ hfailures => hfailures.fit?_eq_none hmore)
    fun hnone _ hfailures => hfailures.insert hmore hnone

/-- **Remembered failures change nothing:** from any segment and any place on, behind any captures, and with any
sound table, a search comes to the same success and the same captures as one that remembers nothing.  It leaves a
sound table, and where it fails, the captures are those from before. -/
theorem remembering_changes_nothing (seg offset : Nat) {s : Search} (hsound : Sound segments text s.failures) :
    ∃ fitted captures failures,
      (searchFrom forgetful segments text seg offset).run s = (fitted, ⟨s.failures, captures⟩) ∧
      (searchFrom remembering segments text seg offset).run s = (fitted, ⟨failures, captures⟩) ∧
      Sound segments text failures ∧ (fitted = false → captures = s.captures) := by
  rw [searchFrom_min forgetful, searchFrom_min remembering]
  have hmore := List.drop_suffix (min seg segments.length) segments
  have hleft : segments.length - (segments.drop (min seg segments.length)).length = min seg segments.length := by
    rw [List.length_drop]
    omega
  obtain ⟨failures, hfailures, hrun⟩ := answers_search (transparent_remembering segments text) hmore offset
    s.captures s.failures hsound
  have hplain := run_forgetful hmore text offset s
  rw [← searchFrom_of_suffix remembering hmore, hleft] at hrun
  rw [hleft] at hplain
  refine ⟨_, _, failures, hplain, hrun, hfailures, fun hfitted => ?_⟩
  rw [Option.isNone_iff_eq_none.1 (Option.isSome_eq_false_iff.1 hfitted), Option.getD_none, List.append_nil]

/-- Two slots with a dash between them and a mark at the end. -/
def dashed : List Segment := [.slot "x", .text "-", .slot "y", .text "!"]

/-- With a table that knows that the first mark is not the last segment, which the search asks it, and behind a
capture of another search. -/
theorem remembering_changes_nothing_dashed :
    Sound dashed "a-b!c-d!".toList ((∅ : Failures).insert (1, 3)) ∧ ∃ failures,
      (searchFrom remembering dashed "a-b!c-d!".toList 0 0).run ⟨(∅ : Failures).insert (1, 3), [("w", "v")]⟩ =
        (true, ⟨failures, [("w", "v"), ("x", "a"), ("y", "b!c-d")]⟩) ∧ Sound dashed "a-b!c-d!".toList failures := by
  have hsound : Sound dashed "a-b!c-d!".toList ((∅ : Failures).insert (1, 3)) := by
    have hmore : [.text "!"] <:+ dashed := ⟨[.slot "x", .text "-", .slot "y"], rfl⟩
    exact (sound_empty _ _).insert hmore (by decide)
  obtain ⟨fitted, captures, failures, hplain, hrun, hfailures, -⟩ :=
    remembering_changes_nothing 0 0 (s := ⟨(∅ : Failures).insert (1, 3), [("w", "v")]⟩) hsound
  have hfound : ∀ failures, (searchFrom forgetful dashed "a-b!c-d!".toList 0 0).run ⟨failures, [("w", "v")]⟩ =
      (true, ⟨failures, [("w", "v"), ("x", "a"), ("y", "b!c-d")]⟩) := fun _ => rfl
  obtain ⟨rfl, hcaptures⟩ := Prod.mk.inj ((hfound _).symm.trans hplain)
  obtain ⟨-, rfl⟩ := Search.mk.inj hcaptures
  exact ⟨hsound, failures, hrun, hfailures⟩

/-- **Fitting a whole text with remembered failures is fitting it.** -/
theorem fitText?_eq (segments : List Segment) (text : List Char) :
    fitText? segments text = fit? false segments text := by
  obtain ⟨failures, -, hrun⟩ := answers_search (transparent_remembering segments text) (List.suffix_refl segments) 0
    [] ∅ (sound_empty segments text)
  rw [decide_eq_false (Nat.lt_irrefl _), List.drop_zero] at hrun
  rw [fitText?, searchFrom, List.drop_zero, List.drop_zero, decide_eq_false (Nat.lt_irrefl 0), hrun]
  cases fit? false segments text <;> rfl

end Segment

end TypedData
