import TypedData.Proofs.Rule.Captures

/-!
# Texts that a rule accepts

Where a rule accepts a text, its captures are right (`Rule.captures_of_match?`): they name the slots of the template
one after another, they take the text apart as the template demands, and all guards hold of them.
-/

namespace TypedData

namespace Segment

variable {segments : List Segment} {text : List Char} {inside : Bool} {captures : Captures}

/-- The slots of an omitted tail have their names. -/
theorem map_fst_emptyCaptures (segments : List Segment) : (emptyCaptures segments).map Prod.fst = slots segments := by
  rw [emptyCaptures, slots, List.map_filterMap]
  refine congrArg (List.filterMap · segments) (funext fun segment => ?_)
  cases segment <;> rfl

/-- What fits names every slot once, in the order of the segments. -/
theorem Fits.map_fst (h : Fits inside segments text captures) : captures.map Prod.fst = slots segments := by
  induction h with
  | done => rfl
  | omitted => exact map_fst_emptyCaptures _
  | text _ _ ih => exact ih
  | slot name _ _ ih => exact congrArg (name :: ·) ih

end Segment

namespace Rule

open Segment (TakesApart)

variable {registry : Registry} {index : Nat} {decl : RuleDecl} {rule : Rule} {text : List Char} {captures : Captures}

/-- A guard accepts captures if it can be evaluated and holds. -/
theorem accepts_iff {guard : Expr} :
    accepts captures guard = true ↔ guard.check (environment captures) = .ok true := by
  unfold accepts
  cases guard.check (environment captures) with
  | error fault => exact iff_of_false Bool.false_ne_true (by rintro ⟨⟩)
  | ok holds => exact Except.ok.injEq _ _ ▸ Iff.rfl

/-- A rule accepts a text that fits its template, if all guards hold. -/
theorem match?_eq_some_iff : rule.match? text = some captures ↔
    Segment.fitText? rule.segments text = some captures ∧
      ∀ guard ∈ rule.guards, guard.check (environment captures) = .ok true := by
  rw [match?, Option.filter_eq_some_iff, List.all_eq_true]
  simp only [accepts_iff]

/-- **The captures of a rule are right.**  They name every slot of the template once, in its order, and take the text
apart: put for the slots, they make a first part of the segments spell the text, none of them empty, and the other
segments are none, or a tail that may be left out, whose slots are empty.  All guards hold of them. -/
theorem captures_of_match? (h : ofDecl registry index decl = .ok rule) (hmatch : rule.match? text = some captures) :
    captures.map Prod.fst = decl.template.slots ∧ decl.template.slots.Nodup ∧
      TakesApart rule.segments text captures ∧
      ∀ guard ∈ decl.guards, guard.check (environment captures) = .ok true := by
  obtain ⟨hslots, hnodup⟩ := slots_of_ofDecl h
  obtain ⟨hfit, hguards⟩ := match?_eq_some_iff.1 hmatch
  rw [(of_ofDecl h).2] at hguards
  rw [Segment.fitText?_eq] at hfit
  have hfits := Segment.fits_of_fit? hfit
  exact ⟨hfits.map_fst.trans hslots, hnodup, Segment.takesApart_iff.2 hfits, hguards⟩

/-- The rule that accepts a text is one of the rules, and it does accept the text. -/
theorem of_firstMatch? {rules : List Rule} {text : String} {found : RuleMatch}
    (h : firstMatch? rules text = some found) :
    found.rule ∈ rules ∧ found.rule.match? text.toList = some found.captures := by
  obtain ⟨rule, hmem, hfound⟩ := List.exists_of_findSome?_eq_some h
  obtain ⟨captures, hmatch, rfl⟩ := Option.map_eq_some_iff.1 hfound
  exact ⟨hmem, hmatch⟩

/-- The first rule that matches is one of the rules, matches the text, and is for the type. -/
theorem of_firstMatchFor? {typeName : String} {rules : List Rule} {text : String} {found : RuleMatch}
    (h : firstMatchFor? typeName rules text = some found) : found.rule ∈ rules ∧
      found.rule.match? text.toList = some found.captures ∧ found.rule.typeName = typeName := by
  obtain ⟨hmem, hmatch⟩ := of_firstMatch? h
  obtain ⟨hmem, hname⟩ := List.mem_filter.1 hmem
  exact ⟨hmem, hmatch, beq_iff_eq.1 hname⟩

/-- What a rule captures is shorter than the text, if its template takes something off the text. -/
theorem length_lt_of_match? (hregular : Segment.Regular rule.segments) (hsheds : Segment.sheds rule.segments = true)
    (hmatch : rule.match? text = some captures) : ∀ c ∈ captures, c.2.length < text.length := by
  have hfit := (match?_eq_some_iff.1 hmatch).1
  rw [Segment.fitText?_eq] at hfit
  exact (Segment.takesApart_iff.2 (Segment.fits_of_fit? hfit)).length_lt hregular hsheds

/-- A rule for amounts, whose unit may be left out. -/
def amount : RuleDecl where
  template := ⟨[.slot "n", .text " ", .slot "unit"]⟩
  target := .call .zero "amount" [⟨some "n", .name .zero "n"⟩, ⟨some "unit", .name .zero "unit"⟩]
  guards := [.binary .zero .ne (.name .zero "n") (.str .zero "0")]
  span := .zero

/-- An amount without its unit is matched, with an empty capture for the unit. -/
theorem captures_of_match?_amount : ∃ rule, ofDecl (registryOf "amount") 0 amount = .ok rule ∧
    rule.match? "12".toList = some [("n", "12"), ("unit", "")] ∧
    [("n", "12"), ("unit", "")].map Prod.fst = amount.template.slots ∧ amount.template.slots.Nodup ∧
    TakesApart rule.segments "12".toList [("n", "12"), ("unit", "")] ∧
    ∀ guard ∈ amount.guards, guard.check (environment [("n", "12"), ("unit", "")]) = .ok true := by
  have hrule : ofDecl (registryOf "amount") 0 amount = .ok ⟨[.slot "n", .text " ", .slot "unit"],
      amount.target, "amount", "amount", amount.guards, 0, .zero⟩ := rfl
  have hmatch : match? ⟨[.slot "n", .text " ", .slot "unit"], amount.target, "amount", "amount", amount.guards, 0,
      .zero⟩ "12".toList = some [("n", "12"), ("unit", "")] := by
    refine match?_eq_some_iff.2 ⟨?_, ?_⟩
    · rw [Segment.fitText?_eq]
      decide
    · exact List.forall_mem_singleton.2 rfl
  exact ⟨_, hrule, hmatch, captures_of_match? hrule hmatch⟩

end Rule

end TypedData
