import TypedData.Proofs.Result
import TypedData.Proofs.Rule.Fitting
import TypedData.Rule

/-!
# The segments of a template

A template is made into segments piece by piece.  Each piece is left out, is joined to the segment before, or makes
a segment of its own (`Rule.Adds`); a stray brace, a slot without a name, a slot behind a slot and a second slot of
one name are refused.

So the segments of a rule are literals and slots in turn (`Rule.regular_of_ofDecl`), and their slots are those of
the template, each of which has a name of its own (`Rule.slots_of_ofDecl`).
-/

namespace TypedData

/-- The names of the slots of a template, in the order of the template. -/
def Template.slots (t : Template) : List String :=
  t.pieces.filterMap fun | .slot name => some name | _ => none

namespace Segment

variable {segments : List Segment}

/-- The names of the slots among the segments, in their order. -/
def slots (segments : List Segment) : List String :=
  segments.filterMap fun | slot name => some name | text _ => none

/-- A literal is no slot. -/
@[simp] theorem slots_text (literal : String) (segments : List Segment) :
    slots (.text literal :: segments) = slots segments := rfl

/-- A slot is the first of the slots. -/
@[simp] theorem slots_slot (name : String) (segments : List Segment) :
    slots (.slot name :: segments) = name :: slots segments := rfl

/-- The slots of reversed segments are the slots in reverse. -/
theorem slots_reverse (segments : List Segment) : slots segments.reverse = (slots segments).reverse :=
  List.filterMap_reverse

/-- A name is among the slots when a slot has it. -/
theorem mem_slots_iff {name : String} : name ∈ slots segments ↔ .slot name ∈ segments := by
  induction segments with
  | nil => simp [slots]
  | cons segment segments ih => cases segment <;> simp [ih]

/-- The empty list of segments is regular. -/
theorem Regular.nil : Regular [] := ⟨.nil, fun _ h => absurd h List.not_mem_nil⟩

/-- Regular segments stay so behind a segment of the other kind that is no empty literal. -/
theorem Regular.cons {segment : Segment} (h : Regular segments)
    (hnext : ∀ next ∈ segments.head?, segment.isSlot ≠ next.isSlot)
    (hliteral : ∀ literal, segment = .text literal → literal ≠ "") : Regular (segment :: segments) := by
  refine ⟨h.alternates.cons hnext, fun literal hmem => ?_⟩
  rcases List.mem_cons.1 hmem with hmem | hmem
  · exact hliteral literal hmem.symm
  · exact h.nonempty literal hmem

/-- Regular segments stay so in reverse. -/
theorem Regular.reverse (h : Regular segments) : Regular segments.reverse := by
  refine ⟨List.isChain_reverse.2 (h.alternates.imp fun _ _ => Ne.symm), fun literal hmem => ?_⟩
  exact h.nonempty literal (List.mem_reverse.1 hmem)

end Segment

namespace Rule

open Segment (Regular)

/-! ## Pieces -/

variable {before before' segments : List Segment} {piece : Piece} {pieces : List Piece}

/-- What a piece adds to the segments of the pieces before it, which stand in reverse. -/
inductive Adds : List Segment → Piece → List Segment → Prop
  | empty {before : List Segment} : Adds before (.text "") before
  | joined {before : List Segment} {previous t : String} :
      t ≠ "" → Adds (.text previous :: before) (.text t) (.text (previous ++ t) :: before)
  | text {before : List Segment} {t : String} :
      t ≠ "" → (∀ next ∈ before.head?, next.isSlot = true) → Adds before (.text t) (.text t :: before)
  | slot {before : List Segment} {name : String} :
      name ≠ "" → (∀ next ∈ before.head?, next.isSlot = false) → .slot name ∉ before →
        Adds before (.slot name) (.slot name :: before)

/-- A template is made into segments one piece after another. -/
theorem exists_adds_of_segmentsFrom (h : segmentsFrom before (piece :: pieces) = .ok segments) :
    ∃ before', Adds before piece before' ∧ segmentsFrom before' pieces = .ok segments := by
  cases piece with
  | stray => cases h
  | text t =>
    rw [segmentsFrom.eq_def] at h
    dsimp only at h
    split at h
    · rename_i hempty
      obtain rfl := String.isEmpty_iff.1 hempty
      exact ⟨before, .empty, h⟩
    · rename_i hempty
      have hne : t ≠ "" := fun hnil => hempty (String.isEmpty_iff.2 hnil)
      cases before with
      | nil => exact ⟨_, .text hne (by rintro _ ⟨⟩), h⟩
      | cons segment before =>
        cases segment with
        | slot => exact ⟨_, .text hne (by rintro _ ⟨⟩; rfl), h⟩
        | text previous => exact ⟨_, .joined hne, h⟩
  | slot name =>
    rw [segmentsFrom.eq_def] at h
    dsimp only at h
    split at h
    · cases h
    · rename_i hempty
      have hname : name ≠ "" := fun hnil => hempty (String.isEmpty_iff.2 hnil)
      split at h
      · cases h
      · rename_i hslot
        split at h
        · cases h
        · rename_i hcontains
          refine ⟨_, .slot hname (fun next hnext => ?_) fun hmem => hcontains (List.contains_iff_mem.2 hmem), h⟩
          cases next with
          | text => rfl
          | slot name' =>
            obtain ⟨tail, rfl⟩ := List.head?_eq_some_iff.1 (Option.mem_def.1 hnext)
            exact absurd rfl (hslot name' tail)

namespace Adds

/-- Literals are joined, empty ones dropped, and slots that meet are refused. -/
theorem regular (h : Adds before piece before') (hbefore : Regular before) : Regular before' := by
  cases h with
  | empty => exact hbefore
  | joined hne =>
    refine hbefore.tail.cons (List.isChain_cons.1 hbefore.alternates).1 ?_
    rintro _ ⟨⟩ hnil
    exact hne (String.append_eq_empty_iff.1 hnil).2
  | text hne hnext =>
    refine hbefore.cons (fun next hmem => ?_) (by rintro _ ⟨⟩; exact hne)
    rw [hnext next hmem]
    exact Bool.false_ne_true
  | slot _ hnext =>
    refine hbefore.cons (fun next hmem => ?_) (by rintro _ ⟨⟩)
    rw [hnext next hmem]
    exact Bool.false_ne_true.symm

/-- A slot of the template is a slot of its segments, and there are no others. -/
theorem slots (h : Adds before piece before') (pieces : List Piece) :
    (Segment.slots before').reverse ++ Template.slots ⟨pieces⟩ =
      (Segment.slots before).reverse ++ Template.slots ⟨piece :: pieces⟩ := by
  cases h with
  | empty | joined | text => rfl
  | slot =>
    rw [Segment.slots_slot, List.reverse_cons, List.append_assoc]
    rfl

/-- No two slots have one name. -/
theorem nodup (h : Adds before piece before') (hbefore : (Segment.slots before).Nodup) :
    (Segment.slots before').Nodup := by
  cases h with
  | empty | joined | text => exact hbefore
  | slot _ _ hnew => exact List.nodup_cons.2 ⟨fun hmem => hnew (Segment.mem_slots_iff.1 hmem), hbefore⟩

end Adds

/-- The segments of a template are regular. -/
theorem regular_of_segmentsFrom (h : segmentsFrom before pieces = .ok segments) (hbefore : Regular before) :
    Regular segments := by
  induction pieces generalizing before with
  | nil => exact Except.ok.inj h ▸ hbefore.reverse
  | cons piece pieces ih =>
    obtain ⟨before', hadds, h⟩ := exists_adds_of_segmentsFrom h
    exact ih h (hadds.regular hbefore)

/-- The slots of a template are those of its pieces, in order. -/
theorem slots_of_segmentsFrom (h : segmentsFrom before pieces = .ok segments) :
    Segment.slots segments = (Segment.slots before).reverse ++ Template.slots ⟨pieces⟩ := by
  induction pieces generalizing before with
  | nil =>
    obtain rfl := Except.ok.inj h
    exact (Segment.slots_reverse before).trans (List.append_nil _).symm
  | cons piece pieces ih =>
    obtain ⟨before', hadds, h⟩ := exists_adds_of_segmentsFrom h
    rw [ih h, hadds.slots]

/-- No two slots of a template have the same name. -/
theorem nodup_of_segmentsFrom (h : segmentsFrom before pieces = .ok segments)
    (hbefore : (Segment.slots before).Nodup) : (Segment.slots segments).Nodup := by
  induction pieces generalizing before with
  | nil =>
    obtain rfl := Except.ok.inj h
    rw [Segment.slots_reverse]
    exact (List.reverse_perm _).nodup_iff.2 hbefore
  | cons piece pieces ih =>
    obtain ⟨before', hadds, h⟩ := exists_adds_of_segmentsFrom h
    exact ih h (hadds.nodup hbefore)

/-! ## Rules -/

variable {registry : Registry} {index : Nat} {decl : RuleDecl} {rule : Rule}

/-- A rule passes a check of its template when the template passes it. -/
theorem atRule_eq_ok_iff {α : Type} {span : Span} {x : Except TemplateProblem α} {a : α} :
    atRule span x = .ok a ↔ x = .ok a := by
  cases x with
  | error problem => exact iff_of_false (by rintro ⟨⟩) (by rintro ⟨⟩)
  | ok b => rw [atRule, Except.ok.injEq, Except.ok.injEq]

/-- What a declaration is when it makes a rule, and what the rule is. -/
theorem exists_of_ofDecl (h : ofDecl registry index decl = .ok rule) : ∃ targetSpan ctorName args ctor,
    segmentsFrom [] decl.template.pieces = .ok rule.segments ∧ decl.target = .call targetSpan ctorName args ∧
    registry.constructor? ctorName = some ctor ∧
    checkNames registry rule.segments ((decl.target :: decl.guards).flatMap Expr.freeNames) = .ok () ∧
    rule = ⟨rule.segments, decl.target, ctorName, ctor.typeName, decl.guards, index, decl.span⟩ := by
  obtain ⟨segments, hsegments, h⟩ := bind_eq_ok_iff.1 h
  split at h
  · rename_i targetSpan ctorName args htarget
    split at h
    · cases h
    · rename_i ctor hctor
      obtain ⟨_, hnames, h⟩ := bind_eq_ok_iff.1 h
      obtain rfl := Except.ok.inj h
      exact ⟨targetSpan, ctorName, args, ctor, atRule_eq_ok_iff.1 hsegments, htarget, hctor,
        atRule_eq_ok_iff.1 hnames, rfl⟩
  · cases h

/-- The segments of a rule are those of its template, and its guards are those of its declaration. -/
theorem of_ofDecl (h : ofDecl registry index decl = .ok rule) :
    segmentsFrom [] decl.template.pieces = .ok rule.segments ∧ rule.guards = decl.guards := by
  obtain ⟨_, _, _, _, hsegments, -, -, -, hrule⟩ := exists_of_ofDecl h
  exact ⟨hsegments, congrArg Rule.guards hrule⟩

/-- The segments of a rule that is compiled are regular. -/
theorem regular_of_ofDecl (h : ofDecl registry index decl = .ok rule) : Regular rule.segments :=
  regular_of_segmentsFrom (of_ofDecl h).1 .nil

/-- The slots of a rule are those of its template, and each has a name of its own. -/
theorem slots_of_ofDecl (h : ofDecl registry index decl = .ok rule) :
    Segment.slots rule.segments = decl.template.slots ∧ decl.template.slots.Nodup := by
  have hslots : Segment.slots rule.segments = decl.template.slots := slots_of_segmentsFrom (of_ofDecl h).1
  exact ⟨hslots, hslots ▸ nodup_of_segmentsFrom (of_ofDecl h).1 .nil⟩

end Rule

end TypedData
