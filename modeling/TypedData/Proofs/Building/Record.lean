import TypedData.Proofs.Building.Sound
import TypedData.Proofs.Result

/-!
# Building records is sound

A constructor places its arguments at its fields, builds every field at the type that it declares, and
checks its conditions.  Where a condition has to wait, it and those after it are left to be checked, so
that each of them either holds or is left (`checked_of_checkRecord`).
-/

namespace TypedData

namespace Constructor

variable {α : Type} {ctor : Constructor} {P : α → Prop}

/-- An argument that is placed stands at its field, and everything else stays. -/
theorem placeAt_ok {index : Nat} {arg : α} {placed placed' : List (Option α)}
    (h : ctor.placeAt index arg placed = .ok placed') : placed' = placed.set index (some arg) := by
  unfold placeAt at h
  split at h
  · cases h
  · exact (Except.ok.inj h).symm

/-- What holds of all arguments holds of those that are placed one by one. -/
theorem forall_placeAt {index : Nat} {arg : α} {placed placed' : List (Option α)}
    (hplaced : ∀ a, some a ∈ placed → P a) (harg : P arg)
    (h : ctor.placeAt index arg placed = .ok placed') : ∀ a, some a ∈ placed' → P a := by
  intro a ha
  obtain rfl := placeAt_ok h
  rcases List.mem_or_eq_of_mem_set ha with ha | ha
  · exact hplaced a ha
  · exact Option.some.inj ha ▸ harg

/-- What holds of all arguments holds of those that are placed; there is a place for each field. -/
theorem placeFrom_ok {given : Nat} {placed' : List (Option α)} :
    {args : List (Argument α)} → {next : Nat} → {placed : List (Option α)} →
      (∀ a, some a ∈ placed → P a) → (∀ arg ∈ args, P arg.value) →
      ctor.placeFrom given next placed args = .ok placed' →
      (∀ a, some a ∈ placed' → P a) ∧ placed'.length = placed.length
  | [], _, _, hplaced, _, h => Except.ok.inj h ▸ ⟨hplaced, rfl⟩
  | ⟨none, arg⟩ :: args, next, placed, hplaced, hargs, h
  | ⟨some _, arg⟩ :: args, next, placed, hplaced, hargs, h => by
    obtain ⟨harg, hargs⟩ := List.forall_mem_cons.1 hargs
    rw [placeFrom] at h
    split at h
    · cases h
    · obtain ⟨placed₁, h₁, h⟩ := bind_eq_ok_iff.1 h
      obtain ⟨hP, hlen⟩ := placeFrom_ok (forall_placeAt hplaced harg h₁) hargs h
      rw [placeAt_ok h₁, List.length_set] at hlen
      exact ⟨hP, hlen⟩

/-- What holds of all arguments holds of those that are placed, and there is one place for each field. -/
theorem place_ok {args : List (Argument α)} {placed : List (Option α)}
    (hargs : ∀ arg ∈ args, P arg.value) (h : ctor.place args = .ok placed) :
    (∀ a, some a ∈ placed → P a) ∧ placed.length = ctor.fields.length := by
  have hnone : ∀ a, some a ∈ List.replicate ctor.fields.length none → P a := by
    intro a ha
    cases (List.mem_replicate.1 ha).2
  obtain ⟨hplaced, hlen⟩ := placeFrom_ok hnone hargs h
  exact ⟨hplaced, hlen.trans (List.length_replicate ..)⟩

end Constructor

/-! ## Conditions -/

/-- Each condition holds, or the checking has stopped before it. -/
theorem holds_of_checkConstraints {env : Environment} {ctor : String} {fields : List (Field Value)}
    {span : Span} {constraint : Constraint} {stop : Option (Nat × String)} :
    {constraints : List Constraint} → {position i : Nat} →
      checkConstraints env ctor fields span position constraints = .ok stop →
      constraints[i]? = some constraint →
      constraint.condition.check env = .ok true ∨
        ∃ done name, stop = some (done, name) ∧ done ≤ position + i
  | [], _, _, _, hi => nomatch hi
  | first :: constraints, position, i, h, hi => by
    rw [checkConstraints] at h
    split at h
    · rename_i hfirst
      cases i with
      | zero =>
        obtain rfl := Option.some.inj hi
        exact .inl hfirst
      | succ i =>
        rcases holds_of_checkConstraints h hi with hok | ⟨done, name, hstop, hle⟩
        · exact .inl hok
        · exact .inr ⟨done, name, hstop, by omega⟩
    · cases h
    · exact .inr ⟨position, _, (Except.ok.inj h).symm, Nat.le_add_right ..⟩
    · cases h

/-- If every condition holds, the checking does not stop. -/
theorem checkConstraints_of_holds {env : Environment} {ctor : String} {fields : List (Field Value)}
    {span : Span} : {constraints : List Constraint} → {position : Nat} →
      (∀ constraint ∈ constraints, constraint.condition.check env = .ok true) →
      checkConstraints env ctor fields span position constraints = .ok none
  | [], _, _ => rfl
  | constraint :: constraints, position, h => by
    obtain ⟨hfirst, hrest⟩ := List.forall_mem_cons.1 h
    rw [checkConstraints, hfirst]
    exact checkConstraints_of_holds hrest

/-! ## Verdicts -/

namespace Failure

/-- The failure is a verdict on values: a value is not of its type, a condition does not hold, or it cannot be
evaluated for another reason than that a binding has no value. -/
def IsVerdict : Failure → Prop
  | type e => ∃ expected found, e.problem = .mismatch expected found
  | constraint _ => True
  | evaluation fault => ∀ name, fault.problem ≠ .unavailable name
  | _ => False

/-- A verdict is no failure of a reference. -/
theorem IsVerdict.ne_reference {e : Failure} (h : e.IsVerdict) (problem : ReferenceError) :
    e ≠ .reference problem := by
  rintro rfl
  exact h

/-- A verdict is not that a text is taken apart without end. -/
theorem IsVerdict.ne_endless {e : Failure} (h : e.IsVerdict) (text : String) (span : Span) :
    e ≠ .endless text span := by
  rintro rfl
  exact h

end Failure

/-- Checking conditions fails by a verdict only. -/
theorem isVerdict_of_checkConstraints {env : Environment} {ctor : String} {fields : List (Field Value)}
    {span : Span} {e : Failure} : (constraints : List Constraint) → (position : Nat) →
      checkConstraints env ctor fields span position constraints = .error e → e.IsVerdict
  | [], _, h => by cases h
  | constraint :: constraints, position, h => by
    rw [checkConstraints] at h
    split at h
    · exact isVerdict_of_checkConstraints constraints (position + 1) h
    · obtain rfl := Except.error.inj h
      trivial
    · cases h
    · rename_i fault hnever _
      obtain rfl := Except.error.inj h
      intro name hname
      exact hnever name fault.span (hname ▸ rfl)

namespace Scene

variable {scene : Scene} {p q : Progress}

/-- **Checking a record checks all its conditions,** if what had to wait is left to be checked. -/
theorem checked_of_checkRecord {ctor : Constructor} {fields : List (Field Value)} {span : Span}
    {stop : Option (Nat × String)} (h : scene.checkRecord p ctor.name fields 0 span = .ok stop)
    (hpq : p.Grows q)
    (hstop : ∀ done name, stop = some (done, name) →
      ⟨ctor.name, fields, done, span⟩ ∈ q.constraints) :
    scene.Checked q ctor fields := by
  intro i constraint hi
  rw [checkRecord, List.drop_zero] at h
  rcases holds_of_checkConstraints h hi with hok | ⟨done, name, hdone, hle⟩
  · have hext := recordEnvironment_extends hpq.keeps (Nat.le_refl scene.hops) fields
    exact .inl ((constraint.condition.check_agrees hext).eq_of_ok hok)
  · rw [Nat.zero_add] at hle
    exact .inr ⟨_, hstop done name hdone, rfl, rfl, hle⟩

/-! ## Fields -/

/-- The step builds values of every type that may be expected. -/
def Fits (scene : Scene) (build : Ty → Build Value) : Prop :=
  ∀ t p, scene.Ensures p (build t) fun v q => scene.Built q t v

/-- The fields are as they are declared: their names, and values that were built at their types. -/
def FieldsBuilt (scene : Scene) (p : Progress) (names : List (Option String)) (types : List Ty)
    (fields : List (Field Value)) : Prop :=
  fields.map Field.name = names ∧
  ∀ (i : Nat) (f : Field Value) (u : Ty), fields[i]? = some f → types[i]? = some u →
    scene.Built p u f.value

/-- A field is built for its type: from its argument, or as null where it may be left out. -/
theorem ensures_buildField {ctor : Constructor} {span : Span} {index : Nat} {name : Option String}
    {type : Ty} {arg : Option (Ty → Build Value)} (harg : ∀ build, arg = some build → scene.Fits build) :
    scene.Ensures p (buildField ctor span index name type arg) fun f q =>
      f.name = name ∧ scene.Built q type f.value := by
  unfold buildField
  split
  · rename_i build
    exact (harg build rfl type p).bind fun v q _ hv => .pure ⟨rfl, hv⟩
  · split
    · rename_i ht
      exact .pure ⟨rfl, .null (.inl ht)⟩
    · exact .throw

/-- All fields are built for their types. -/
theorem ensures_buildFields {ctor : Constructor} {span : Span} :
    {names : List (Option String)} → {types : List Ty} → {args : List (Option (Ty → Build Value))} →
      {index : Nat} → {p : Progress} → types.length = names.length → args.length = names.length →
      (∀ build, some build ∈ args → scene.Fits build) →
      scene.Ensures p (buildFields ctor span index names types args) fun fields q =>
        scene.FieldsBuilt q names types fields
  | [], [], [], _, _, _, _, _ => .pure ⟨rfl, nofun⟩
  | name :: names, type :: types, arg :: args, index, p, htypes, hargs, hfits => by
    have harg : ∀ build, arg = some build → scene.Fits build :=
      fun build hbuild => hfits build (hbuild ▸ List.mem_cons_self ..)
    rw [buildFields]
    refine (ensures_buildField harg).bind fun field q _ hfield => ?_
    obtain ⟨hname, hvalue⟩ := hfield
    refine (ensures_buildFields (Nat.succ.inj htypes) (Nat.succ.inj hargs) fun build hbuild =>
      hfits build (List.mem_cons_of_mem _ hbuild)).bind fun fields r hqr hfields => .pure ?_
    obtain ⟨hnames, hvalues⟩ := hfields
    refine ⟨by rw [List.map_cons, hname, hnames], fun i f u hf hu => ?_⟩
    cases i with
    | zero =>
      obtain rfl := Option.some.inj hf
      obtain rfl := Option.some.inj hu
      exact hvalue.mono hqr.grows
    | succ i => exact hvalues i f u hf hu

/-! ## Construction -/

/-- A constructor builds its record at arguments that the type accepts. -/
theorem ensures_typeArguments {ctor : Constructor} {t : Ty} {span : Span} :
    scene.Ensures p (typeArguments ctor t span) fun args _ => Accepts t ctor args := by
  unfold typeArguments
  split
  · split
    · rename_i hname
      exact .pure (.inl (hname ▸ rfl))
    · exact .throw
  · exact .pure (.inr ⟨rfl, rfl⟩)
  · exact .pure (.inr ⟨rfl, rfl⟩)
  · exact .throw

/-- When the conditions on a record have been checked, they are as they were found to be, and stay so when building
goes on. -/
theorem ensures_checkRecord (scene : Scene) (p : Progress) (ctor : String)
    (fields : List (Field Value)) (span : Span) :
    scene.Ensures p (Build.ofExcept (scene.checkRecord p ctor fields 0 span)) fun stop q =>
      scene.checkRecord p ctor fields 0 span = .ok stop ∧ p.Grows q :=
  .ofExcept fun _ hstop => ⟨hstop, .refl p⟩

/-- A step that builds values of a type, which are no references. -/
def Builds (scene : Scene) (t : Ty) (m : Build Value) : Prop :=
  ∀ p, scene.Ensures p m fun v q => scene.Built q t v ∧ v.isReference = false

/-- **Construction is sound.**  From sound arguments a constructor builds a record of its type, with
its fields, and with all its conditions checked or left to be checked. -/
theorem builds_construct {ctorName : String} {args : List BuildArgument} {expected : Ty} {span : Span}
    (hargs : ∀ arg ∈ args, scene.Fits arg.value) :
    scene.Builds expected (scene.construct ctorName args expected span) := by
  intro p
  unfold construct
  split
  · exact .throw
  · rename_i ctor hctor
    have hctor : scene.registry.constructor? ctor.name = some ctor :=
      (Registry.name_of_constructor? hctor).symm ▸ hctor
    refine ensures_typeArguments.bind fun typeArgs p₁ _ haccepts => ?_
    split
    · exact .throw
    · rename_i placed hplaced
      obtain ⟨hfits, hlen⟩ := Constructor.place_ok (P := scene.Fits) hargs hplaced
      have htypes := Registry.length_fieldTypes scene.registry ctor typeArgs
      rw [← List.length_map FieldSpec.name] at htypes hlen
      refine (ensures_buildFields htypes hlen hfits).bind fun fields p₂ _ hfields => ?_
      refine .get_bind (.bind (ensures_checkRecord scene p₂ ctor.name fields span) ?_)
      rintro stop p₃ _ ⟨hstop, hp₃⟩
      -- Whether or not a condition had to wait, what comes after the checking is the same.
      have hbuilt : ∀ q, p₃.Extends q →
          (∀ done name, stop = some (done, name) →
            ⟨ctor.name, fields, done, span⟩ ∈ q.constraints) →
          scene.Built q expected (.record (some ctor.typeName) (some ctor.name) fields) := by
        intro q hq hleft
        have hgrows : p₂.Grows q := hp₃.trans hq.grows
        have hchecked := checked_of_checkRecord hstop hgrows hleft
        refine .record hctor haccepts hfields.1 ?_ hchecked
        intro i f u hf hu
        exact (hfields.2 i f u hf hu).mono hgrows
      split
      · rename_i done name
        refine (Ensures.deferConstraints _).bind fun _ q hq hmem => .pure ⟨hbuilt q hq ?_, rfl⟩
        intro done' name' h
        obtain ⟨rfl, rfl⟩ := Prod.mk.inj (Option.some.inj h)
        exact hmem
      · refine .pure ⟨hbuilt p₃ (.refl p₃) ?_, rfl⟩
        intro done name h; cases h

end Scene

end TypedData
