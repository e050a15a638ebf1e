import TypedData.Proofs.Condition.Extension

/-!
# Checking early

The conditions on a record are checked as soon as the record is there, when some bindings may have no value
yet, and what waits for one of them is left for the end.  This is sound since a condition that does not wait
has the result, or the fault, that it would have at the end (`Expr.same_later`): not one reference that it
met was without a value, and what it skipped it skips again.

So the conditions on a record may be checked in two parts: the first up to the first one that waits, and
the rest when all bindings are finished (`Scene.checkRecord_resume`).
-/

namespace TypedData

namespace Expr

/-- **Checking early agrees with checking late.**  What does not wait in a store of values is the same in every
store that has these values and perhaps more. -/
theorem same_later {root root' : Nat → Option Value} (hroot : Value.Keeps root root') {hops hops' : Nat}
    (hhops : hops ≤ hops') (fields : List (Field Value)) (e : Expr) :
    (¬ Waits (e.eval (recordEnvironment root hops fields)) →
      e.eval (recordEnvironment root' hops' fields) = e.eval (recordEnvironment root hops fields)) ∧
    (¬ Waits (e.check (recordEnvironment root hops fields)) →
      e.check (recordEnvironment root' hops' fields) = e.check (recordEnvironment root hops fields)) := by
  have hextends : (recordEnvironment root hops fields).Extends (recordEnvironment root' hops' fields) :=
    recordEnvironment_extends hroot hhops fields
  exact ⟨(e.eval_agrees hextends).resolve_left, (e.check_agrees hextends).resolve_left⟩

/-- A store with a first binding, `{x: "a"}`, and perhaps a second one. -/
def nearStore (far : Option Value) : Nat → Option Value
  | 0 => some (.record none none [⟨some "x", .str "a"⟩])
  | 1 => far
  | _ => none

/-- References to the two bindings. -/
def nearFields : List (Field Value) := [⟨some "near", .ref ⟨0, "n", []⟩⟩, ⟨some "far", .ref ⟨1, "f", []⟩⟩]

/-- The condition `near.x == "a" or far.x`. -/
def nearCondition : Expr :=
  .binary .zero .or (.binary .zero .eq (.field .zero (.name .zero "near") "x") (.str .zero "a"))
    (.field .zero (.name .zero "far") "x")

/-- A condition over a store in which one binding is not finished, and which does not wait for it. -/
theorem nearCondition_same_later :
    (Value.Keeps (nearStore none) (nearStore (some (.str "b"))) ∧
        ¬ Waits (nearCondition.eval (recordEnvironment (nearStore none) 1 nearFields)) ∧
        ¬ Waits (nearCondition.check (recordEnvironment (nearStore none) 1 nearFields))) ∧
      nearCondition.eval (recordEnvironment (nearStore (some (.str "b"))) 2 nearFields) = .ok (.bool true) ∧
      nearCondition.check (recordEnvironment (nearStore (some (.str "b"))) 2 nearFields) = .ok true := by
  have hkeeps : Value.Keeps (nearStore none) (nearStore (some (.str "b"))) := by
    rintro (_ | _ | b) v hv
    · exact hv
    · cases hv
    · cases hv
  have heval : nearCondition.eval (recordEnvironment (nearStore none) 1 nearFields) = .ok (.bool true) := rfl
  have hcheck : nearCondition.check (recordEnvironment (nearStore none) 1 nearFields) = .ok true := rfl
  have hsettled : ¬ Waits (nearCondition.eval (recordEnvironment (nearStore none) 1 nearFields)) := by
    rintro ⟨name, span, hwaits⟩
    cases heval.symm.trans hwaits
  have hchecked : ¬ Waits (nearCondition.check (recordEnvironment (nearStore none) 1 nearFields)) := by
    rintro ⟨name, span, hwaits⟩
    cases hcheck.symm.trans hwaits
  obtain ⟨hlater, hlater'⟩ := same_later hkeeps (Nat.le_succ 1) nearFields nearCondition
  exact ⟨⟨hkeeps, hsettled, hchecked⟩, (hlater hsettled).trans heval, (hlater' hchecked).trans hcheck⟩

end Expr

/-! ## The conditions on a record -/

section Record

variable {env env' : Environment} {ctor : String} {fields : List (Field Value)} {span : Span}

/-- If no condition on a record waits, checking them again later comes to the same. -/
theorem checkConstraints_eq_later (h : env.Extends env') : {constraints : List Constraint} → {position : Nat} →
    (∀ stop, checkConstraints env ctor fields span position constraints ≠ .ok (some stop)) →
      checkConstraints env' ctor fields span position constraints =
        checkConstraints env ctor fields span position constraints
  | [], _, _ => rfl
  | constraint :: constraints, position, hdone => by
    rw [checkConstraints] at hdone
    rw [checkConstraints, checkConstraints]
    rcases constraint.condition.check_agrees h with ⟨name, faultSpan, hwaits⟩ | hsame
    · rw [hwaits] at hdone
      exact absurd rfl (hdone _)
    · rw [hsame]
      split
      · rename_i hholds
        rw [hholds] at hdone
        exact checkConstraints_eq_later h hdone
      · rfl
      · rfl
      · rfl

/-- If a condition on a record waits, those before it hold later too, and need not be checked again. -/
theorem checkConstraints_resume (h : env.Extends env') {stop : Nat} {name : String} :
    {constraints : List Constraint} → {position : Nat} →
      checkConstraints env ctor fields span position constraints = .ok (some (stop, name)) →
        position ≤ stop ∧ checkConstraints env' ctor fields span position constraints =
          checkConstraints env' ctor fields span stop (constraints.drop (stop - position))
  | constraint :: constraints, position, hstop => by
    rw [checkConstraints] at hstop
    split at hstop
    · rename_i hholds
      obtain ⟨hle, hresume⟩ := checkConstraints_resume h hstop
      have hlater : constraint.condition.check env' = .ok true :=
        (constraint.condition.check_agrees h).eq_of_ok hholds
      refine ⟨Nat.le_of_succ_le hle, ?_⟩
      rw [checkConstraints, hlater]
      dsimp only
      rw [hresume, show stop - position = (stop - (position + 1)) + 1 from by omega, List.drop_succ_cons]
    · cases hstop
    · obtain ⟨rfl, rfl⟩ := Prod.mk.inj (Option.some.inj (Except.ok.inj hstop))
      rw [Nat.sub_self]
      exact ⟨Nat.le_refl _, rfl⟩
    · cases hstop

end Record

namespace Scene

variable {p q : Progress} {ctor : String} {fields : List (Field Value)} {span : Span} {done : Nat}

/-- A record that is checked later is checked over a store that extends the earlier one. -/
theorem recordEnvironment_later (scene : Scene) (h : Value.Keeps p.value? q.value?)
    (fields : List (Field Value)) :
    (recordEnvironment p.value? scene.hops fields).Extends (recordEnvironment q.value? scene.hops fields) :=
  recordEnvironment_extends h (Nat.le_refl _) fields

/-- A record whose conditions need not wait is checked once and for all. -/
theorem checkRecord_eq_later (scene : Scene) (h : Value.Keeps p.value? q.value?)
    (hdone : ∀ stop, scene.checkRecord p ctor fields done span ≠ .ok (some stop)) :
    scene.checkRecord q ctor fields done span = scene.checkRecord p ctor fields done span :=
  checkConstraints_eq_later (scene.recordEnvironment_later h fields) hdone

/-- **Checking in two parts.**  What is left of the conditions on a record comes to what all of them would come
to at the end. -/
theorem checkRecord_resume (scene : Scene) (h : Value.Keeps p.value? q.value?) {stop : Nat} {name : String}
    (hstop : scene.checkRecord p ctor fields done span = .ok (some (stop, name))) :
    scene.checkRecord q ctor fields done span = scene.checkRecord q ctor fields stop span := by
  obtain ⟨hle, hresume⟩ := checkConstraints_resume (scene.recordEnvironment_later h fields) hstop
  rw [checkRecord, checkRecord, hresume, List.drop_drop, Nat.add_sub_cancel' hle]

end Scene

end TypedData
