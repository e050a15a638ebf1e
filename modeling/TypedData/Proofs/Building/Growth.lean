import TypedData.Building.State
import TypedData.Proofs.Value.Walk

/-!
# How progress grows

While values are built, what is known only grows: finished bindings keep their values, and what was left
to be checked stays left.  `p.Grows q` says this much.

When a step of building is over, bindings may have been finished in the meantime, but each of those that
were begun before is still where it was.  `p.Extends q` says this, too.  A binding that is entered and
left again with its value is one more that was finished (`Progress.Extends.of_enter`).
-/

namespace TypedData

/-- How the state of a binding may have changed when a step is over: it may have been finished. -/
inductive BindingState.Becomes : BindingState → BindingState → Prop
  | same (s : BindingState) : Becomes s s
  | finished (v : Value) : Becomes .unresolved (.resolved v)

/-- What a state becomes in two steps it becomes. -/
theorem BindingState.Becomes.trans {s t u : BindingState} (hst : s.Becomes t) (htu : t.Becomes u) :
    s.Becomes u := by
  cases hst with
  | same => exact htu
  | finished v =>
    cases htu with
    | same => exact .finished v

namespace Progress

variable {p q r : Progress} {b : Nat} {v : Value}

/-! ## The values of bindings -/

/-- A binding has a value exactly if it is finished with it. -/
theorem value?_eq_some_iff : p.value? b = some v ↔ p.states[b]? = some (.resolved v) := by
  unfold value?
  split
  · rename_i u hu
    rw [hu, Option.some.injEq, Option.some.injEq, BindingState.resolved.injEq]
  · rename_i hb
    constructor
    · intro h; cases h
    · intro h; exact absurd h (hb v)

/-- A binding that is not finished has no value. -/
theorem value?_eq_none {s : BindingState} (hb : p.states[b]? = some s) (hs : ∀ v, s ≠ .resolved v) :
    p.value? b = none := by
  unfold value?
  rw [hb]
  split
  · rename_i v hv
    exact absurd (Option.some.inj hv) (hs v)
  · rfl

/-- No value is gained or lost when a binding begins to be built. -/
theorem value?_enter (hb : p.states[b]? = some .unresolved) : (p.enter b).value? = p.value? := by
  funext c
  by_cases hcb : c = b
  · subst hcb
    have hentered : (p.enter c).states[c]? = some .inProgress :=
      List.getElem?_set_self (List.getElem?_eq_some_iff.1 hb).1
    rw [value?_eq_none hb, value?_eq_none hentered] <;> (intro v h; cases h)
  · rw [value?, value?, enter, List.getElem?_set_ne (Ne.symm hcb)]

/-- A binding that is finished has the value that it is finished with. -/
theorem value?_leave_self {s : BindingState} (hb : p.states[b]? = some s) :
    (p.leave b (.resolved v)).value? b = some v :=
  value?_eq_some_iff.2 (List.getElem?_set_self (List.getElem?_eq_some_iff.1 hb).1)

/-- The other bindings keep their values when one is finished. -/
theorem value?_leave_ne {s : BindingState} {c : Nat} (hcb : c ≠ b) :
    (p.leave b s).value? c = p.value? c := by
  rw [value?, value?, leave, List.getElem?_set_ne (Ne.symm hcb)]

/-- What holds of the values of all bindings is kept when a binding is left with a value that it holds of. -/
theorem forall_value?_leave {P : Nat → Value → Prop} (h : ∀ c w, p.value? c = some w → P c w) (hv : P b v) :
    ∀ c w, (p.leave b (.resolved v)).value? c = some w → P c w := by
  intro c w hw
  by_cases hcb : c = b
  · subst hcb
    rw [value?_eq_some_iff, leave, List.getElem?_set_self'] at hw
    cases hstate : p.states[c]? with
    | none => rw [hstate] at hw; cases hw
    | some s =>
      rw [hstate] at hw
      cases hw
      exact hv
  · rw [value?_leave_ne hcb] at hw
    exact h c w hw

/-! ## Knowledge -/

/-- What is known at the first progress is known at the second. -/
structure Grows (p q : Progress) : Prop where
  keeps : Value.Keeps p.value? q.value?
  checks : p.checks ⊆ q.checks
  constraints : p.constraints ⊆ q.constraints

namespace Grows

/-- Progress grows from itself. -/
theorem refl (p : Progress) : p.Grows p := ⟨.refl _, fun _ => id, fun _ => id⟩

/-- Progress grows by two steps as by one. -/
theorem trans (hpq : p.Grows q) (hqr : q.Grows r) : p.Grows r where
  keeps b v h := hqr.keeps b v (hpq.keeps b v h)
  checks _ h := hqr.checks (hpq.checks h)
  constraints _ h := hqr.constraints (hpq.constraints h)

/-- Progress grows when a binding begins to be built. -/
theorem enter (hb : p.states[b]? = some .unresolved) : p.Grows (p.enter b) where
  keeps := value?_enter hb ▸ .refl _
  checks _ := id
  constraints _ := id

/-- Progress grows when a binding that was being built is finished. -/
theorem leave (hb : p.states[b]? = some .inProgress) : p.Grows (p.leave b (.resolved v)) where
  keeps c w hc := by
    by_cases hcb : c = b
    · subst hcb
      rw [value?_eq_none hb (by rintro _ ⟨⟩)] at hc
      cases hc
    · rw [value?_leave_ne hcb, hc]
  checks _ := id
  constraints _ := id

end Grows

/-! ## Steps that are over -/

/-- What holds of the progress before and after a step that did not fail. -/
structure Extends (p q : Progress) : Prop where
  length : q.states.length = p.states.length
  states : ∀ (b : Nat) (s : BindingState), p.states[b]? = some s →
    ∃ t, q.states[b]? = some t ∧ s.Becomes t
  checks : p.checks ⊆ q.checks
  constraints : p.constraints ⊆ q.constraints

namespace Extends

/-- Progress extends itself. -/
theorem refl (p : Progress) : p.Extends p :=
  ⟨rfl, fun _ s h => ⟨s, h, .same s⟩, fun _ => id, fun _ => id⟩

/-- Progress extends by two steps as by one. -/
theorem trans (hpq : p.Extends q) (hqr : q.Extends r) : p.Extends r where
  length := hqr.length.trans hpq.length
  states b s h := by
    obtain ⟨t, ht, hst⟩ := hpq.states b s h
    obtain ⟨u, hu, htu⟩ := hqr.states b t ht
    exact ⟨u, hu, hst.trans htu⟩
  checks _ h := hqr.checks (hpq.checks h)
  constraints _ h := hqr.constraints (hpq.constraints h)

/-- Progress that extends grows: no binding loses its value. -/
theorem grows (h : p.Extends q) : p.Grows q where
  keeps b v hv := by
    obtain ⟨t, ht, hvt⟩ := h.states b _ (value?_eq_some_iff.1 hv)
    cases hvt with
    | same => exact value?_eq_some_iff.2 ht
  checks := h.checks
  constraints := h.constraints

/-- A check that is put off extends the progress. -/
theorem deferCheck (p : Progress) (check : DeferredCheck) : p.Extends (p.deferCheck check) :=
  ⟨rfl, fun _ s h => ⟨s, h, .same s⟩, fun _ h => List.mem_append_left _ h, fun _ => id⟩

/-- Conditions that are put off extend the progress. -/
theorem deferConstraints (p : Progress) (pending : DeferredConstraints) :
    p.Extends (p.deferConstraints pending) :=
  ⟨rfl, fun _ s h => ⟨s, h, .same s⟩, fun _ => id, fun _ h => List.mem_append_left _ h⟩

/-- A binding that is in progress stays so until it is left. -/
theorem inProgress (h : p.Extends q) (hb : p.states[b]? = some .inProgress) :
    q.states[b]? = some .inProgress := by
  obtain ⟨t, ht, hst⟩ := h.states b _ hb
  cases hst with
  | same => exact ht

/-- A binding is still being built after everything that is built from inside it. -/
theorem inProgress_of_enter (hb : p.states[b]? = some .unresolved) (h : (p.enter b).Extends q) :
    q.states[b]? = some .inProgress :=
  h.inProgress (List.getElem?_set_self (List.getElem?_eq_some_iff.1 hb).1)

/-- **A binding that is entered and left again is finished,** and no other binding is different from
what it was before it was left. -/
theorem of_enter (hb : p.states[b]? = some .unresolved) (h : (p.enter b).Extends q) :
    p.Extends (q.leave b (.resolved v)) where
  length := by
    rw [leave, List.length_set, h.length, enter, List.length_set]
  states c s hc := by
    by_cases hcb : c = b
    · subst hcb
      obtain rfl : s = .unresolved := Option.some.inj (hc.symm.trans hb)
      have hq := h.inProgress_of_enter hb
      exact ⟨_, List.getElem?_set_self (List.getElem?_eq_some_iff.1 hq).1, .finished v⟩
    · have hp : (p.enter b).states[c]? = some s := by
        rw [enter, List.getElem?_set_ne (Ne.symm hcb), hc]
      obtain ⟨t, ht, hst⟩ := h.states c s hp
      exact ⟨t, by rw [leave, List.getElem?_set_ne (Ne.symm hcb), ht], hst⟩
  checks := h.checks
  constraints := h.constraints

end Extends

end Progress

end TypedData
