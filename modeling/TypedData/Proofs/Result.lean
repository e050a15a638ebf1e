/-!
# Results that may be failures

Lemmas on `Except`: what a success of several steps says about each of them, and properties that every
success has.
-/

namespace TypedData

variable {ε α β : Type}

/-- Two steps succeed one after another when each of them does. -/
theorem bind_eq_ok_iff {x : Except ε α} {f : α → Except ε β} {b : β} :
    (x >>= f) = .ok b ↔ ∃ a, x = .ok a ∧ f a = .ok b := by
  cases x with
  | error e =>
    constructor
    · intro h; cases h
    · rintro ⟨a, ha, -⟩; cases ha
  | ok a =>
    refine ⟨fun h => ⟨a, rfl, h⟩, ?_⟩
    rintro ⟨a', ha, h⟩
    obtain rfl := Except.ok.inj ha
    exact h

/-- What is mapped succeeds when it did before. -/
theorem map_eq_ok_iff {x : Except ε α} {f : α → β} {b : β} : x.map f = .ok b ↔ ∃ a, x = .ok a ∧ f a = b := by
  cases x with
  | error e =>
    constructor
    · intro h; cases h
    · rintro ⟨a, ha, -⟩; cases ha
  | ok a =>
    refine ⟨fun h => ⟨a, rfl, Except.ok.inj h⟩, ?_⟩
    rintro ⟨a', ha, rfl⟩
    rw [← Except.ok.inj ha]
    rfl

/-- Nothing in front of a list changes nothing. -/
theorem map_nil_append (x : Except ε (List α)) : x.map ([] ++ ·) = x := by cases x <;> rfl

/-- Two lists are put in front of a list at once, or one after the other. -/
theorem map_append_map (x : Except ε (List α)) (first second : List α) :
    (x.map (second ++ ·)).map (first ++ ·) = x.map (first ++ second ++ ·) := by
  cases x with
  | error e => rfl
  | ok as => exact congrArg Except.ok (List.append_assoc ..).symm

/-- A step for each item of a list succeeds when each of them does. -/
theorem forM_eq_ok_iff {f : α → Except ε Unit} {as : List α} :
    as.forM f = .ok () ↔ ∀ a ∈ as, f a = .ok () := by
  induction as with
  | nil => exact ⟨fun _ => List.forall_mem_nil _, fun _ => rfl⟩
  | cons a as ih =>
    change (f a >>= fun _ => as.forM f) = .ok () ↔ _
    rw [bind_eq_ok_iff, List.forall_mem_cons, ← ih]
    constructor
    · rintro ⟨u, ha, has⟩; exact ⟨ha, has⟩
    · rintro ⟨ha, has⟩; exact ⟨(), ha, has⟩

/-- A step for each item of a list fails as one of them does. -/
theorem exists_error_of_forM {f : α → Except ε Unit} {as : List α} {e : ε}
    (h : as.forM f = .error e) : ∃ a ∈ as, f a = .error e := by
  induction as with
  | nil => cases h
  | cons a as ih =>
    change (f a >>= fun _ => as.forM f) = .error e at h
    cases ha : f a with
    | error e' =>
      rw [ha] at h
      exact ⟨a, .head _, ha.trans (congrArg Except.error (Except.error.inj h))⟩
    | ok u =>
      rw [ha] at h
      obtain ⟨b, hb, hfails⟩ := ih h
      exact ⟨b, .tail _ hb, hfails⟩

/-- A success stays one when failures are changed. -/
theorem mapError_eq_ok_iff {ε' : Type} {x : Except ε α} {f : ε → ε'} {a : α} :
    x.mapError f = .ok a ↔ x = .ok a := by
  cases x with
  | error e =>
    constructor
    · rintro ⟨⟩
    · rintro ⟨⟩
  | ok b =>
    change Except.ok b = Except.ok a ↔ Except.ok b = Except.ok a
    rw [Except.ok.injEq, Except.ok.injEq]

/-- A result that passes a test is a success. -/
theorem exists_ok_of_any {x : Except ε α} {test : α → Bool} (h : x.toOption.any test = true) :
    ∃ a, x = .ok a ∧ test a = true := by
  cases x with
  | error e => cases h
  | ok a => exact ⟨a, rfl, h⟩

/-- Every success has a property. -/
def Yields (P : α → Prop) (x : Except ε α) : Prop := ∀ a, x = .ok a → P a

namespace Yields

variable {P : α → Prop} {Q : β → Prop}

/-- A success with the property. -/
theorem ok {a : α} (h : P a) : Yields P (.ok a : Except ε α) := fun _ hb => Except.ok.inj hb ▸ h

/-- A failure, of which nothing is asked. -/
theorem error (e : ε) : Yields P (.error e : Except ε α) := fun _ => nofun

/-- Every success has the property that all have. -/
theorem trivial (x : Except ε α) : Yields (fun _ => True) x := fun _ _ => True.intro

/-- Two steps yield a property if the second yields it from what the first yields. -/
theorem bind {x : Except ε α} {f : α → Except ε β} (h : Yields P x) (hf : ∀ a, P a → Yields Q (f a)) :
    Yields Q (x >>= f) := by
  intro b hb
  obtain ⟨a, ha, hb⟩ := bind_eq_ok_iff.1 hb
  exact hf a (h a ha) b hb

end Yields

/-- A success has one property, and a failure another. -/
def Ends (P : α → Prop) (E : ε → Prop) : Except ε α → Prop
  | .ok a => P a
  | .error e => E e

namespace Ends

variable {P : α → Prop} {Q : β → Prop} {E : ε → Prop}

/-- Two steps end as they should if the second does from what the first gives. -/
theorem bind {x : Except ε α} {f : α → Except ε β} (h : Ends P E x) (hf : ∀ a, P a → Ends Q E (f a)) :
    Ends Q E (x >>= f) := by
  cases x with
  | error e => exact h
  | ok a => exact hf a h

/-- What is mapped ends as it should if its successes are mapped to such with the property. -/
theorem map {x : Except ε α} {f : α → β} (h : Ends P E x) (hf : ∀ a, P a → Q (f a)) : Ends Q E (x.map f) := by
  cases x with
  | error e => exact h
  | ok a => exact hf a h

/-- What ends with a property yields it. -/
theorem yields {x : Except ε α} (h : Ends P E x) : Yields P x := by
  rintro a rfl
  exact h

end Ends

end TypedData
