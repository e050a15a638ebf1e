import TypedData.Proofs.Value.Part
import TypedData.Value.Follow

/-!
# Walks without a limit

`Value.follow` counts hops.  `Walks root v path w` is the walk that it counts: `v` leads along `path` to
`w`, through however many references.

A walk that has ended, at a value or at a field that is not there, ends in the same way when more hops
are allowed and when more bindings have a value (`follow_mono`).  So `follow` finds exactly the walks
that there are, if only it is given enough hops (`exists_follow_iff`).
-/

namespace TypedData

namespace Value

variable {root root' : Nat → Option Value} {hops hops' : Nat} {v w : Value} {path : List String}

/-- The second store has every value that the first one has. -/
def Keeps (root root' : Nat → Option Value) : Prop := ∀ b v, root b = some v → root' b = some v

/-- A store has every value that it has. -/
theorem Keeps.refl (root : Nat → Option Value) : Keeps root root := fun _ _ h => h

/-- A walk that did not stop for want of a value, or of hops. -/
def Ends {α : Type} (result : Except PathError α) : Prop :=
  ∀ name, result ≠ .error (.unavailable name)

/-- A walk that leads somewhere has ended. -/
theorem Ends.ok {α : Type} (a : α) : Ends (.ok a : Except PathError α) := fun _ => nofun

/-- A walk to a field that is not there has ended. -/
theorem Ends.unknownField {α : Type} (name : String) :
    Ends (.error (.unknownField name) : Except PathError α) := fun _ => nofun

/-! ## Settling -/

/-- What is no reference settles at once. -/
theorem settle_of_not_reference (h : v.isReference = false) : settle root hops v = .ok v := by
  cases v with
  | ref r => cases h
  | _ => cases hops <;> rfl

/-- What is no reference settles alike in every store, with any number of hops. -/
theorem settle_eq_of_not_reference (h : v.isReference = false) :
    settle root hops v = settle root' hops' v := by
  rw [settle_of_not_reference h, settle_of_not_reference h]

/-- A reference to a binding without a value settles nowhere. -/
theorem settle_ref_of_none {r : Reference} (h : root r.binding = none) :
    settle root hops (.ref r) = .error (.unavailable r.name) := by
  cases hops with
  | zero => rfl
  | succ hops => rw [settle, h]

/-- A reference to a binding is followed from its value, with one hop less. -/
theorem settle_ref_of_some {r : Reference} {base : Value} (h : root r.binding = some base) :
    settle root (hops + 1) (.ref r) = base.follow root hops r.path := by
  rw [settle, h]; rfl

/-- Following no path is settling. -/
@[simp] theorem follow_nil : v.follow root hops [] = settle root hops v := rfl

/-- One step of a walk: the value is settled first, then the field is looked up. -/
theorem walkFields_cons {settled : Value → Except PathError Value} {name : String} :
    walkFields settled v (name :: path) =
      match settled v with
      | .error e => .error e
      | .ok u =>
        match u.field? name with
        | some x => walkFields settled x path
        | none => .error (.unknownField name) := by
  rw [walkFields]
  cases settled v <;> rfl

/-- What every step of a walk keeps, the whole walk keeps. -/
theorem walkFields_ok_imp {settled settled' : Value → Except PathError Value} {P : Value → Prop}
    (hP : ∀ v x name, P v → v.field? name = some x → P x)
    (hs : ∀ v u, P v → settled v = .ok u → P u ∧ settled' v = .ok u) (hv : P v)
    (h : walkFields settled v path = .ok w) : P w ∧ walkFields settled' v path = .ok w := by
  induction path generalizing v with
  | nil => exact hs v w hv h
  | cons name path ih =>
    rw [walkFields_cons] at h ⊢
    cases hu : settled v with
    | error e => rw [hu] at h; cases h
    | ok u =>
      obtain ⟨hPu, hu'⟩ := hs v u hv hu
      rw [hu] at h
      rw [hu']
      dsimp only at h ⊢
      cases hx : u.field? name with
      | none => rw [hx] at h; cases h
      | some x =>
        rw [hx] at h
        exact ih (hP u x name hPu hx) h

/-- Walks are the same where all that they can meet settles in the same way. -/
theorem walkFields_congr {settled settled' : Value → Except PathError Value} {P : Value → Prop}
    (hP : ∀ v x name, P v → v.field? name = some x → P x)
    (hk : ∀ v u, P v → settled v = .ok u → P u) (hs : ∀ v, P v → settled' v = settled v)
    (hv : P v) : walkFields settled' v path = walkFields settled v path := by
  induction path generalizing v with
  | nil => exact hs v hv
  | cons name path ih =>
    rw [walkFields_cons, walkFields_cons, hs v hv]
    cases hu : settled v with
    | error e => rfl
    | ok u =>
      dsimp only
      cases hx : u.field? name with
      | none => rfl
      | some x => exact ih (hP u x name (hk v u hv hu) hx)

/-- A walk ends with settling a value. -/
theorem exists_settled_of_walkFields {settled : Value → Except PathError Value}
    (h : walkFields settled v path = .ok w) : ∃ u, settled u = .ok w := by
  induction path generalizing v with
  | nil => exact ⟨v, h⟩
  | cons name path ih =>
    rw [walkFields_cons] at h
    split at h
    · cases h
    · split at h
      · exact ih h
      · cases h

/-- Where a reference leads is never a reference. -/
theorem isReference_of_settle (h : settle root hops v = .ok w) : w.isReference = false := by
  induction hops generalizing v w with
  | zero =>
    cases v with
    | ref r => cases h
    | _ => cases h; rfl
  | succ hops ih =>
    cases v with
    | ref r =>
      cases hb : root r.binding with
      | none => rw [settle_ref_of_none hb] at h; cases h
      | some base =>
        rw [settle_ref_of_some hb] at h
        obtain ⟨u, hu⟩ := exists_settled_of_walkFields h
        exact ih hu
    | _ => cases h; rfl

/-- No path leads to a reference. -/
theorem isReference_of_follow (h : v.follow root hops path = .ok w) : w.isReference = false := by
  obtain ⟨u, hu⟩ := exists_settled_of_walkFields h
  exact isReference_of_settle hu

/-! ## More hops and more bindings -/

/-- A walk ends in the same way if every value that settles does so in the same way. -/
theorem walkFields_eq_of_ends {settled settled' : Value → Except PathError Value}
    (hs : ∀ v, Ends (settled v) → settled' v = settled v) (h : Ends (walkFields settled v path)) :
    walkFields settled' v path = walkFields settled v path := by
  induction path generalizing v with
  | nil => exact hs v h
  | cons name path ih =>
    rw [walkFields_cons] at h
    have hv : settled' v = settled v := hs v fun other hother => by
      rw [hother] at h
      exact h other rfl
    rw [walkFields_cons, walkFields_cons, hv]
    cases hu : settled v with
    | error e => rfl
    | ok u =>
      rw [hu] at h
      dsimp only at h ⊢
      cases hx : u.field? name with
      | none => rfl
      | some x => rw [hx] at h; exact ih h

/-- A value that settles does so alike with more hops and more bindings. -/
theorem settle_mono (hroot : Keeps root root') (hhops : hops ≤ hops')
    (h : Ends (settle root hops v)) : settle root' hops' v = settle root hops v := by
  induction hops generalizing v hops' with
  | zero =>
    cases v with
    | ref r => exact absurd rfl (h r.name)
    | _ => exact settle_eq_of_not_reference rfl
  | succ hops ih =>
    cases v with
    | ref r =>
      obtain ⟨hops', rfl⟩ := Nat.exists_eq_add_of_le' (Nat.one_le_of_lt hhops)
      cases hb : root r.binding with
      | none => exact absurd (settle_ref_of_none hb) (h r.name)
      | some base =>
        rw [settle_ref_of_some hb] at h ⊢
        rw [settle_ref_of_some (hroot _ _ hb)]
        exact walkFields_eq_of_ends (fun v hv => ih (Nat.le_of_succ_le_succ hhops) hv) h
    | _ => exact settle_eq_of_not_reference rfl

/-- **A walk that has ended is final.**  More hops and more bindings change nothing about it. -/
theorem follow_mono (hroot : Keeps root root') (hhops : hops ≤ hops')
    (h : Ends (v.follow root hops path)) :
    v.follow root' hops' path = v.follow root hops path :=
  walkFields_eq_of_ends (fun _ hv => settle_mono hroot hhops hv) h

/-- A value that settles somewhere still does with more hops and more bindings. -/
theorem settle_ok_mono (hroot : Keeps root root') (hhops : hops ≤ hops')
    (h : settle root hops v = .ok w) : settle root' hops' v = .ok w := by
  rw [settle_mono hroot hhops (h ▸ Ends.ok w), h]

/-- A path that leads somewhere still does with more hops and more bindings. -/
theorem follow_ok_mono (hroot : Keeps root root') (hhops : hops ≤ hops')
    (h : v.follow root hops path = .ok w) : v.follow root' hops' path = .ok w := by
  rw [follow_mono hroot hhops (h ▸ Ends.ok w), h]

/-- A value settles to one value only, however many hops there are. -/
theorem settle_unique {u : Value} (h : settle root hops v = .ok w)
    (h' : settle root hops' v = .ok u) : w = u := by
  have hw := settle_ok_mono (Keeps.refl root) (Nat.le_max_left hops hops') h
  have hu := settle_ok_mono (Keeps.refl root) (Nat.le_max_right hops hops') h'
  exact Except.ok.inj (hw.symm.trans hu)

/-! ## The walk -/

/-- `Walks root v path w` says that `v` leads along `path` to `w`, where the values of the bindings are
given by `root`.  There is no limit on the references that are gone through. -/
inductive Walks (root : Nat → Option Value) : Value → List String → Value → Prop
  | done {v : Value} : v.isReference = false → Walks root v [] v
  | field {v x w : Value} {name : String} {path : List String} :
      v.isReference = false → v.field? name = some x → Walks root x path w →
      Walks root v (name :: path) w
  | hop {r : Reference} {base u w : Value} {path : List String} :
      root r.binding = some base → Walks root base r.path u → Walks root u path w →
      Walks root (.ref r) path w

namespace Walks

/-- No walk ends at a reference. -/
theorem isReference (h : Walks root v path w) : w.isReference = false := by
  induction h with
  | done h => exact h
  | field _ _ _ ih => exact ih
  | hop _ _ _ _ ih => exact ih

/-- From a value that is no reference only the empty walk stays at once. -/
theorem eq_of_not_reference (h : Walks root v [] w) (hv : v.isReference = false) : v = w := by
  cases h with
  | done => rfl
  | hop => cases hv

/-- A walk may go on from where a reference leads. -/
theorem of_settled {u : Value} (hu : Walks root v [] u) (h : Walks root u path w) :
    Walks root v path w := by
  cases hu with
  | done => exact h
  | hop hb hbase hu => exact .hop hb hbase (hu.eq_of_not_reference hbase.isReference ▸ h)

/-- The fields that are walked through are a walk, if settling is one. -/
theorem of_walkFields {settled : Value → Except PathError Value}
    (hs : ∀ v u, settled v = .ok u → Walks root v [] u) (h : walkFields settled v path = .ok w) :
    Walks root v path w := by
  induction path generalizing v with
  | nil => exact hs v w h
  | cons name path ih =>
    rw [walkFields_cons] at h
    cases hu : settled v with
    | error e => rw [hu] at h; cases h
    | ok u =>
      rw [hu] at h
      dsimp only at h
      cases hx : u.field? name with
      | none => rw [hx] at h; cases h
      | some x =>
        rw [hx] at h
        exact (hs v u hu).of_settled (.field (hs v u hu).isReference hx (ih h))

/-- What settles is a walk. -/
theorem of_settle (h : settle root hops v = .ok w) : Walks root v [] w := by
  induction hops generalizing v w with
  | zero =>
    cases v with
    | ref r => cases h
    | _ => cases h; exact .done rfl
  | succ hops ih =>
    cases v with
    | ref r =>
      cases hb : root r.binding with
      | none => rw [settle_ref_of_none hb] at h; cases h
      | some base =>
        rw [settle_ref_of_some hb] at h
        exact .hop hb (of_walkFields (fun _ _ hu => ih hu) h) (.done (isReference_of_follow h))
    | _ => cases h; exact .done rfl

/-- What is followed is a walk. -/
theorem of_follow (h : v.follow root hops path = .ok w) : Walks root v path w :=
  of_walkFields (fun _ _ hu => of_settle hu) h

/-- For every walk there are enough hops to follow it. -/
theorem exists_follow (h : Walks root v path w) : ∃ hops, v.follow root hops path = .ok w := by
  induction h with
  | done hv => exact ⟨0, settle_of_not_reference hv⟩
  | field hv hx _ ih =>
    obtain ⟨hops, ih⟩ := ih
    refine ⟨hops, ?_⟩
    rw [follow, walkFields_cons, settle_of_not_reference hv]
    dsimp only
    rw [hx]
    exact ih
  | @hop r base u w path hb _ _ ihb ihu =>
    obtain ⟨hops, ihb⟩ := ihb
    obtain ⟨hops', ihu⟩ := ihu
    have hle := Nat.le_max_left hops hops'
    have hsettle : settle root (max hops hops' + 1) (.ref r) = .ok u := by
      rw [settle_ref_of_some hb]
      exact follow_ok_mono (Keeps.refl root) hle ihb
    have hu := follow_ok_mono (Keeps.refl root) (Nat.le_succ_of_le (Nat.le_max_right hops hops')) ihu
    refine ⟨max hops hops' + 1, ?_⟩
    cases path with
    | nil =>
      rw [follow_nil, settle_of_not_reference (isReference_of_follow ihb)] at hu
      rw [follow_nil, hsettle, hu]
    | cons name path =>
      rw [follow, walkFields_cons, settle_of_not_reference (isReference_of_follow ihb)] at hu
      rw [follow, walkFields_cons, hsettle]
      exact hu

end Walks

/-- **`follow` finds the walks that there are.** -/
theorem exists_follow_iff : (∃ hops, v.follow root hops path = .ok w) ↔ Walks root v path w :=
  ⟨fun ⟨_, h⟩ => .of_follow h, Walks.exists_follow⟩

end Value

end TypedData
