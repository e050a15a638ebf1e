import TypedData.Proofs.Value.Walk

/-!
# The order in which bindings are finished

The store of values is filled one binding at a time.  A reference with a path, and a binding that is
nothing but a reference, have to lead somewhere when the binding they stand in is finished; a whole
reference inside a value may lead to a binding that is finished later.  `Settled root order` is a store
filled in this way, `order` being its bindings, the last one first.

Cycles of whole references are possible, yet walks are short: of any two references inside one another
that a walk goes through, the second is met in a binding that was finished before.  So two hops for each
binding suffice (`Settled.settle_ok_hops`), and when two more are allowed no walk is cut short at all
(`Settled.follow_eq`).
-/

namespace TypedData

namespace Value

/-- A reference that leads to a value. -/
def Leads (root : Nat → Option Value) (r : Reference) : Prop := ∃ w, Walks root (.ref r) [] w

/-- A reference that has to lead somewhere where it stands: it has a path, or is a whole value. -/
def Strict (v : Value) (r : Reference) : Prop := Part (.ref r) v ∧ (r.path ≠ [] ∨ v = .ref r)

/-- A store that was filled one binding at a time, `order` holding the bindings, the last one first. -/
inductive Settled : (Nat → Option Value) → List Nat → Prop
  | nil : Settled (fun _ => none) []
  | cons {root root' : Nat → Option Value} {order : List Nat} {b : Nat} {v : Value} :
      Settled root order → root b = none → root' b = some v → (∀ c, c ≠ b → root' c = root c) →
      (∀ r, Strict v r → Leads root r) → Settled root' (b :: order)

/-- A value that stands in the value of a binding. -/
def Stored (root : Nat → Option Value) (v : Value) : Prop := ∃ b u, root b = some u ∧ Part v u

variable {root root' : Nat → Option Value} {order : List Nat} {hops hops' : Nat}
  {path : List String} {v w : Value}

/-- A reference that leads somewhere still does when bindings are added. -/
theorem Leads.mono {r : Reference} (hroot : Keeps root root') (h : Leads root r) :
    Leads root' r := by
  obtain ⟨w, hw⟩ := h
  obtain ⟨hops, hw⟩ := hw.exists_follow
  exact ⟨w, .of_follow (follow_ok_mono hroot (Nat.le_refl hops) hw)⟩

/-! ## What is stored -/

/-- The value of a binding is stored. -/
theorem Stored.of_root {b : Nat} (h : root b = some v) : Stored root v := ⟨b, v, h, .self v⟩

/-- The fields of what is stored are stored. -/
theorem Stored.field? {name : String} (hv : Stored root v) (hw : v.field? name = some w) :
    Stored root w := by
  obtain ⟨b, u, hu, hvu⟩ := hv
  exact ⟨b, u, hu, (Part.of_field? hw).trans hvu⟩

/-- Walks from what is stored do not leave it. -/
theorem Stored.settle (hv : Stored root v) (h : settle root hops v = .ok w) : Stored root w := by
  induction hops generalizing v w with
  | zero =>
    cases v with
    | ref r => cases h
    | _ => cases h; exact hv
  | succ hops ih =>
    cases v with
    | ref r =>
      cases hb : root r.binding with
      | none => rw [settle_ref_of_none hb] at h; cases h
      | some base =>
        rw [settle_ref_of_some hb] at h
        exact (walkFields_ok_imp (fun v x name hv hx => hv.field? hx)
          (fun v u hv hu => ⟨ih hv hu, hu⟩) (.of_root hb) h).1
    | _ => cases h; exact hv

namespace Settled

/-! ## The bindings of a store -/

/-- The bindings of the order are those that have a value. -/
theorem mem_iff (h : Settled root order) (b : Nat) : b ∈ order ↔ ∃ v, root b = some v := by
  induction h with
  | nil =>
    constructor
    · intro hb; cases hb
    · rintro ⟨v, hv⟩; cases hv
  | @cons root root' order c v _ _ hc hne _ ih =>
    by_cases hbc : b = c
    · subst hbc
      exact ⟨fun _ => ⟨v, hc⟩, fun _ => List.mem_cons_self ..⟩
    · rw [List.mem_cons, hne b hbc, ← ih]
      exact ⟨fun h => h.resolve_left hbc, Or.inr⟩

/-- No binding is finished twice. -/
theorem nodup (h : Settled root order) : order.Nodup := by
  induction h with
  | nil => exact .nil
  | cons h hnone _ _ _ ih =>
    refine List.nodup_cons.2 ⟨fun hmem => ?_, ih⟩
    obtain ⟨u, hu⟩ := (h.mem_iff _).1 hmem
    cases hnone.symm.trans hu

/-- No more bindings are finished than there are. -/
theorem length_le {n : Nat} (h : Settled root order) (hn : ∀ b v, root b = some v → b < n) :
    order.length ≤ n := by
  have hsub : order ⊆ List.range n := fun b hb => by
    obtain ⟨v, hv⟩ := (h.mem_iff b).1 hb
    exact List.mem_range.2 (hn b v hv)
  have := h.nodup.length_le_of_subset hsub
  rwa [List.length_range] at this

end Settled

/-- Another binding takes no value from the others. -/
theorem keeps_of_update {b : Nat} (hnone : root b = none) (hne : ∀ c, c ≠ b → root' c = root c) :
    Keeps root root' := by
  intro c v hc
  have hcb : c ≠ b := by
    rintro rfl
    cases hnone.symm.trans hc
  rw [hne c hcb, hc]

/-- Every reference of the store that has to lead somewhere does so in `before` already. -/
def Grounded (before root : Nat → Option Value) : Prop :=
  ∀ b v r, root b = some v → Strict v r → Leads before r

/-- References that have to lead somewhere still do when a binding is added whose own ones do. -/
theorem Grounded.update {b : Nat} (h : Grounded root root) (hb : root' b = some v)
    (hne : ∀ c, c ≠ b → root' c = root c) (hv : ∀ r, Strict v r → Leads root r) :
    Grounded root root' := by
  intro c u r hc hr
  by_cases hcb : c = b
  · subst hcb
    obtain rfl : u = v := Option.some.inj (hc.symm.trans hb)
    exact hv r hr
  · exact h c u r (hne c hcb ▸ hc) hr

/-- In a store that was filled so, every reference that has to lead somewhere does. -/
theorem Settled.grounded (h : Settled root order) : Grounded root root := by
  induction h with
  | nil => intro b v r hb; cases hb
  | cons _ hnone hb hne hv ih =>
    exact fun c u r hc hr => ((ih.update hb hne hv) c u r hc hr).mono (keeps_of_update hnone hne)

/-! ## How many hops a walk takes -/

/-- Where `n` hops sufficed before a binding was finished, one more suffices for what is stored: a
whole reference takes it to a binding, which may be nothing but a reference. -/
theorem settle_stored {n : Nat} (hkeeps : Keeps root root') (hground : Grounded root root')
    (hn : ∀ {hops v w}, settle root hops v = .ok w → settle root n v = .ok w)
    (hv : Stored root' v) (h : settle root' hops v = .ok w) : settle root' (n + 1) v = .ok w := by
  have hbefore : ∀ {r hops}, Leads root r → settle root' hops (.ref r) = .ok w →
      settle root' n (.ref r) = .ok w := by
    rintro r hops ⟨u, hu⟩ hw
    obtain ⟨hops', hu⟩ := hu.exists_follow
    have hu := settle_ok_mono hkeeps (Nat.le_refl n) (hn hu)
    rw [hu, settle_unique hu hw]
  obtain ⟨b, u, hb, hvu⟩ := hv
  cases v with
  | ref r =>
    by_cases hpath : r.path = []
    · cases hops with
      | zero => cases h
      | succ hops =>
        cases hr : root' r.binding with
        | none => rw [settle_ref_of_none hr] at h; cases h
        | some base =>
          rw [settle_ref_of_some hr, hpath, follow_nil] at h ⊢
          cases base with
          | ref s => exact hbefore (hground _ _ s hr ⟨.self _, .inr rfl⟩) h
          | _ => exact (settle_eq_of_not_reference rfl).trans h
    · have hr := hbefore (hground b u r hb ⟨hvu, .inl hpath⟩) h
      exact settle_ok_mono (Keeps.refl root') (Nat.le_succ n) hr
  | _ => exact (settle_eq_of_not_reference rfl).trans h

/-- **Two hops for each finished binding suffice.** -/
theorem Settled.settle_ok_hops (h : Settled root order) (hv : settle root hops v = .ok w) :
    settle root (2 * order.length) v = .ok w := by
  induction h generalizing hops v w with
  | nil =>
    cases v with
    | ref r => rw [settle_ref_of_none rfl] at hv; cases hv
    | _ => exact (settle_eq_of_not_reference rfl).trans hv
  | @cons root root' order b u h hnone hb hne hu ih =>
    have hkeeps := keeps_of_update hnone hne
    have hground := h.grounded.update hb hne hu
    cases v with
    | ref r =>
      cases hops with
      | zero => cases hv
      | succ hops =>
        cases hr : root' r.binding with
        | none => rw [settle_ref_of_none hr] at hv; cases hv
        | some base =>
          rw [settle_ref_of_some hr] at hv
          rw [List.length_cons, show 2 * (order.length + 1) = (2 * order.length + 1) + 1 by omega,
            settle_ref_of_some hr]
          have hstep : ∀ x y, Stored root' x → settle root' hops x = .ok y →
              Stored root' y ∧ settle root' (2 * order.length + 1) x = .ok y :=
            fun x y hx hy => ⟨hx.settle hy, settle_stored hkeeps hground ih hx hy⟩
          exact (walkFields_ok_imp (fun v x name hv hx => hv.field? hx) hstep (.of_root hr) hv).2
    | _ => exact (settle_eq_of_not_reference rfl).trans hv

/-! ## No walk is cut short -/

/-- What is stored leads somewhere, unless it is a reference to a binding that is not finished. -/
theorem Settled.walks_or_unfinished (h : Settled root order) (hv : Stored root v) :
    (∃ w, Walks root v [] w) ∨ ∃ r, v = .ref r ∧ root r.binding = none := by
  obtain ⟨b, u, hb, hvu⟩ := hv
  cases v with
  | ref r =>
    cases hr : root r.binding with
    | none => exact .inr ⟨r, rfl, hr⟩
    | some base =>
      left
      by_cases hpath : r.path = []
      · have hbase : ∃ w, Walks root base [] w := by
          cases base with
          | ref s => exact h.grounded _ _ s hr ⟨.self _, .inr rfl⟩
          | _ => exact ⟨_, .done rfl⟩
        obtain ⟨w, hw⟩ := hbase
        exact ⟨w, .hop hr (hpath ▸ hw) (.done hw.isReference)⟩
      · exact h.grounded b u r hb ⟨hvu, .inl hpath⟩
  | _ => exact .inl ⟨_, .done rfl⟩

/-- Two hops for each finished binding, and one more, decide how what is stored settles. -/
theorem Settled.settle_stored_eq (h : Settled root order) (hhops : 2 * order.length + 1 ≤ hops)
    (hv : Stored root v) : settle root hops v = settle root (2 * order.length + 1) v := by
  rcases h.walks_or_unfinished hv with ⟨w, hw⟩ | ⟨r, rfl, hr⟩
  · obtain ⟨hops', hw⟩ := hw.exists_follow
    have hw := h.settle_ok_hops hw
    rw [settle_ok_mono (Keeps.refl root) (by omega) hw,
      settle_ok_mono (Keeps.refl root) (by omega) hw]
  · rw [settle_ref_of_none hr, settle_ref_of_none hr]

/-- Two hops for each finished binding, and two more, decide how every value settles. -/
theorem Settled.settle_eq (h : Settled root order) (hhops : 2 * order.length + 2 ≤ hops) :
    settle root hops v = settle root (2 * order.length + 2) v := by
  cases v with
  | ref r =>
    obtain ⟨hops, rfl⟩ := Nat.exists_eq_add_of_le' (show 1 ≤ hops by omega)
    cases hr : root r.binding with
    | none => rw [settle_ref_of_none hr, settle_ref_of_none hr]
    | some base =>
      rw [settle_ref_of_some hr, settle_ref_of_some hr]
      exact walkFields_congr (fun v x name hv hx => hv.field? hx) (fun v u hv hu => hv.settle hu)
        (fun v hv => h.settle_stored_eq (by omega) hv) (.of_root hr)
  | _ => exact settle_eq_of_not_reference rfl

/-- **No walk is cut short.**  However many more hops were allowed, it would end in the same way. -/
theorem Settled.follow_eq (h : Settled root order) (hhops : 2 * order.length + 2 ≤ hops) :
    v.follow root hops path = v.follow root (2 * order.length + 2) path := by
  have hsettle : settle root hops = settle root (2 * order.length + 2) :=
    funext fun v => h.settle_eq hhops
  rw [follow, follow, hsettle]

end Value

end TypedData
