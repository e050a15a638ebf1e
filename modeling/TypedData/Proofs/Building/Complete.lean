import TypedData.Proofs.Building.Run
import TypedData.Proofs.Typing.Widening

/-!
# When everything is finished

At a complete progress nothing is left open.  Every condition on a record that was built holds
(`Complete.holds`), and every reference that was built leads to a value of the type at which it was
built (`Complete.reaches`).
-/

namespace TypedData

namespace Scene

variable {scene : Scene} {p : Progress} {t : Ty}

/-- A binding that is found by a name has that name. -/
theorem slot_of_indexOf? {name : String} {b : Nat} (h : scene.indexOf? name = some b) :
    ∃ slot, scene.slots[b]? = some slot ∧ slot.name = name := by
  obtain ⟨hlt, hname, -⟩ := List.findIdx?_eq_some_iff_getElem.1 h
  exact ⟨_, List.getElem?_eq_getElem hlt, beq_iff_eq.1 hname⟩

namespace Complete

/-! ## Bindings -/

/-- Every binding has a value at the end. -/
theorem value?_of_slot (h : scene.Complete p) {b : Nat} {slot : Slot}
    (hslot : scene.slots[b]? = some slot) : ∃ v, p.value? b = some v :=
  h.finished b (List.getElem?_eq_some_iff.1 hslot).1

/-- Every state at the end is that of a finished binding. -/
theorem resolved_of_mem (h : scene.Complete p) {s : BindingState} (hs : s ∈ p.states) :
    ∃ v, s = .resolved v := by
  obtain ⟨b, hb⟩ := List.mem_iff_getElem?.1 hs
  obtain ⟨v, hv⟩ := h.finished b (h.sound.length ▸ (List.getElem?_eq_some_iff.1 hb).1)
  exact ⟨v, Option.some.inj (hb.symm.trans (Progress.value?_eq_some_iff.1 hv))⟩

end Complete

/-- Where all states are finished, the finished bindings are the slots with their values, in order. -/
theorem getElem?_zip_resolved {name : String} {v : Value} :
    {slots : List Slot} → {states : List BindingState} → (∀ s ∈ states, ∃ v, s = .resolved v) →
      {b : Nat} →
      ((slots.zip states).filterMap fun (slot, state) =>
        match state with
        | .resolved v => some (slot.name, v)
        | _ => none)[b]? = some (name, v) ↔
      ∃ slot, slots[b]? = some slot ∧ slot.name = name ∧ states[b]? = some (.resolved v)
  | [], _, _, b => by
    constructor
    · intro h; cases h
    · rintro ⟨slot, hslot, -⟩; cases hslot
  | _ :: _, [], _, b => by
    constructor
    · intro h; cases h
    · rintro ⟨_, -, -, hstate⟩; cases hstate
  | slot :: slots, state :: states, h, b => by
    obtain ⟨⟨u, rfl⟩, hstates⟩ := List.forall_mem_cons.1 h
    change ((slot.name, u) :: (slots.zip states).filterMap _)[b]? = _ ↔ _
    cases b with
    | zero =>
      simp only [List.getElem?_cons_zero, Option.some.injEq, Prod.mk.injEq,
        BindingState.resolved.injEq, exists_eq_left']
    | succ b => exact getElem?_zip_resolved hstates

namespace Complete

/-- The finished bindings are the slots with their values. -/
theorem getElem?_finished (h : scene.Complete p) {b : Nat} {name : String} {v : Value} :
    (scene.finished p)[b]? = some (name, v) ↔
      ∃ slot, scene.slots[b]? = some slot ∧ slot.name = name ∧ p.value? b = some v := by
  simp only [Progress.value?_eq_some_iff]
  exact getElem?_zip_resolved fun _ => h.resolved_of_mem

/-- The finished bindings give what the progress says of each of them. -/
theorem root_finished (h : scene.Complete p) :
    (fun b => (scene.finished p)[b]?.map Prod.snd) = p.value? := by
  funext b
  cases hv : p.value? b with
  | some v =>
    obtain ⟨slot, hslot⟩ := h.sound.slot_of_value? hv
    rw [h.getElem?_finished.2 ⟨slot, hslot, rfl, hv⟩]
    rfl
  | none =>
    cases hb : (scene.finished p)[b]? with
    | none => rfl
    | some entry =>
      obtain ⟨-, -, -, hsome⟩ := h.getElem?_finished.1 hb
      cases hv.symm.trans hsome

/-- The finished bindings have the names of the slots, in order. -/
theorem names_finished (h : scene.Complete p) :
    (scene.finished p).map Prod.fst = scene.slots.map Slot.name := by
  refine List.ext_getElem? fun b => ?_
  rw [List.getElem?_map, List.getElem?_map]
  cases hslot : scene.slots[b]? with
  | some slot =>
    obtain ⟨v, hv⟩ := h.value?_of_slot hslot
    rw [h.getElem?_finished.2 ⟨slot, hslot, rfl, hv⟩]
    rfl
  | none =>
    cases hb : (scene.finished p)[b]? with
    | none => rfl
    | some entry =>
      obtain ⟨slot, hsome, -⟩ := h.getElem?_finished.1 hb
      cases hslot.symm.trans hsome

/-! ## Conditions -/

/-- **Every condition on a record that was built holds.** -/
theorem holds (h : scene.Complete p) {ctor : Constructor} {fields : List (Field Value)}
    (hchecked : scene.Checked p ctor fields) {constraint : Constraint}
    (hmem : constraint ∈ scene.registry.constraintsFor ctor.name) :
    constraint.condition.check (recordEnvironment p.value? scene.hops fields) = .ok true := by
  obtain ⟨i, hi⟩ := List.mem_iff_getElem?.1 hmem
  rcases hchecked i constraint hi with hok | ⟨pending, hpending, hctor, rfl, hle⟩
  · exact hok
  · have hrun := h.constraints pending hpending
    rw [runConstraints] at hrun
    split at hrun
    · rename_i hcheck
      rw [checkRecord, hctor] at hcheck
      have hdrop : ((scene.registry.constraintsFor ctor.name).drop pending.done)[i - pending.done]? =
          some constraint := by
        rw [List.getElem?_drop, Nat.add_sub_cancel' hle, hi]
      rcases holds_of_checkConstraints hcheck hdrop with hok | ⟨_, _, hstop, -⟩
      · exact hok
      · cases hstop
    · cases hrun
    · cases hrun

/-! ## References -/

/-- The check of a type that has succeeded says that the value a binding leads to conforms to the type. -/
theorem conforms_of_runCheck (h : scene.Complete p) {b : Nat} {span : Span} {v target : Value}
    (hv : p.value? b = some v) (htarget : Value.Walks p.value? v [] target)
    (hcheck : ⟨b, t, span⟩ ∈ p.checks) : t.conforms target = true := by
  have hrun := h.checks _ hcheck
  have hfollow : v.follow p.value? scene.hops [] = .ok target :=
    h.sound.settle_hops htarget
  rw [runCheck, hv, Option.bind_some, hfollow] at hrun
  dsimp only [Except.toOption] at hrun
  split at hrun
  · assumption
  · cases hrun

/-- **A reference that was built leads to a value of its type.** -/
theorem reaches (h : scene.Complete p) {r : Reference} {t : Ty} (hr : scene.Built p t (.ref r)) :
    ∃ target, Value.Walks p.value? (.ref r) [] target ∧ t.conforms target = true := by
  generalize hv : Value.ref r = v at hr
  induction hr with
  | optional _ ih =>
    obtain ⟨target, htarget, hconforms⟩ := ih hv
    exact ⟨target, htarget, Ty.conforms_optional hconforms⟩
  | plain _ hplain => subst hv; cases hplain
  | handle hindex hreach =>
    obtain rfl := Value.ref.inj hv
    rcases hreach with ⟨base, target, hbase, htarget, hconforms⟩ | ⟨hpath, hcheck⟩
    · exact ⟨target, .hop hbase (.of_follow htarget) (.done (Value.isReference_of_follow htarget)),
        hconforms⟩
    · obtain ⟨slot, hslot, -⟩ := slot_of_indexOf? hindex
      obtain ⟨base, hbase⟩ := h.value?_of_slot hslot
      obtain ⟨target, htarget⟩ := h.sound.walks_of_value? hbase
      refine ⟨target, .hop hbase (hpath ▸ htarget) (.done htarget.isReference), ?_⟩
      rcases hcheck with hopen | ⟨span, hmem⟩
      · exact Ty.conforms_of_isOpen hopen target
      · exact h.conforms_of_runCheck hbase htarget hmem
  | _ => cases hv

end Complete

end Scene

end TypedData
