import TypedData.Building
import TypedData.Proofs.Building.Data

/-!
# Building a document is sound

A binding that is not begun is entered, built and left; the values that are built on the way keep the
progress sound.  So forcing is sound, whatever forces whatever else on the way
(`ensures_forceWithin`).  At the end every binding is finished and everything that was left to be checked
has been checked: the progress is **complete** (`Complete`).
-/

namespace TypedData

namespace Scene

variable {scene : Scene} {p q : Progress}

/-! ## Bindings -/

/-- What is ensured about the value of a binding: as a reference it leads somewhere already. -/
def BuildsSlot (scene : Scene) (p : Progress) (slot : Slot) (m : Build Value) : Prop :=
  scene.Ensures p m fun v q =>
    scene.Built q slot.type v ∧ ∀ r, v = .ref r → Value.Leads q.value? r

/-- A binding is built for its type. -/
theorem buildsSlot {force : Nat → Build Unit} (hforce : scene.Forces force) (slot : Slot) :
    scene.BuildsSlot p slot (scene.buildSlot force slot) := by
  unfold buildSlot
  split
  · refine (ensures_buildReference hforce).imp ?_
    rintro v q - ⟨hv, hleads⟩
    exact ⟨hv.of_peeled, fun r hr => hleads r hr rfl⟩
  · rename_i hdata
    refine (buildsData hforce slot.data slot.type p).imp ?_
    rintro v q - ⟨hv, href⟩
    refine ⟨hv, fun r hr => ?_⟩
    obtain ⟨span, name, path, h⟩ := href (hr ▸ rfl)
    exact (hdata span name path h).elim

/-- **A binding that is built on the chain is finished.** -/
theorem ensures_onChain {b : Nat} {slot : Slot} {build : Build Value}
    (hb : p.states[b]? = some .unresolved) (hslot : scene.slots[b]? = some slot)
    (hbuild : scene.BuildsSlot (p.enter b) slot build) :
    scene.Ensures p (onChain b build) fun _ q => ∃ v, q.value? b = some v := by
  intro hp _ q h
  obtain ⟨v, p', hv, rfl⟩ := Build.gives_onChain_iff.1 h
  obtain ⟨hp', hext, hbuilt, hleads⟩ := hbuild (hp.enter hb) v p' hv
  have hprogress := hext.inProgress_of_enter hb
  refine ⟨hp'.leave hprogress hslot hbuilt ?_, .of_enter hb hext, v,
    Progress.value?_leave_self hprogress⟩
  rintro r ⟨hpart, hpath | hr⟩
  · obtain ⟨t, ht⟩ := hbuilt.of_part hpart
    obtain ⟨-, u, hreach⟩ := ht.of_ref
    exact hreach.leads hpath
  · exact hleads r hr

/-- **Forcing is sound,** and finishes a binding that was not begun. -/
theorem ensures_forceWithin (depth b : Nat) (p : Progress) :
    scene.Ensures p (scene.forceWithin depth b) fun _ q =>
      p.states[b]? = some .unresolved → ∃ v, q.value? b = some v := by
  intro hp
  rw [forceWithin.eq_def]
  refine Ensures.get_bind ?_ hp
  split
  · rename_i slot hb hslot
    cases depth with
    | zero => exact .throw
    | succ depth =>
      dsimp only
      split
      · exact .throw
      · have hforce : scene.Forces (scene.forceWithin depth) :=
          fun b p => (ensures_forceWithin depth b p).imp fun _ _ _ _ => trivial
        exact (ensures_onChain hb hslot (buildsSlot hforce slot)).imp fun _ _ _ h _ => h
  · rename_i hnone
    refine .pure fun hb => ?_
    have hlt : b < scene.slots.length := hp.length ▸ (List.getElem?_eq_some_iff.1 hb).1
    exact (hnone _ hb (List.getElem?_eq_getElem hlt)).elim

/-- Whatever is forced keeps the progress sound. -/
theorem forces_force : scene.Forces scene.force :=
  fun b p => (ensures_forceWithin maxReferenceDepth b p).imp fun _ _ _ _ => trivial

/-! ## Items -/

/-- Where nothing is in progress, forcing finishes the binding. -/
theorem ensures_force {b : Nat} (hp : (Progress.initial scene.slots.length).Extends p)
    (hb : b < scene.slots.length) :
    scene.Ensures p (scene.force b) fun _ q => ∃ v, q.value? b = some v := by
  refine (ensures_forceWithin maxReferenceDepth b p).imp fun _ q hq hforced => ?_
  have hinitial : (Progress.initial scene.slots.length).states[b]? = some .unresolved :=
    List.getElem?_replicate_of_lt hb
  obtain ⟨s, hs, hbecomes⟩ := hp.states b _ hinitial
  cases hbecomes with
  | same => exact hforced hs
  | finished v => exact ⟨v, hq.grows.keeps b v (Progress.value?_eq_some_iff.2 hs)⟩

/-- **Building items is sound,** and finishes all bindings among them. -/
theorem ensures_buildItemsFrom : (items : List Item) → {next : Nat} → {p : Progress} →
    (Progress.initial scene.slots.length).Extends p →
    next + (Document.mk items).bindings.length ≤ scene.slots.length →
    scene.Ensures p (scene.buildItemsFrom next items) fun values q =>
      (∀ v ∈ values, scene.Built q .any v) ∧
      ∀ i, i < (Document.mk items).bindings.length → ∃ v, q.value? (next + i) = some v
  | [], _, _, _, _ => .pure ⟨List.forall_mem_nil _, fun _ h => absurd h (Nat.not_lt_zero _)⟩
  | .binding b :: items, next, p, hp, hlen => by
    have hlen : next + ((Document.mk items).bindings.length + 1) ≤ scene.slots.length := hlen
    rw [buildItemsFrom]
    refine (ensures_force hp (by omega)).bind fun _ q hq hforced => ?_
    refine (ensures_buildItemsFrom items (hp.trans hq) (by omega)).imp fun values r hr hvalues => ?_
    refine ⟨hvalues.1, fun i hi => ?_⟩
    cases i with
    | zero =>
      obtain ⟨v, hv⟩ := hforced
      exact ⟨v, hr.grows.keeps next v hv⟩
    | succ i =>
      rw [Nat.add_comm i 1, ← Nat.add_assoc]
      exact hvalues.2 i (Nat.lt_of_succ_lt_succ hi)
  | .value d :: items, next, p, hp, hlen => by
    rw [buildItemsFrom]
    refine (buildsData forces_force d .any p).bind fun v q hq hv => ?_
    refine (ensures_buildItemsFrom items (hp.trans hq) hlen).bind fun values r hr hvalues => .pure ?_
    exact ⟨List.forall_mem_cons.2 ⟨hv.1.mono hr.grows, hvalues.1⟩, hvalues.2⟩
  | .type _ :: items, _, _, hp, hlen | .rule _ :: items, _, _, hp, hlen => by
    simp only [buildItemsFrom]
    exact ensures_buildItemsFrom items hp hlen

/-! ## What had to wait -/

/-- The checks that had to wait fail by a verdict, unless there is nothing that a type is compared with, or a condition
still waits. -/
theorem error_of_runDeferred {e : Failure} (h : scene.runDeferred p = .error e) :
    e.IsVerdict ∨ (∃ name span, e = .reference (.selfDependency name span)) ∧
      ((∃ check ∈ p.checks, ∀ base target, p.value? check.binding = some base →
          base.follow p.value? scene.hops [] ≠ .ok target) ∨
        ∃ pending ∈ p.constraints, ∃ stop, scene.checkRecord p pending.ctor pending.fields pending.done
          pending.span = .ok (some stop)) := by
  unfold runDeferred at h
  cases hchecks : p.checks.forM (scene.runCheck p) with
  | error e' =>
    rw [hchecks] at h
    obtain rfl := Except.error.inj h
    obtain ⟨check, hmem, hfails⟩ := exists_error_of_forM hchecks
    rw [runCheck] at hfails
    split at hfails
    · split at hfails
      · cases hfails
      · obtain rfl := Except.error.inj hfails
        exact .inl ⟨_, _, rfl⟩
    · rename_i hnone
      obtain rfl := Except.error.inj hfails
      refine .inr ⟨⟨_, _, rfl⟩, .inl ⟨check, hmem, fun base target hbase htarget => ?_⟩⟩
      rw [hbase, Option.bind_some, htarget] at hnone
      cases hnone
  | ok u =>
    rw [hchecks] at h
    obtain ⟨pending, hmem, hfails⟩ := exists_error_of_forM h
    rw [runConstraints] at hfails
    split at hfails
    · cases hfails
    · rename_i hstop
      obtain rfl := Except.error.inj hfails
      exact .inr ⟨⟨_, _, rfl⟩, .inr ⟨pending, hmem, _, hstop⟩⟩
    · rename_i hcheck
      obtain rfl := Except.error.inj hfails
      exact .inl (isVerdict_of_checkConstraints _ _ hcheck)

/-- Every binding has a value. -/
def Finished (scene : Scene) (p : Progress) : Prop := ∀ b, b < scene.slots.length → ∃ v, p.value? b = some v

/-- What a type is compared with that had to wait is there when all bindings are finished. -/
theorem Sound.exists_target (h : scene.Sound p) (hfinished : scene.Finished p) {check : DeferredCheck}
    (hcheck : check.binding < scene.slots.length) :
    ∃ base target, p.value? check.binding = some base ∧ base.follow p.value? scene.hops [] = .ok target := by
  obtain ⟨base, hbase⟩ := hfinished check.binding hcheck
  obtain ⟨w, hw⟩ := h.walks_of_value? hbase
  exact ⟨base, w, hbase, h.settle_hops hw⟩

/-- The checks that had to wait fail by a verdict when all bindings are finished and no condition waits. -/
theorem Sound.isVerdict_of_runDeferred (h : scene.Sound p) (hfinished : scene.Finished p)
    (hchecks : ∀ check ∈ p.checks, check.binding < scene.slots.length)
    (hdecided : ∀ pending ∈ p.constraints, ∀ stop,
      scene.checkRecord p pending.ctor pending.fields pending.done pending.span ≠ .ok (some stop))
    {e : Failure} (hfails : scene.runDeferred p = .error e) : e.IsVerdict := by
  refine (error_of_runDeferred hfails).resolve_right ?_
  rintro ⟨-, ⟨check, hmem, hnone⟩ | ⟨pending, hmem, stop, hstop⟩⟩
  · obtain ⟨base, target, hbase, htarget⟩ := h.exists_target hfinished (hchecks check hmem)
    exact hnone base target hbase htarget
  · exact hdecided pending hmem stop hstop

/-- **When all items are built, all bindings are finished.** -/
theorem sound_of_buildItemsFrom (scene : Scene) {items : List Item} {values : List Value}
    (hlen : scene.slots.length = (Document.mk items).bindings.length)
    (h : (scene.buildItemsFrom 0 items).Gives (.initial scene.slots.length) values p) :
    scene.Sound p ∧ scene.Finished p ∧ ∀ v ∈ values, scene.Built p .any v := by
  obtain ⟨hsound, -, hbuilt, hfinished⟩ := ensures_buildItemsFrom items (.refl _)
    (by omega) (.initial scene) values p h
  refine ⟨hsound, fun b hb => ?_, hbuilt⟩
  have hvalue := hfinished b (hlen ▸ hb)
  rwa [Nat.zero_add] at hvalue

/-! ## Documents -/

/-- All bindings are finished, and everything that was left to be checked has been checked. -/
structure Complete (scene : Scene) (p : Progress) : Prop where
  sound : scene.Sound p
  finished : ∀ b, b < scene.slots.length → ∃ v, p.value? b = some v
  checks : ∀ check ∈ p.checks, scene.runCheck p check = .ok ()
  constraints : ∀ pending ∈ p.constraints, scene.runConstraints p pending = .ok ()

/-- Building a document builds its items, and then makes the checks that had to wait. -/
theorem outcome_buildDocument (scene : Scene) (items : List Item) :
    (scene.buildDocument items).outcome p =
      match (scene.buildItemsFrom 0 items).outcome p with
      | (.ok values, q) => ((scene.runDeferred q).map fun _ => ⟨scene.finished q, values⟩, q)
      | (.error e, q) => (.error e, q) := by
  rw [buildDocument, Build.outcome_bind]
  rcases (scene.buildItemsFrom 0 items).outcome p with ⟨e | values, q⟩
  · rfl
  · dsimp only
    rw [Build.outcome_get_bind, Build.outcome_bind]
    cases scene.runDeferred q <;> rfl

/-- A document that is built has built its items, made the checks that had to wait, and has the finished bindings. -/
theorem gives_of_buildDocument (scene : Scene) {items : List Item} {resolution : Resolution}
    (h : (scene.buildDocument items).Gives p resolution q) :
    (scene.buildItemsFrom 0 items).Gives p resolution.values q ∧ scene.runDeferred q = .ok () ∧
      resolution.bindings = scene.finished q := by
  rw [Build.Gives, outcome_buildDocument] at h
  rcases hout : (scene.buildItemsFrom 0 items).outcome p with ⟨e | values, q'⟩
  · rw [hout] at h
    cases h
  · rw [hout] at h
    obtain ⟨hresult, rfl⟩ := Prod.mk.inj h
    cases hrun : scene.runDeferred q' with
    | error e => rw [hrun] at hresult; cases hresult
    | ok u =>
      rw [hrun] at hresult
      obtain rfl := Except.ok.inj hresult
      exact ⟨hout, rfl, rfl⟩

/-- When all items are built and the checks are made, nothing is left open. -/
theorem complete_of_buildItemsFrom (scene : Scene) {items : List Item} {values : List Value}
    (hlen : scene.slots.length = (Document.mk items).bindings.length)
    (h : (scene.buildItemsFrom 0 items).Gives (.initial scene.slots.length) values p)
    (hrun : scene.runDeferred p = .ok ()) :
    scene.Complete p ∧ ∀ v ∈ values, scene.Built p .any v := by
  obtain ⟨hsound, hfinished, hbuilt⟩ := scene.sound_of_buildItemsFrom hlen h
  obtain ⟨_, hchecks, hconstraints⟩ := bind_eq_ok_iff.1 hrun
  exact ⟨⟨hsound, hfinished, forM_eq_ok_iff.1 hchecks, forM_eq_ok_iff.1 hconstraints⟩, hbuilt⟩

/-- **A document that is built is complete.** -/
theorem complete_of_buildDocument (scene : Scene) {items : List Item} {resolution : Resolution}
    (hlen : scene.slots.length = (Document.mk items).bindings.length)
    (h : (scene.buildDocument items).Gives (.initial scene.slots.length) resolution p) :
    scene.Complete p ∧ resolution.bindings = scene.finished p ∧
      ∀ v ∈ resolution.values, scene.Built p .any v := by
  obtain ⟨hvalues, hrun, hbindings⟩ := gives_of_buildDocument scene h
  obtain ⟨hcomplete, hbuilt⟩ := complete_of_buildItemsFrom scene hlen hvalues hrun
  exact ⟨hcomplete, hbindings, hbuilt⟩

end Scene

end TypedData
