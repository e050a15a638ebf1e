import TypedData.Load
import TypedData.Proofs.Building.Discipline
import TypedData.Proofs.Condition.Waiting
import TypedData.Proofs.Dependency.Document
import TypedData.Proofs.Simulation.Following

/-!
# Dependence that is real

A binding is found to depend on itself only where references form a cycle, and only if some reference needs
the value behind it: one that is all that a binding consists of, one that goes on to a field, or one that
stands where a number, a text or a truth value is expected (`Document.selfDependency_is_real`).  The depth
of the chain is exceeded only by more bindings than fit on it.

The failure may arise wherever a reference is built, and when the checks are made that had to wait.  While
building, a binding without a value is in progress, so it is on the chain, and the innermost binding refers to
it or to something that leads there; then references lead back to the innermost binding.  When all bindings
are finished every reference leads somewhere, so nothing has to wait any longer.
-/

namespace TypedData

namespace Data

/-- The references in an item are among those in the items. -/
theorem references_subset_items {d : Data} : {items : List Data} → d ∈ items →
    d.references ⊆ referencesOfItems items
  | e :: es, h => by
    rw [referencesOfItems]
    rcases List.mem_cons.1 h with rfl | h
    · exact List.subset_append_left ..
    · exact List.subset_append_of_subset_right _ (references_subset_items h)

/-- The references in an argument are among those in the arguments. -/
theorem references_subset_arguments {arg : Argument Data} : {args : List (Argument Data)} →
    arg ∈ args → arg.value.references ⊆ referencesOfArguments args
  | ⟨_, e⟩ :: args, h => by
    rw [referencesOfArguments]
    rcases List.mem_cons.1 h with rfl | h
    · exact List.subset_append_left ..
    · exact List.subset_append_of_subset_right _ (references_subset_arguments h)

/-- The references in an entry are among those in the entries. -/
theorem references_subset_entries {d : Data} : {entries : List (Entry Data)} →
    (∃ arg ∈ entries.map Entry.argument, arg.value = d) →
      d.references ⊆ referencesOfEntries entries
  | ⟨_, _, e⟩ :: entries, ⟨arg, h, hd⟩ => by
    rw [referencesOfEntries]
    rcases List.mem_cons.1 h with rfl | h
    · exact hd ▸ List.subset_append_left ..
    · exact List.subset_append_of_subset_right _ (references_subset_entries ⟨arg, h, hd⟩)

/-- What stands directly in data has no other references. -/
theorem references_of_parts {r : Registry} {d e : Data} {t u : Ty} (h : (e, u) ∈ d.parts r t) :
    e.references ⊆ d.references := by
  have hentries {entries : List (Entry Data)} (h : (e, u) ∈ partsOfEntries r entries t.required) :
      e.references ⊆ referencesOfEntries entries := by
    rcases mem_of_partsOfEntries h with harg | ⟨entry, hentry, inner, hinner, harg⟩
    · exact references_subset_entries harg
    · have hvalue : entry.value.references = referencesOfEntries inner := by
        cases hd : entry.value with
        | record | fieldBlock | dashRecord =>
          rw [hd] at hinner
          obtain rfl := Option.some.inj hinner
          rfl
        | _ => rw [hd] at hinner; cases hinner
      exact List.Subset.trans (hvalue ▸ references_subset_entries harg)
        (references_subset_entries ⟨_, List.mem_map_of_mem hentry, rfl⟩)
  cases d with
  | list span items | dashList span items =>
    rw [parts] at h
    cases hitem : t.required.item? with
    | none => rw [hitem] at h; cases h
    | some item =>
      rw [hitem] at h
      obtain ⟨d, hd, hpair⟩ := List.mem_map.1 h
      obtain ⟨rfl, -⟩ := Prod.mk.inj hpair
      exact references_subset_items hd
  | call span ctor args =>
    obtain ⟨arg, harg, rfl⟩ := Registry.mem_of_fitted h
    exact references_subset_arguments harg
  | ctorBlock span ctor entries => exact references_subset_entries (Registry.mem_of_fitted h)
  | listBlock span ctor items =>
    obtain ⟨arg, harg, rfl⟩ := Registry.mem_of_fitted h
    obtain rfl := List.mem_singleton.1 harg
    exact List.Subset.refl _
  | record span entries | fieldBlock span entries | dashRecord span entries => exact hentries h
  | _ => cases h

/-- A reference that stands in data is one of its references. -/
theorem Stands.mem_references {r : Registry} {d : Data} {t u : Ty} {span : Span} {name : String}
    {path : List String} (h : d.Stands r t (.reference span name path) u) :
    (name, path) ∈ d.references := by
  generalize hx : reference span name path = x at h
  induction h with
  | self => exact hx ▸ .head _
  | part hpart _ ih => exact references_of_parts hpart (ih hx)

end Data

/-- A reference in the data, which is read where a type is expected, needs the value behind it. -/
def Data.Needs (r : Registry) (d : Data) (t : Ty) : Prop :=
  ∃ span name path u, d.Stands r t (.reference span name path) u ∧
    (path ≠ [] ∨ u.required.isScalar = true)

namespace Scene

open Relation (ReflTransGen TransGen)

variable {scene : Scene} {urgent : Prop} {depth : Nat} {chain : List Nat} {p q : Progress} {b : Nat}

/-! ## Between steps -/

/-- Every reference in the value names a binding. -/
def Known (scene : Scene) (v : Value) : Prop :=
  ∀ r, Value.Part (.ref r) v → r.binding < scene.slots.length

/-- What holds between steps as long as nothing has failed: what is left to be checked is about bindings
that there are, and the bindings that are not begun fit on the chain, if all of them do. -/
structure Tracked (scene : Scene) (depth : Nat) (chain : List Nat) (p : Progress) : Prop where
  linked : scene.Linked chain p
  unbegun : scene.slots.length ≤ maxReferenceDepth → p.unbegun ≤ depth
  checks : ∀ check ∈ p.checks, check.binding < scene.slots.length
  constraints : ∀ pending ∈ p.constraints, ∀ f ∈ pending.fields, scene.Known f.value

namespace Tracked

/-- Before anything is built, everything may be built and nothing is on the chain. -/
theorem initial (scene : Scene) :
    scene.Tracked maxReferenceDepth [] (.initial scene.slots.length) where
  linked := .initial scene
  unbegun h := (Progress.unbegun_initial _).symm ▸ h
  checks := List.forall_mem_nil _
  constraints := List.forall_mem_nil _

/-- A binding that the innermost one mentions is tracked when it begins to be built, with one level less to go. -/
theorem enter (h : scene.Tracked (depth + 1) chain p) (hb : p.states[b]? = some .unresolved)
    (hmention : ∀ c ∈ chain.head?, scene.Mentions c b) :
    scene.Tracked depth (b :: chain) (p.enter b) where
  linked := h.linked.enter hb hmention
  unbegun hfits := by
    have hbegun := Progress.unbegun_enter hb
    have hle := h.unbegun hfits
    omega
  checks := h.checks
  constraints := h.constraints

/-- When the innermost binding is finished, the level that it took is free again. -/
theorem leave {v : Value} (h : scene.Tracked depth (b :: chain) p)
    (hlinked : scene.Linked chain (p.leave b (.resolved v))) :
    scene.Tracked (depth + 1) chain (p.leave b (.resolved v)) where
  linked := hlinked
  unbegun hfits := Nat.le_succ_of_le (Nat.le_trans (p.unbegun_leave b v) (h.unbegun hfits))
  checks := h.checks
  constraints := h.constraints

/-- A check of one of the bindings may be put off. -/
theorem deferCheck (h : scene.Tracked depth chain p) {check : DeferredCheck}
    (hcheck : check.binding < scene.slots.length) : scene.Tracked depth chain (p.deferCheck check) where
  linked := h.linked.of_states rfl rfl rfl (Progress.Extends.deferCheck p check).grows
  unbegun := h.unbegun
  checks := List.forall_mem_append.2 ⟨h.checks, List.forall_mem_singleton.2 hcheck⟩
  constraints := h.constraints

/-- Conditions on known fields may be put off. -/
theorem deferConstraints (h : scene.Tracked depth chain p) {pending : DeferredConstraints}
    (hpending : ∀ f ∈ pending.fields, scene.Known f.value) :
    scene.Tracked depth chain (p.deferConstraints pending) where
  linked := h.linked.of_states rfl rfl rfl (Progress.Extends.deferConstraints p pending).grows
  unbegun := h.unbegun
  checks := h.checks
  constraints := List.forall_mem_append.2 ⟨h.constraints, List.forall_mem_singleton.2 hpending⟩

end Tracked

/-! ## Failures that are real -/

/-- A binding depends on itself only if references form a cycle and `urgent` holds, and the depth is
exceeded only if not all bindings fit on the chain. -/
structure Real (scene : Scene) (urgent : Prop) (e : Failure) : Prop where
  selfDependency : ∀ name span, e = .reference (.selfDependency name span) →
    (∃ b, TransGen scene.Mentions b b) ∧ urgent
  tooDeep : ∀ name span, e = .reference (.tooDeep name span) →
    maxReferenceDepth < scene.slots.length

/-- A failure that is not one of a reference blames nobody. -/
theorem Real.of_ne_reference {e : Failure} (h : ∀ problem, e ≠ .reference problem) :
    scene.Real urgent e :=
  ⟨fun _ _ he => absurd he (h _), fun _ _ he => absurd he (h _)⟩

/-- The step leaves a progress as it should be and gives something with a property, or its failure is
real. -/
def Blames (scene : Scene) (urgent : Prop) (depth : Nat) (chain : List Nat) {α : Type} (m : Build α)
    (P : α → Prop) (p : Progress) : Prop :=
  match m.outcome p with
  | (.ok a, q) => scene.Tracked depth chain q ∧ P a
  | (.error e, _) => scene.Real urgent e

namespace Blames

variable {α β : Type} {P : α → Prop} {Q : β → Prop}

/-- A step that does nothing blames nobody. -/
theorem pure {a : α} (hp : scene.Tracked depth chain p) (ha : P a) :
    scene.Blames urgent depth chain (Pure.pure a) P p := ⟨hp, ha⟩

/-- A failure with real blame may end a step. -/
theorem throw {e : Failure} (he : scene.Real urgent e) :
    scene.Blames urgent depth chain (MonadExcept.throw e : Build α) P p := he

/-- A change that keeps track may be made. -/
theorem modify {f : Progress → Progress} (h : scene.Tracked depth chain (f p)) :
    scene.Blames urgent depth chain (modify f : Build Unit) (fun _ => True) p := ⟨h, trivial⟩

/-- What the first step gives may be used for the second. -/
theorem bind {m : Build α} {k : α → Build β} (hm : scene.Blames urgent depth chain m P p)
    (hk : ∀ a q, m.Gives p a q → scene.Tracked depth chain q → P a →
      scene.Blames urgent depth chain (k a) Q q) :
    scene.Blames urgent depth chain (m >>= k) Q p := by
  unfold Blames at hm ⊢
  rw [Build.outcome_bind]
  rcases hout : m.outcome p with ⟨e | a, q⟩
  · rw [hout] at hm
    exact hm
  · rw [hout] at hm
    exact hk a q hout hm.1 hm.2

/-- A step that looks at the progress blames as it does where it starts. -/
theorem get_bind {k : Progress → Build β} (h : scene.Blames urgent depth chain (k p) Q p) :
    scene.Blames urgent depth chain (get >>= k) Q p := h

end Blames

/-- Conditions on known fields blame nobody. -/
theorem blames_settleConditions (hp : scene.Tracked depth chain p) (ctor : String)
    {fields : List (Field Value)} (span : Span) (hfields : ∀ f ∈ fields, scene.Known f.value) :
    scene.Blames urgent depth chain (scene.settleConditions ctor fields span) (fun _ => True) p := by
  unfold settleConditions
  refine .get_bind ?_
  cases hstop : scene.checkRecord p ctor fields 0 span with
  | error e =>
    have hreal : scene.Real urgent e :=
      .of_ne_reference (isVerdict_of_checkConstraints _ _ hstop).ne_reference
    exact Blames.bind (P := fun _ => True) (.throw hreal) fun _ _ h => absurd h Build.not_gives_throw
  | ok stop =>
    refine Blames.bind (P := fun _ => True) (.pure hp trivial) fun stop q _ hq _ => ?_
    cases stop with
    | none => exact .pure hq trivial
    | some stop => exact .modify (hq.deferConstraints hfields)

/-- Failures that are real, as a discipline of building. -/
def blaming (scene : Scene) (urgent : Prop) (depth : Nat) (chain : List Nat) : Discipline scene where
  Keeps m P := ∀ p, scene.Tracked depth chain p → scene.Blames urgent depth chain m P p
  Fine := scene.Known
  plain hv r hr := by cases hv.part hr
  list h r hr := by
    cases hr with
    | item hv hpart => exact h _ hv r hpart
  record h r hr := by
    cases hr with
    | field hf hpart => exact h _ hf r hpart
  pure ha p hp := .pure hp ha
  throw he p _ := .throw (.of_ne_reference he)
  bind hm hk p hp := (hm p hp).bind fun a q _ hq ha => hk a ha q hq
  conditions ctor _ span hfields p hp := blames_settleConditions hp ctor span hfields

/-! ## References -/

section References

variable {force : Nat → Build Unit} {name : String} {path : List String} {span : Span} {t : Ty}
  {whole : Bool}

/-- Where references lead from a binding that the innermost one refers to back onto the chain, they form a
cycle. -/
theorem Linked.exists_cycle (h : scene.Linked chain p)
    (hmention : ∀ c ∈ chain.head?, scene.Mentions c b) {c : Nat} (hc : c ∈ chain)
    (hreach : ReflTransGen scene.Mentions b c) : ∃ d, TransGen scene.Mentions d d := by
  cases chain with
  | nil => cases hc
  | cons cur chain =>
    exact ⟨cur, .head' (hmention cur rfl) (hreach.trans (reflTransGen_of_mem h.mentions hc))⟩

/-- **An unfinished binding that cannot be used closes a cycle** of references, one of which is urgent. -/
theorem blames_useUnfinished (hp : scene.Tracked depth chain p)
    (hmention : ∀ c ∈ chain.head?, scene.Mentions c b) (hb : p.states[b]? = some .inProgress)
    (hurgent : whole = true ∨ path ≠ [] ∨ t.isScalar = true → urgent) :
    scene.Blames urgent depth chain (useUnfinished b name path span t whole) (fun _ => True) p := by
  have hlt : b < scene.slots.length :=
    hp.linked.sound.length ▸ (List.getElem?_eq_some_iff.1 hb).1
  have hrest : scene.Blames urgent depth chain (do
      unless t.isOpen do modify (·.deferCheck ⟨b, t, span⟩)) (fun _ => True) p := by
    split
    · exact .pure hp trivial
    · exact .modify (hp.deferCheck hlt)
  unfold useUnfinished
  dsimp only
  split
  · rename_i hbad
    have hcycle := hp.linked.exists_cycle hmention (hp.linked.inProgress b hb) .refl
    have hneeds : whole = true ∨ path ≠ [] ∨ t.isScalar = true := by
      simp only [Bool.or_eq_true, Bool.not_eq_true', List.isEmpty_eq_false_iff] at hbad
      rcases hbad with (h | h) | h
      · exact .inl h
      · exact .inr (.inr h)
      · exact .inr (.inl h)
    have hreal : scene.Real urgent (.reference (.selfDependency name span)) :=
      ⟨fun _ _ _ => ⟨hcycle, hurgent hneeds⟩, by rintro _ _ ⟨⟩⟩
    exact Blames.bind (P := fun _ => True) (.throw hreal) fun _ _ h => absurd h Build.not_gives_throw
  · exact hrest

/-- A finished binding that cannot be used leads to a binding on the chain. -/
theorem blames_useFinished (hp : scene.Tracked depth chain p)
    (hmention : ∀ c ∈ chain.head?, scene.Mentions c b) {v : Value} (hv : p.value? b = some v)
    (hurgent : path ≠ [] → urgent) :
    scene.Blames urgent depth chain (scene.useFinished v name path span t) (fun _ => True) p := by
  have hother {e : Failure} (he : ∀ problem, e ≠ .reference problem) :
      scene.Blames urgent depth chain (throw e : Build Unit) (fun _ => True) p :=
    .throw (.of_ne_reference he)
  unfold useFinished
  refine .get_bind ?_
  split
  · split
    · exact .pure hp trivial
    · exact hother (by rintro _ ⟨⟩)
  · exact .throw ⟨by rintro _ _ ⟨⟩, by rintro _ _ ⟨⟩⟩
  · rename_i other hfails
    obtain ⟨hpath, c, hc, hreach⟩ := hp.linked.unfinished_of_follow hv hfails
    have hcycle := hp.linked.exists_cycle hmention hc hreach
    exact .throw ⟨fun _ _ _ => ⟨hcycle, hurgent hpath⟩, by rintro _ _ ⟨⟩⟩

/-- Forcing fails only for real, if the innermost binding refers to the binding that is forced. -/
def BlamesForcing (scene : Scene) (urgent : Prop) (depth : Nat) (chain : List Nat)
    (force : Nat → Build Unit) : Prop :=
  ∀ b p, (∀ c ∈ chain.head?, scene.Mentions c b) → scene.Tracked depth chain p →
    scene.Blames urgent depth chain (force b) (fun _ => True) p

/-- **A reference fails only for real,** if the innermost binding is where it stands. -/
theorem blames_buildReference (hforce : scene.BlamesForcing urgent depth chain force)
    (hbegins : scene.Begins force)
    (hmention : ∀ b, scene.indexOf? name = some b → ∀ c ∈ chain.head?, scene.Mentions c b)
    (hurgent : whole = true ∨ path ≠ [] ∨ t.peeled.isScalar = true → urgent) :
    (scene.blaming urgent depth chain).Builds
      (scene.buildReference force name path span t whole) := by
  intro p hp
  rw [buildReference_eq]
  split
  · exact .throw ⟨by rintro _ _ ⟨⟩, by rintro _ _ ⟨⟩⟩
  · rename_i b hname
    obtain ⟨slot, hslot, -⟩ := slot_of_indexOf? hname
    have hlt := (List.getElem?_eq_some_iff.1 hslot).1
    have huse : scene.Blames urgent depth chain
        (scene.useBinding force b name path span t.peeled whole) (fun _ => True) p := by
      unfold useBinding
      refine (hforce b p (hmention b hname) hp).bind fun _ q hgives hq _ => ?_
      unfold useForced
      refine .get_bind ?_
      split
      · rename_i hb
        exact blames_useUnfinished hq (hmention b hname) hb hurgent
      · rename_i v hb
        exact blames_useFinished hq (hmention b hname) (Progress.value?_eq_some_iff.2 hb)
          fun hpath => hurgent (.inr (.inl hpath))
      · rename_i hprogress hresolved
        have hbegun := (hbegins name b hname p hp.linked.sound _ q hgives).2.2
        rcases hq.linked.inProgress_or_finished hbegun with hb | ⟨v, hb⟩
        · exact absurd hb hprogress
        · exact absurd hb (hresolved v)
    refine huse.bind fun _ q _ hq _ => .pure hq fun r hr => ?_
    cases hr
    exact hlt

end References

/-! ## Bindings -/

/-- **Forcing fails only for real.** -/
theorem blames_forceWithin
    (halias : ∀ slot ∈ scene.slots, slot.data.isReference = true → urgent)
    (hneeds : ∀ slot ∈ scene.slots, slot.data.Needs scene.registry slot.type → urgent) (depth : Nat)
    (chain : List Nat) (hroom : depth + chain.length ≤ maxReferenceDepth) :
    scene.BlamesForcing urgent depth chain (scene.forceWithin depth) := by
  induction depth generalizing chain with
  | zero =>
    intro b p _ hp
    rw [forceWithin.eq_def]
    refine .get_bind ?_
    split
    · -- if all bindings fit on the chain, none is left to be begun here, but this one is
      rename_i slot hb _
      refine .throw ⟨by rintro _ _ ⟨⟩, fun _ _ _ => Nat.lt_of_not_le fun hfits => ?_⟩
      have hbegun := Progress.unbegun_enter hb
      have hle := hp.unbegun hfits
      omega
    · exact .pure hp trivial
  | succ depth ih =>
    intro b p hmention hp
    rw [forceWithin.eq_def]
    refine .get_bind ?_
    split
    · rename_i slot hb hslot
      have hforcing : ¬ maxReferenceDepth ≤ p.forcing := by
        have hlen := hp.linked.forcing_eq
        omega
      have hinside := ih (b :: chain) (by rw [List.length_cons]; omega)
      have hmem := List.mem_of_getElem? hslot
      have hentered := hp.enter hb hmention
      have hrefers {name path span t whole} (hmem : (name, path) ∈ slot.data.references)
          (hurgent : whole = true ∨ path ≠ [] ∨ t.peeled.isScalar = true → urgent) :
          (scene.blaming urgent depth (b :: chain)).Builds
            (scene.buildReference (scene.forceWithin depth) name path span t whole) :=
        blames_buildReference hinside (begins_forceWithin depth)
          (fun c hc d hd => Option.some.inj hd ▸ ⟨slot, name, path, hslot, hmem, hc⟩) hurgent
      have hbuilds : (scene.blaming urgent depth (b :: chain)).Builds
          (scene.buildSlot (scene.forceWithin depth) slot) := by
        refine Discipline.buildSlot slot (fun span name path u hstands => ?_)
          fun span name path hdata => ?_
        · refine hrefers hstands.mem_references fun hurgent => hneeds slot hmem ?_
          rw [Ty.peeled_required] at hurgent
          exact ⟨span, name, path, u, hstands, hurgent.resolve_left Bool.false_ne_true⟩
        · exact hrefers (hdata ▸ .head _) fun _ => halias slot hmem (hdata ▸ rfl)
      have hbuilt := hbuilds _ hentered
      dsimp only
      rw [if_neg hforcing]
      unfold Blames at hbuilt ⊢
      rw [Build.outcome_onChain]
      rcases hout : (scene.buildSlot (scene.forceWithin depth) slot).outcome (p.enter b) with
        ⟨e | v, q⟩
      · rw [hout] at hbuilt
        exact hbuilt
      · rw [hout] at hbuilt
        have hlinked := hp.linked.leave_built hb hslot hmention hout hbuilt.1.linked
        exact ⟨hbuilt.1.leave hlinked, trivial⟩
    · exact .pure hp trivial

/-! ## When all bindings are finished -/

/-- Once nothing is in progress, conditions over known values meet only references that lead somewhere. -/
theorem Tracked.leads (hp : scene.Tracked depth [] p) (hfinished : scene.Finished p)
    {fields : List (Field Value)} (hfields : ∀ f ∈ fields, scene.Known f.value) :
    (recordEnvironment p.value? scene.hops fields).Leads fun r => r.binding < scene.slots.length := by
  refine recordEnvironment_leads hfields fun r hr => ?_
  obtain ⟨base, hbase⟩ := hfinished r.binding hr
  refine ⟨base, hbase, fun name hfails => ?_, fun v hv r' hr' => ?_⟩
  · obtain ⟨-, c, hc, -⟩ := hp.linked.unfinished_of_follow hbase hfails
    cases hc
  · have hfound : Linked.Found scene p r.binding v :=
      (Value.walkFields_ok_imp (fun _ _ _ hx hy => hx.field? hy)
        (fun _ _ hx hu => ⟨hx.settle hp.linked hu, hu⟩) ⟨r.binding, base, .refl, hbase, .self base⟩ hv).1
    obtain ⟨c, w, hreach, hw, hpart⟩ := hfound
    obtain ⟨_, hbegun, -⟩ := (hp.linked.mentions_of_part hw (hr'.trans hpart)).2
    exact hp.linked.sound.length ▸ (List.getElem?_eq_some_iff.1 hbegun).1

/-- **Nothing has to wait any longer** when all bindings are finished. -/
theorem Tracked.runDeferred_ne_reference (hp : scene.Tracked depth [] p) (hfinished : scene.Finished p)
    {e : Failure} (h : scene.runDeferred p = .error e) : ∀ problem, e ≠ .reference problem := by
  have hverdict : e.IsVerdict := hp.linked.sound.isVerdict_of_runDeferred hfinished hp.checks
    (fun pending hmem _ => checkConstraints_ne_some (hp.leads hfinished (hp.constraints pending hmem)) _ _) h
  exact hverdict.ne_reference

/-! ## Documents -/

section Document

variable (halias : ∀ slot ∈ scene.slots, slot.data.isReference = true → urgent)
  (hneeds : ∀ slot ∈ scene.slots, slot.data.Needs scene.registry slot.type → urgent)

include halias hneeds

/-- Items blame only what is to blame, from the bindings and the values among them. -/
theorem blames_buildItemsFrom : (items : List Item) → (next : Nat) → {p : Progress} →
    (∀ d ∈ (Document.mk items).values, d.Needs scene.registry .any → urgent) →
    scene.Tracked maxReferenceDepth [] p →
    scene.Blames urgent maxReferenceDepth [] (scene.buildItemsFrom next items) (fun _ => True) p
  | [], _, _, _, hp => .pure hp trivial
  | .binding b :: items, next, p, hvalues, hp => by
    have hforce := blames_forceWithin halias hneeds maxReferenceDepth [] (by decide)
    rw [buildItemsFrom]
    exact (hforce next p (by rintro _ ⟨⟩) hp).bind fun _ q _ hq _ =>
      blames_buildItemsFrom items (next + 1) hvalues hq
  | .value d :: items, next, p, hvalues, hp => by
    obtain ⟨hd, hvalues⟩ := List.forall_mem_cons.1 hvalues
    have hbuilds : (scene.blaming urgent maxReferenceDepth []).Builds
        (buildData scene scene.force d .any) := by
      refine Discipline.buildData d fun span name path u hstands => ?_
      refine blames_buildReference (blames_forceWithin halias hneeds maxReferenceDepth [] (by decide))
        (begins_forceWithin maxReferenceDepth) (by rintro _ _ _ ⟨⟩) fun hurgent => hd ?_
      rw [Ty.peeled_required] at hurgent
      exact ⟨span, name, path, u, hstands, hurgent.resolve_left Bool.false_ne_true⟩
    rw [buildItemsFrom]
    exact Blames.bind (hbuilds p hp) fun v q _ hq _ =>
      (blames_buildItemsFrom items next hvalues hq).bind fun _ r _ hr _ => .pure hr trivial
  | .type _ :: items, next, p, hvalues, hp | .rule _ :: items, next, p, hvalues, hp => by
    simp only [buildItemsFrom]
    exact blames_buildItemsFrom items next hvalues hp

/-- **A document that cannot be built fails for real.** -/
theorem real_of_buildDocument {items : List Item} {e : Failure}
    (hvalues : ∀ d ∈ (Document.mk items).values, d.Needs scene.registry .any → urgent)
    (hlen : scene.slots.length = (Document.mk items).bindings.length)
    (h : ((scene.buildDocument items).run (.initial scene.slots.length)).1 = .error e) :
    scene.Real urgent e := by
  have hblames := blames_buildItemsFrom halias hneeds items 0 hvalues (.initial scene)
  change ((scene.buildDocument items).outcome (.initial scene.slots.length)).1 = _ at h
  unfold Blames at hblames
  rw [outcome_buildDocument] at h
  rcases hout : (scene.buildItemsFrom 0 items).outcome (.initial scene.slots.length) with
    ⟨e' | values, q⟩
  · rw [hout] at h hblames
    obtain rfl := Except.error.inj h
    exact hblames
  · rw [hout] at h hblames
    dsimp only at h
    obtain ⟨-, hfinished, -⟩ := scene.sound_of_buildItemsFrom hlen hout
    cases hrun : scene.runDeferred q with
    | ok u => rw [hrun] at h; cases h
    | error e' =>
      rw [hrun] at h
      obtain rfl := Except.error.inj h
      exact .of_ne_reference (hblames.1.runDeferred_ne_reference hfinished hrun)

end Document

/-- Bindings that make no slots have types that are not there, or two of them have the same name. -/
theorem duplicate_of_slotsOf {registry : Registry} {problem : ReferenceError} :
    {bindings : List Binding} → {seen : List String} →
      slotsOf registry seen bindings = .error (.reference problem) →
      ∃ name span, problem = .duplicateBinding name span
  | [], _, h => by cases h
  | binding :: bindings, seen, h => by
    rw [slotsOf_cons] at h
    split at h
    · obtain rfl := Failure.reference.inj (Except.error.inj h)
      exact ⟨_, _, rfl⟩
    · cases hslot : slotOf registry binding with
      | error e =>
        rw [hslot] at h
        obtain rfl := Except.error.inj h
        unfold slotOf slotType at hslot
        split at hslot
        · cases hslot
        · rename_i type _
          cases htype : registry.resolveType [] type with
          | ok t => rw [htype] at hslot; cases hslot
          | error e => rw [htype] at hslot; cases hslot
      | ok slot =>
        rw [hslot] at h
        cases hrest : slotsOf registry (binding.name :: seen) bindings with
        | error e =>
          rw [hrest] at h
          obtain rfl := Except.error.inj h
          exact duplicate_of_slotsOf hrest
        | ok rest => rw [hrest] at h; cases h

end Scene

namespace Document

open Relation (TransGen)

/-- The data stands in the document, where the type is expected. -/
def Stands (d : Document) (registry : Registry) (x : Data) (t : Ty) : Prop :=
  (∃ b ∈ d.bindings, ∃ u, Scene.slotType registry b.type = .ok u ∧ b.value.Stands registry u x t) ∨
    ∃ v ∈ d.values, v.Stands registry .any x t

/-- The document has a reference that needs the value behind it: it is the whole value of a binding, or
it goes on to a field, or it stands where a number, a text or a truth value is expected. -/
def HasUrgentReference (d : Document) (registry : Registry) : Prop :=
  (∃ b ∈ d.bindings, b.value.isReference = true) ∨
    ∃ span name path t, d.Stands registry (.reference span name path) t ∧
      (path ≠ [] ∨ t.required.isScalar = true)

/-- **A binding is found to depend on itself only where it does:** the references between the bindings form
a cycle, and some reference needs the value behind it.  The depth of the chain is exceeded only if the
document has more bindings than fit on it. -/
theorem selfDependency_is_real (d : Document) (registry : Registry) (rules : List Rule) :
    (∀ name span, d.resolve registry rules = .error (.reference (.selfDependency name span)) →
      (∃ b ∈ d.bindings, TransGen d.Mentions b.name b.name) ∧ d.HasUrgentReference registry) ∧
    (d.bindings.length ≤ maxReferenceDepth → ∀ name span,
      d.resolve registry rules ≠ .error (.reference (.tooDeep name span))) := by
  cases hslots : Scene.slotsOf registry [] d.bindings with
  | error e =>
    have hresolve : d.resolve registry rules = .error e := by rw [resolve, hslots]; rfl
    rw [hresolve]
    refine ⟨fun name span h => ?_, fun _ name span h => ?_⟩
    · obtain ⟨_, _, h⟩ := Scene.duplicate_of_slotsOf (hslots.trans (congrArg _ (Except.error.inj h)))
      cases h
    · obtain ⟨_, _, h⟩ := Scene.duplicate_of_slotsOf (hslots.trans (congrArg _ (Except.error.inj h)))
      cases h
  | ok slots =>
    let scene : Scene := ⟨registry, rules, slots, Scene.maxTextDepth⟩
    have hforall : List.Forall₂ (fun b slot => Scene.slotOf scene.registry b = .ok slot)
        d.bindings scene.slots := (Scene.slotsOf_eq_ok_iff.1 hslots).2.2
    have hlen : scene.slots.length = d.bindings.length := hforall.length_eq.symm
    -- what is said of slots is said of the bindings that they are made of
    have hbinding : ∀ slot ∈ scene.slots, ∃ b ∈ d.bindings, b.value = slot.data ∧
        Scene.slotType registry b.type = .ok slot.type := fun slot hslot => by
      obtain ⟨i, hi⟩ := List.mem_iff_getElem?.1 hslot
      obtain ⟨b, hb, -, hdata, htype⟩ := binding_of_slot hforall hi
      exact ⟨b, hb, hdata, htype⟩
    have halias : ∀ slot ∈ scene.slots, slot.data.isReference = true →
        d.HasUrgentReference registry := fun slot hslot h => by
      obtain ⟨b, hb, hdata, -⟩ := hbinding slot hslot
      exact .inl ⟨b, hb, hdata ▸ h⟩
    have hneeds : ∀ slot ∈ scene.slots, slot.data.Needs registry slot.type →
        d.HasUrgentReference registry := by
      rintro slot hslot ⟨span, name, path, t, hstands, hneeded⟩
      obtain ⟨b, hb, hdata, htype⟩ := hbinding slot hslot
      exact .inr ⟨span, name, path, t, .inl ⟨b, hb, _, htype, hdata ▸ hstands⟩, hneeded⟩
    have hvalues : ∀ v ∈ d.values, v.Needs registry .any → d.HasUrgentReference registry := by
      rintro v hv ⟨span, name, path, t, hstands, hneeded⟩
      exact .inr ⟨span, name, path, t, .inr ⟨v, hv, hstands⟩, hneeded⟩
    have hresolve : d.resolve registry rules =
        ((scene.buildDocument d.items).run (.initial scene.slots.length)).1 := by
      rw [resolve, hslots]
      rfl
    have hreal {e : Failure} (h : d.resolve registry rules = .error e) :
        scene.Real (d.HasUrgentReference registry) e :=
      Scene.real_of_buildDocument halias hneeds hvalues hlen (hresolve ▸ h)
    refine ⟨fun name span h => ?_, fun hfits name span h => ?_⟩
    · obtain ⟨⟨i, hcycle⟩, hurgent⟩ := (hreal h).selfDependency name span rfl
      obtain ⟨_, ⟨slot, _, _, hslot, -⟩, -⟩ := TransGen.head'_iff.1 hcycle
      obtain ⟨b, hb, hname, -⟩ := binding_of_slot hforall hslot
      refine ⟨⟨b, hb, ?_⟩, hurgent⟩
      rw [hname, ← Scene.nameOf_of_slot hslot]
      exact hcycle.lift scene.nameOf fun _ _ => mentions_of_slots hforall
    · have hdeep := (hreal h).tooDeep name span rfl
      omega

/-- Two bindings that are nothing but references to each other. -/
def loop : String := "x := !y\ny := !x\n"

/-- Both of them are found to depend on themselves, and they do. -/
theorem selfDependency_is_real_loop : ∃ d, Document.read loop = .ok d ∧
    (∃ name span, d.resolve ⟨[], [], []⟩ [] = .error (.reference (.selfDependency name span)) ∧
      (∃ b ∈ d.bindings, TransGen d.Mentions b.name b.name) ∧ d.HasUrgentReference ⟨[], [], []⟩) ∧
    d.bindings.length ≤ maxReferenceDepth ∧
    ∀ name span, d.resolve ⟨[], [], []⟩ [] ≠ .error (.reference (.tooDeep name span)) := by
  have htest : (Document.read loop).toOption.any (fun d =>
      isSelfDependent (d.resolve ⟨[], [], []⟩ []) && d.bindings.length == 2) = true := by
    decide +kernel
  obtain ⟨d, hd, htest⟩ := exists_ok_of_any htest
  obtain ⟨hself, hlen⟩ := Bool.and_eq_true_iff.1 htest
  have hfits : d.bindings.length ≤ maxReferenceDepth := by
    rw [beq_iff_eq.1 hlen]
    decide
  obtain ⟨hreal, hdeep⟩ := selfDependency_is_real d ⟨[], [], []⟩ []
  obtain ⟨name, span, hresolve⟩ := exists_of_isSelfDependent hself
  exact ⟨d, hd, ⟨name, span, hresolve, hreal name span hresolve⟩, hfits, hdeep hfits⟩

end Document

end TypedData
