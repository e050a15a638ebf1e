import TypedData.Proofs.Dependency.SelfDependency
import TypedData.Proofs.Simulation.Agreement

/-!
# What was left for the end

When all bindings and values of a document are built, the checks that had to wait are made.  They come to a
verdict on the values (`Document.deferred_checks_conclude`): no binding is found to depend on itself now, and of the
references that the conditions follow there is none that leads nowhere.

A record that had to wait is kept with its fields, and not every one of its references led somewhere when it
was kept.  A whole reference to a binding that was in progress leads somewhere once all bindings are
finished.  A reference with a path led somewhere over the bindings that were finished then; these keep their
values, since what the data of a binding gives does not depend on when it is built (`Provides.unique`).
So what is known of such a reference is told without the progress (`Destined`), and a discipline of building
keeps it of all fields that have to wait (`vouching`).
-/

namespace TypedData

/-! ## References that are never followed -/

namespace Expr

/-- **A condition does not depend on where a reference leads that it does not meet.**  It meets those of `S`
only. -/
theorem check_eq_of_leads {env env' : Environment} {S : Reference → Prop} (hleads : env.Leads S)
    (hlookup : env'.lookup = env.lookup) (hfollow : ∀ r, S r → env'.follow r = env.follow r) (e : Expr) :
    e.check env' = e.check env := by
  classical
  -- What both environments know: beyond `S` no reference leads anywhere.
  let common : Environment :=
    ⟨env.lookup, fun r => if S r then env.follow r else .error (.unavailable r.name)⟩
  have hcommon : common.Leads S :=
    ⟨hleads.lookup, fun r hr => by dsimp only [common]; rw [if_pos hr]; exact hleads.follow r hr⟩
  have hextends {other : Environment} (hlookup : other.lookup = env.lookup)
      (hfollow : ∀ r, S r → other.follow r = env.follow r) : common.Extends other := by
    refine ⟨fun name => congrFun hlookup name, fun r => ?_⟩
    dsimp only [common]
    by_cases hr : S r
    · rw [if_pos hr]
      exact .inr (hfollow r hr)
    · rw [if_neg hr]
      exact .inl ⟨r.name, rfl⟩
  have hsettled : ¬ Waits (e.check common) := e.not_waits_check hcommon
  have henv : e.check env = e.check common :=
    (e.check_agrees (hextends rfl fun _ _ => rfl)).resolve_left hsettled
  exact ((e.check_agrees (hextends hlookup hfollow)).resolve_left hsettled).trans henv.symm

end Expr

namespace Scene

variable {scene : Scene} {p q : Progress} {b : Nat} {v : Value} {r : Reference}

/-- The reference leads to a value, by way of its binding and the fields of its path. -/
def Followable (scene : Scene) (p : Progress) (r : Reference) : Prop :=
  ∃ base target, p.value? r.binding = some base ∧ base.follow p.value? scene.hops r.path = .ok target

/-- Making the checks that had to wait comes to a verdict. -/
structure Conclusive (scene : Scene) (p : Progress) : Prop where
  /-- It fails by a verdict, if it fails. -/
  verdict : ∀ e, scene.runDeferred p = .error e → e.IsVerdict
  /-- A type that had to wait is compared with a value. -/
  targets : ∀ check ∈ p.checks, ∃ base target, p.value? check.binding = some base ∧
    base.follow p.value? scene.hops [] = .ok target
  /-- The conditions on a record wait for nothing. -/
  decided : ∀ pending ∈ p.constraints, ∀ stop,
    scene.checkRecord p pending.ctor pending.fields pending.done pending.span ≠ .ok (some stop)
  /-- The references of the record, and of all values that are reached from them, lead somewhere. -/
  fields : ∀ pending ∈ p.constraints, ∀ f ∈ pending.fields, ∀ r, Value.Part (.ref r) f.value →
    scene.Followable p r
  stored : ∀ r, Value.Stored p.value? (.ref r) → scene.Followable p r
  /-- What a reference would give that leads nowhere is never asked for. -/
  unasked : ∀ pending ∈ p.constraints, ∀ env : Environment,
    env.lookup = (recordEnvironment p.value? scene.hops pending.fields).lookup →
    (∀ r, scene.Followable p r →
      env.follow r = (recordEnvironment p.value? scene.hops pending.fields).follow r) →
    ∀ e : Expr, e.check env = e.check (recordEnvironment p.value? scene.hops pending.fields)

/-! ## What the data of bindings gives -/

/-- The data of the binding gives the value, at some progress and with some way of forcing bindings. -/
def Provides (scene : Scene) (b : Nat) (v : Value) : Prop :=
  ∃ slot force p q, scene.slots[b]? = some slot ∧ (scene.buildSlot force slot).Gives p v q

/-- **The data of a binding gives no two values.** -/
theorem Provides.unique {w : Value} (hv : scene.Provides b v) (hw : scene.Provides b w) : v = w := by
  obtain ⟨slot, force, p, q, hslot, hgives⟩ := hv
  obtain ⟨slot', force', p', q', hslot', hgives'⟩ := hw
  obtain rfl := Option.some.inj (hslot.symm.trans hslot')
  have halike : Alike id scene scene := ⟨rfl, rfl, rfl, scene.indexOf?_eq_map_id⟩
  rw [halike.buildSlot hgives hgives', Value.renumber_id]

/-- The reference leads somewhere over values that the data of bindings gives. -/
def Destined (scene : Scene) (r : Reference) : Prop :=
  ∃ root : Nat → Option Value, (∀ b v, root b = some v → scene.Provides b v) ∧ Value.Leads root r

/-- Every reference in the value names a binding, and leads somewhere if it goes on from there. -/
def Sure (scene : Scene) (v : Value) : Prop :=
  ∀ r, Value.Part (.ref r) v → r.binding < scene.slots.length ∧ (r.path ≠ [] → scene.Destined r)

/-- What is vouched for between the steps of building. -/
structure Vouched (scene : Scene) (p : Progress) : Prop where
  provides : ∀ b v, p.value? b = some v → scene.Provides b v
  checks : ∀ check ∈ p.checks, check.binding < scene.slots.length
  constraints : ∀ pending ∈ p.constraints, ∀ f ∈ pending.fields, scene.Sure f.value

namespace Vouched

/-- Nothing has to be vouched for before anything is built. -/
theorem initial (scene : Scene) : scene.Vouched (.initial scene.slots.length) where
  provides b v hv := by
    rw [Progress.value?_eq_some_iff, Progress.initial, List.getElem?_replicate] at hv
    split at hv <;> cases hv
  checks := List.forall_mem_nil _
  constraints := List.forall_mem_nil _

/-- What is vouched for stays so when a binding begins to be built. -/
theorem enter (h : scene.Vouched p) (hb : p.states[b]? = some .unresolved) : scene.Vouched (p.enter b) :=
  ⟨fun c v hv => h.provides c v (Progress.value?_enter hb ▸ hv), h.checks, h.constraints⟩

/-- What is vouched for stays so when a binding is finished with the value that it will have. -/
theorem leave (h : scene.Vouched p) (hv : scene.Provides b v) :
    scene.Vouched (p.leave b (.resolved v)) :=
  ⟨Progress.forall_value?_leave h.provides hv, h.checks, h.constraints⟩

/-- A check of one of the bindings may be put off. -/
theorem deferCheck (h : scene.Vouched p) {check : DeferredCheck}
    (hcheck : check.binding < scene.slots.length) : scene.Vouched (p.deferCheck check) :=
  ⟨h.provides, List.forall_mem_append.2 ⟨h.checks, List.forall_mem_singleton.2 hcheck⟩, h.constraints⟩

/-- Conditions on fields that lead somewhere may be put off. -/
theorem deferConstraints (h : scene.Vouched p) {pending : DeferredConstraints}
    (hpending : ∀ f ∈ pending.fields, scene.Sure f.value) : scene.Vouched (p.deferConstraints pending) :=
  ⟨h.provides, h.checks, List.forall_mem_append.2 ⟨h.constraints, List.forall_mem_singleton.2 hpending⟩⟩

/-- The values of finished bindings are those that data gives. -/
theorem destined (h : scene.Vouched p) (hr : Value.Leads p.value? r) : scene.Destined r :=
  ⟨p.value?, h.provides, hr⟩

end Vouched

/-! ## Building vouches -/

/-- If the step gives something, what is vouched for stays so, and `P` holds of what it gives. -/
def Vouches (scene : Scene) {α : Type} (m : Build α) (P : α → Prop) : Prop :=
  ∀ p, scene.Vouched p → ∀ a q, m.Gives p a q → scene.Vouched q ∧ P a

namespace Vouches

variable {α β : Type} {P : α → Prop} {Q : β → Prop}

/-- A step that does nothing vouches for what holds already. -/
theorem pure {a : α} (ha : P a) : scene.Vouches (Pure.pure a) P := by
  intro p hp b q h
  obtain ⟨rfl, rfl⟩ := Build.gives_pure_iff.1 h
  exact ⟨hp, ha⟩

/-- A failure vouches for anything. -/
theorem throw {e : Failure} : scene.Vouches (MonadExcept.throw e : Build α) P :=
  fun _ _ _ _ h => absurd h Build.not_gives_throw

/-- Two steps vouch for what the second one does. -/
theorem bind {m : Build α} {k : α → Build β} (hm : scene.Vouches m P)
    (hk : ∀ a, P a → scene.Vouches (k a) Q) : scene.Vouches (m >>= k) Q := by
  intro p hp b r h
  obtain ⟨a, q, ha, hb⟩ := Build.gives_bind_iff.1 h
  obtain ⟨hq, hPa⟩ := hm p hp a q ha
  exact hk a hPa q hq b r hb

/-- A result vouches for nothing in particular. -/
theorem ofExcept {result : Except Failure α} : scene.Vouches (Build.ofExcept result) fun _ => True := by
  cases result with
  | error e => exact .throw
  | ok a => exact .pure trivial

/-- The progress may be looked at. -/
theorem get_bind {k : Progress → Build β} (h : ∀ p, scene.Vouched p → ∀ b q, (k p).Gives p b q →
    scene.Vouched q ∧ Q b) : scene.Vouches (get >>= k) Q := by
  intro p hp b q hb
  obtain ⟨_, _, hget, hb⟩ := Build.gives_bind_iff.1 hb
  obtain ⟨rfl, rfl⟩ := Build.gives_get_iff.1 hget
  exact h p hp b q hb

/-- A change that keeps what is vouched for may be made. -/
theorem modify {f : Progress → Progress} (h : ∀ p, scene.Vouched p → scene.Vouched (f p)) :
    scene.Vouches (modify f) fun _ => True := by
  intro p hp _ q hq
  obtain rfl := Build.gives_modify_iff.1 hq
  exact ⟨h p hp, trivial⟩

end Vouches

/-- Conditions on fields that lead somewhere are checked or put off. -/
theorem vouches_settleConditions (scene : Scene) (ctor : String) {fields : List (Field Value)} (span : Span)
    (hfields : ∀ f ∈ fields, scene.Sure f.value) :
    scene.Vouches (scene.settleConditions ctor fields span) fun _ => True := by
  refine .get_bind fun p hp => ?_
  refine Vouches.bind .ofExcept (fun stop _ => ?_) p hp
  cases stop with
  | none => exact .pure trivial
  | some stop => exact .modify fun q hq => hq.deferConstraints hfields

/-- Vouching for what has to wait, as a discipline of building. -/
def vouching (scene : Scene) : Discipline scene where
  Keeps := scene.Vouches
  Fine := scene.Sure
  plain hv r hr := by cases hv.part hr
  list h r hr := by
    cases hr with
    | item hv hpart => exact h _ hv r hpart
  record h r hr := by
    cases hr with
    | field hf hpart => exact h _ hf r hpart
  pure := .pure
  throw _ := .throw
  bind := .bind
  conditions ctor _ span hfields := scene.vouches_settleConditions ctor span hfields

/-- A binding that is used has a number, and leads where the path goes, if there is one. -/
theorem vouches_useForced (scene : Scene) {name : String} (hb : b < scene.slots.length) (path : List String)
    (span : Span) (t : Ty) (whole : Bool) :
    scene.Vouches (scene.useForced b name path span t whole) fun _ =>
      path ≠ [] → scene.Destined ⟨b, name, path⟩ := by
  refine .get_bind fun p hp u q hgives => ?_
  split at hgives
  · unfold useUnfinished at hgives
    dsimp only at hgives
    split at hgives
    · exact absurd hgives (by rintro ⟨⟩)
    · rename_i hmay
      have hpath : path = [] := by
        simp only [Bool.or_eq_true, Bool.not_eq_true', not_or, Bool.not_eq_false, List.isEmpty_iff] at hmay
        exact hmay.2
      have hq : scene.Vouched q := by
        split at hgives
        · obtain ⟨-, rfl⟩ := Build.gives_pure_iff.1 hgives
          exact hp
        · obtain rfl := Build.gives_modify_iff.1 hgives
          exact hp.deferCheck hb
      exact ⟨hq, fun h => absurd hpath h⟩
  · rename_i base hbase
    unfold useFinished at hgives
    obtain ⟨_, _, hget, hgives⟩ := Build.gives_bind_iff.1 hgives
    obtain ⟨rfl, rfl⟩ := Build.gives_get_iff.1 hget
    split at hgives
    · rename_i target htarget
      split at hgives
      · obtain ⟨-, rfl⟩ := Build.gives_pure_iff.1 hgives
        have hvalue := Progress.value?_eq_some_iff.2 hbase
        exact ⟨hp, fun _ => hp.destined (leads_of_follow (r := ⟨b, name, path⟩) hvalue htarget)⟩
      · exact absurd hgives Build.not_gives_throw
    · exact absurd hgives Build.not_gives_throw
    · exact absurd hgives Build.not_gives_throw
  · exact absurd hgives Build.not_gives_throw

/-- A reference that is built leads somewhere. -/
theorem vouches_buildReference {force : Nat → Build Unit}
    (hforce : ∀ b, scene.Vouches (force b) fun _ => True) (name : String) (path : List String) (span : Span)
    (t : Ty) (whole : Bool) :
    scene.vouching.Builds (scene.buildReference force name path span t whole) := by
  change scene.Vouches _ scene.Sure
  rw [buildReference_eq]
  split
  · exact .throw
  · rename_i b hname
    obtain ⟨slot, hslot, -⟩ := slot_of_indexOf? hname
    have hb : b < scene.slots.length := (List.getElem?_eq_some_iff.1 hslot).1
    have huse : scene.Vouches (scene.useBinding force b name path span t.peeled whole) fun _ =>
        path ≠ [] → scene.Destined ⟨b, name, path⟩ :=
      (hforce b).bind fun _ _ => scene.vouches_useForced hb path span t.peeled whole
    refine huse.bind fun _ hpath => .pure fun r hr => ?_
    cases hr
    exact ⟨hb, hpath⟩

/-- **Forcing vouches for what has to wait.** -/
theorem vouches_forceWithin (scene : Scene) (depth b : Nat) :
    scene.Vouches (scene.forceWithin depth b) fun _ => True := by
  rw [forceWithin.eq_def]
  refine .get_bind fun p hp u r hgives => ?_
  split at hgives
  · rename_i slot hb hslot
    cases depth with
    | zero => exact absurd hgives Build.not_gives_throw
    | succ depth =>
      dsimp only at hgives
      split at hgives
      · exact absurd hgives Build.not_gives_throw
      · have hforce := scene.vouches_forceWithin depth
        have hbuild : scene.vouching.Builds (scene.buildSlot (scene.forceWithin depth) slot) :=
          scene.vouching.buildSlot slot
            (fun span name path u _ => vouches_buildReference hforce name path span _ false)
            fun span name path _ => vouches_buildReference hforce name path span _ true
        obtain ⟨v, q, hv, rfl⟩ := Build.gives_onChain_iff.1 hgives
        obtain ⟨hq, -⟩ := hbuild _ (hp.enter hb) v q hv
        exact ⟨hq.leave ⟨slot, _, _, _, hslot, hv⟩, trivial⟩
  · obtain ⟨-, rfl⟩ := Build.gives_pure_iff.1 hgives
    exact ⟨hp, trivial⟩

/-- **Building items vouches for what has to wait.** -/
theorem vouches_buildItemsFrom (scene : Scene) : (items : List Item) → (next : Nat) →
    scene.Vouches (scene.buildItemsFrom next items) fun _ => True
  | [], _ => .pure trivial
  | .binding _ :: items, next => by
    rw [buildItemsFrom]
    exact (scene.vouches_forceWithin maxReferenceDepth next).bind fun _ _ =>
      scene.vouches_buildItemsFrom items (next + 1)
  | .value d :: items, next => by
    have hbuild : scene.vouching.Builds (buildData scene scene.force d .any) :=
      Discipline.buildData d fun span name path u _ =>
        vouches_buildReference (scene.vouches_forceWithin maxReferenceDepth) name path span _ false
    rw [buildItemsFrom]
    exact Vouches.bind hbuild fun _ _ =>
      (scene.vouches_buildItemsFrom items next).bind fun _ _ => .pure trivial
  | .type _ :: items, next | .rule _ :: items, next => by
    simp only [buildItemsFrom]
    exact scene.vouches_buildItemsFrom items next

/-! ## When all bindings are finished -/

/-- The hops of the scene suffice for a reference that leads somewhere. -/
theorem Sound.followable (h : scene.Sound p) (hr : Value.Leads p.value? r) : scene.Followable p r := by
  obtain ⟨w, hw⟩ := hr
  have hsettle : Value.settle p.value? ((scene.hops - 1) + 1) (.ref r) = .ok w := h.settle_hops hw
  cases hbase : p.value? r.binding with
  | none =>
    rw [Value.settle_ref_of_none hbase] at hsettle
    cases hsettle
  | some base =>
    rw [Value.settle_ref_of_some hbase] at hsettle
    exact ⟨base, w, hbase, Value.follow_ok_mono (.refl _) (Nat.sub_le ..) hsettle⟩

/-- The references that are stored in finished bindings lead somewhere. -/
theorem Sound.followable_of_stored (h : scene.Sound p) (hfinished : scene.Finished p)
    (hr : Value.Stored p.value? (.ref r)) : scene.Followable p r := by
  obtain ⟨order, hsettled, -⟩ := h.exists_order
  rcases hsettled.walks_or_unfinished hr with hleads | ⟨_, ⟨⟩, hnone⟩
  · exact h.followable hleads
  · obtain ⟨b, v, hv, hpart⟩ := hr
    obtain ⟨slot, hslot⟩ := h.slot_of_value? hv
    obtain ⟨t, ht⟩ := (h.built b slot v hslot hv).of_part hpart
    obtain ⟨target, htarget, -⟩ := slot_of_indexOf? ht.of_ref.1
    obtain ⟨w, hw⟩ := hfinished r.binding (List.getElem?_eq_some_iff.1 htarget).1
    cases hnone.symm.trans hw

namespace Vouched

/-- **What is destined to lead somewhere does so when all bindings are finished.** -/
theorem leads (h : scene.Vouched p) (hfinished : scene.Finished p) (hr : scene.Destined r) :
    Value.Leads p.value? r := by
  obtain ⟨root, hroot, hr⟩ := hr
  refine hr.mono fun b v hv => ?_
  have hprovides := hroot b v hv
  obtain ⟨slot, _, _, _, hslot, -⟩ := hprovides
  obtain ⟨w, hw⟩ := hfinished b (List.getElem?_eq_some_iff.1 hslot).1
  rw [hw, (h.provides b w hw).unique (hroot b v hv)]

/-- The references of a record that had to wait lead somewhere. -/
theorem followable (h : scene.Vouched p) (hp : scene.Sound p) (hfinished : scene.Finished p)
    (hv : scene.Sure v) (hr : Value.Part (.ref r) v) : scene.Followable p r := by
  obtain ⟨hb, hpath⟩ := hv r hr
  by_cases hnil : r.path = []
  · obtain ⟨base, hbase⟩ := hfinished r.binding hb
    obtain ⟨w, hw⟩ := hp.walks_of_value? hbase
    exact ⟨base, w, hbase, hnil ▸ hp.settle_hops hw⟩
  · exact hp.followable (h.leads hfinished (hpath hnil))

/-- The conditions on a record that had to wait meet only references that lead somewhere. -/
theorem environment_leads (h : scene.Vouched p) (hp : scene.Sound p) (hfinished : scene.Finished p)
    {pending : DeferredConstraints} (hpending : pending ∈ p.constraints) :
    (recordEnvironment p.value? scene.hops pending.fields).Leads (scene.Followable p) := by
  refine recordEnvironment_leads
    (fun f hf r hr => h.followable hp hfinished (h.constraints pending hpending f hf) hr) ?_
  rintro r ⟨base, target, hbase, htarget⟩
  refine ⟨base, hbase, fun name hfails => ?_, fun v hv r' hr' => ?_⟩
  · cases htarget.symm.trans hfails
  · have hstored : Value.Stored p.value? v :=
      (Value.walkFields_ok_imp (fun _ _ _ hx hy => hx.field? hy) (fun _ _ hx hu => ⟨hx.settle hu, hu⟩)
        (.of_root hbase) hv).1
    obtain ⟨b, u, hu, hpart⟩ := hstored
    exact hp.followable_of_stored hfinished ⟨b, u, hu, hr'.trans hpart⟩

/-- **The checks that had to wait come to a verdict.** -/
theorem conclusive (h : scene.Vouched p) (hp : scene.Sound p) (hfinished : scene.Finished p) :
    scene.Conclusive p := by
  have hdecided : ∀ pending ∈ p.constraints, ∀ stop,
      scene.checkRecord p pending.ctor pending.fields pending.done pending.span ≠ .ok (some stop) :=
    fun pending hpending _ =>
      checkConstraints_ne_some (h.environment_leads hp hfinished hpending) _ _
  exact
    { verdict _ hfails := hp.isVerdict_of_runDeferred hfinished h.checks hdecided hfails
      targets check hcheck := hp.exists_target hfinished (h.checks check hcheck)
      decided := hdecided
      fields pending hpending f hf _ hr :=
        h.followable hp hfinished (h.constraints pending hpending f hf) hr
      stored _ hr := hp.followable_of_stored hfinished hr
      unasked pending hpending _ hlookup hfollow e :=
        e.check_eq_of_leads (h.environment_leads hp hfinished hpending) hlookup hfollow }

end Vouched

end Scene

namespace Document

/-- **The checks that had to wait never find that a binding depends on itself.**  Once all bindings and values of a
document are built they come to a verdict on the values, and follow no reference that leads nowhere. -/
theorem deferred_checks_conclude (d : Document) (registry : Registry) (rules : List Rule) {slots : List Slot}
    (hslots : Scene.slotsOf registry [] d.bindings = .ok slots) {values : List Value} {q : Progress}
    (h : ((⟨registry, rules, slots, Scene.maxTextDepth⟩ : Scene).buildItemsFrom 0 d.items).Gives
      (.initial slots.length) values q) :
    (⟨registry, rules, slots, Scene.maxTextDepth⟩ : Scene).Conclusive q := by
  let scene : Scene := ⟨registry, rules, slots, Scene.maxTextDepth⟩
  have hforall := (Scene.slotsOf_eq_ok_iff.1 hslots).2.2
  have hlen : scene.slots.length = d.bindings.length := hforall.length_eq.symm
  obtain ⟨hsound, hfinished, -⟩ := scene.sound_of_buildItemsFrom hlen h
  obtain ⟨hvouched, -⟩ := scene.vouches_buildItemsFrom d.items 0 _ (.initial scene) values q h
  exact hvouched.conclusive hsound hfinished

/-- Two nodes that refer to each other, and one of them to a field as well. -/
def knot : String :=
  "type n = n {id: int, next: n} where next.id != id\n" ++ "c := {k: 1}\n" ++ "a := n(2, !b)\n" ++
  "b := n(!c.k, !a)\n"

/-- Whether items are built, and types and conditions have to wait. -/
def leavesChecks : Except Failure (List Value) × Progress → Bool
  | (.ok _, q) => !q.checks.isEmpty && !q.constraints.isEmpty
  | _ => false

/-- Two bindings that refer to each other, with conditions on both. -/
theorem deferred_checks_conclude_knot : ∃ d registry rules slots values q, Document.read knot = .ok d ∧
    Loaded.declarations d = .ok (registry, rules) ∧ Scene.slotsOf registry [] d.bindings = .ok slots ∧
    let scene : Scene := ⟨registry, rules, slots, Scene.maxTextDepth⟩
    (scene.buildItemsFrom 0 d.items).Gives (.initial slots.length) values q ∧ q.checks ≠ [] ∧
      q.constraints ≠ [] ∧ scene.Conclusive q := by
  have htest : (Document.read knot).toOption.any (fun d =>
      (Loaded.declarations d).toOption.any fun declarations =>
        (Scene.slotsOf declarations.1 [] d.bindings).toOption.any fun slots =>
          leavesChecks (((⟨declarations.1, declarations.2, slots, Scene.maxTextDepth⟩ : Scene).buildItemsFrom
            0 d.items).outcome (.initial slots.length))) = true := by
    decide +kernel
  obtain ⟨d, hd, htest⟩ := exists_ok_of_any htest
  obtain ⟨⟨registry, rules⟩, hdeclarations, htest⟩ := exists_ok_of_any htest
  obtain ⟨slots, hslots, htest⟩ := exists_ok_of_any htest
  unfold leavesChecks at htest
  split at htest
  · rename_i values q hgives
    simp only [Bool.and_eq_true, Bool.not_eq_true', List.isEmpty_eq_false_iff] at htest
    exact ⟨d, registry, rules, slots, values, q, hd, hdeclarations, hslots, hgives, htest.1, htest.2,
      deferred_checks_conclude d registry rules hslots hgives⟩
  · cases htest

end Document

end TypedData
