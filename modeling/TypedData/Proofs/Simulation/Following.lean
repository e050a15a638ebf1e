import Mathlib.Logic.Equiv.Defs
import TypedData.Proofs.Dependency.Reading
import TypedData.Proofs.Renumbering.Condition
import TypedData.Proofs.Simulation.Agreement
import TypedData.Proofs.Simulation.Rebuilding

/-!
# Building in another order

Let a document be built completely, and let the same bindings be built in another order.  The second run
comes to the same values, or it stops at a binding that depends on itself: there is nothing else that can
go wrong (`settles_buildDocument`).

The second run is compared with the finished values of the first, under their new numbers.  What it has
come to so far stays **below** these (`Below`): it has finished bindings with their values, it has left only
checks that these values pass, and it has not used more of the depth than it has bindings.
-/

namespace TypedData

/-- Whether a binding is not begun. -/
def BindingState.isUnresolved : BindingState → Bool
  | .unresolved => true
  | _ => false

namespace Progress

variable {p : Progress} {b : Nat}

/-- The number of bindings that are not begun. -/
def unbegun (p : Progress) : Nat := p.states.countP BindingState.isUnresolved

/-- At first, all bindings are not begun. -/
theorem unbegun_initial (bindings : Nat) : (initial bindings).unbegun = bindings := by
  rw [unbegun, initial, List.countP_replicate]
  rfl

/-- Entering a binding leaves one less that is not begun. -/
theorem unbegun_enter (hb : p.states[b]? = some .unresolved) :
    (p.enter b).unbegun + 1 = p.unbegun := by
  obtain ⟨hlt, hstate⟩ := List.getElem?_eq_some_iff.1 hb
  have hmem : BindingState.unresolved ∈ p.states := hstate ▸ List.getElem_mem hlt
  have hpos : 0 < p.states.countP BindingState.isUnresolved :=
    List.countP_pos_iff.2 ⟨_, hmem, rfl⟩
  rw [unbegun, unbegun, enter, List.countP_set hlt, hstate]
  dsimp only [BindingState.isUnresolved]
  simp only [if_true, Bool.false_eq_true, if_false]
  omega

/-- Leaving a binding begins none anew. -/
theorem unbegun_leave (p : Progress) (b : Nat) (v : Value) :
    (p.leave b (.resolved v)).unbegun ≤ p.unbegun := by
  rw [unbegun, unbegun, leave]
  rcases Nat.lt_or_ge b p.states.length with hlt | hge
  · rw [List.countP_set hlt]
    exact Nat.sub_le ..
  · exact Nat.le_of_eq (congrArg _ (List.set_eq_of_length_le hge))

end Progress

/-- Conditions that hold at the end hold as far as they can be checked before. -/
theorem checkConstraints_of_extends {env env' : Environment} (h : env.Extends env') {ctor : String}
    {fields : List (Field Value)} {span : Span} : {constraints : List Constraint} → {position : Nat} →
      (∀ constraint ∈ constraints, constraint.condition.check env' = .ok true) →
      ∃ stop, checkConstraints env ctor fields span position constraints = .ok stop
  | [], _, _ => ⟨none, rfl⟩
  | constraint :: constraints, position, hholds => by
    obtain ⟨hfirst, hrest⟩ := List.forall_mem_cons.1 hholds
    rw [checkConstraints]
    rcases constraint.condition.check_agrees h with ⟨name, faultSpan, hwaits⟩ | hsame
    · rw [hwaits]
      exact ⟨_, rfl⟩
    · rw [← hsame, hfirst]
      exact checkConstraints_of_extends h hrest

namespace Scene

/-! ## Below the finished values -/

/-- All conditions on a record hold in a store of values. -/
def Holds (scene : Scene) (root : Nat → Option Value) (ctor : String) (fields : List (Field Value)) :
    Prop :=
  ∀ constraint ∈ scene.registry.constraintsFor ctor,
    constraint.condition.check (recordEnvironment root scene.hops fields) = .ok true

/-- The progress is on the way to a store of values, with so many bindings still to be begun. -/
structure Below (scene : Scene) (root : Nat → Option Value) (depth : Nat) (chain : List Nat)
    (p : Progress) : Prop where
  linked : scene.Linked chain p
  keeps : Value.Keeps p.value? root
  unbegun : p.unbegun ≤ depth
  checks : ∀ check ∈ p.checks, scene.Serves root check.binding [] check.expected
  constraints : ∀ pending ∈ p.constraints, scene.Holds root pending.ctor pending.fields

variable {scene : Scene} {root : Nat → Option Value} {depth : Nat} {chain : List Nat}
  {p q : Progress} {b : Nat}

namespace Below

/-- The first progress is below, if there is depth for all bindings. -/
theorem initial (scene : Scene) (root : Nat → Option Value) (h : scene.slots.length ≤ depth) :
    scene.Below root depth [] (.initial scene.slots.length) where
  linked := .initial scene
  keeps b v hv := by
    rw [Progress.value?_eq_some_iff, Progress.initial, List.getElem?_replicate] at hv
    split at hv <;> cases hv
  unbegun := (Progress.unbegun_initial _).symm ▸ h
  checks := List.forall_mem_nil _
  constraints := List.forall_mem_nil _

/-- A progress stays below when a binding is entered that the one before it mentions. -/
theorem enter (h : scene.Below root (depth + 1) chain p) (hb : p.states[b]? = some .unresolved)
    (hmention : ∀ c ∈ chain.head?, scene.Mentions c b) :
    scene.Below root depth (b :: chain) (p.enter b) where
  linked := h.linked.enter hb hmention
  keeps := Progress.value?_enter hb ▸ h.keeps
  unbegun := by
    have hbegun := Progress.unbegun_enter hb
    have hle := h.unbegun
    omega
  checks := h.checks
  constraints := h.constraints

/-- A progress stays below when a binding is left with its value. -/
theorem leave {v : Value} (h : scene.Below root depth (b :: chain) p) (hv : root b = some v)
    (hlinked : scene.Linked chain (p.leave b (.resolved v))) :
    scene.Below root (depth + 1) chain (p.leave b (.resolved v)) where
  linked := hlinked
  keeps := Progress.forall_value?_leave h.keeps hv
  unbegun := Nat.le_succ_of_le (Nat.le_trans (p.unbegun_leave b v) h.unbegun)
  checks := h.checks
  constraints := h.constraints

/-- A progress stays below when a check is deferred that is right at the end. -/
theorem deferCheck (h : scene.Below root depth chain p) {check : DeferredCheck}
    (hcheck : scene.Serves root check.binding [] check.expected) :
    scene.Below root depth chain (p.deferCheck check) where
  linked := h.linked.of_states rfl rfl rfl (Progress.Extends.deferCheck p check).grows
  keeps := h.keeps
  unbegun := h.unbegun
  checks := List.forall_mem_append.2 ⟨h.checks, List.forall_mem_singleton.2 hcheck⟩
  constraints := h.constraints

/-- A progress stays below when conditions are deferred that hold at the end. -/
theorem deferConstraints (h : scene.Below root depth chain p) {pending : DeferredConstraints}
    (hpending : scene.Holds root pending.ctor pending.fields) :
    scene.Below root depth chain (p.deferConstraints pending) where
  linked := h.linked.of_states rfl rfl rfl (Progress.Extends.deferConstraints p pending).grows
  keeps := h.keeps
  unbegun := h.unbegun
  checks := h.checks
  constraints := List.forall_mem_append.2 ⟨h.constraints, List.forall_mem_singleton.2 hpending⟩

end Below

/-! ## Steps that settle -/

/-- The step gives the value and stays below, or a binding is found to depend on itself, where some
binding reads another one from which references lead back to it. -/
def Settles (scene : Scene) (root : Nat → Option Value) (depth : Nat) (chain : List Nat) {α : Type}
    (m : Build α) (a : α) (p : Progress) : Prop :=
  (∃ q, m.Gives p a q ∧ scene.Below root depth chain q) ∨
    scene.ReadsInCycle ∧
      ∃ name span q, m.outcome p = (.error (.reference (.selfDependency name span)), q)

namespace Settles

variable {α β : Type} {a : α} {c : β}

/-- A step that only gives a result settles. -/
theorem pure (h : scene.Below root depth chain p) :
    scene.Settles root depth chain (Pure.pure a) a p :=
  .inl ⟨p, rfl, h⟩

/-- A binding may be found to depend on itself where one reads another in a cycle. -/
theorem selfDependency {name : String} {span : Span} (h : scene.ReadsInCycle) :
    scene.Settles root depth chain (throw (.reference (.selfDependency name span)) : Build α) a p :=
  .inr ⟨h, name, span, p, rfl⟩

/-- One step after another settles if both do. -/
theorem bind {m : Build α} {k : α → Build β} (hm : scene.Settles root depth chain m a p)
    (hk : ∀ q, m.Gives p a q → scene.Below root depth chain q →
      scene.Settles root depth chain (k a) c q) :
    scene.Settles root depth chain (m >>= k) c p := by
  rcases hm with ⟨q, hgives, hq⟩ | ⟨hcycle, name, span, q, hfails⟩
  · rcases hk q hgives hq with ⟨r, hgives', hr⟩ | ⟨hcycle, name, span, r, hfails⟩
    · exact .inl ⟨r, Build.gives_bind_iff.2 ⟨a, q, hgives, hgives'⟩, hr⟩
    · refine .inr ⟨hcycle, name, span, r, ?_⟩
      rw [Build.outcome_bind, show m.outcome p = (.ok a, q) from hgives]
      exact hfails
  · refine .inr ⟨hcycle, name, span, q, ?_⟩
    rw [Build.outcome_bind, hfails]

/-- A step that looks at the progress settles if what it does with it does. -/
theorem get_bind {k : Progress → Build β} (h : scene.Settles root depth chain (k p) c p) :
    scene.Settles root depth chain (get >>= k) c p := h

/-- A change of the progress settles if it stays below. -/
theorem update {f : Progress → Progress} (h : scene.Below root depth chain (f p)) :
    scene.Settles root depth chain (modify f) () p := .inl ⟨f p, rfl, h⟩

end Settles

/-- Settling conditions that hold at the end settles. -/
theorem settles_settleConditions (hp : scene.Below root depth chain p) {ctor : String}
    {fields : List (Field Value)} (hholds : scene.Holds root ctor fields) (span : Span) :
    scene.Settles root depth chain (scene.settleConditions ctor fields span) () p := by
  refine .get_bind ?_
  have hext := recordEnvironment_extends hp.keeps (Nat.le_refl scene.hops) fields
  have hstop : ∃ stop, scene.checkRecord p ctor fields 0 span = .ok stop :=
    checkConstraints_of_extends hext hholds
  obtain ⟨stop, hstop⟩ := hstop
  rw [hstop]
  refine Settles.bind (.pure hp) fun q _ hq => ?_
  cases stop with
  | none => exact .pure hq
  | some stop => exact .update (hq.deferConstraints hholds)

/-! ## References that settle -/

/-- A reference to a binding in progress, or to one that leads there, is not urgent, or some binding reads
another one from which references lead back to it. -/
def Excused (scene : Scene) (chain : List Nat) (whole : Bool) (path : List String) (b : Nat) : Prop :=
  ∀ c ∈ chain, Relation.ReflTransGen scene.Mentions b c → scene.Urgent whole path b →
    scene.ReadsInCycle

/-- A number, text or truth value is built from data without references, or from nothing but one. -/
theorem urgent_of_isScalar (hshaped : scene.Shaped root) {slot : Slot}
    (hslot : scene.slots[b]? = some slot) {t : Ty} (hserves : scene.Serves root b [] t)
    (ht : t.isScalar = true) (whole : Bool) (path : List String) : scene.Urgent whole path b := by
  obtain ⟨base, target, hbase, htarget, hconforms⟩ := hserves
  refine .inr (.inr ⟨slot, hslot, ?_⟩)
  rcases hshaped b slot base hslot hbase with halias | hnone | hcomposite
  · exact .inl halias
  · exact .inr hnone
  · have hreference : base.isReference = false := by
      cases base with
      | ref => cases hcomposite
      | _ => rfl
    rw [Value.follow_nil, Value.settle_of_not_reference hreference] at htarget
    obtain rfl := Except.ok.inj htarget
    cases hconforms.symm.trans (Ty.conforms_of_isComposite ht hcomposite)

/-- A use of a binding in progress settles if it is right at the end, and excused. -/
theorem settles_useUnfinished (hp : scene.Below root depth chain p) (hshaped : scene.Shaped root)
    (hb : p.states[b]? = some .inProgress) {path : List String} {t : Ty}
    (hserves : scene.Serves root b path t) {whole : Bool}
    (hexcused : scene.Excused chain whole path b) (name : String) (span : Span) :
    scene.Settles root depth chain (useUnfinished b name path span t whole) () p := by
  have hcycle := hexcused b (hp.linked.inProgress b hb) .refl
  unfold useUnfinished
  cases path with
  | cons field path =>
    rw [List.isEmpty_cons, Bool.not_false, Bool.or_true]
    exact .inr ⟨hcycle (.inr (.inl (List.cons_ne_nil _ _))), name, span, p, rfl⟩
  | nil =>
    dsimp only
    split
    · rename_i hwhole
      refine .inr ⟨hcycle ?_, name, span, p, rfl⟩
      rw [List.isEmpty_nil, Bool.not_true, Bool.or_false, Bool.or_eq_true] at hwhole
      rcases hwhole with hwhole | ht
      · exact .inl hwhole
      · have hlt := (List.getElem?_eq_some_iff.1 hb).1
        rw [hp.linked.sound.length] at hlt
        exact urgent_of_isScalar hshaped (List.getElem?_eq_getElem hlt) hserves ht whole []
    · split
      · exact .pure hp
      · exact .update (hp.deferCheck hserves)

/-- A use of a finished binding settles if it is right at the end, and excused. -/
theorem settles_useFinished (hp : scene.Below root depth chain p) {value : Value}
    {path : List String} {t : Ty} (hvalue : p.value? b = some value)
    (hserves : scene.Serves root b path t) {whole : Bool}
    (hexcused : scene.Excused chain whole path b) (name : String) (span : Span) :
    scene.Settles root depth chain (scene.useFinished value name path span t) () p := by
  refine Settles.get_bind ?_
  obtain ⟨base, target, hbase, htarget, hconforms⟩ := hserves
  obtain rfl : value = base := Option.some.inj ((hp.keeps b value hvalue).symm.trans hbase)
  cases hfollow : value.follow p.value? scene.hops path with
  | ok target' =>
    have hsame := Value.follow_ok_mono hp.keeps (Nat.le_refl _) hfollow
    obtain rfl := Except.ok.inj (hsame.symm.trans htarget)
    dsimp only
    rw [if_pos hconforms]
    exact .pure hp
  | error problem =>
    cases problem with
    | unavailable other =>
      obtain ⟨hpath, c, hc, hreach⟩ := hp.linked.unfinished_of_follow hvalue hfollow
      exact .selfDependency (hexcused c hc hreach (.inr (.inl hpath)))
    | unknownField field =>
      have hends : Value.Ends (value.follow p.value? scene.hops path) := by
        rw [hfollow]
        exact .unknownField field
      have hsame := Value.follow_mono hp.keeps (Nat.le_refl _) hends
      cases hfollow.symm.trans (hsame.symm.trans htarget)

/-- A use that is right at the end settles, however far its binding has come. -/
theorem settles_useForced (hp : scene.Below root depth chain p) (hshaped : scene.Shaped root)
    (hbegun : p.Begun b) {path : List String} {t : Ty} (hserves : scene.Serves root b path t)
    {whole : Bool} (hexcused : scene.Excused chain whole path b) (name : String) (span : Span) :
    scene.Settles root depth chain (scene.useForced b name path span t whole) () p := by
  refine .get_bind ?_
  rcases hp.linked.inProgress_or_finished hbegun with hstate | ⟨value, hstate⟩
  · rw [hstate]
    exact settles_useUnfinished hp hshaped hstate hserves hexcused name span
  · rw [hstate]
    exact settles_useFinished hp (Progress.value?_eq_some_iff.2 hstate) hserves hexcused name span

/-! ## Two orders -/

/-- The second scene has the bindings of the first in another order. -/
structure Permuted (σ : Equiv.Perm Nat) (scene scene' : Scene) : Prop extends
    scene.Alike σ scene' where
  slots : ∀ b, scene'.slots[σ b]? = scene.slots[b]?
  length : scene'.slots.length = scene.slots.length

/-- The finished values under their new numbers. -/
def renumbered (σ : Equiv.Perm Nat) (final : Progress) (b : Nat) : Option Value :=
  (final.value? (σ.symm b)).map (Value.renumber σ)

/-- The values at the end, in another order, are the values with other numbers. -/
theorem renumbers_renumbered (σ : Equiv.Perm Nat) (final : Progress) :
    Value.Renumbers σ final.value? (renumbered σ final) := by
  intro b
  rw [renumbered, Equiv.symm_apply_apply]

variable {scene' : Scene} {σ : Equiv.Perm Nat} {final p' q' : Progress}

namespace Permuted

/-- Scenes with the same bindings in another order allow the same number of hops. -/
theorem hops (h : scene.Permuted σ scene') : scene'.hops = scene.hops := by
  rw [Scene.hops, Scene.hops, h.length]

/-- What is right to use at the end is right in another order. -/
theorem serves (h : scene.Permuted σ scene') {path : List String} {t : Ty}
    (hserves : scene.Serves final.value? b path t) :
    scene'.Serves (renumbered σ final) (σ b) path t := by
  obtain ⟨base, target, hbase, htarget, hconforms⟩ := hserves
  refine ⟨base.renumber σ, target.renumber σ, ?_, ?_, ?_⟩
  · rw [renumbers_renumbered, hbase]
    rfl
  · rw [Value.follow_renumber (renumbers_renumbered σ final), h.hops, htarget]
    rfl
  · rw [Ty.conforms_renumber, hconforms]

/-- Bindings have the same shapes in another order. -/
theorem shaped (h : scene.Permuted σ scene') (hshaped : scene.Shaped final.value?) :
    scene'.Shaped (renumbered σ final) := by
  intro b slot v hslot hv
  obtain ⟨w, hw, rfl⟩ := Option.map_eq_some_iff.1 hv
  have hslot₀ : scene.slots[σ.symm b]? = some slot := by
    rw [← h.slots, Equiv.apply_symm_apply, hslot]
  rw [Value.isComposite_renumber]
  exact hshaped _ slot w hslot₀ hw

/-- Conditions that were checked hold in another order. -/
theorem holds (h : scene.Permuted σ scene') (hfinal : scene.Complete final) {ctor : Constructor}
    {fields : List (Field Value)} (hchecked : scene.Checked final ctor fields) :
    scene'.Holds (renumbered σ final) ctor.name (Value.renumberFields σ fields) := by
  intro constraint hmem
  rw [h.registry] at hmem
  have hsame := recordEnvironment_renumbers (renumbers_renumbered σ final) scene.hops fields
  rw [h.hops, Expr.check_renumber σ.injective hsame]
  exact hfinal.holds hchecked hmem

end Permuted

/-- What the first step gives on the way to the finished values, the second one comes to, or a binding is
found to depend on itself. -/
def Follows (scene scene' : Scene) (σ : Equiv.Perm Nat) (final : Progress) (depth : Nat)
    (chain : List Nat) {α β : Type} (g : α → β) (m : Build α) (m' : Build β) : Prop :=
  ∀ p, scene.Ensures p m fun a q => q.Grows final →
    ∀ p', scene'.Below (renumbered σ final) depth chain p' →
      scene'.Settles (renumbered σ final) depth chain m' (g a) p'

namespace Follows

variable {α β γ δ : Type} {g : α → β} {g' : γ → δ}

/-- A step that only gives a result is followed. -/
theorem pure (g : α → β) (a : α) :
    scene.Follows scene' σ final depth chain g (Pure.pure a) (Pure.pure (g a)) :=
  fun _ => .pure fun _ _ hp' => .pure hp'

/-- A step that only fails is followed by any that does. -/
theorem throw (g : α → β) (e e' : Failure) :
    scene.Follows scene' σ final depth chain g (MonadExcept.throw e) (MonadExcept.throw e') :=
  fun _ => .throw

/-- One step after another is followed if both are. -/
theorem bind {m : Build α} {m' : Build β} {k : α → Build γ} {k' : β → Build δ}
    (hm : scene.Follows scene' σ final depth chain g m m')
    (hk : ∀ a, scene.Follows scene' σ final depth chain g' (k a) (k' (g a))) :
    scene.Follows scene' σ final depth chain g' (m >>= k) (m' >>= k') := by
  intro p
  refine (hm p).bind fun a q _ hq => (hk a q).imp fun c r hqr hr hfinal p' hp' => ?_
  exact (hq (hqr.grows.trans hfinal) p' hp').bind fun q' _ hq' => hr hfinal q' hq'

end Follows

/-- Building in another order beside building again at the end. -/
def following (h : scene.Permuted σ scene') (hfinal : scene.Complete final) (depth : Nat)
    (chain : List Nat) : Simulation id σ scene scene' where
  Maps := scene.Follows scene' σ final depth chain
  registry := h.registry ▸ scene.exists_registry_eq_relocate_id
  indexOf? := h.indexOf?
  pure := .pure
  throw g e _ := .throw g e _
  bind := .bind
  conditions ctor fields span _ :=
    (ensures_settleConditions ctor fields span).imp fun _ _ _ hchecked hgrows _ hp' =>
      settles_settleConditions hp' (h.holds hfinal (hchecked.mono hgrows)) span

/-- Texts are fitted alike in another order. -/
theorem fits_following (h : scene.Permuted σ scene') (hfinal : scene.Complete final) (depth : Nat)
    (chain : List Nat) (text : String) (t : Ty) (span : Span) :
    (following h hfinal depth chain).FitsText scene.fitText scene'.fitText text t span :=
  ((following h hfinal depth chain).sameRules_relocate (h.rules.trans (Rule.map_relocate_id _).symm)).fitText
    (fun _ _ => .throw _ _ _) h.textDepth text t span

/-- Forcing settles at every progress that is below, if the innermost binding refers to the binding that
is forced. -/
def ForcesBelow (scene : Scene) (root : Nat → Option Value) (depth : Nat) (chain : List Nat)
    (force : Nat → Build Unit) : Prop :=
  ∀ b p, (∀ c ∈ chain.head?, scene.Mentions c b) → scene.Below root depth chain p →
    scene.Settles root depth chain (force b) () p

section Bindings

variable {force : Nat → Build Unit}

/-- References are followed in another order, if they mention bindings and are excused. -/
theorem refers_following (h : scene.Permuted σ scene') (hfinal : scene.Complete final)
    (hshaped : scene.Shaped final.value?)
    (hforce : scene'.ForcesBelow (renumbered σ final) depth chain force)
    (hbegins : scene'.Begins force) {whole : Bool} {name : String} {path : List String}
    (hmention : ∀ b, scene'.indexOf? name = some b → ∀ c ∈ chain.head?, scene'.Mentions c b)
    (hexcused : ∀ b, scene'.indexOf? name = some b → scene'.Excused chain whole path b) :
    (following h hfinal depth chain).Refers idle force whole name path := by
  refine Simulation.refers fun b t span hb _ => ?_
  have hb' : scene'.indexOf? name = some (σ b) := by
    rw [h.indexOf?, hb]
    rfl
  refine (Ensures.pure (Q := fun _ _ => True) trivial).bind fun _ q _ _ => ?_
  refine (ensures_useForced hfinal hb path t span whole).imp fun _ r _ hserves hgrows p' hp' => ?_
  refine (hforce (σ b) p' (hmention _ hb') hp').bind fun q' hgives hq' => ?_
  have hbegun := (hbegins name _ hb' p' hp'.linked.sound _ q' hgives).2.2
  exact settles_useForced hq' (h.shaped hshaped) hbegun (h.serves (hserves hgrows))
    (hexcused _ hb') name span

/-- The innermost binding settles if what its data refers to does. -/
theorem Permuted.settles_buildSlot (h : scene.Permuted σ scene') (hfinal : scene.Complete final)
    (hshaped : scene.Shaped final.value?)
    (hforce : scene'.ForcesBelow (renumbered σ final) depth (b :: chain) force)
    (hbegins : scene'.Begins force) {slot : Slot} (hslot : scene'.slots[b]? = some slot) {v : Value}
    (hv : (scene.buildSlot idle slot).Gives final v final)
    (hp' : scene'.Below (renumbered σ final) depth (b :: chain) p') :
    scene'.Settles (renumbered σ final) depth (b :: chain) (scene'.buildSlot force slot)
      (v.renumber σ) p' := by
  have hrefers : ∀ {whole name path}, (name, path) ∈ slot.data.references →
      (whole = true → slot.data.isReference = true) →
      (following h hfinal depth (b :: chain)).Refers idle force whole name path := by
    intro whole name path hmem hwhole
    refine refers_following h hfinal hshaped hforce hbegins (fun c hc d hd => ?_)
      fun c hc d hd hreach => ?_
    · obtain rfl := Option.some.inj hd
      exact ⟨slot, name, path, hslot, hmem, hc⟩
    · exact readsInCycle_of_urgent hp'.linked.mentions hslot hmem hc hwhole hd hreach
  have hfollows := (following h hfinal depth (b :: chain)).buildSlot slot
    (fun text _ => fits_following h hfinal depth (b :: chain) text) (fun _ hmem => hrefers hmem (by rintro ⟨⟩))
    fun span name path hdata =>
      hrefers (hdata ▸ .head _) fun _ => hdata ▸ rfl
  rw [Slot.relocate_id] at hfollows
  obtain ⟨-, -, hsettles⟩ := hfollows final hfinal.sound v final hv
  exact hsettles (.refl final) p' hp'

/-- Where nothing is in progress, a value without a name settles. -/
theorem Permuted.settles_buildData (h : scene.Permuted σ scene') (hfinal : scene.Complete final)
    (hshaped : scene.Shaped final.value?)
    (hforce : scene'.ForcesBelow (renumbered σ final) depth [] force)
    (hbegins : scene'.Begins force) {d : Data} {t : Ty} {v : Value}
    (hv : (buildData scene idle d t).Gives final v final)
    (hp' : scene'.Below (renumbered σ final) depth [] p') :
    scene'.Settles (renumbered σ final) depth [] (buildData scene' force d t) (v.renumber σ) p' := by
  have hfollows := (following h hfinal depth []).buildData d
    (fun text _ => fits_following h hfinal depth [] text) (fun _ _ => refers_following h hfinal hshaped hforce hbegins
      (by rintro _ _ _ ⟨⟩) fun _ _ => List.forall_mem_nil _) t
  rw [Data.relocate_id] at hfollows
  obtain ⟨-, -, hsettles⟩ := hfollows final hfinal.sound v final hv
  exact hsettles (.refl final) p' hp'

end Bindings

/-- **Forcing in another order comes to the same value,** or finds a binding that depends on itself.  It
never comes too deep: on the way down it begins a binding at each step. -/
theorem Permuted.forcesBelow (h : scene.Permuted σ scene') (hfinal : scene.Complete final)
    (hrebuilt : scene.Rebuilt final final) (depth : Nat) (chain : List Nat)
    (hroom : depth + chain.length ≤ maxReferenceDepth) :
    scene'.ForcesBelow (renumbered σ final) depth chain (scene'.forceWithin depth) := by
  induction depth generalizing chain with
  | zero =>
    intro b p _ hp
    rw [forceWithin.eq_def]
    refine Settles.get_bind ?_
    split
    · -- there is depth for all bindings that are not begun, so that none is left here, but this one is
      rename_i hb _
      have hbegun := Progress.unbegun_enter hb
      have hle := hp.unbegun
      omega
    · exact .pure hp
  | succ depth ih =>
    intro b p hmention hp
    rw [forceWithin.eq_def]
    refine Settles.get_bind ?_
    split
    · rename_i slot hb hslot
      have hforcing : ¬ maxReferenceDepth ≤ p.forcing := by
        have hlen := hp.linked.forcing_eq
        omega
      have hslot₀ : scene.slots[σ.symm b]? = some slot := by
        rw [← h.slots, Equiv.apply_symm_apply, hslot]
      obtain ⟨v, hv⟩ := hfinal.value?_of_slot hslot₀
      have hroot : renumbered σ final b = some (v.renumber σ) := by
        rw [renumbered, hv]
        rfl
      have hbegins : scene'.Begins (scene'.forceWithin depth) := begins_forceWithin depth
      have hbelow := ih (b :: chain) (by rw [List.length_cons]; omega)
      have hbuilds := h.settles_buildSlot hfinal hrebuilt.shaped hbelow hbegins hslot
        (hrebuilt _ slot v hslot₀ hv) (hp.enter hb hmention)
      dsimp only
      rw [if_neg hforcing]
      rcases hbuilds with ⟨q, hq, hbelow⟩ | ⟨hcycle, name, span, q, hfails⟩
      · have hlinked := hp.linked.leave_built hb hslot hmention hq hbelow.linked
        exact .inl ⟨_, Build.gives_onChain_iff.2 ⟨_, q, hq, rfl⟩, hbelow.leave hroot hlinked⟩
      · refine .inr ⟨hcycle, name, span, q.leave b .failed, ?_⟩
        rw [Build.outcome_onChain, hfails]
    · exact .pure hp

/-! ## Documents -/

/-- The items of a document settle in another order. -/
theorem Permuted.settles_buildItemsFrom (h : scene.Permuted σ scene') (hfinal : scene.Complete final)
    (hrebuilt : scene.Rebuilt final final) : {items : List Item} → {vs : List Value} →
      (next : Nat) → {p' : Progress} →
      scene.RebuiltValues final (Document.mk items).values vs →
      scene'.Below (renumbered σ final) maxReferenceDepth [] p' →
      scene'.Settles (renumbered σ final) maxReferenceDepth [] (scene'.buildItemsFrom next items)
        (vs.map (Value.renumber σ)) p'
  | [], vs, _, _, hvs, hp' => by
    cases hvs
    exact .pure hp'
  | .binding _ :: items, vs, next, p', hvs, hp' => by
    rw [buildItemsFrom]
    have hforce := h.forcesBelow hfinal hrebuilt maxReferenceDepth [] (by decide)
    refine (hforce next p' (by rintro _ ⟨⟩) hp').bind fun q' _ hq' => ?_
    exact h.settles_buildItemsFrom hfinal hrebuilt (next + 1) hvs hq'
  | .value d :: items, vs, next, p', hvs, hp' => by
    cases hvs with
    | @cons _ v _ vs hv hvs =>
      rw [buildItemsFrom]
      have hforce := h.forcesBelow hfinal hrebuilt maxReferenceDepth [] (by decide)
      have hbegins : scene'.Begins scene'.force := begins_forceWithin maxReferenceDepth
      refine (h.settles_buildData hfinal hrebuilt.shaped hforce hbegins hv hp').bind
        fun q' _ hq' => ?_
      refine (h.settles_buildItemsFrom hfinal hrebuilt next hvs hq').bind fun r' _ hr' => ?_
      exact .pure hr'
  | .type _ :: items, vs, next, p', hvs, hp' | .rule _ :: items, vs, next, p', hvs, hp' => by
    simp only [buildItemsFrom]
    exact h.settles_buildItemsFrom hfinal hrebuilt next hvs hp'

/-- A deferred check that is right at the end succeeds there. -/
theorem runCheck_of_serves {check : DeferredCheck}
    (h : scene.Serves p.value? check.binding [] check.expected) : scene.runCheck p check = .ok () := by
  obtain ⟨base, target, hbase, htarget, hconforms⟩ := h
  rw [runCheck, hbase, Option.bind_some, htarget]
  exact if_pos hconforms

/-- Deferred conditions that hold at the end succeed there. -/
theorem runConstraints_of_holds {pending : DeferredConstraints}
    (h : scene.Holds p.value? pending.ctor pending.fields) :
    scene.runConstraints p pending = .ok () := by
  have hnone : scene.checkRecord p pending.ctor pending.fields pending.done pending.span = .ok none :=
    checkConstraints_of_holds fun constraint hmem => h constraint (List.mem_of_mem_drop hmem)
  rw [runConstraints, hnone]

/-- When all bindings are finished, all that was left to be checked is right. -/
theorem Below.runDeferred (h : scene.Below p.value? depth chain p) : scene.runDeferred p = .ok () := by
  rw [Scene.runDeferred, forM_eq_ok_iff.2 fun check hmem => runCheck_of_serves (h.checks check hmem)]
  exact forM_eq_ok_iff.2 fun pending hmem => runConstraints_of_holds (h.constraints pending hmem)

/-- Where all bindings are finished, their values are those of the first run, in the other order. -/
theorem Permuted.renumbered_eq_value? (h : scene.Permuted σ scene') (hfinal : scene.Complete final)
    (hp' : scene'.Below (renumbered σ final) depth chain p')
    (hfinished : ∀ b, b < scene'.slots.length → ∃ v, p'.value? b = some v) :
    renumbered σ final = p'.value? := by
  funext b
  cases hv : p'.value? b with
  | some v => exact hp'.keeps b v hv
  | none =>
    cases hr : renumbered σ final b with
    | none => rfl
    | some w =>
      obtain ⟨v, hv', -⟩ := Option.map_eq_some_iff.1 hr
      obtain ⟨slot, hslot⟩ := hfinal.sound.slot_of_value? hv'
      rw [← h.slots, Equiv.apply_symm_apply] at hslot
      obtain ⟨u, hu⟩ := hfinished b (List.getElem?_eq_some_iff.1 hslot).1
      cases hv.symm.trans hu

/-- **The bindings of a document may be built in any order.**  If a document can be built at all, then in
another order it can be built, too, or it stops at a binding that depends on itself. -/
theorem Permuted.settles_buildDocument (h : scene.Permuted σ scene') (hfinal : scene.Complete final)
    (hrebuilt : scene.Rebuilt final final) {items : List Item} {vs : List Value}
    (hvs : scene.RebuiltValues final (Document.mk items).values vs)
    (hlen : scene'.slots.length = (Document.mk items).bindings.length)
    (hmax : scene'.slots.length ≤ maxReferenceDepth) :
    (∃ resolution, ((scene'.buildDocument items).run (.initial scene'.slots.length)).1 =
      .ok resolution) ∨
    scene'.ReadsInCycle ∧
      ∃ name span, ((scene'.buildDocument items).run (.initial scene'.slots.length)).1 =
        .error (.reference (.selfDependency name span)) := by
  have hsettles := h.settles_buildItemsFrom hfinal hrebuilt 0 hvs (.initial scene' _ hmax)
  rcases hsettles with ⟨q, hq, hbelow⟩ | ⟨hcycle, name, span, q, hfails⟩
  · left
    obtain ⟨-, -, -, hfinished⟩ := ensures_buildItemsFrom items (.refl _) (by omega)
      (.initial scene') _ q hq
    have hvalues := h.renumbered_eq_value? hfinal hbelow fun b hb => by
      have hvalue := hfinished b (hlen ▸ hb)
      rwa [Nat.zero_add] at hvalue
    rw [hvalues] at hbelow
    have hgives : (scene'.buildDocument items).Gives (.initial scene'.slots.length)
        ⟨scene'.finished q, vs.map (Value.renumber σ)⟩ q := by
      refine Build.gives_bind_iff.2 ⟨_, q, hq, Build.gives_bind_iff.2 ⟨q, q, rfl, ?_⟩⟩
      refine Build.gives_bind_iff.2 ⟨(), q, ?_, rfl⟩
      exact Build.gives_ofExcept_iff.2 ⟨hbelow.runDeferred, rfl⟩
    exact ⟨_, congrArg Prod.fst hgives⟩
  · right
    refine ⟨hcycle, name, span, ?_⟩
    change ((scene'.buildDocument items).outcome (.initial scene'.slots.length)).1 = _
    rw [buildDocument, Build.outcome_bind, hfails]

end Scene

end TypedData
