import Mathlib.Data.List.Forall2
import TypedData.Proofs.Building.Complete
import TypedData.Proofs.Simulation.Data

/-!
# Building again over the finished bindings

When everything is finished, every value may be built once more: nothing is forced now, references find
their bindings finished, and nothing has to wait.  This gives the same values again and leaves the
progress as it is (`Complete.rebuilt_of_buildDocument`).  So the values of a document are determined by
equations, one for each binding and one for each value without a name, in which the order of building
does not occur.
-/

namespace TypedData

namespace Scene

variable {scene : Scene} {p q final : Progress}

/-! ## Conditions -/

/-- Conditions that have been settled are checked, at the latest at the end. -/
theorem ensures_settleConditions (ctor : Constructor) (fields : List (Field Value)) (span : Span) :
    scene.Ensures p (scene.settleConditions ctor.name fields span) fun _ q =>
      scene.Checked q ctor fields := by
  refine .get_bind (.bind (ensures_checkRecord scene p ctor.name fields span) ?_)
  rintro stop p' _ ⟨hstop, hgrows⟩
  cases stop with
  | none => exact .pure (checked_of_checkRecord hstop hgrows (by rintro _ _ ⟨⟩))
  | some stop =>
    refine (Ensures.deferConstraints _).imp fun _ q hq hmem => ?_
    refine checked_of_checkRecord hstop (hgrows.trans hq.grows) ?_
    rintro _ _ ⟨⟩
    exact hmem

/-- Over the finished bindings, conditions that have been checked are settled at once. -/
theorem Complete.settleConditions (h : scene.Complete final) {ctor : Constructor}
    {fields : List (Field Value)} (hchecked : scene.Checked final ctor fields) (span : Span) :
    (scene.settleConditions ctor.name fields span).Gives final () final := by
  have hnone : scene.checkRecord final ctor.name fields 0 span = .ok none :=
    checkConstraints_of_holds fun constraint hmem => h.holds hchecked hmem
  refine Build.gives_bind_iff.2 ⟨final, final, rfl, ?_⟩
  rw [hnone]
  rfl

/-! ## Bindings -/

/-- Nothing is left to be forced. -/
def idle (_ : Nat) : Build Unit := pure ()

/-- Every finished binding has the value that its data gives over the final bindings. -/
def Rebuilt (scene : Scene) (final p : Progress) : Prop :=
  ∀ b slot v, scene.slots[b]? = some slot → p.value? b = some v →
    (scene.buildSlot idle slot).Gives final v final

/-- What the step gives is given again by the second step at the end, if this step is a part of what
leads there.  Meanwhile bindings are only given values that they are given again. -/
def Repeats (scene : Scene) (final : Progress) {α β : Type} (g : α → β) (m : Build α)
    (m' : Build β) : Prop :=
  ∀ p, scene.Ensures p m fun a q => q.Grows final →
    (scene.Rebuilt final p → scene.Rebuilt final q) ∧ m'.Gives final (g a) final

namespace Repeats

variable {α β γ δ : Type} {g : α → β} {g' : γ → δ}

/-- A step that only gives a result is repeated. -/
theorem pure (g : α → β) (a : α) : scene.Repeats final g (Pure.pure a) (Pure.pure (g a)) :=
  fun _ => .pure fun _ => ⟨id, rfl⟩

/-- A step that only fails is repeated by any that does. -/
theorem throw (g : α → β) (e e' : Failure) :
    scene.Repeats final g (MonadExcept.throw e) (MonadExcept.throw e') := fun _ => .throw

/-- One step after another is repeated if both are. -/
theorem bind {m : Build α} {m' : Build β} {k : α → Build γ} {k' : β → Build δ}
    (hm : scene.Repeats final g m m') (hk : ∀ a, scene.Repeats final g' (k a) (k' (g a))) :
    scene.Repeats final g' (m >>= k) (m' >>= k') := by
  intro p
  refine (hm p).bind fun a q _ hq => (hk a q).imp fun c r hqr hr hfinal => ?_
  obtain ⟨hrebuilt, hgives⟩ := hq (hqr.grows.trans hfinal)
  obtain ⟨hrebuilt', hgives'⟩ := hr hfinal
  exact ⟨hrebuilt' ∘ hrebuilt, Build.gives_bind_iff.2 ⟨g a, final, hgives, hgives'⟩⟩

/-- A step that finishes no binding. -/
theorem of_ensures {m : Build α} {m' : Build β} {Q : α → Progress → Prop}
    (hvalue : ∀ p a q, m.Gives p a q → q.value? = p.value?) (hm : ∀ p, scene.Ensures p m Q)
    (hfinal : ∀ a q, Q a q → q.Grows final → m'.Gives final (g a) final) :
    scene.Repeats final g m m' := by
  intro p hp a q ha
  obtain ⟨hq, hpq, hQ⟩ := hm p hp a q ha
  refine ⟨hq, hpq, fun hgrows => ⟨fun hrebuilt b slot v hslot hv => ?_, hfinal a q hQ hgrows⟩⟩
  exact hrebuilt b slot v hslot (hvalue p a q ha ▸ hv)

end Repeats

/-- Settling conditions finishes no binding. -/
theorem value?_settleConditions {ctor : String} {fields : List (Field Value)} {span : Span} {u : Unit}
    (h : (scene.settleConditions ctor fields span).Gives p u q) : q.value? = p.value? := by
  obtain ⟨_, _, hget, h⟩ := Build.gives_bind_iff.1 h
  obtain ⟨rfl, rfl⟩ := Build.gives_get_iff.1 hget
  obtain ⟨stop, _, hstop, h⟩ := Build.gives_bind_iff.1 h
  obtain ⟨-, rfl⟩ := Build.gives_ofExcept_iff.1 hstop
  cases stop with
  | none =>
    obtain ⟨-, rfl⟩ := Build.gives_pure_iff.1 h
    rfl
  | some stop =>
    obtain rfl := Build.gives_modify_iff.1 h
    rfl

/-- Settling conditions is repeated. -/
theorem repeats_settleConditions (hfinal : scene.Complete final) (ctor : Constructor)
    (fields : List (Field Value)) (span : Span) :
    scene.Repeats final id (scene.settleConditions ctor.name fields span)
      (scene.settleConditions ctor.name fields span) :=
  .of_ensures (fun _ _ _ => value?_settleConditions)
    (fun _ => ensures_settleConditions ctor fields span)
    fun _ _ hchecked hgrows => hfinal.settleConditions (hchecked.mono hgrows) span

/-! ## References -/

/-- A use of an unfinished binding finishes no binding. -/
theorem value?_useUnfinished {binding : Nat} {name : String} {path : List String} {span : Span}
    {t : Ty} {whole : Bool} {u : Unit}
    (h : (useUnfinished binding name path span t whole).Gives p u q) : q.value? = p.value? := by
  unfold useUnfinished at h
  dsimp only at h
  split at h
  · obtain ⟨_, _, hthrow, -⟩ := Build.gives_bind_iff.1 h
    exact absurd hthrow Build.not_gives_throw
  · split at h
    · obtain ⟨-, rfl⟩ := Build.gives_pure_iff.1 h
      rfl
    · obtain rfl := Build.gives_modify_iff.1 h
      rfl

/-- A use of a finished value finishes no binding. -/
theorem value?_useFinished {value : Value} {name : String} {path : List String} {span : Span} {t : Ty}
    {u : Unit} (h : (scene.useFinished value name path span t).Gives p u q) :
    q.value? = p.value? := by
  obtain ⟨_, _, hget, h⟩ := Build.gives_bind_iff.1 h
  obtain ⟨rfl, rfl⟩ := Build.gives_get_iff.1 hget
  split at h
  · split at h
    · obtain ⟨-, rfl⟩ := Build.gives_pure_iff.1 h
      rfl
    · exact absurd h Build.not_gives_throw
  · exact absurd h Build.not_gives_throw
  · exact absurd h Build.not_gives_throw

/-- In a store of values a reference leads to a value of a type. -/
def Serves (scene : Scene) (root : Nat → Option Value) (b : Nat) (path : List String) (t : Ty) :
    Prop :=
  ∃ base target, root b = some base ∧ base.follow root scene.hops path = .ok target ∧
    t.conforms target = true

/-- Over the finished bindings, a use that is right succeeds at once. -/
theorem Serves.useForced {b : Nat} {path : List String} {t : Ty} (h : scene.Serves final.value? b path t)
    (name : String) (span : Span) (whole : Bool) :
    (scene.useForced b name path span t whole).Gives final () final := by
  obtain ⟨base, target, hbase, htarget, hconforms⟩ := h
  refine Build.gives_bind_iff.2 ⟨final, final, rfl, ?_⟩
  rw [Progress.value?_eq_some_iff.1 hbase]
  refine Build.gives_bind_iff.2 ⟨final, final, rfl, ?_⟩
  rw [htarget]
  dsimp only
  rw [if_pos hconforms]
  rfl

/-- A binding that may be used unfinished serves its use at the end. -/
theorem Complete.serves (h : scene.Complete final) {name : String} {b : Nat} {t : Ty}
    (hb : scene.indexOf? name = some b)
    (hcheck : t.isOpen = true ∨ ∃ span, ⟨b, t, span⟩ ∈ final.checks) :
    scene.Serves final.value? b [] t := by
  obtain ⟨slot, hslot, -⟩ := slot_of_indexOf? hb
  obtain ⟨base, hbase⟩ := h.value?_of_slot hslot
  obtain ⟨target, htarget⟩ := h.sound.walks_of_value? hbase
  have hfollow : base.follow final.value? scene.hops [] = .ok target :=
    h.sound.settle_hops htarget
  refine ⟨base, target, hbase, hfollow, ?_⟩
  rcases hcheck with hopen | ⟨span, hmem⟩
  · exact Ty.conforms_of_isOpen hopen target
  · exact h.conforms_of_runCheck hbase htarget hmem

/-- A use of a binding that was forced finishes no other. -/
theorem value?_useForced {b : Nat} {name : String} {path : List String} {span : Span} {t : Ty}
    {whole : Bool} {u : Unit} (h : (scene.useForced b name path span t whole).Gives p u q) :
    q.value? = p.value? := by
  obtain ⟨_, _, hget, h⟩ := Build.gives_bind_iff.1 h
  obtain ⟨rfl, rfl⟩ := Build.gives_get_iff.1 hget
  split at h
  · exact value?_useUnfinished h
  · exact value?_useFinished h
  · exact absurd h Build.not_gives_throw

/-- A reference that may be used serves its use at the end. -/
theorem ensures_useForced (hfinal : scene.Complete final) {b : Nat} {name : String}
    (hb : scene.indexOf? name = some b) (path : List String) (t : Ty) (span : Span) (whole : Bool) :
    scene.Ensures p (scene.useForced b name path span t whole) fun _ q =>
      q.Grows final → scene.Serves final.value? b path t := by
  refine .get_bind ?_
  cases hstate : p.states[b]? with
  | none => exact .throw
  | some state =>
    cases state with
    | inProgress =>
      refine ensures_useUnfinished.imp ?_
      rintro _ q - ⟨-, rfl, hcheck⟩ hgrows
      refine hfinal.serves hb (hcheck.imp id ?_)
      rintro ⟨span, hmem⟩
      exact ⟨span, hgrows.checks hmem⟩
    | resolved value =>
      refine ensures_useFinished.imp ?_
      rintro _ q hext ⟨target, htarget, hconforms⟩ hgrows
      have hbase : q.value? b = some value :=
        hext.grows.keeps b value (Progress.value?_eq_some_iff.2 hstate)
      exact ⟨value, target, hgrows.keeps b value hbase,
        Value.follow_ok_mono hgrows.keeps (Nat.le_refl _) htarget, hconforms⟩
    | unresolved | failed => exact .throw

/-- A use of a binding is repeated without forcing it, if forcing is. -/
theorem repeats_useBinding (hfinal : scene.Complete final) {force : Nat → Build Unit}
    (hforce : ∀ b, scene.Repeats final id (force b) (idle b)) {b : Nat} {name : String}
    (hb : scene.indexOf? name = some b) (path : List String) (t : Ty) (span : Span) (whole : Bool) :
    scene.Repeats final id (scene.useBinding force b name path span t whole)
      (scene.useBinding idle b name path span t whole) := by
  refine .bind (hforce b) fun _ => ?_
  exact .of_ensures (fun _ _ _ => value?_useForced)
    (fun _ => ensures_useForced hfinal hb path t span whole)
    fun _ _ hserves hgrows => (hserves hgrows).useForced name span whole

/-- Building beside building again at the end. -/
def repetition (hfinal : scene.Complete final) : Simulation id id scene scene where
  Maps := scene.Repeats final
  registry := scene.exists_registry_eq_relocate_id
  indexOf? := scene.indexOf?_eq_map_id
  pure := .pure
  throw g e _ := .throw g e _
  bind := .bind
  conditions ctor fields span := by
    rw [Value.renumberFields_id]
    exact repeats_settleConditions hfinal ctor fields span

/-- Texts are fitted again alike. -/
theorem fits_repetition (hfinal : scene.Complete final) (text : String) (t : Ty) (span : Span) :
    (repetition hfinal).FitsText scene.fitText scene.fitText text t span :=
  ((repetition hfinal).sameRules_relocate (Rule.map_relocate_id scene.rules).symm).fitText
    (fun _ _ => .throw _ _ _) rfl text t span

/-- References are followed again without forcing bindings, if forcing is repeated. -/
theorem refers_repetition (hfinal : scene.Complete final) {force : Nat → Build Unit}
    (hforce : ∀ b, scene.Repeats final id (force b) (idle b)) {whole : Bool} {name : String}
    {path : List String} : (repetition hfinal).Refers force idle whole name path :=
  Simulation.refers fun _ t span hb =>
    repeats_useBinding hfinal hforce hb path t span whole

/-! ## Bindings -/

/-- A slot is built again alike over the finished bindings. -/
theorem repeats_buildSlot (hfinal : scene.Complete final) {force : Nat → Build Unit}
    (hforce : ∀ b, scene.Repeats final id (force b) (idle b)) (slot : Slot) :
    scene.Repeats final id (scene.buildSlot force slot) (scene.buildSlot idle slot) := by
  have h := (repetition hfinal).buildSlot slot (fun text _ => fits_repetition hfinal text)
    (fun _ _ => refers_repetition hfinal hforce) fun _ _ _ _ => refers_repetition hfinal hforce
  rw [Slot.relocate_id] at h
  exact (repetition hfinal).of_renumber h

/-- Data is built again alike over the finished bindings. -/
theorem repeats_buildData (hfinal : scene.Complete final) {force : Nat → Build Unit}
    (hforce : ∀ b, scene.Repeats final id (force b) (idle b)) (d : Data) (t : Ty) :
    scene.Repeats final id (buildData scene force d t) (buildData scene idle d t) := by
  have h := (repetition hfinal).buildData d (fun text _ => fits_repetition hfinal text)
    (fun _ _ => refers_repetition hfinal hforce) t
  rw [Data.relocate_id] at h
  exact (repetition hfinal).of_renumber h

/-- **A binding is finished with the value that is built again at the end.** -/
theorem repeats_forceWithin (hfinal : scene.Complete final) (depth b : Nat) :
    scene.Repeats final id (scene.forceWithin depth b) (idle b) := by
  intro p
  rw [forceWithin.eq_def]
  refine Ensures.get_bind ?_
  split
  · rename_i slot hb hslot
    cases depth with
    | zero => exact .throw
    | succ depth =>
      dsimp only
      split
      · exact .throw
      intro hp u q hq
      have hforce : scene.Forces (scene.forceWithin depth) :=
        fun b p => (ensures_forceWithin depth b p).imp fun _ _ _ _ => trivial
      obtain ⟨hsound, hext, -⟩ := ensures_onChain hb hslot (buildsSlot hforce slot) hp u q hq
      refine ⟨hsound, hext, fun hgrows => ⟨fun hrebuilt => ?_, rfl⟩⟩
      obtain ⟨v, p', hv, rfl⟩ := Build.gives_onChain_iff.1 hq
      obtain ⟨-, hext', hagain⟩ :=
        repeats_buildSlot hfinal (repeats_forceWithin hfinal depth) slot _ (hp.enter hb) v p' hv
      have hprogress := hext'.inProgress_of_enter hb
      obtain ⟨hrebuilt', hgives⟩ := hagain ((Progress.Grows.leave hprogress).trans hgrows)
      intro c slot' w hslot' hw
      by_cases hcb : c = b
      · subst hcb
        obtain rfl := Option.some.inj (hslot.symm.trans hslot')
        obtain rfl := Option.some.inj ((Progress.value?_leave_self hprogress).symm.trans hw)
        exact hgives
      · rw [Progress.value?_leave_ne hcb] at hw
        refine hrebuilt' (fun c slot w hslot hw => ?_) c slot' w hslot' hw
        exact hrebuilt c slot w hslot (Progress.value?_enter hb ▸ hw)
  · exact .pure fun _ => ⟨id, rfl⟩

/-- Forcing a binding is repeated by doing nothing. -/
theorem repeats_force (hfinal : scene.Complete final) (b : Nat) :
    scene.Repeats final id (scene.force b) (idle b) :=
  repeats_forceWithin hfinal maxReferenceDepth b

/-! ## Documents -/

/-- The values are what the data gives over the final bindings. -/
def RebuiltValues (scene : Scene) (final : Progress) (ds : List Data) (vs : List Value) : Prop :=
  List.Forall₂ (fun d v => (buildData scene idle d .any).Gives final v final) ds vs

/-- All that the items of a document build is built again alike over the finished bindings. -/
theorem rebuilds_buildItemsFrom (hfinal : scene.Complete final) : (items : List Item) →
    (next : Nat) → (p : Progress) →
      scene.Ensures p (scene.buildItemsFrom next items) fun vs q => q.Grows final →
        (scene.Rebuilt final p → scene.Rebuilt final q) ∧
          scene.RebuiltValues final (Document.mk items).values vs
  | [], _, _ => .pure fun _ => ⟨id, .nil⟩
  | .binding _ :: items, next, p => by
    rw [buildItemsFrom]
    refine (repeats_force hfinal next p).bind fun _ q _ hq => ?_
    refine (rebuilds_buildItemsFrom hfinal items (next + 1) q).imp fun vs r hqr hr hgrows => ?_
    obtain ⟨hrebuilt, hvalues⟩ := hr hgrows
    exact ⟨hrebuilt ∘ (hq (hqr.grows.trans hgrows)).1, hvalues⟩
  | .value d :: items, next, p => by
    rw [buildItemsFrom]
    refine (repeats_buildData hfinal (repeats_force hfinal) d .any p).bind fun v q _ hq => ?_
    refine (rebuilds_buildItemsFrom hfinal items next q).bind fun vs r hqr hr => .pure fun hgrows => ?_
    obtain ⟨hrebuilt, hvalues⟩ := hr hgrows
    obtain ⟨hrebuilt', hv⟩ := hq (hqr.grows.trans hgrows)
    exact ⟨hrebuilt ∘ hrebuilt', .cons hv hvalues⟩
  | .type _ :: items, next, p | .rule _ :: items, next, p => by
    simp only [buildItemsFrom]
    exact rebuilds_buildItemsFrom hfinal items next p

/-- **The values of a document are built again from themselves.**  At the complete progress that building
leaves, every binding and every value without a name has the value that its data gives there. -/
theorem rebuilt_of_buildDocument (scene : Scene) {items : List Item} {resolution : Resolution}
    (hlen : scene.slots.length = (Document.mk items).bindings.length)
    (h : ((scene.buildDocument items).run (.initial scene.slots.length)).1 = .ok resolution) :
    ∃ final, scene.Complete final ∧ resolution.bindings = scene.finished final ∧
      scene.Rebuilt final final ∧
      scene.RebuiltValues final (Document.mk items).values resolution.values := by
  obtain ⟨final, hgives⟩ := Build.exists_gives h
  obtain ⟨hvalues, hrun, hbindings⟩ := gives_of_buildDocument scene hgives
  obtain ⟨hcomplete, -⟩ := complete_of_buildItemsFrom scene hlen hvalues hrun
  obtain ⟨-, -, hrebuilt⟩ := rebuilds_buildItemsFrom hcomplete items 0 _ (.initial scene) _ final hvalues
  obtain ⟨hrebuilt, hvalues⟩ := hrebuilt (.refl final)
  refine ⟨final, hcomplete, hbindings, hrebuilt fun b slot v hslot hv => ?_, hvalues⟩
  have hb : b < scene.slots.length := (List.getElem?_eq_some_iff.1 hslot).1
  rw [Progress.value?_eq_some_iff, Progress.initial, List.getElem?_replicate_of_lt hb] at hv
  cases hv

end Scene

end TypedData
