import TypedData.Proofs.Building.Transitions
import TypedData.Proofs.Typing.Widening

/-!
# Finished bindings have their types

What was built at a type conforms to it (`Built.conforms`).  Of finished bindings this is known where no step
has failed (`Scene.Sound`), but a run that fails in the end has finished bindings as well.  So all building is
shown to leave the finished bindings with their types, whether it fails or not (`Scene.typed_run`): the
bindings that were on the chain when it failed have no value, and the others were finished before.  The
values that bindings have at some point they still have in the end, so it holds at every point of a run
(`Scene.Reached.typed`).
-/

namespace TypedData

namespace Scene

variable {scene : Scene} {p q : Progress} {b : Nat}

/-- **What was built where a type is expected conforms to the type.** -/
theorem Built.conforms {t : Ty} {v : Value} (h : scene.Built p t v) : t.conforms v = true := by
  induction h with
  | null ht => rwa [Ty.conforms_null, Bool.or_eq_true]
  | optional _ ih => exact Ty.conforms_optional ih
  | plain ht | fields ht => exact Ty.conforms_of_isOpen ht _
  | int | float | bool | str => rfl
  | @list t item items hitem _ ih =>
    unfold Ty.item? at hitem
    split at hitem
    · obtain rfl := Option.some.inj hitem
      exact List.all_eq_true.2 ih
    · rfl
    · rfl
    · cases hitem
  | record _ haccepts =>
    rcases haccepts with rfl | ⟨ht, -⟩
    · exact beq_self_eq_true _
    · exact Ty.conforms_of_isOpen ht _
  | handle => exact Ty.conforms_ref _ _

/-- The values of finished bindings conform to their types. -/
def Typed (scene : Scene) (p : Progress) : Prop :=
  ∀ b slot v, scene.slots[b]? = some slot → p.value? b = some v → slot.type.conforms v = true

/-- In sound progress every finished binding has its type. -/
theorem Sound.typed (h : scene.Sound p) : scene.Typed p :=
  fun b slot v hslot hv => (h.built b slot v hslot hv).conforms

/-- A binding that fails has no value. -/
theorem Typed.fail (h : scene.Typed p) : scene.Typed (p.leave b .failed) := by
  intro c slot v hslot hv
  refine h c slot v hslot ?_
  rw [Progress.value?_eq_some_iff, Progress.leave, List.getElem?_set] at hv
  rw [Progress.value?_eq_some_iff]
  grind

/-- From a sound progress the step leaves the finished bindings with their types, whether it fails or not.  If it
does not fail, the progress stays sound, and `P` holds of what it gives. -/
def KeepsTypes (scene : Scene) (p : Progress) {α : Type} (m : Build α) (P : α → Prop) : Prop :=
  scene.Sound p → scene.Typed (m.outcome p).2 ∧
    ∀ a, (m.outcome p).1 = .ok a → scene.Sound (m.outcome p).2 ∧ P a

namespace KeepsTypes

variable {α β : Type} {m : Build α} {P : α → Prop} {Q : β → Prop}

/-- A step that does nothing keeps the types. -/
theorem pure {a : α} (ha : P a) : scene.KeepsTypes p (Pure.pure a) P :=
  fun hp => ⟨hp.typed, fun _ hb => ⟨hp, Except.ok.inj hb ▸ ha⟩⟩

/-- A failure keeps the types. -/
theorem throw {e : Failure} : scene.KeepsTypes p (MonadExcept.throw e : Build α) P :=
  fun hp => ⟨hp.typed, by rintro _ ⟨⟩⟩

/-- Two steps keep the types if each of them does. -/
theorem bind {k : α → Build β} (hm : scene.KeepsTypes p m P)
    (hk : ∀ a q, P a → scene.KeepsTypes q (k a) Q) : scene.KeepsTypes p (m >>= k) Q := by
  intro hp
  obtain ⟨htyped, hresult⟩ := hm hp
  rw [Build.outcome_bind]
  rcases hout : m.outcome p with ⟨e | a, q⟩
  · rw [hout] at htyped
    exact ⟨htyped, by rintro _ ⟨⟩⟩
  · rw [hout] at hresult
    obtain ⟨hq, ha⟩ := hresult a rfl
    exact hk a q ha hq

/-- What comes after a failure keeps the types. -/
theorem throw_bind {e : Failure} {k : α → Build β} :
    scene.KeepsTypes p (MonadExcept.throw e >>= k) Q :=
  (throw (P := fun _ => False)).bind fun _ _ h => h.elim

/-- A step that looks at the progress keeps the types if it does so where it starts. -/
theorem get_bind {k : Progress → Build β} (h : scene.KeepsTypes p (k p) Q) :
    scene.KeepsTypes p (get >>= k) Q := h

/-- Checks may be left for the end. -/
theorem modify {f : Progress → Progress} {R : Unit → Progress → Prop}
    (hm : scene.Ensures p (modify f) R) : scene.KeepsTypes p (modify f) fun _ => True := by
  intro hp
  obtain ⟨hq, -, -⟩ := hm hp () (f p) (Build.gives_modify_iff.2 rfl)
  exact ⟨hq.typed, fun _ _ => ⟨hq, trivial⟩⟩

end KeepsTypes

/-- Conditions are checked without a change of types. -/
theorem keepsTypes_settleConditions (scene : Scene) (ctor : String) (fields : List (Field Value))
    (span : Span) (p : Progress) :
    scene.KeepsTypes p (scene.settleConditions ctor fields span) fun _ => True := by
  refine .get_bind ?_
  cases scene.checkRecord p ctor fields 0 span with
  | error e => exact .throw_bind
  | ok stop =>
    refine .bind (P := fun _ => True) (.pure trivial) fun stop q _ => ?_
    cases stop with
    | none => exact .pure trivial
    | some stop =>
      exact .modify (.deferConstraints ⟨ctor, fields, stop.1, span⟩)

/-- Keeping types, as a discipline of building. -/
def typing (scene : Scene) : Discipline scene where
  Keeps m P := ∀ p, scene.KeepsTypes p m P
  Fine _ := True
  plain _ := trivial
  list _ := trivial
  record _ := trivial
  pure ha _ := .pure ha
  throw _ _ := .throw
  bind hm hk p := (hm p).bind fun a q ha => hk a ha q
  conditions ctor fields span _ := keepsTypes_settleConditions scene ctor fields span

/-- A forced binding is used without a change of types. -/
theorem keepsTypes_useForced (scene : Scene) (b : Nat) (name : String) (path : List String)
    (span : Span) (t : Ty) (whole : Bool) (p : Progress) :
    scene.KeepsTypes p (scene.useForced b name path span t whole) fun _ => True := by
  refine .get_bind ?_
  split
  · unfold useUnfinished
    dsimp only
    split
    · exact .throw_bind
    · split
      · exact .pure trivial
      · exact .modify (.deferCheck ⟨b, t, span⟩)
  · refine .get_bind ?_
    split
    · split
      · exact .pure trivial
      · exact .throw
    · exact .throw
    · exact .throw
  · exact .throw

/-- A reference is built without a change of types, if bindings are forced so. -/
theorem keepsTypes_buildReference {force : Nat → Build Unit}
    (hforce : ∀ b p, scene.KeepsTypes p (force b) fun _ => True) (name : String) (path : List String)
    (span : Span) (t : Ty) (whole : Bool) (p : Progress) :
    scene.KeepsTypes p (scene.buildReference force name path span t whole) fun _ => True := by
  rw [buildReference_eq]
  split
  · exact .throw
  · rename_i b _
    refine .bind (P := fun _ => True) ?_ fun _ q _ => .pure trivial
    exact (hforce b p).bind fun _ q _ => keepsTypes_useForced scene b name path span t.peeled whole q

/-- A binding that is built on the chain is finished with a value of its type, or it fails and has none. -/
theorem keepsTypes_onChain {slot : Slot} {build : Build Value} (hb : p.states[b]? = some .unresolved)
    (hslot : scene.slots[b]? = some slot) (hsound : scene.BuildsSlot (p.enter b) slot build)
    (hbuild : scene.KeepsTypes (p.enter b) build fun _ => True) :
    scene.KeepsTypes p (onChain b build) fun _ => True := by
  intro hp
  obtain ⟨htyped, -⟩ := hbuild (hp.enter hb)
  have hfinished : ∀ q, (onChain b build).Gives p () q → scene.Sound q :=
    fun q hq => (ensures_onChain hb hslot hsound hp () q hq).1
  unfold Build.Gives at hfinished
  rw [Build.outcome_onChain] at hfinished ⊢
  rcases hout : build.outcome (p.enter b) with ⟨e | v, q⟩
  · rw [hout] at htyped
    exact ⟨htyped.fail, by rintro _ ⟨⟩⟩
  · rw [hout] at hfinished
    have hq := hfinished _ rfl
    exact ⟨hq.typed, fun _ _ => ⟨hq, trivial⟩⟩

/-- **Forcing keeps types.** -/
theorem keepsTypes_forceWithin (depth b : Nat) (p : Progress) :
    scene.KeepsTypes p (scene.forceWithin depth b) fun _ => True := by
  rw [forceWithin.eq_def]
  refine .get_bind ?_
  split
  · rename_i slot hb hslot
    cases depth with
    | zero => exact .throw
    | succ depth =>
      dsimp only
      split
      · exact .throw
      · have hkeeps := keepsTypes_forceWithin depth
        have hforces : scene.Forces (scene.forceWithin depth) :=
          fun b p => (ensures_forceWithin depth b p).imp fun _ _ _ _ => trivial
        have hbuild : scene.typing.Builds (scene.buildSlot (scene.forceWithin depth) slot) :=
          scene.typing.buildSlot slot
            (fun span name path u _ => keepsTypes_buildReference hkeeps name path span _ false)
            fun span name path _ => keepsTypes_buildReference hkeeps name path span _ true
        exact keepsTypes_onChain hb hslot (buildsSlot hforces slot) (hbuild _)
  · exact .pure trivial

/-- Items are built so that every finished binding has its type. -/
theorem keepsTypes_buildItemsFrom (scene : Scene) : (items : List Item) → (next : Nat) → (p : Progress) →
    scene.KeepsTypes p (scene.buildItemsFrom next items) fun _ => True
  | [], _, _ => .pure trivial
  | .binding _ :: items, next, p => by
    rw [buildItemsFrom]
    exact (keepsTypes_forceWithin maxReferenceDepth next p).bind fun _ q _ =>
      keepsTypes_buildItemsFrom scene items (next + 1) q
  | .value d :: items, next, p => by
    have hbuild : scene.typing.Builds (buildData scene scene.force d .any) :=
      Discipline.buildData d fun span name path u _ =>
        keepsTypes_buildReference (keepsTypes_forceWithin maxReferenceDepth) name path span _ false
    rw [buildItemsFrom]
    exact KeepsTypes.bind (hbuild p) fun v q _ =>
      (keepsTypes_buildItemsFrom scene items next q).bind fun vs r _ => .pure trivial
  | .type _ :: items, next, p | .rule _ :: items, next, p => by
    simp only [buildItemsFrom]
    exact keepsTypes_buildItemsFrom scene items next p

/-- **When building a document has come to its end, the finished bindings have their types,** also if it has
failed. -/
theorem typed_run (scene : Scene) (items : List Item) : scene.Typed (scene.run items).2 := by
  obtain ⟨htyped, -⟩ := keepsTypes_buildItemsFrom scene items 0 _ (.initial scene)
  rw [run, outcome_buildDocument]
  rcases hout : (scene.buildItemsFrom 0 items).outcome (.initial scene.slots.length) with
    ⟨e | values, q⟩
  · rw [hout] at htyped
    exact htyped
  · rw [hout] at htyped
    exact htyped

/-- Building items comes to this progress at some point, but for what is left to be checked.  The points of a run are
told by its log, whether it fails or not. -/
def Reached (scene : Scene) (items : List Item) (q : Progress) : Prop :=
  ∃ log, log <:+ (scene.run items).2.log ∧
    q.states = (Progress.replay scene.slots.length log).states

/-- A run comes only to progress that can be reached. -/
theorem reached_run (scene : Scene) (items : List Item) : scene.Reached items (scene.run items).2 :=
  ⟨_, List.suffix_refl _, (scene.orderly_run items).1.states⟩

/-- The bindings that are finished at some point have their types. -/
theorem Reached.typed {items : List Item} (h : scene.Reached items q) : scene.Typed q := by
  obtain ⟨log, hsuffix, hstates⟩ := h
  obtain ⟨horderly, -⟩ := scene.orderly_run items
  intro b slot v hslot hv
  refine scene.typed_run items b slot v hslot ?_
  rw [Progress.value?_eq_some_iff] at hv ⊢
  rw [horderly.states]
  exact horderly.lawful.keeps_value? hsuffix (hstates ▸ hv)

end Scene

end TypedData
