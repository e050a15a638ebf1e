import TypedData.Proofs.Building.Built
import TypedData.Proofs.Building.Outcome

/-!
# What holds between the steps of building

A progress is **sound** when every finished binding has a value that was built at its type, and the
bindings were finished in an order in which no reference that has to lead somewhere led nowhere.

`scene.Ensures p m Q` says what is true of a step started at a sound progress: unless it fails, the
progress that it leaves is sound and extends the one before, and `Q` holds of its result.  Nothing is
said about steps that fail, since the first failure ends everything.
-/

namespace TypedData

namespace Scene

variable {scene : Scene} {p q : Progress}

/-- What holds of the progress between the steps of building. -/
structure Sound (scene : Scene) (p : Progress) : Prop where
  length : p.states.length = scene.slots.length
  settled : ∃ order, Value.Settled p.value? order
  built : ∀ b slot v, scene.slots[b]? = some slot → p.value? b = some v → scene.Built p slot.type v

namespace Sound

/-- Nothing is wrong before anything is built. -/
theorem initial (scene : Scene) : scene.Sound (.initial scene.slots.length) := by
  have hnone : (Progress.initial scene.slots.length).value? = fun _ => none := by
    funext b
    by_cases hb : b < scene.slots.length
    · refine Progress.value?_eq_none (s := .unresolved) ?_ ?_
      · rw [Progress.initial, List.getElem?_replicate_of_lt hb]
      · intro v h; cases h
    · rw [Progress.value?, Progress.initial, List.getElem?_replicate, if_neg hb]
  refine ⟨List.length_replicate .., ⟨[], hnone ▸ .nil⟩, fun b slot v _ hv => ?_⟩
  rw [hnone] at hv
  cases hv

/-- A progress with the same values is as sound. -/
theorem of_value?_eq (h : scene.Sound p) (hlen : q.states.length = p.states.length)
    (hvalue : q.value? = p.value?) (hpq : p.Grows q) : scene.Sound q where
  length := hlen.trans h.length
  settled := hvalue ▸ h.settled
  built b slot v hslot hv := (h.built b slot v hslot (hvalue ▸ hv)).mono hpq

/-- Nothing goes wrong when a binding begins to be built. -/
theorem enter {b : Nat} (h : scene.Sound p) (hb : p.states[b]? = some .unresolved) :
    scene.Sound (p.enter b) :=
  h.of_value?_eq (List.length_set ..) (Progress.value?_enter hb) (.enter hb)

/-- **A binding is finished.**  Its value was built at its type, and its references lead where they
have to. -/
theorem leave {b : Nat} {slot : Slot} {v : Value} (h : scene.Sound q)
    (hb : q.states[b]? = some .inProgress) (hslot : scene.slots[b]? = some slot)
    (hv : scene.Built q slot.type v) (hstrict : ∀ r, Value.Strict v r → Value.Leads q.value? r) :
    scene.Sound (q.leave b (.resolved v)) := by
  have hnone : q.value? b = none := by
    refine Progress.value?_eq_none hb ?_
    intro v h; cases h
  have hself : (q.leave b (.resolved v)).value? b = some v := Progress.value?_leave_self hb
  have hne : ∀ c, c ≠ b → (q.leave b (.resolved v)).value? c = q.value? c :=
    fun c hcb => Progress.value?_leave_ne hcb
  have hgrows : q.Grows (q.leave b (.resolved v)) :=
    ⟨Value.keeps_of_update hnone hne, fun _ => id, fun _ => id⟩
  refine ⟨(List.length_set ..).trans h.length, ?_, fun c slot' u hslot' hu => ?_⟩
  · obtain ⟨order, horder⟩ := h.settled
    exact ⟨b :: order, .cons horder hnone hself hne hstrict⟩
  · by_cases hcb : c = b
    · subst hcb
      obtain rfl := Option.some.inj (hslot.symm.trans hslot')
      obtain rfl := Option.some.inj (hself.symm.trans hu)
      exact hv.mono hgrows
    · rw [hne c hcb] at hu
      exact (h.built c slot' u hslot' hu).mono hgrows

/-- The finished bindings are bindings of the scene. -/
theorem slot_of_value? (h : scene.Sound p) {b : Nat} {v : Value} (hv : p.value? b = some v) :
    ∃ slot, scene.slots[b]? = some slot := by
  have hlt := (List.getElem?_eq_some_iff.1 (Progress.value?_eq_some_iff.1 hv)).1
  rw [h.length] at hlt
  exact ⟨_, List.getElem?_eq_getElem hlt⟩

/-- No more bindings were finished than the scene has. -/
theorem exists_order (h : scene.Sound p) :
    ∃ order, Value.Settled p.value? order ∧ order.length ≤ scene.slots.length := by
  obtain ⟨order, horder⟩ := h.settled
  refine ⟨order, horder, horder.length_le fun b v hv => ?_⟩
  obtain ⟨slot, hslot⟩ := h.slot_of_value? hv
  exact (List.getElem?_eq_some_iff.1 hslot).1

/-- As many hops suffice for every walk there is. -/
theorem settle_of_walks (h : scene.Sound p) {hops : Nat} {v w : Value}
    (hhops : 2 * scene.slots.length ≤ hops) (hw : Value.Walks p.value? v [] w) :
    Value.settle p.value? hops v = .ok w := by
  obtain ⟨order, horder, hle⟩ := h.exists_order
  obtain ⟨hops', hw⟩ := hw.exists_follow
  exact Value.settle_ok_mono (.refl _) (by omega) (horder.settle_ok_hops hw)

/-- The hops of the scene suffice for every walk there is. -/
theorem settle_hops (h : scene.Sound p) {v w : Value} (hw : Value.Walks p.value? v [] w) :
    Value.settle p.value? scene.hops v = .ok w :=
  h.settle_of_walks (by unfold Scene.hops Value.hopLimit; omega) hw

/-- The value of a finished binding leads somewhere. -/
theorem walks_of_value? (h : scene.Sound p) {b : Nat} {v : Value} (hv : p.value? b = some v) :
    ∃ w, Value.Walks p.value? v [] w := by
  obtain ⟨order, horder⟩ := h.settled
  cases v with
  | ref r => exact horder.grounded b _ r hv ⟨.self _, .inr rfl⟩
  | _ => exact ⟨_, .done rfl⟩

/-- **The hops of the scene cut no walk short**, whatever it starts at and however far building has come:
with more of them it would end in the same way. -/
theorem follow_eq (h : scene.Sound p) {hops : Nat} (hhops : scene.hops ≤ hops) (v : Value)
    (path : List String) : v.follow p.value? hops path = v.follow p.value? scene.hops path := by
  obtain ⟨order, horder, hle⟩ := h.exists_order
  have henough : 2 * order.length + 2 ≤ scene.hops := by
    rw [Scene.hops, Value.hopLimit]
    omega
  rw [horder.follow_eq (Nat.le_trans henough hhops), horder.follow_eq henough]

end Sound

/-! ## Steps -/

/-- Unless the step fails, the progress stays sound and is extended, and `Q` holds of the result. -/
def Ensures {α : Type} (scene : Scene) (p : Progress) (m : Build α) (Q : α → Progress → Prop) :
    Prop :=
  scene.Sound p → ∀ a q, m.Gives p a q → scene.Sound q ∧ p.Extends q ∧ Q a q

namespace Ensures

variable {α β : Type} {m : Build α} {Q R : α → Progress → Prop} {S : β → Progress → Prop}

/-- A step that does nothing ensures what holds already. -/
theorem pure {a : α} (h : Q a p) : scene.Ensures p (pure a) Q := by
  intro hp b q hb
  obtain ⟨rfl, rfl⟩ := Build.gives_pure_iff.1 hb
  exact ⟨hp, .refl p, h⟩

/-- A failure ensures anything. -/
theorem throw {e : Failure} : scene.Ensures p (throw e) Q :=
  fun _ _ _ h => absurd h Build.not_gives_throw

/-- What the first step ensures may be used for the second. -/
theorem bind {f : α → Build β} (hm : scene.Ensures p m Q)
    (hf : ∀ a q, p.Extends q → Q a q → scene.Ensures q (f a) S) :
    scene.Ensures p (m >>= f) S := by
  intro hp b r hb
  obtain ⟨a, q, ha, hb⟩ := Build.gives_bind_iff.1 hb
  obtain ⟨hq, hpq, hQ⟩ := hm hp a q ha
  obtain ⟨hr, hqr, hS⟩ := hf a q hpq hQ hq b r hb
  exact ⟨hr, hpq.trans hqr, hS⟩

/-- What comes after a failure ensures anything. -/
theorem throw_bind {e : Failure} {f : α → Build β} :
    scene.Ensures p (MonadExcept.throw e >>= f) S :=
  (throw (Q := fun _ _ => False)).bind fun _ _ _ h => h.elim

/-- A step ensures whatever follows from what it ensures. -/
theorem imp (hm : scene.Ensures p m Q) (h : ∀ a q, p.Extends q → Q a q → R a q) :
    scene.Ensures p m R := by
  intro hp a q ha
  obtain ⟨hq, hpq, hQ⟩ := hm hp a q ha
  exact ⟨hq, hpq, h a q hpq hQ⟩

/-- A step that looks at the progress ensures what it does where it starts. -/
theorem get_bind {f : Progress → Build β} (h : scene.Ensures p (f p) S) :
    scene.Ensures p (get >>= f) S := by
  intro hp b q hb
  obtain ⟨a, p', ha, hb⟩ := Build.gives_bind_iff.1 hb
  obtain ⟨rfl, rfl⟩ := Build.gives_get_iff.1 ha
  exact h hp b q hb

/-- A result ensures what holds of it, unless it is a failure. -/
theorem ofExcept {result : Except Failure α} (h : ∀ a, result = .ok a → Q a p) :
    scene.Ensures p (Build.ofExcept result) Q := by
  intro hp a q ha
  obtain ⟨hresult, rfl⟩ := Build.gives_ofExcept_iff.1 ha
  exact ⟨hp, .refl p, h a hresult⟩

/-- A check that is put off is among those at the end. -/
theorem deferCheck (check : DeferredCheck) :
    scene.Ensures p (modify (·.deferCheck check)) fun _ q => check ∈ q.checks := by
  intro hp _ q h
  obtain rfl := Build.gives_modify_iff.1 h
  have hext := Progress.Extends.deferCheck p check
  exact ⟨hp.of_value?_eq rfl rfl hext.grows, hext, List.mem_append_right _ (.head _)⟩

/-- Conditions that are put off are among those at the end. -/
theorem deferConstraints (pending : DeferredConstraints) :
    scene.Ensures p (modify (·.deferConstraints pending)) fun _ q => pending ∈ q.constraints := by
  intro hp _ q h
  obtain rfl := Build.gives_modify_iff.1 h
  have hext := Progress.Extends.deferConstraints p pending
  exact ⟨hp.of_value?_eq rfl rfl hext.grows, hext, List.mem_append_right _ (.head _)⟩

end Ensures

end Scene

end TypedData
