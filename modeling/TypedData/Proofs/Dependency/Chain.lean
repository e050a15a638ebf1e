import Mathlib.Data.List.Chain
import Mathlib.Logic.Relation
import TypedData.Proofs.Dependency.Written

/-!
# What is in progress

While nothing has failed, the bindings in progress are those on the chain, and each of them is built
because the data of the next one refers to it (`Linked`).  So from a binding on the chain references lead
to the innermost one, which is being built.

A walk stops for want of a value only at a binding in progress.  References lead there, too
(`Linked.unfinished_of_follow`).
-/

namespace TypedData

namespace Scene

open Relation (ReflTransGen TransGen)

variable {scene : Scene} {chain : List Nat} {p q : Progress} {b c : Nat}

/-- The data of the first binding refers to the second. -/
def Mentions (scene : Scene) (b c : Nat) : Prop :=
  ∃ slot name path, scene.slots[b]? = some slot ∧ (name, path) ∈ slot.data.references ∧
    scene.indexOf? name = some c

/-- What holds of the progress between steps as long as nothing has failed. -/
structure Linked (scene : Scene) (chain : List Nat) (p : Progress) : Prop where
  sound : scene.Sound p
  chain_eq : p.chain = chain
  mentions : chain.IsChain fun b c => scene.Mentions c b
  inProgress : ∀ b : Nat, p.states[b]? = some .inProgress → b ∈ chain
  failed : ∀ b : Nat, p.states[b]? ≠ some .failed
  written : ∀ b slot v, scene.slots[b]? = some slot → p.value? b = some v →
    Written slot.data.references p v
  forcing_eq : p.forcing = chain.length

/-- References lead from each binding on the chain to the innermost one. -/
theorem reflTransGen_of_mem : {chain : List Nat} → {b : Nat} →
    (b :: chain).IsChain (fun b c => scene.Mentions c b) → c ∈ b :: chain →
    ReflTransGen scene.Mentions c b
  | [], _, _, hc => List.mem_singleton.1 hc ▸ .refl
  | next :: chain, b, h, hc => by
    rcases List.mem_cons.1 hc with rfl | hc
    · exact .refl
    · obtain ⟨hnext, hrest⟩ := List.isChain_cons_cons.1 h
      exact (reflTransGen_of_mem hrest hc).tail hnext

namespace Linked

/-- Before anything is built there is no chain. -/
theorem initial (scene : Scene) : scene.Linked [] (.initial scene.slots.length) := by
  have hstate : ∀ (b : Nat) (s : BindingState),
      (Progress.initial scene.slots.length).states[b]? = some s → s = .unresolved := by
    intro b s hs
    rw [Progress.initial, List.getElem?_replicate] at hs
    split at hs
    · exact (Option.some.inj hs).symm
    · cases hs
  refine ⟨.initial scene, rfl, .nil, fun b hb => ?_, fun b hb => ?_, fun b slot v _ hv => ?_, rfl⟩
  · cases hstate b _ hb
  · cases hstate b _ hb
  · cases hstate b _ (Progress.value?_eq_some_iff.1 hv)

/-- Checks may be left for the end. -/
theorem of_states (h : scene.Linked chain p) (hstates : q.states = p.states) (hchain : q.chain = p.chain)
    (hforcing : q.forcing = p.forcing) (hpq : p.Grows q) : scene.Linked chain q := by
  have hvalue : q.value? = p.value? := by
    funext b
    rw [Progress.value?, Progress.value?, hstates]
  refine ⟨h.sound.of_value?_eq (congrArg _ hstates) hvalue hpq, hchain.trans h.chain_eq, h.mentions,
    hstates ▸ h.inProgress, hstates ▸ h.failed, fun b slot v hslot hv r hr => ?_,
    hforcing.trans h.forcing_eq⟩
  obtain ⟨hmem, hbegun⟩ := h.written b slot v hslot (hvalue ▸ hv) r hr
  exact ⟨hmem, by rwa [Progress.Begun, hstates]⟩

/-- A binding that the innermost one mentions is linked to the chain when it begins to be built. -/
theorem enter (h : scene.Linked chain p) (hb : p.states[b]? = some .unresolved)
    (hmention : ∀ c ∈ chain.head?, scene.Mentions c b) : scene.Linked (b :: chain) (p.enter b) := by
  refine ⟨h.sound.enter hb, congrArg _ h.chain_eq, h.mentions.cons hmention, fun c hc => ?_,
    fun c hc => ?_, fun c slot v hslot hv r hr => ?_, congrArg _ h.forcing_eq⟩
  · by_cases hbc : b = c
    · exact hbc ▸ .head _
    · exact .tail _ (h.inProgress c ((List.getElem?_set_ne hbc).symm.trans hc))
  · by_cases hbc : b = c
    · subst hbc
      rw [Progress.enter, List.getElem?_set_self (List.getElem?_eq_some_iff.1 hb).1] at hc
      cases hc
    · exact h.failed c ((List.getElem?_set_ne hbc).symm.trans hc)
  · obtain ⟨hmem, hbegun⟩ := h.written c slot v hslot (Progress.value?_enter hb ▸ hv) r hr
    exact ⟨hmem, hbegun.set (by rintro ⟨⟩) rfl⟩

/-- The innermost binding is finished with a value that refers to what is written in its data. -/
theorem leave {slot : Slot} {v : Value} (h : scene.Linked (b :: chain) p)
    (hb : p.states[b]? = some .inProgress) (hslot : scene.slots[b]? = some slot)
    (hsound : scene.Sound (p.leave b (.resolved v))) (hv : Written slot.data.references p v) :
    scene.Linked chain (p.leave b (.resolved v)) := by
  have hself : (p.leave b (.resolved v)).states[b]? = some (.resolved v) :=
    List.getElem?_set_self (List.getElem?_eq_some_iff.1 hb).1
  have hbegun : ∀ {references u}, Written references p u →
      Written references (p.leave b (.resolved v)) u := by
    intro references u hu r hr
    exact ⟨(hu r hr).1, (hu r hr).2.set (by rintro ⟨⟩) rfl⟩
  refine ⟨hsound, congrArg List.tail h.chain_eq, h.mentions.tail, fun c hc => ?_, fun c hc => ?_,
    fun c slot' u hslot' hu => ?_, congrArg Nat.pred h.forcing_eq⟩
  · by_cases hbc : b = c
    · subst hbc
      cases hself.symm.trans hc
    · have hmem := h.inProgress c ((List.getElem?_set_ne hbc).symm.trans hc)
      exact (List.mem_cons.1 hmem).resolve_left (Ne.symm hbc)
  · by_cases hbc : b = c
    · subst hbc
      cases hself.symm.trans hc
    · exact h.failed c ((List.getElem?_set_ne hbc).symm.trans hc)
  · by_cases hcb : c = b
    · subst hcb
      obtain rfl := Option.some.inj (hslot.symm.trans hslot')
      obtain rfl := Option.some.inj ((Progress.value?_leave_self hb).symm.trans hu)
      exact hbegun hv
    · rw [Progress.value?_leave_ne hcb] at hu
      exact hbegun (h.written c slot' u hslot' hu)

/-- **A binding that was built from inside the chain is finished,** and the chain is as it was before. -/
theorem leave_built {slot : Slot} {v : Value} {depth : Nat} (h : scene.Linked chain p)
    (hb : p.states[b]? = some .unresolved) (hslot : scene.slots[b]? = some slot)
    (hmention : ∀ c ∈ chain.head?, scene.Mentions c b)
    (hgives : (scene.buildSlot (scene.forceWithin depth) slot).Gives (p.enter b) v q)
    (hq : scene.Linked (b :: chain) q) : scene.Linked chain (q.leave b (.resolved v)) := by
  have hforce : scene.Forces (scene.forceWithin depth) :=
    fun b p => (ensures_forceWithin depth b p).imp fun _ _ _ _ => trivial
  obtain ⟨hsound, -, -⟩ := ensures_onChain hb hslot (buildsSlot hforce slot) h.sound () _
    (Build.gives_onChain_iff.2 ⟨v, q, hgives, rfl⟩)
  obtain ⟨-, hext, hwritten⟩ := writes_buildSlot (begins_forceWithin depth) slot _
    (h.enter hb hmention).sound v q hgives
  exact hq.leave (hext.inProgress_of_enter hb) hslot hsound hwritten

/-! ## Walks -/

/-- What has been begun is in progress, or it is finished. -/
theorem inProgress_or_finished (h : scene.Linked chain p) (hb : p.Begun b) :
    p.states[b]? = some .inProgress ∨ ∃ v, p.states[b]? = some (.resolved v) := by
  obtain ⟨s, hs, hne⟩ := hb
  cases s with
  | unresolved => exact absurd rfl hne
  | inProgress => exact .inl hs
  | resolved v => exact .inr ⟨v, hs⟩
  | failed => exact absurd hs (h.failed b)

/-- A reference in a finished binding leads to one that was begun. -/
theorem mentions_of_part (h : scene.Linked chain p) {v : Value} {r : Reference}
    (hv : p.value? b = some v) (hr : Value.Part (.ref r) v) :
    scene.Mentions b r.binding ∧ p.Begun r.binding := by
  obtain ⟨slot, hslot⟩ := h.sound.slot_of_value? hv
  obtain ⟨hmem, hbegun⟩ := h.written b slot v hslot hv r hr
  obtain ⟨_, hpart⟩ := (h.sound.built b slot v hslot hv).of_part hr
  exact ⟨⟨slot, r.name, r.path, hslot, hmem, hpart.of_ref.1⟩, hbegun⟩

/-- The value stands in a binding that references lead to. -/
def Found (scene : Scene) (p : Progress) (b : Nat) (x : Value) : Prop :=
  ∃ c v, ReflTransGen scene.Mentions b c ∧ p.value? c = some v ∧ Value.Part x v

/-- What is found in a binding is stored. -/
theorem Found.stored {x : Value} (h : Found scene p b x) : Value.Stored p.value? x := by
  obtain ⟨c, v, -, hv, hx⟩ := h
  exact ⟨c, v, hv, hx⟩

/-- A field of what is found in a binding is found in it. -/
theorem Found.field? {x y : Value} {name : String} (h : Found scene p b x)
    (hy : x.field? name = some y) : Found scene p b y := by
  obtain ⟨c, v, hreach, hv, hx⟩ := h
  exact ⟨c, v, hreach, hv, (Value.Part.of_field? hy).trans hx⟩

/-- A reference that is found leads to a binding that references lead to. -/
theorem Found.ref (hlinked : scene.Linked chain p) {r : Reference} (h : Found scene p b (.ref r)) :
    ReflTransGen scene.Mentions b r.binding ∧ p.Begun r.binding := by
  obtain ⟨c, v, hreach, hv, hr⟩ := h
  obtain ⟨hmention, hbegun⟩ := hlinked.mentions_of_part hv hr
  exact ⟨hreach.tail hmention, hbegun⟩

/-- What is found in a binding leads, when it is settled, to what is found in a binding that this one leads to. -/
theorem Found.settle (hlinked : scene.Linked chain p) {hops : Nat} {x y : Value}
    (hx : Found scene p b x) (h : Value.settle p.value? hops x = .ok y) : Found scene p b y := by
  induction hops generalizing x y with
  | zero =>
    cases x with
    | ref r => cases h
    | _ => cases h; exact hx
  | succ hops ih =>
    cases x with
    | ref r =>
      cases hbase : p.value? r.binding with
      | none => rw [Value.settle_ref_of_none hbase] at h; cases h
      | some base =>
        rw [Value.settle_ref_of_some hbase] at h
        exact (Value.walkFields_ok_imp (fun _ _ _ hv hx => hv.field? hx)
          (fun _ _ hv hu => ⟨ih hv hu, hu⟩)
          ⟨r.binding, base, (hx.ref hlinked).1, hbase, .self base⟩ h).1
    | _ => cases h; exact hx

/-- Where something found leads nowhere, a binding in progress is found. -/
theorem exists_unfinished_of_settle (h : scene.Linked chain p) {x : Value} {problem : PathError}
    (hx : Found scene p b x) (hfails : Value.settle p.value? scene.hops x = .error problem) :
    ∃ c ∈ chain, ReflTransGen scene.Mentions b c := by
  obtain ⟨order, horder⟩ := h.sound.settled
  rcases horder.walks_or_unfinished hx.stored with ⟨w, hw⟩ | ⟨r, rfl, hnone⟩
  · cases hfails.symm.trans (h.sound.settle_hops hw)
  · obtain ⟨hreach, hbegun⟩ := hx.ref h
    rcases h.inProgress_or_finished hbegun with hprogress | ⟨v, hv⟩
    · exact ⟨_, h.inProgress _ hprogress, hreach⟩
    · cases hnone.symm.trans (Progress.value?_eq_some_iff.2 hv)

/-- If fields cannot be followed, a binding on the chain can be come to that is not finished. -/
theorem exists_unfinished_of_walkFields (h : scene.Linked chain p) {x : Value} {path : List String}
    {other : String} (hx : Found scene p b x)
    (hfails : Value.walkFields (Value.settle p.value? scene.hops) x path =
      .error (.unavailable other)) :
    ∃ c ∈ chain, ReflTransGen scene.Mentions b c := by
  induction path generalizing x with
  | nil => exact h.exists_unfinished_of_settle hx hfails
  | cons name path ih =>
    rw [Value.walkFields_cons] at hfails
    split at hfails
    · rename_i hsettle
      exact h.exists_unfinished_of_settle hx hsettle
    · rename_i u hu
      split at hfails
      · rename_i y hy
        exact ih ((hx.settle h hu).field? hy) hfails
      · cases hfails

/-- **A walk stops only at a binding in progress,** which references lead to, and only if it goes on to a
field: the value of a finished binding leads somewhere. -/
theorem unfinished_of_follow (h : scene.Linked chain p) {v : Value} {path : List String}
    {other : String} (hv : p.value? b = some v)
    (hfails : v.follow p.value? scene.hops path = .error (.unavailable other)) :
    path ≠ [] ∧ ∃ c ∈ chain, ReflTransGen scene.Mentions b c := by
  refine ⟨?_, h.exists_unfinished_of_walkFields ⟨b, v, .refl, hv, .self v⟩ hfails⟩
  rintro rfl
  obtain ⟨w, hw⟩ := h.sound.walks_of_value? hv
  rw [Value.follow_nil, h.sound.settle_hops hw] at hfails
  cases hfails

end Linked

end Scene

end TypedData
