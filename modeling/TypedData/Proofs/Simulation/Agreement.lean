import TypedData.Proofs.Simulation.Data

/-!
# Steps that give the same

What a step of building gives, if it gives anything, does not depend on the progress that it starts at:
the bindings that are finished, and those that are not, only decide whether it fails.  The same holds
in two scenes that are alike, up to the numbers of the bindings (`Alike.buildData`, `Alike.buildSlot`).
-/

namespace TypedData

namespace Scene

variable {scene scene' : Scene} {σ : Nat → Nat}

/-- Whenever both steps give something, the second one gives the image of what the first one gives. -/
def Agrees {α β : Type} (g : α → β) (m : Build α) (m' : Build β) : Prop :=
  ∀ p a q p' b q', m.Gives p a q → m'.Gives p' b q' → b = g a

namespace Agrees

variable {α β γ δ : Type} {g : α → β} {g' : γ → δ}

/-- Steps that only give a result agree. -/
theorem pure (g : α → β) (a : α) : Agrees g (Pure.pure a) (Pure.pure (g a)) := by
  intro p _ q p' _ q' h h'
  obtain ⟨rfl, -⟩ := Build.gives_pure_iff.1 h
  obtain ⟨rfl, -⟩ := Build.gives_pure_iff.1 h'
  rfl

/-- Steps that only fail agree. -/
theorem throw (g : α → β) (e e' : Failure) :
    Agrees g (MonadExcept.throw e) (MonadExcept.throw e') :=
  fun _ _ _ _ _ _ h => absurd h Build.not_gives_throw

/-- One step after another agrees if both do. -/
theorem bind {m : Build α} {m' : Build β} {k : α → Build γ} {k' : β → Build δ} (hm : Agrees g m m')
    (hk : ∀ a, Agrees g' (k a) (k' (g a))) : Agrees g' (m >>= k) (m' >>= k') := by
  intro p c r p' d r' h h'
  obtain ⟨a, q, ha, hc⟩ := Build.gives_bind_iff.1 h
  obtain ⟨b, q', hb, hd⟩ := Build.gives_bind_iff.1 h'
  obtain rfl := hm p a q p' b q' ha hb
  exact hk a q c r q' d r' hc hd

/-- Steps without a result agree. -/
theorem unit (m m' : Build Unit) : Agrees id m m' := fun _ _ _ _ _ _ _ _ => rfl

end Agrees

/-- Two scenes with the same declarations and rules, and with the same names up to numbers. -/
structure Alike (σ : Nat → Nat) (scene scene' : Scene) : Prop where
  registry : scene'.registry = scene.registry
  rules : scene'.rules = scene.rules
  textDepth : scene'.textDepth = scene.textDepth
  indexOf? : ∀ name, scene'.indexOf? name = (scene.indexOf? name).map σ

/-- Building in two scenes that are alike. -/
def agreement (h : Alike σ scene scene') : Simulation id σ scene scene' where
  Maps := Agrees
  registry := h.registry ▸ scene.exists_registry_eq_relocate_id
  indexOf? := h.indexOf?
  pure := .pure
  throw g e _ := .throw g e _
  bind := .bind
  conditions _ _ _ := .unit _ _

variable {force force' : Nat → Build Unit} {p q p' q' : Progress} {v v' : Value}

/-- Texts are fitted with the same results in scenes that are alike. -/
theorem fits_agreement (h : Alike σ scene scene') (text : String) (t : Ty) (span : Span) :
    (agreement h).FitsText scene.fitText scene'.fitText text t span :=
  ((agreement h).sameRules_relocate (h.rules.trans (Rule.map_relocate_id _).symm)).fitText
    (fun _ _ => .throw _ _ _) h.textDepth text t span

/-- References are built with the same results in scenes that are alike, however bindings are forced. -/
theorem refers_agreement (h : Alike σ scene scene') (force force' : Nat → Build Unit)
    {whole : Bool} {name : String} {path : List String} :
    (agreement h).Refers force force' whole name path :=
  Simulation.refers fun _ _ _ _ => Agrees.unit _ _

/-- **What data gives does not depend on the progress,** nor on how bindings are forced. -/
theorem Alike.buildData (halike : Alike σ scene scene') {d : Data} {t : Ty}
    (h : (scene.buildData force d t).Gives p v q)
    (h' : (scene'.buildData force' d t).Gives p' v' q') : v' = v.renumber σ := by
  have hd := (agreement halike).buildData d (fun text _ => fits_agreement halike text)
    (fun _ _ => refers_agreement halike force force') t
  rw [Data.relocate_id] at hd
  exact hd p v q p' v' q' h h'

/-- What a slot gives is the same in scenes that are alike, up to the numbers of bindings. -/
theorem Alike.buildSlot (halike : Alike σ scene scene') {slot : Slot}
    (h : (scene.buildSlot force slot).Gives p v q)
    (h' : (scene'.buildSlot force' slot).Gives p' v' q') : v' = v.renumber σ := by
  have hslot := (agreement halike).buildSlot slot (fun text _ => fits_agreement halike text)
    (fun _ _ => refers_agreement halike force force')
    fun _ _ _ _ => refers_agreement halike force force'
  rw [Slot.relocate_id] at hslot
  exact hslot p v q p' v' q' h h'

end Scene

end TypedData
