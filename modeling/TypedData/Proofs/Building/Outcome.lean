import TypedData.Building

/-!
# What a step of building gives

`m.Gives p a q` says that the step `m`, started at the progress `p`, gives `a` and leaves the progress
`q`; a step that fails gives nothing.  Each way to put steps together has a lemma that takes it apart
again, so that no proof after this module opens the monad.
-/

namespace TypedData

namespace Build

variable {α β : Type} {p q : Progress}

/-- How a step ends that is started at the progress `p`. -/
def outcome (m : Build α) (p : Progress) : Except Failure α × Progress := m.run p

/-- The second step starts where the first one stops, if this gives something. -/
theorem outcome_bind (m : Build α) (f : α → Build β) :
    (m >>= f).outcome p =
      match m.outcome p with
      | (.ok a, q) => (f a).outcome q
      | (.error e, q) => (.error e, q) := by
  change (match m.outcome p with
    | (a, q) => (ExceptT.bindCont f a q : Except Failure β × Progress)) = _
  rcases m.outcome p with ⟨_ | a, q⟩
  · rfl
  · rfl

/-- A step that looks at the progress goes on with it. -/
theorem outcome_get_bind (f : Progress → Build β) : (get >>= f).outcome p = (f p).outcome p := rfl

/-- The handler starts where the failing step stops. -/
theorem outcome_tryCatch (m : Build α) (f : Failure → Build α) :
    (tryCatch m f).outcome p =
      match m.outcome p with
      | (.ok a, q) => (.ok a, q)
      | (.error e, q) => (f e).outcome q := by
  unfold outcome ExceptT.run
  simp only [tryCatch, tryCatchThe, MonadExceptOf.tryCatch, ExceptT.tryCatch, ExceptT.mk, bind,
    StateT.bind]
  rcases m p with ⟨_ | a, q⟩
  · rfl
  · rfl

/-- From the progress `p` a step gives `a` and leaves the progress `q`. -/
def Gives (m : Build α) (p : Progress) (a : α) (q : Progress) : Prop := m.outcome p = (.ok a, q)

/-- A step that succeeds gives something. -/
theorem exists_gives {m : Build α} {a : α} (h : (m.run p).1 = .ok a) : ∃ q, m.Gives p a q :=
  ⟨_, Prod.ext h rfl⟩

/-- A step that does nothing gives what it is made of, where it starts. -/
theorem gives_pure_iff {a b : α} : (pure a : Build α).Gives p b q ↔ a = b ∧ p = q := by
  change ((.ok a, p) : Except Failure α × Progress) = (.ok b, q) ↔ _
  rw [Prod.mk.injEq, Except.ok.injEq]

/-- Looking at the progress gives it, and changes nothing. -/
theorem gives_get_iff {a : Progress} : (get : Build Progress).Gives p a q ↔ p = a ∧ p = q := by
  change ((.ok p, p) : Except Failure Progress × Progress) = (.ok a, q) ↔ _
  rw [Prod.mk.injEq, Except.ok.injEq]

/-- A change of the progress leaves the changed progress. -/
theorem gives_modify_iff {f : Progress → Progress} {u : Unit} :
    (modify f : Build Unit).Gives p u q ↔ f p = q := by
  change ((.ok (), f p) : Except Failure Unit × Progress) = (.ok u, q) ↔ _
  rw [Prod.mk.injEq, eq_self_iff_true, true_and]

/-- A step that fails gives nothing. -/
theorem not_gives_of_error {m : Build α} {e : Failure} {p' : Progress} {a : α}
    (h : m.outcome p = (.error e, p')) : ¬ m.Gives p a q := by
  rw [Gives, h]
  intro hgives; cases hgives

/-- A failure gives nothing. -/
theorem not_gives_throw {e : Failure} {a : α} : ¬ (throw e : Build α).Gives p a q :=
  not_gives_of_error rfl

/-- **One step after another.**  The second starts where the first stopped. -/
theorem gives_bind_iff {m : Build α} {f : α → Build β} {b : β} :
    (m >>= f).Gives p b q ↔ ∃ a p', m.Gives p a p' ∧ (f a).Gives p' b q := by
  rw [Gives, outcome_bind]
  rcases hm : m.outcome p with ⟨e | a, p'⟩
  · constructor
    · intro h; cases h
    · rintro ⟨a, p'', h, -⟩
      exact absurd h (not_gives_of_error hm)
  · refine ⟨fun h => ⟨a, p', hm, h⟩, ?_⟩
    rintro ⟨a', p'', h, h'⟩
    obtain ⟨⟨⟩, rfl⟩ := Prod.mk.inj (hm.symm.trans h)
    exact h'

/-- A result gives what it is, where the step starts, unless it is a failure. -/
theorem gives_ofExcept_iff {result : Except Failure α} {a : α} :
    (ofExcept result).Gives p a q ↔ result = .ok a ∧ p = q := by
  cases result with
  | ok b => rw [ofExcept, gives_pure_iff, Except.ok.injEq]
  | error e =>
    constructor
    · intro h; exact absurd h not_gives_throw
    · rintro ⟨h, -⟩; cases h

/-- A binding that is built on the chain is left with the value that is built, or as failed. -/
theorem outcome_onChain {binding : Nat} {build : Build Value} :
    (Scene.onChain binding build).outcome p =
      match build.outcome (p.enter binding) with
      | (.ok v, q) => (.ok (), q.leave binding (.resolved v))
      | (.error e, q) => (.error e, q.leave binding .failed) := by
  rw [Scene.onChain, outcome_bind, show (modify (·.enter binding) : Build Unit).outcome p =
    (.ok (), p.enter binding) from rfl]
  dsimp only
  rw [outcome_tryCatch, outcome_bind]
  rcases build.outcome (p.enter binding) with ⟨e | v, q⟩ <;> rfl

/-- A binding that is built on the chain is finished with the value that is built. -/
theorem gives_onChain_iff {binding : Nat} {build : Build Value} {u : Unit} :
    (Scene.onChain binding build).Gives p u q ↔
      ∃ v p', build.Gives (p.enter binding) v p' ∧ p'.leave binding (.resolved v) = q := by
  rw [Gives, Scene.onChain, outcome_bind, show (modify (·.enter binding) : Build Unit).outcome p =
    (.ok (), p.enter binding) from rfl]
  dsimp only
  rw [outcome_tryCatch, outcome_bind]
  rcases hv : build.outcome (p.enter binding) with ⟨e | v, p'⟩
  · constructor
    · intro h; cases h
    · rintro ⟨v, p'', h, -⟩
      exact absurd h (not_gives_of_error hv)
  · refine ⟨fun h => ⟨v, p', hv, (Prod.mk.inj h).2⟩, ?_⟩
    rintro ⟨v', p'', h, rfl⟩
    obtain ⟨⟨⟩, rfl⟩ := Prod.mk.inj (hv.symm.trans h)
    rfl

end Build

end TypedData
