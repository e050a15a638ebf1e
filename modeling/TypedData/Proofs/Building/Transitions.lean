import Mathlib.Data.List.Infix
import TypedData.Load
import TypedData.Proofs.Building.Discipline
import TypedData.Proofs.Building.Outcome
import TypedData.Proofs.Building.Complete
import TypedData.Proofs.Building.Slots
import TypedData.Proofs.Simulation.Data

/-!
# The states that bindings go through

A binding is begun, and then it is finished with a value, or it fails.  The log of a run tells which binding
took which state; nothing else changes states, chain and count, so they can be replayed from it
(`Progress.replay`), and every point of a run is that after some of its log.

A log is **lawful** (`Lawful`) if at each point only a binding is begun that was not begun before, only the
innermost one is left, and after a failure there are only failures.  Then at every point of it the
bindings in progress are those on the chain, and they are as many as are counted (`Lawful.inStep`).  All
building writes lawful logs, whether it fails or not (`Scene.orderly_run`).
-/

namespace TypedData

namespace BindingState

/-- The steps that a binding can take, or it stays as it is. -/
inductive Moves : BindingState → BindingState → Prop
  | same (s : BindingState) : Moves s s
  | begin : Moves .unresolved .inProgress
  | finish (v : Value) : Moves .inProgress (.resolved v)
  | fail : Moves .inProgress .failed

end BindingState

/-- The progress when a binding has taken a state: it is put on the chain, or the innermost one is taken
off. -/
def Transition.apply (t : Transition) (p : Progress) : Progress :=
  match t.state with
  | .inProgress => p.enter t.binding
  | state => p.leave t.binding state

namespace Progress

/-- The progress after a log, but for what is left to be checked. -/
def replay (bindings : Nat) : List Transition → Progress
  | [] => .initial bindings
  | t :: earlier => t.apply (replay bindings earlier)

/-- No binding has failed. -/
def NoneFailed (p : Progress) : Prop := ∀ b : Nat, p.states[b]? ≠ some .failed

/-- Bindings, chain and count are in step: the bindings in progress are those on the chain, each once, and
they are as many as are counted, which is no more than are allowed. -/
structure InStep (bindings : Nat) (p : Progress) : Prop where
  length : p.states.length = bindings
  inProgress_iff : ∀ b : Nat, p.states[b]? = some .inProgress ↔ b ∈ p.chain
  nodup : p.chain.Nodup
  forcing_eq : p.forcing = p.chain.length
  forcing_le : p.forcing ≤ maxReferenceDepth

variable {n b : Nat} {p q : Progress}

/-! ## One step -/

/-- If one binding takes a step, each binding takes one or stays as it is. -/
theorem moves_of_set {c : Nat} {s s' t : BindingState} (hq : q.states = p.states.set c t)
    (hc : p.states[c]? = some s) (hmoves : s.Moves t) (hb : p.states[b]? = some s') :
    ∃ t', q.states[b]? = some t' ∧ s'.Moves t' := by
  rw [hq]
  by_cases hcb : c = b
  · subst hcb
    obtain rfl := Option.some.inj (hc.symm.trans hb)
    exact ⟨t, List.getElem?_set_self (List.getElem?_eq_some_iff.1 hc).1, hmoves⟩
  · exact ⟨s', (List.getElem?_set_ne hcb).trans hb, .same s'⟩

namespace InStep

/-- Before anything is built the states, the chain and the counter are in step. -/
theorem initial (n : Nat) : InStep n (.initial n) where
  length := List.length_replicate ..
  inProgress_iff b := by
    rw [Progress.initial, List.getElem?_replicate]
    simp
  nodup := .nil
  forcing_eq := rfl
  forcing_le := Nat.zero_le _

/-- The innermost binding is in progress. -/
theorem inProgress_of_head? (h : InStep n p) (hb : p.chain.head? = some b) :
    p.states[b]? = some .inProgress :=
  (h.inProgress_iff b).2 (List.mem_of_head? hb)

/-- They stay in step when a binding begins to be built. -/
theorem enter (h : InStep n p) (hb : p.states[b]? = some .unresolved)
    (hroom : p.forcing < maxReferenceDepth) : InStep n (p.enter b) where
  length := (List.length_set ..).trans h.length
  inProgress_iff c := by
    have hlt := (List.getElem?_eq_some_iff.1 hb).1
    have hchain : c ∈ (p.enter b).chain ↔ c = b ∨ c ∈ p.chain := List.mem_cons
    rw [hchain, ← h.inProgress_iff, Progress.enter, List.getElem?_set]
    grind
  nodup := by
    refine List.nodup_cons.2 ⟨fun hmem => ?_, h.nodup⟩
    cases hb.symm.trans ((h.inProgress_iff b).2 hmem)
  forcing_eq := congrArg (· + 1) h.forcing_eq
  forcing_le := hroom

/-- They stay in step when the innermost binding is finished or fails. -/
theorem leave {s : BindingState} (h : InStep n p) (hb : p.chain.head? = some b)
    (hs : s ≠ .inProgress) : InStep n (p.leave b s) := by
  have hprogress := h.inProgress_of_head? hb
  have hlt := (List.getElem?_eq_some_iff.1 hprogress).1
  obtain ⟨chain, hchain⟩ : ∃ chain, p.chain = b :: chain := List.head?_eq_some_iff.1 hb
  have hnodup := List.nodup_cons.1 (hchain ▸ h.nodup)
  have htail : (p.leave b s).chain = chain := congrArg List.tail hchain
  refine ⟨(List.length_set ..).trans h.length, fun c => ?_, htail ▸ hnodup.2, ?_, ?_⟩
  · have hiff := h.inProgress_iff c
    rw [hchain, List.mem_cons] at hiff
    rw [htail, Progress.leave, List.getElem?_set]
    grind
  · have hforcing := h.forcing_eq
    rw [hchain, List.length_cons] at hforcing
    rw [htail]
    exact Nat.sub_eq_of_eq_add hforcing
  · exact Nat.le_trans (Nat.sub_le ..) h.forcing_le

end InStep

end Progress

open Progress (replay)

/-! ## Lawful logs -/

/-- At each point of the log only a binding is begun that was not begun before and fits on the chain, only
the innermost one is left, and after a failure there are only failures. -/
inductive Lawful (n : Nat) : List Transition → Prop
  | nil : Lawful n []
  | begin {log : List Transition} {b : Nat} : Lawful n log →
      (replay n log).states[b]? = some .unresolved → (replay n log).NoneFailed →
      (replay n log).forcing < maxReferenceDepth → Lawful n (⟨b, .inProgress⟩ :: log)
  | finish {log : List Transition} {b : Nat} (v : Value) : Lawful n log →
      (replay n log).chain.head? = some b → (replay n log).NoneFailed →
      Lawful n (⟨b, .resolved v⟩ :: log)
  | fail {log : List Transition} {b : Nat} : Lawful n log →
      (replay n log).chain.head? = some b → Lawful n (⟨b, .failed⟩ :: log)

namespace Lawful

variable {n : Nat} {log earlier : List Transition} {t : Transition}

/-- The log of a run is lawful at every point before its end. -/
theorem of_suffix (h : Lawful n log) (hsuffix : earlier <:+ log) : Lawful n earlier := by
  induction h with
  | nil => exact List.suffix_nil.1 hsuffix ▸ .nil
  | begin hlog hb hnone hroom ih =>
    rcases List.suffix_cons_iff.1 hsuffix with rfl | hsuffix
    · exact .begin hlog hb hnone hroom
    · exact ih hsuffix
  | finish v hlog hb hnone ih =>
    rcases List.suffix_cons_iff.1 hsuffix with rfl | hsuffix
    · exact .finish v hlog hb hnone
    · exact ih hsuffix
  | fail hlog hb ih =>
    rcases List.suffix_cons_iff.1 hsuffix with rfl | hsuffix
    · exact .fail hlog hb
    · exact ih hsuffix

/-- **At the end of a lawful log** bindings, chain and count are in step. -/
theorem inStep (h : Lawful n log) : (replay n log).InStep n := by
  induction h with
  | nil => exact .initial n
  | begin _ hb _ hroom ih => exact ih.enter hb hroom
  | finish v _ hb _ ih => exact ih.leave hb (by rintro ⟨⟩)
  | fail _ hb ih => exact ih.leave hb (by rintro ⟨⟩)

/-- The last step of a lawful log takes one binding one step further and leaves the others as they are. -/
theorem moves (h : Lawful n (t :: log)) {b : Nat} {s : BindingState}
    (hs : (replay n log).states[b]? = some s) :
    ∃ s', (replay n (t :: log)).states[b]? = some s' ∧ s.Moves s' := by
  cases h with
  | begin hlog hc => exact Progress.moves_of_set rfl hc .begin hs
  | finish v hlog hc => exact Progress.moves_of_set rfl (hlog.inStep.inProgress_of_head? hc) (.finish v) hs
  | fail hlog hc => exact Progress.moves_of_set rfl (hlog.inStep.inProgress_of_head? hc) .fail hs

/-- **A finished binding keeps its value** to the end of a lawful log. -/
theorem keeps_value? (h : Lawful n log) (hsuffix : earlier <:+ log) {b : Nat} {v : Value}
    (hv : (replay n earlier).states[b]? = some (.resolved v)) :
    (replay n log).states[b]? = some (.resolved v) := by
  induction log with
  | nil => exact List.suffix_nil.1 hsuffix ▸ hv
  | cons t log ih =>
    rcases List.suffix_cons_iff.1 hsuffix with rfl | hsuffix
    · exact hv
    · have hbefore := ih (h.of_suffix (List.suffix_cons t log)) hsuffix
      obtain ⟨s', hs', hmoves⟩ := h.moves hbefore
      cases hmoves
      exact hs'

/-- After a failure there are only failures. -/
theorem failed_of_failed (h : Lawful n (t :: log)) {b : Nat}
    (hb : (replay n log).states[b]? = some .failed) : t.state = .failed := by
  cases h with
  | begin _ _ hnone => exact absurd hb (hnone b)
  | finish _ _ _ hnone => exact absurd hb (hnone b)
  | fail => rfl

end Lawful

/-! ## Building writes lawful logs -/

/-- The progress is what its log says, but for what is left to be checked, and the log is lawful. -/
structure Progress.Orderly (n : Nat) (p : Progress) : Prop where
  lawful : Lawful n p.log
  states : p.states = (replay n p.log).states
  chain : p.chain = (replay n p.log).chain
  forcing : p.forcing = (replay n p.log).forcing

namespace Progress.Orderly

variable {n b : Nat} {p q : Progress}

/-- Before anything is built everything is in order. -/
theorem initial (n : Nat) : Orderly n (.initial n) := ⟨.nil, rfl, rfl, rfl⟩

/-- There is one state for each binding. -/
theorem length (h : Orderly n p) : p.states.length = n := h.states ▸ h.lawful.inStep.length

/-- Everything stays in order when a binding begins to be built. -/
theorem enter (h : Orderly n p) (hb : p.states[b]? = some .unresolved) (hnone : p.NoneFailed)
    (hroom : p.forcing < maxReferenceDepth) : Orderly n (p.enter b) where
  lawful := .begin h.lawful (h.states ▸ hb) (by rwa [NoneFailed, ← h.states]) (h.forcing ▸ hroom)
  states := congrArg (List.set · b _) h.states
  chain := congrArg (List.cons b) h.chain
  forcing := congrArg (· + 1) h.forcing

/-- Everything stays in order when the innermost binding is finished. -/
theorem finish (h : Orderly n p) (hb : p.chain.head? = some b) (hnone : p.NoneFailed) (v : Value) :
    Orderly n (p.leave b (.resolved v)) where
  lawful := .finish v h.lawful (h.chain ▸ hb) (by rwa [NoneFailed, ← h.states])
  states := congrArg (List.set · b _) h.states
  chain := congrArg List.tail h.chain
  forcing := congrArg (· - 1) h.forcing

/-- Everything stays in order when the innermost binding fails. -/
theorem fail (h : Orderly n p) (hb : p.chain.head? = some b) : Orderly n (p.leave b .failed) where
  lawful := .fail h.lawful (h.chain ▸ hb)
  states := congrArg (List.set · b _) h.states
  chain := congrArg List.tail h.chain
  forcing := congrArg (· - 1) h.forcing

end Progress.Orderly

namespace Scene

variable {scene : Scene} {n : Nat} {p q : Progress}

/-- From this progress the step keeps order and leaves the chain as it is.  If it does not fail, nothing has
failed after it, and `Q` holds of what it gives. -/
def Orders (n : Nat) (p : Progress) {α : Type} (m : Build α) (Q : α → Progress → Prop) : Prop :=
  (m.outcome p).2.Orderly n ∧ (m.outcome p).2.chain = p.chain ∧
    ∀ a, (m.outcome p).1 = .ok a → (m.outcome p).2.NoneFailed ∧ Q a (m.outcome p).2

namespace Orders

variable {α β : Type} {m : Build α} {Q R : α → Progress → Prop} {S : β → Progress → Prop}

/-- A step that does nothing keeps the order. -/
theorem pure {a : α} (hp : p.Orderly n) (hnone : p.NoneFailed) (ha : Q a p) :
    Orders n p (Pure.pure a) Q :=
  ⟨hp, rfl, fun _ hb => ⟨hnone, Except.ok.inj hb ▸ ha⟩⟩

/-- A failure keeps the order. -/
theorem throw {e : Failure} (hp : p.Orderly n) : Orders n p (MonadExcept.throw e : Build α) Q :=
  ⟨hp, rfl, by rintro _ ⟨⟩⟩

/-- Two steps keep the order if each of them does. -/
theorem bind {k : α → Build β} (hm : Orders n p m Q)
    (hk : ∀ a q, q.Orderly n → q.NoneFailed → Q a q → Orders n q (k a) S) :
    Orders n p (m >>= k) S := by
  obtain ⟨hq, hchain, hresult⟩ := hm
  unfold Orders
  rw [Build.outcome_bind]
  rcases hout : m.outcome p with ⟨e | a, q⟩
  · rw [hout] at hq hchain
    exact ⟨hq, hchain, by rintro _ ⟨⟩⟩
  · rw [hout] at hq hchain hresult
    obtain ⟨hnone, ha⟩ := hresult a rfl
    obtain ⟨hr, hchain', hresult'⟩ := hk a q hq hnone ha
    exact ⟨hr, hchain'.trans hchain, hresult'⟩

/-- What follows from what a step gives follows from the step. -/
theorem imp (hm : Orders n p m Q) (h : ∀ a q, Q a q → R a q) : Orders n p m R :=
  ⟨hm.1, hm.2.1, fun a ha => ⟨(hm.2.2 a ha).1, h a _ (hm.2.2 a ha).2⟩⟩

/-- A step that looks at the progress keeps the order if it does so where it starts. -/
theorem get_bind {k : Progress → Build β} (h : Orders n p (k p) S) : Orders n p (get >>= k) S := h

/-- Checks may be left for the end. -/
theorem modify {f : Progress → Progress} (hp : p.Orderly n) (hnone : p.NoneFailed)
    (hlog : (f p).log = p.log) (hstates : (f p).states = p.states) (hchain : (f p).chain = p.chain)
    (hforcing : (f p).forcing = p.forcing) : Orders n p (modify f) fun _ _ => True := by
  refine ⟨⟨?_, ?_, ?_, ?_⟩, hchain, fun _ _ => ⟨?_, trivial⟩⟩
  · exact hlog.symm ▸ hp.lawful
  · exact (hstates.trans hp.states).trans (congrArg (fun log => (replay n log).states) hlog.symm)
  · exact (hchain.trans hp.chain).trans (congrArg (fun log => (replay n log).chain) hlog.symm)
  · exact (hforcing.trans hp.forcing).trans (congrArg (fun log => (replay n log).forcing) hlog.symm)
  · exact fun b => hstates.symm ▸ hnone b

end Orders

/-- The step keeps order, unless something has failed before. -/
def KeepsOrder (n : Nat) {α : Type} (m : Build α) (P : α → Prop) : Prop :=
  ∀ p : Progress, p.Orderly n → p.NoneFailed → Orders n p m fun a _ => P a

/-- Conditions are checked in order. -/
theorem keepsOrder_settleConditions (scene : Scene) (n : Nat) (ctor : String)
    (fields : List (Field Value)) (span : Span) :
    KeepsOrder n (scene.settleConditions ctor fields span) fun _ => True := by
  intro p hp hnone
  refine .get_bind ?_
  cases scene.checkRecord p ctor fields 0 span with
  | error e => exact .bind (Q := fun _ _ => False) (.throw hp) fun _ _ _ _ h => h.elim
  | ok stop =>
    refine .bind (Q := fun _ _ => True) (.pure hp hnone trivial) fun stop q hq hnone' _ => ?_
    cases stop with
    | none => exact .pure hq hnone' trivial
    | some stop => exact .modify hq hnone' rfl rfl rfl rfl

/-- Order, as a discipline of building. -/
def ordering (scene : Scene) (n : Nat) : Discipline scene where
  Keeps := KeepsOrder n
  Fine _ := True
  plain _ := trivial
  list _ := trivial
  record _ := trivial
  pure ha _ hp hnone := .pure hp hnone ha
  throw _ _ hp _ := .throw hp
  bind hm hk p hp hnone := (hm p hp hnone).bind fun a q hq hnone' ha => hk a ha q hq hnone'
  conditions ctor fields span _ := keepsOrder_settleConditions scene n ctor fields span

/-- A forced binding is used in order. -/
theorem keepsOrder_useForced (scene : Scene) (b : Nat) (name : String) (path : List String)
    (span : Span) (t : Ty) (whole : Bool) :
    KeepsOrder n (scene.useForced b name path span t whole) fun _ => True := by
  intro p hp hnone
  refine .get_bind ?_
  split
  · unfold useUnfinished
    dsimp only
    split
    · exact .bind (Q := fun _ _ => False) (.throw hp) fun _ _ _ _ h => h.elim
    · split
      · exact .pure hp hnone trivial
      · exact .modify hp hnone rfl rfl rfl rfl
  · refine .get_bind ?_
    split
    · split
      · exact .pure hp hnone trivial
      · exact .throw hp
    · exact .throw hp
    · exact .throw hp
  · exact .throw hp

/-- A reference is built in order, if bindings are forced in order. -/
theorem keepsOrder_buildReference {force : Nat → Build Unit}
    (hforce : ∀ b, KeepsOrder n (force b) fun _ => True) (name : String) (path : List String)
    (span : Span) (t : Ty) (whole : Bool) :
    KeepsOrder n (scene.buildReference force name path span t whole) fun _ => True := by
  rw [buildReference_eq]
  split
  · exact fun _ hp _ => .throw hp
  · rename_i b _
    intro p hp hnone
    refine .bind (Q := fun _ _ => True) ?_ fun _ q hq hnone' _ => .pure hq hnone' trivial
    exact (hforce b p hp hnone).bind fun _ q hq hnone' _ =>
      keepsOrder_useForced scene b name path span t.peeled whole q hq hnone'

/-- **A binding is begun, and then it is finished or it fails.** -/
theorem orders_onChain {b : Nat} {build : Build Value} (hbuild : KeepsOrder n build fun _ => True)
    (hp : p.Orderly n) (hnone : p.NoneFailed) (hb : p.states[b]? = some .unresolved)
    (hroom : p.forcing < maxReferenceDepth) :
    Orders n p (onChain b build) fun _ q => ∃ v, q.states[b]? = some (.resolved v) := by
  have hlt : b < n := hp.length ▸ (List.getElem?_eq_some_iff.1 hb).1
  have hset {p : Progress} {s : BindingState} (hnone : p.NoneFailed) (hs : s ≠ .failed) (c : Nat) :
      (p.states.set b s)[c]? ≠ some .failed := by
    rw [List.getElem?_set]
    have hc := hnone c
    grind
  obtain ⟨hq, hchain, hresult⟩ :=
    hbuild _ (hp.enter hb hnone hroom) (hset hnone (by rintro ⟨⟩))
  unfold Orders
  rw [Build.outcome_onChain]
  rcases hout : build.outcome (p.enter b) with ⟨e | v, q⟩
  · rw [hout] at hq hchain
    exact ⟨hq.fail (hchain ▸ rfl), congrArg List.tail hchain, by rintro _ ⟨⟩⟩
  · rw [hout] at hq hchain hresult
    obtain ⟨hnone', -⟩ := hresult v rfl
    refine ⟨hq.finish (hchain ▸ rfl) hnone' v, congrArg List.tail hchain, fun _ _ => ?_⟩
    exact ⟨hset hnone' (by rintro ⟨⟩), v, List.getElem?_set_self (hq.length ▸ hlt)⟩

/-- **Forcing keeps order.**  If it does not fail, the binding is in progress or finished after it. -/
theorem orders_forceWithin (depth b : Nat) {p : Progress} (hp : p.Orderly scene.slots.length)
    (hnone : p.NoneFailed) :
    Orders scene.slots.length p (scene.forceWithin depth b) fun _ q => b < scene.slots.length →
      q.states[b]? = some .inProgress ∨ ∃ v, q.states[b]? = some (.resolved v) := by
  rw [forceWithin.eq_def]
  refine .get_bind ?_
  split
  · rename_i slot hb hslot
    cases depth with
    | zero => exact .throw hp
    | succ depth =>
      dsimp only
      split
      · exact .throw hp
      · rename_i hroom
        have hforce (c : Nat) :
            KeepsOrder scene.slots.length (scene.forceWithin depth c) fun _ => True :=
          fun p hp hnone => (orders_forceWithin depth c hp hnone).imp fun _ _ _ => trivial
        have hbuild : KeepsOrder scene.slots.length
            (scene.buildSlot (scene.forceWithin depth) slot) fun _ => True :=
          (scene.ordering _).buildSlot slot
            (fun span name path u _ => keepsOrder_buildReference hforce name path span _ false)
            fun span name path _ => keepsOrder_buildReference hforce name path span _ true
        exact (orders_onChain hbuild hp hnone hb (Nat.lt_of_not_le hroom)).imp
          fun _ _ hresolved _ => .inr hresolved
  · rename_i hbegun
    refine .pure hp hnone fun hlt => ?_
    obtain ⟨s, hs⟩ : ∃ s, p.states[b]? = some s :=
      ⟨_, List.getElem?_eq_getElem (hp.length.symm ▸ hlt)⟩
    cases s with
    | unresolved => exact absurd (List.getElem?_eq_getElem hlt) (hbegun _ hs)
    | inProgress => exact .inl hs
    | resolved v => exact .inr ⟨v, hs⟩
    | failed => exact absurd hs (hnone b)

/-! ## Documents -/

/-- Items are built in order. -/
theorem keepsOrder_buildItemsFrom (scene : Scene) : (items : List Item) → (next : Nat) →
    KeepsOrder scene.slots.length (scene.buildItemsFrom next items) fun _ => True
  | [], _ => fun _ hp hnone => .pure hp hnone trivial
  | .binding _ :: items, next => fun p hp hnone => by
    rw [buildItemsFrom]
    exact (orders_forceWithin maxReferenceDepth next hp hnone).bind fun _ q hq hnone' _ =>
      keepsOrder_buildItemsFrom scene items (next + 1) q hq hnone'
  | .value d :: items, next => fun p hp hnone => by
    have hforce (b : Nat) : KeepsOrder scene.slots.length (scene.force b) fun _ => True :=
      fun p hp hnone => (orders_forceWithin _ b hp hnone).imp fun _ _ _ => trivial
    have hbuild : (scene.ordering scene.slots.length).Builds (buildData scene scene.force d .any) :=
      Discipline.buildData d fun span name path u _ =>
        keepsOrder_buildReference hforce name path span _ false
    rw [buildItemsFrom]
    exact Orders.bind (hbuild p hp hnone) fun v q hq hnone' _ =>
      (keepsOrder_buildItemsFrom scene items next q hq hnone').bind fun vs r hr hnone'' _ =>
        .pure hr hnone'' trivial
  | .type _ :: items, next | .rule _ :: items, next => by
    simp only [buildItemsFrom]
    exact keepsOrder_buildItemsFrom scene items next

/-- How a document is built: its values, or why it has none, and the progress at the end. -/
def run (scene : Scene) (items : List Item) : Except Failure Resolution × Progress :=
  (scene.buildDocument items).outcome (.initial scene.slots.length)

/-- **A run ends in order,** however it ends, and no binding is being built any more. -/
theorem orderly_run (scene : Scene) (items : List Item) :
    (scene.run items).2.Orderly scene.slots.length ∧ (scene.run items).2.chain = [] := by
  have hnone : (Progress.initial scene.slots.length).NoneFailed := by
    intro b
    rw [Progress.initial, List.getElem?_replicate]
    split
    · rintro ⟨⟩
    · rintro ⟨⟩
  obtain ⟨hq, hchain, -⟩ := keepsOrder_buildItemsFrom scene items 0 _ (.initial _) hnone
  rw [run, outcome_buildDocument]
  rcases hout : (scene.buildItemsFrom 0 items).outcome (.initial scene.slots.length) with
    ⟨e | values, q⟩
  · rw [hout] at hq hchain
    exact ⟨hq, hchain⟩
  · rw [hout] at hq hchain
    exact ⟨hq, hchain⟩

/-- What holds of the bindings at all points of building a document.  The points are told by the log: the
progress after a suffix of it is that at some point, but for what is left to be checked. -/
structure RunsInStep (scene : Scene) (items : List Item) : Prop where
  /-- The log tells all that happened to bindings, chain and count. -/
  orderly : (scene.run items).2.Orderly scene.slots.length
  /-- At each point the bindings in progress are those on the chain, and they are as many as are
  counted, which is no more than are allowed. -/
  inStep : ∀ log, log <:+ (scene.run items).2.log →
    (replay scene.slots.length log).InStep scene.slots.length
  /-- From one point to the next each binding takes one step at most, from not begun to in progress, and
  from there to finished or failed. -/
  moves : ∀ t log, (t :: log) <:+ (scene.run items).2.log → ∀ (b : Nat) (s : BindingState),
    (replay scene.slots.length log).states[b]? = some s →
      ∃ s', (replay scene.slots.length (t :: log)).states[b]? = some s' ∧ s.Moves s'
  /-- A finished binding keeps its value. -/
  keeps : ∀ earlier later, earlier <:+ later → later <:+ (scene.run items).2.log →
    ∀ (b : Nat) (v : Value),
    (replay scene.slots.length earlier).states[b]? = some (.resolved v) →
      (replay scene.slots.length later).states[b]? = some (.resolved v)
  /-- After a failure there are only failures. -/
  failures : ∀ t log, (t :: log) <:+ (scene.run items).2.log →
    (∃ b : Nat, (replay scene.slots.length log).states[b]? = some .failed) → t.state = .failed
  /-- A binding that was forced is in progress or finished, and nothing has failed. -/
  forced : ∀ depth b p q, b < scene.slots.length → p.Orderly scene.slots.length → p.NoneFailed →
    (scene.forceWithin depth b).Gives p () q → q.Orderly scene.slots.length ∧ q.NoneFailed ∧
      (q.states[b]? = some .inProgress ∨ ∃ v, q.states[b]? = some (.resolved v))
  /-- If the document has values, all its bindings are finished. -/
  finished : ∀ resolution, (scene.run items).1 = .ok resolution →
    ∀ s ∈ (scene.run items).2.states, ∃ v, s = .resolved v

end Scene

namespace Document

/-- **The bindings of a document go through their states in step,** whether the document has values or
not. -/
theorem runs_in_step {d : Document} {registry : Registry} {rules : List Rule} {slots : List Slot}
    (hslots : Scene.slotsOf registry [] d.bindings = .ok slots) :
    let scene : Scene := ⟨registry, rules, slots, Scene.maxTextDepth⟩
    d.resolve registry rules = (scene.run d.items).1 ∧ scene.RunsInStep d.items := by
  intro scene
  have hlen : scene.slots.length = d.bindings.length :=
    (Scene.slotsOf_eq_ok_iff.1 hslots).2.2.length_eq.symm
  obtain ⟨horderly, -⟩ := scene.orderly_run d.items
  have hlawful {log : List Transition} (hsuffix : log <:+ (scene.run d.items).2.log) :
      Lawful scene.slots.length log := horderly.lawful.of_suffix hsuffix
  refine ⟨?_, horderly, fun log hsuffix => (hlawful hsuffix).inStep,
    fun t log hsuffix b s hs => (hlawful hsuffix).moves hs,
    fun earlier later hearlier hlater b v hv => (hlawful hlater).keeps_value? hearlier hv,
    fun t log hsuffix hfailed => ?_, fun depth b p q hb hp hnone hgives => ?_,
    fun resolution hresult => ?_⟩
  · rw [resolve, hslots]
    rfl
  · obtain ⟨b, hb⟩ := hfailed
    exact (hlawful hsuffix).failed_of_failed hb
  · obtain ⟨hq, -, hresult⟩ := Scene.orders_forceWithin depth b hp hnone
    rw [hgives] at hq hresult
    obtain ⟨hnone', hforced⟩ := hresult () rfl
    exact ⟨hq, hnone', hforced hb⟩
  · obtain ⟨hcomplete, -⟩ := Scene.complete_of_buildDocument scene hlen (Prod.ext hresult rfl)
    exact fun s hs => hcomplete.resolved_of_mem hs

/-- A list that refers to a binding further on. -/
def ahead : String := "x := [!y]\ny := 1\n"

/-- A binding that refers to one after it, so that the chain is two bindings long. -/
theorem runs_in_step_ahead : ∃ d slots, Document.read ahead = .ok d ∧
    Scene.slotsOf ⟨[], [], []⟩ [] d.bindings = .ok slots ∧
    let scene : Scene := ⟨⟨[], [], []⟩, [], slots, Scene.maxTextDepth⟩
    d.resolve ⟨[], [], []⟩ [] = (scene.run d.items).1 ∧ scene.RunsInStep d.items := by
  have htest : (Document.read ahead).toOption.any (fun d =>
      (Scene.slotsOf ⟨[], [], []⟩ [] d.bindings).toOption.any fun slots => slots.length == 2) = true := by
    decide +kernel
  obtain ⟨d, hd, htest⟩ := exists_ok_of_any htest
  obtain ⟨slots, hslots, -⟩ := exists_ok_of_any htest
  exact ⟨d, slots, hd, hslots, runs_in_step hslots⟩

end Document

end TypedData
