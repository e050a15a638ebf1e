import TypedData.Load
import TypedData.Proofs.Rule.Remembering
import TypedData.Proofs.Simulation.Forcing

/-!
# How deep texts are taken apart

A text that comes out of a rule may be taken apart again, and so on.  Building bounds how deep this goes.
The bound is not seen where building comes to an end: with a greater one it ends in the same way
(`Document.resolveWithin_add`).  So a document is resolved if there is any bound within which it is.

There need not be one.  A rule that builds a record out of the same text again never ends
(`Scene.endless_of_handsOn`).
-/

namespace TypedData

/-- A failure at its own place is itself. -/
theorem Failure.relocate_id (e : Failure) : e.relocate id = e := by
  cases e with
  | token e => cases e <;> rfl
  | parse e => cases e <;> rfl
  | reference e => cases e <;> rfl
  | type _ | constraint _ | evaluation _ | endless _ _ => rfl

namespace Build

variable {α β γ δ : Type} {g : α → β} {g' : γ → δ}

/-- The step goes deeper than is allowed. -/
def Endless (m : Build α) (p : Progress) : Prop :=
  ∃ text span q, m.outcome p = (.error (.endless text span), q)

/-- The second step ends as the first one does, unless this goes deeper than is allowed. -/
def Deepens (g : α → β) (m : Build α) (m' : Build β) : Prop :=
  ∀ p, m.Endless p ∨ m'.outcome p = ((m.outcome p).1.map g, (m.outcome p).2)

namespace Deepens

/-- A step that only gives a result ends alike within both bounds. -/
theorem pure (g : α → β) (a : α) : Deepens g (Pure.pure a) (Pure.pure (g a)) := fun _ => .inr rfl

/-- A step that only fails ends alike within both bounds. -/
theorem throw (g : α → β) (e : Failure) :
    Deepens g (MonadExcept.throw e) (MonadExcept.throw (e.relocate id)) := by
  intro p
  rw [Failure.relocate_id]
  exact .inr rfl

/-- A step that goes deeper than is allowed may end in any way within a greater bound. -/
theorem endless (g : α → β) (text : String) (span : Span) (m' : Build β) :
    Deepens g (MonadExcept.throw (.endless text span)) m' := fun p => .inl ⟨text, span, p, rfl⟩

/-- One step after another deepens if both do. -/
theorem bind {m : Build α} {m' : Build β} {k : α → Build γ} {k' : β → Build δ} (hm : Deepens g m m')
    (hk : ∀ a, Deepens g' (k a) (k' (g a))) : Deepens g' (m >>= k) (m' >>= k') := by
  intro p
  rcases hm p with ⟨text, span, q, hend⟩ | hsame
  · exact .inl ⟨text, span, q, by rw [outcome_bind, hend]⟩
  · rw [Endless, outcome_bind, outcome_bind, hsame]
    rcases m.outcome p with ⟨e | a, q⟩
    · exact .inr rfl
    · exact hk a q

/-- A step ends as it does itself. -/
theorem refl (m : Build α) : Deepens id m m := by
  intro p
  rw [Except.map_id]
  exact .inr rfl

end Deepens

end Build

namespace Scene

open Build (Deepens)

variable {scene : Scene} {depth : Nat}

/-- The scene with another bound. -/
def within (scene : Scene) (depth : Nat) : Scene := { scene with textDepth := depth }

/-- Building within two bounds. -/
def deepening (scene : Scene) (depth : Nat) : Simulation id id scene (scene.within depth) where
  Maps := Deepens
  registry := scene.exists_registry_eq_relocate_id
  indexOf? name := (congrFun Option.map_id _).symm
  pure := .pure
  throw g e _ := .throw g e
  bind := .bind
  conditions ctor fields span := by
    rw [Value.renumberFields_id]
    exact .refl _

/-- A text is fitted alike within a greater bound, at every level. -/
theorem fits_deepening (scene : Scene) {depth : Nat} : (n k : Nat) →
    ∀ text t span, (scene.deepening depth).FitsText (scene.fitTextWithin n)
      ((scene.within depth).fitTextWithin (n + k)) text t span
  | 0, _, text, _, span => .endless _ text span _
  | n + 1, k, text, t, span => by
    rw [Nat.succ_add]
    have hrules := (scene.deepening depth).sameRules_relocate (Rule.map_relocate_id scene.rules).symm
    exact hrules.fitTextWithin_succ (fits_deepening scene n k) text t span

/-- A text is fitted alike within a greater bound. -/
theorem fitText_deepening (h : scene.textDepth ≤ depth) (text : String) (t : Ty) (span : Span) :
    (scene.deepening depth).FitsText scene.fitText (scene.within depth).fitText text t span := by
  obtain ⟨k, rfl⟩ := Nat.exists_eq_add_of_le h
  exact fits_deepening scene scene.textDepth k text t span

/-- Building on the chain of a binding deepens if the building does. -/
theorem deepens_onChain {b : Nat} {m m' : Build Value} (h : Deepens id m m') :
    Deepens id (onChain b m) (onChain b m') := by
  intro p
  rcases h (p.enter b) with ⟨text, span, q, hend⟩ | hsame
  · exact .inl ⟨text, span, q.leave b .failed, by rw [Build.outcome_onChain, hend]⟩
  · right
    rw [Build.outcome_onChain, Build.outcome_onChain, hsame]
    rcases m.outcome (p.enter b) with ⟨e | v, q⟩ <;> rfl

/-- Building within a greater bound goes over the same bindings. -/
theorem overBindings_deepening (scene : Scene) (depth : Nat) : (scene.deepening depth).OverBindings id where
  slots := (List.map_id'' Slot.relocate_id scene.slots).symm
  get := .refl _
  states _ := rfl
  forcing _ := rfl
  useForced _ _ _ _ _ _ := .refl _
  onChain _ _ _ := deepens_onChain

/-- Items are built alike within a greater bound. -/
theorem deepens_buildItemsFrom (h : scene.textDepth ≤ depth) (items : List Item) (next : Nat) :
    Deepens id (scene.buildItemsFrom next items) ((scene.within depth).buildItemsFrom next items) :=
  (overBindings_deepening scene depth).buildItemsFrom (fun _ _ text _ => fitText_deepening h text)
    (List.forall₂_same.2 fun item _ => item.sameData_self) (fun _ _ text _ => fitText_deepening h text) next

/-- A document is built alike within a greater bound. -/
theorem deepens_buildDocument (scene : Scene) (h : scene.textDepth ≤ depth) (items : List Item) :
    Deepens id (scene.buildDocument items) ((scene.within depth).buildDocument items) :=
  .bind (deepens_buildItemsFrom h items 0) fun _ => .refl _

end Scene

namespace Document

/-- The values of a document, where texts are taken apart at most so deep. -/
def resolveWithin (d : Document) (registry : Registry) (rules : List Rule) (depth : Nat) :
    Except Failure Resolution := do
  let slots ← Scene.slotsOf registry [] d.bindings
  ((Scene.buildDocument ⟨registry, rules, slots, depth⟩ d.items).run (.initial slots.length)).1

variable {d : Document} {registry : Registry} {rules : List Rule} {slots : List Slot}

/-- If the slots of a document fail, it fails within every bound. -/
theorem resolveWithin_of_error {e : Failure} (h : Scene.slotsOf registry [] d.bindings = .error e)
    (depth : Nat) : d.resolveWithin registry rules depth = .error e := by
  rw [resolveWithin, h]
  rfl

/-- A document is resolved within a bound by building its items. -/
theorem resolveWithin_of_ok (h : Scene.slotsOf registry [] d.bindings = .ok slots) (depth : Nat) :
    d.resolveWithin registry rules depth =
      ((Scene.buildDocument ⟨registry, rules, slots, depth⟩ d.items).outcome
        (.initial slots.length)).1 := by
  rw [resolveWithin, h]
  rfl

/-- A document is resolved within the greatest bound. -/
theorem resolve_eq (d : Document) (registry : Registry) (rules : List Rule) :
    d.resolve registry rules = d.resolveWithin registry rules Scene.maxTextDepth := by
  cases hslots : Scene.slotsOf registry [] d.bindings with
  | error e =>
    rw [resolveWithin_of_error hslots, resolve, hslots]
    rfl
  | ok slots =>
    rw [resolveWithin_of_ok hslots, resolve, hslots]
    rfl

/-- **A result does not depend on the bound.**  Unless a document is not resolved within a bound, it has
the same result within every greater bound. -/
theorem resolveWithin_add (d : Document) (registry : Registry) (rules : List Rule) (depth more : Nat) :
    (∃ text span, d.resolveWithin registry rules depth = .error (.endless text span)) ∨
      d.resolveWithin registry rules (depth + more) = d.resolveWithin registry rules depth := by
  cases hslots : Scene.slotsOf registry [] d.bindings with
  | error e =>
    right
    rw [resolveWithin_of_error hslots, resolveWithin_of_error hslots]
  | ok slots =>
    have hdeepens := Scene.deepens_buildDocument ⟨registry, rules, slots, depth⟩
      (Nat.le_add_right depth more) d.items
    rw [resolveWithin_of_ok hslots, resolveWithin_of_ok hslots]
    rcases hdeepens (.initial slots.length) with ⟨text, span, q, hend⟩ | hsame
    · exact .inl ⟨text, span, congrArg Prod.fst hend⟩
    · right
      have hresult := congrArg Prod.fst hsame
      rw [Except.map_id] at hresult
      exact hresult

end Document

/-! ## Texts without end -/

/-- What goes too deep goes too deep, whatever comes after it. -/
theorem Build.Endless.bind {α β : Type} {m : Build α} {p : Progress} (h : m.Endless p)
    (k : α → Build β) : (m >>= k).Endless p := by
  obtain ⟨text, span, q, hend⟩ := h
  exact ⟨text, span, q, by rw [outcome_bind, hend]⟩

/-- A step that looks at the progress goes too deep if what it does with it does. -/
theorem Build.Endless.get_bind {β : Type} {k : Progress → Build β} {p : Progress}
    (h : (k p).Endless p) : (get >>= k : Build β).Endless p := h

namespace Rule

/-- A single slot takes any text that is not empty. -/
theorem fitText?_slot (name : String) {text : String} (h : text.toList ≠ []) :
    Segment.fitText? [.slot name] text.toList = some [(name, text)] := by
  have hcapture : Segment.capture name text.toList = (name, text) := by
    rw [Segment.capture, String.ofList_toList]
  obtain ⟨c, input, hinput⟩ := List.exists_cons_of_ne_nil h
  rw [← hcapture, hinput, Segment.fitText?_eq]
  rfl

/-- The only rule, with a single slot, matches every text that is not empty. -/
theorem firstMatchFor?_slot (target : Expr) (ctor typeName : String) (index : Nat) (span : Span)
    (name : String) {text : String} (h : text.toList ≠ []) :
    firstMatchFor? typeName [⟨[.slot name], target, ctor, typeName, [], index, span⟩] text =
      some ⟨⟨[.slot name], target, ctor, typeName, [], index, span⟩, [(name, text)]⟩ := by
  have hmatch : match? ⟨[.slot name], target, ctor, typeName, [], index, span⟩ text.toList =
      some [(name, text)] := by
    rw [match?, fitText?_slot name h]
    rfl
  rw [firstMatchFor?, firstMatch?]
  simp only [List.filter_cons, beq_self_eq_true, if_true, List.filter_nil, List.findSome?_cons, hmatch,
    Option.map_some]

end Rule

/-- An argument for the only field of a constructor is placed there. -/
theorem Constructor.place_single {α : Type} {ctor : Constructor} {field : String}
    (h : ctor.fields.map FieldSpec.name = [some field]) (a : α) :
    ctor.place [⟨some field, a⟩] = .ok [some a] := by
  obtain ⟨spec, hfields, hname⟩ := List.map_eq_singleton_iff.1 h
  have hindex : ctor.fieldIndex? field = some 0 := by
    rw [fieldIndex?, hfields, List.findIdx?_cons, hname, beq_self_eq_true]
    rfl
  rw [place, hfields]
  change ctor.placeFrom 1 0 [none] [⟨some field, a⟩] = _
  rw [placeFrom, hindex]
  rfl

namespace Scene

variable {scene : Scene}

/-- A slot as a target is its text, taken apart again. -/
theorem buildTarget_name {fitText : String → Ty → Span → Build Value} {captures : Captures}
    {slot text : String} (h : captures.lookup slot = some text) (nameSpan span : Span)
    (typeName : String) (args : List Ty) :
    scene.buildTarget fitText captures span (.name nameSpan slot) (.named typeName args) =
      fitText text (.named typeName args) span := by
  have heval : (Expr.name nameSpan slot).eval (Rule.environment captures) = .ok (.str text) := by
    have hlookup : (Rule.environment captures).lookup slot = some (.str text) :=
      congrArg (Option.map Operand.str) h
    rw [Expr.eval, hlookup]
    rfl
  rw [buildTarget, h, evaluateTarget, heval]
  rfl

/-- Whether the record that a rule makes of a text has one field, of the type of the record, which is
built from the same text. -/
def handsOn (registry : Registry) (found : RuleMatch) (typeName text : String) : Bool :=
  match found.rule.target with
  | .call _ ctorName [⟨some field, .name _ slot⟩] =>
    match registry.constructor? ctorName with
    | some ctor =>
      match registry.fieldTypes ctor [] with
      | [.named fieldType []] =>
        found.captures.lookup slot == some text && ctor.typeName == typeName &&
          ctor.fields.map FieldSpec.name == [some field] && fieldType == typeName
      | _ => false
    | none => false
  | _ => false

/-- **A text that comes out of itself is taken apart without end.** -/
theorem endless_of_handsOn (scene : Scene) {typeName text : String} {found : RuleMatch}
    (hrule : Rule.firstMatchFor? typeName scene.rules text = some found)
    (h : handsOn scene.registry found typeName text = true) (span : Span) :
    (depth : Nat) → (p : Progress) →
      (scene.fitTextWithin depth text (.named typeName []) span).Endless p
  | 0, p => ⟨text, span, p, rfl⟩
  | depth + 1, p => by
    have ih := endless_of_handsOn scene hrule h span depth
    unfold handsOn at h
    split at h
    · rename_i callSpan ctorName field nameSpan slot htarget
      split at h
      · rename_i ctor hctor
        split at h
        · rename_i fieldType htypes
          simp only [Bool.and_eq_true, beq_iff_eq] at h
          obtain ⟨⟨⟨hcapture, rfl⟩, hfields⟩, rfl⟩ := h
          have hrequired : (Ty.named ctor.typeName []).required = .named ctor.typeName [] := rfl
          have hpeeled : (Ty.named ctor.typeName []).peeled = .named ctor.typeName [] := rfl
          rw [fitTextWithin, hrequired]
          dsimp only
          rw [hrule]
          dsimp only
          rw [htarget, buildTarget, hctor, if_pos (Option.isSome_some ..), hpeeled, construct_eq, hctor,
            targetArguments, targetArguments]
          dsimp only
          rw [typeArguments, if_pos rfl, pure_bind, Constructor.place_single hfields, hfields, htypes]
          refine Build.Endless.bind (Build.Endless.bind (Build.Endless.bind ?_ _) _) _
          dsimp only
          rw [buildTarget_name hcapture]
          exact ih p
        · cases h
      · cases h
    · cases h

/-- Forcing a binding goes too deep if its data does. -/
theorem endless_forceWithin {limit b : Nat} {slot : Slot} {p : Progress}
    (hb : p.states[b]? = some .unresolved) (hslot : scene.slots[b]? = some slot)
    (hforcing : p.forcing < maxReferenceDepth)
    (h : ∀ q, (scene.buildSlot (scene.forceWithin limit) slot).Endless q) :
    (scene.forceWithin (limit + 1) b).Endless p := by
  rw [forceWithin.eq_def]
  refine Build.Endless.get_bind ?_
  rw [hb, hslot]
  dsimp only
  rw [if_neg (Nat.not_le_of_lt hforcing)]
  obtain ⟨text, span, q, hend⟩ := h (p.enter b)
  exact ⟨text, span, q.leave b .failed, by rw [Build.outcome_onChain, hend]⟩

/-- Declarations in front of items are passed. -/
theorem buildItemsFrom_declarations {items : List Item} (next : Nat) :
    (declarations : List Item) → (Document.mk declarations).bindings = [] →
      (Document.mk declarations).values = [] →
      scene.buildItemsFrom next (declarations ++ items) = scene.buildItemsFrom next items
  | [], _, _ => rfl
  | .type _ :: rest, hbindings, hvalues | .rule _ :: rest, hbindings, hvalues => by
    simp only [List.cons_append, buildItemsFrom]
    exact buildItemsFrom_declarations next rest hbindings hvalues
  | .binding _ :: _, hbindings, _ => by cases hbindings
  | .value _ :: _, _, hvalues => by cases hvalues

end Scene

namespace Document

variable {d : Document} {registry : Registry} {rules : List Rule}

/-- **A document may have no result within any bound.**  This is so if its first binding is a text that
comes out of itself. -/
theorem resolveWithin_endless {declarations items : List Item} {binding : Binding} {span : Span}
    {typeName text : String} {slot : Slot} {slots : List Slot}
    (hitems : d.items = declarations ++ .binding binding :: items)
    (hbindings : (Document.mk declarations).bindings = [])
    (hvalues : (Document.mk declarations).values = [])
    (hslots : Scene.slotsOf registry [] d.bindings = .ok (slot :: slots))
    (hdata : slot.data = .str span text) (htype : slot.type = .named typeName [])
    {found : RuleMatch} (hrule : Rule.firstMatchFor? typeName rules text = some found)
    (hfound : Scene.handsOn registry found typeName text = true) (depth : Nat) :
    ∃ text span, d.resolveWithin registry rules depth = .error (.endless text span) := by
  rw [resolveWithin_of_ok hslots, hitems, Scene.buildDocument,
    Scene.buildItemsFrom_declarations 0 declarations hbindings hvalues, Scene.buildItemsFrom]
  have hslot : ∀ q, (Scene.buildSlot ⟨registry, rules, slot :: slots, depth⟩
      (Scene.forceWithin ⟨registry, rules, slot :: slots, depth⟩ 255) slot).Endless q := by
    intro q
    rw [Scene.buildSlot, hdata]
    dsimp only
    rw [Scene.buildData, htype]
    exact Scene.endless_of_handsOn ⟨registry, rules, slot :: slots, depth⟩ hrule hfound span depth q
  have hforce := Scene.endless_forceWithin (p := .initial (slot :: slots).length) (b := 0) rfl rfl
    (Nat.zero_lt_of_ne_zero (by decide)) hslot
  obtain ⟨text, span, q, hend⟩ := (hforce.bind _).bind _
  exact ⟨text, span, congrArg Prod.fst hend⟩

/-- A rule that makes a record of every text, with the text in it, where another record is expected. -/
def looping : String := "type t = t {next: t}\n\"\x7bx\x7d\" => t(next: x)\na: t := \"b\"\n"

/-- Whether a document is a type, a rule whose template is a single slot, and a text which comes out of
itself by this rule. -/
def isLooping (d : Document) (registry : Registry) (rules : List Rule) : Bool :=
  match d.items, Scene.slotsOf registry [] d.bindings, rules with
  | [.type _, .rule _, .binding _], .ok [⟨_, .str _ text, .named typeName []⟩],
    [⟨[.slot name], target, ctor, ruleType, [], index, span⟩] =>
    ruleType == typeName && !text.toList.isEmpty &&
      Scene.handsOn registry ⟨⟨[.slot name], target, ctor, ruleType, [], index, span⟩, [(name, text)]⟩
        typeName text
  | _, _, _ => false

/-- A document that loops has no result within any bound. -/
theorem endless_of_isLooping (h : isLooping d registry rules = true) (depth : Nat) :
    ∃ text span, d.resolveWithin registry rules depth = .error (.endless text span) := by
  unfold isLooping at h
  split at h
  · rename_i typeDecl ruleDecl binding _ _ text typeName name target ctor ruleType index span hitems hslots
    simp only [Bool.and_eq_true, beq_iff_eq, Bool.not_eq_true', List.isEmpty_eq_false_iff] at h
    obtain ⟨⟨rfl, htext⟩, hfound⟩ := h
    have hrule := Rule.firstMatchFor?_slot target ctor ruleType index span name htext
    have hitems : d.items = [.type typeDecl, .rule ruleDecl] ++ .binding binding :: [] := hitems
    exact resolveWithin_endless hitems rfl rfl hslots rfl rfl hrule hfound depth
  · cases h

/-- There is a text that is read, has a registry and rules, and has no result within any bound. -/
theorem looping_endless : ∃ d registry rules, Document.read looping = .ok d ∧
    Loaded.declarations d.canonical = .ok (registry, rules) ∧ ∀ depth, ∃ text span,
      d.canonical.resolveWithin registry rules depth = .error (.endless text span) := by
  have htest : (Document.read looping).toOption.any (fun d => (Loaded.declarations d.canonical).toOption.any
      fun found => isLooping d.canonical found.1 found.2) = true := by decide +kernel
  obtain ⟨d, hd, htest⟩ := exists_ok_of_any htest
  obtain ⟨⟨registry, rules⟩, hdecls, htest⟩ := exists_ok_of_any htest
  exact ⟨d, registry, rules, hd, hdecls, endless_of_isLooping htest⟩

end Document

end TypedData
