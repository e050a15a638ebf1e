import Mathlib.Order.Filter.AtTopBot.Basic
import Mathlib.Order.Filter.Finite
import TypedData.Proofs.Building.Descent
import TypedData.Proofs.Building.Run
import TypedData.Proofs.Building.Slots
import TypedData.Proofs.Simulation.Depth

/-!
# Rules that come to an end

Taking texts apart comes to an end if every rule hands on something smaller.  If all rules of a document descend, it
has a result within any bound that is above the ranks of their types; if all of them shorten, it has the same result
within every bound from some depth on (`Document.resolveWithin_of_descends`).

The first is an induction on the bound.  For the second, each text comes to an end from some depth on, for all types
that name only types of ranks below `n`.  This is an induction on `n` and then on the length of the text: a rule
hands on one of finitely many texts, each of which comes to an end from some depth on.
-/

namespace TypedData

/-! ## Steps that come to an end -/

namespace Build

variable {α β : Type}

/-- The step never goes deeper than is allowed. -/
def Ends (m : Build α) : Prop := ∀ p, ¬ m.Endless p

namespace Ends

/-- A step that only gives a result ends. -/
theorem pure (a : α) : Ends (Pure.pure a) := by
  rintro p ⟨text, span, q, h⟩
  cases h

/-- Looking at the progress ends. -/
theorem get : Ends get := by
  rintro p ⟨text, span, q, h⟩
  cases h

/-- Changing the progress ends. -/
theorem modify (f : Progress → Progress) : Ends (modify f) := by
  rintro p ⟨text, span, q, h⟩
  cases h

/-- A step that only fails ends, unless it fails for the depth. -/
theorem throw {e : Failure} (he : ∀ text span, e ≠ .endless text span) :
    Ends (MonadExcept.throw e : Build α) := by
  rintro p ⟨text, span, q, h⟩
  exact he text span (Except.error.inj (Prod.mk.inj h).1)

/-- A failure of types ends. -/
theorem typeFailure (problem : TypeProblem) (span : Span) :
    Ends (Build.typeFailure problem span : Build α) := throw (by rintro _ _ ⟨⟩)

/-- One step after another ends if both do. -/
theorem bind {m : Build α} {k : α → Build β} (hm : m.Ends) (hk : ∀ a, (k a).Ends) :
    (m >>= k).Ends := by
  rintro p ⟨text, span, r, h⟩
  rw [outcome_bind] at h
  rcases hout : m.outcome p with ⟨e | a, q⟩
  · rw [hout] at h
    obtain ⟨⟨⟩, rfl⟩ := Prod.mk.inj h
    exact hm p ⟨text, span, q, hout⟩
  · rw [hout] at h
    exact hk a q ⟨text, span, r, h⟩

/-- A step ends if it goes no deeper than one that ends. -/
theorem of_deepens {g : α → β} {m : Build α} {m' : Build β} (hm : m.Ends) (h : Deepens g m m') : m'.Ends := by
  rintro p ⟨text, span, q, hend⟩
  rcases h p with hendless | hsame
  · exact hm p hendless
  · rw [hsame] at hend
    cases hout : m.outcome p with
    | mk result r =>
      rw [hout] at hend
      cases result with
      | ok a => cases hend
      | error e =>
        obtain rfl := Except.error.inj (Prod.mk.inj hend).1
        exact hm p ⟨text, span, r, hout⟩

/-- A computation without progress ends, unless it fails for the depth. -/
theorem ofExcept {result : Except Failure α}
    (h : ∀ text span, result ≠ .error (.endless text span)) : Ends (ofExcept result) := by
  cases result with
  | ok a => exact pure a
  | error e => exact throw fun text span he => h text span (congrArg _ he)

end Ends

end Build

open Build (Ends)

namespace Scene

variable {scene : Scene}

/-- Settling the conditions of a record ends. -/
theorem ends_settleConditions (scene : Scene) (ctor : String) (fields : List (Field Value))
    (span : Span) : (scene.settleConditions ctor fields span).Ends := by
  refine .bind .get fun p => .bind (.ofExcept fun text span' => ?_) fun stop => ?_
  · exact fun hfails => (isVerdict_of_checkConstraints _ 0 hfails).ne_endless text span' rfl
  · cases stop with
    | none => exact .pure ()
    | some stop => exact .modify _

/-- Steps that come to an end. -/
def ending (scene : Scene) : Simulation id id scene scene where
  Maps _ m _ := m.Ends
  registry := scene.exists_registry_eq_relocate_id
  indexOf? := scene.indexOf?_eq_map_id
  pure _ a := .pure a
  throw _ e he := .throw (by rintro text span rfl; cases he)
  bind := .bind
  conditions ctor fields span := ends_settleConditions scene ctor.name fields span

/-! ## Texts -/

variable {rank : String → Nat}

/-- A target comes to an end if the texts do that are taken apart when it is built. -/
theorem ends_buildTarget {fitText : String → Ty → Span → Build Value} {captures : Captures} {span : Span}
    {target : Expr} {t : Ty}
    (h : ∀ text t', target.Hands scene.registry captures t text t' → (fitText text t' span).Ends) :
    (scene.buildTarget fitText captures span target t).Ends := by
  have hbuild : (ending scene).Maps (Value.renumber id) (scene.buildTarget fitText captures span target t)
      (scene.buildTarget fitText captures span (target.relocate id) t) :=
    (ending scene).buildTarget (Expr.moves_relocate id) (ending scene).evaluates_relocate captures span target t h
  exact hbuild

/-- A text comes to an end for a declared type if what the rule for it makes of the text does. -/
theorem ends_fitTextWithin_named {depth : Nat} {text name : String} {args : List Ty} {span : Span}
    (h : ∀ found, Rule.firstMatchFor? name scene.rules text = some found →
      (scene.buildTarget (scene.fitTextWithin depth) found.captures span found.rule.target
        (.named name args)).Ends) :
    (scene.fitTextWithin (depth + 1) text (.named name args) span).Ends := by
  rw [fitTextWithin, show (Ty.named name args).required = .named name args from rfl]
  dsimp only
  split
  · exact h _ ‹_›
  · exact .typeFailure _ _

/-- A text comes to an end for every type if what any rule makes of it does. -/
theorem ends_fitTextWithin_succ {depth : Nat} {text : String} {span : Span}
    (h : ∀ found : RuleMatch, found.rule ∈ scene.rules →
      found.rule.match? text.toList = some found.captures → ∀ t,
        (scene.buildTarget (scene.fitTextWithin depth) found.captures span found.rule.target t).Ends)
    (t : Ty) : (scene.fitTextWithin (depth + 1) text t span).Ends := by
  rw [fitTextWithin]
  split
  · exact .pure _
  · split
    · rename_i hfound
      obtain ⟨hmem, hmatch, -⟩ := Rule.of_firstMatchFor? hfound
      exact h _ hmem hmatch _
    · exact .typeFailure _ _
  · split
    · rename_i hfound
      obtain ⟨hmem, hmatch⟩ := Rule.of_firstMatch? hfound
      exact h _ hmem hmatch _
    · exact .pure _
  · split
    · rename_i hfound
      obtain ⟨hmem, hmatch⟩ := Rule.of_firstMatch? hfound
      exact h _ hmem hmatch _
    · exact .pure _
  · exact .typeFailure _ _

/-! ### Rules that descend -/

/-- The rules are calls of constructors, and they descend. -/
def Descending (scene : Scene) (rank : String → Nat) : Prop :=
  ∀ rule ∈ scene.rules, rule.Calls scene.registry ∧ rule.descends scene.registry rank = true

/-- Texts come to an end where declared types of ranks below `n` are expected. -/
def EndsBelow (rank : String → Nat) (n : Nat) (fitText : String → Ty → Span → Build Value) : Prop :=
  ∀ text name args span, rank name < n → (fitText text (.named name args) span).Ends

/-- What a rule makes of a text comes to an end if texts do for types of smaller ranks. -/
theorem Descending.ends_rule (h : scene.Descending rank) {rule : Rule} (hrule : rule ∈ scene.rules)
    {fitText : String → Ty → Span → Build Value} (hfit : EndsBelow rank (rank rule.typeName) fitText)
    (captures : Captures) (span : Span) (t : Ty) :
    (scene.buildTarget fitText captures span rule.target t).Ends := by
  refine ends_buildTarget fun text t' hhands => ?_
  obtain ⟨hcalls, hdescends⟩ := h rule hrule
  have hrank := Rule.ranksBelow_of_hands hcalls hdescends hhands
  obtain ⟨name, args, rfl⟩ := hhands.exists_named
  exact hfit text name args span (of_decide_eq_true hrank)

/-- **A text comes to an end** within any bound above the rank of the type. -/
theorem Descending.endsBelow (h : scene.Descending rank) : (depth : Nat) →
    EndsBelow rank depth (scene.fitTextWithin depth)
  | 0, _, _, _, _, hrank => absurd hrank (Nat.not_lt_zero _)
  | depth + 1, text, name, args, span, hrank => by
    refine ends_fitTextWithin_named fun found hfound => ?_
    obtain ⟨hmem, -, hname⟩ := Rule.of_firstMatchFor? hfound
    refine h.ends_rule hmem (fun text inner args span hinner => ?_) found.captures span _
    exact h.endsBelow depth text inner args span (by rw [hname] at hinner; omega)

/-- Whatever type is expected, a text comes to an end within a bound above the ranks of all rules. -/
theorem Descending.ends_fitTextWithin (h : scene.Descending rank) {depth : Nat}
    (hdepth : ∀ rule ∈ scene.rules, rank rule.typeName ≤ depth) (text : String) (t : Ty) (span : Span) :
    (scene.fitTextWithin (depth + 1) text t span).Ends := by
  refine ends_fitTextWithin_succ (fun found hmem _ t => ?_) t
  refine h.ends_rule hmem (fun text name args span hname => ?_) found.captures span t
  exact h.endsBelow depth text name args span (Nat.lt_of_lt_of_le hname (hdepth _ hmem))

/-! ### Rules that shorten -/

/-- The rules are calls of constructors with regular templates, and they shorten. -/
def Shortening (scene : Scene) (rank : String → Nat) : Prop :=
  ∀ rule ∈ scene.rules, rule.Calls scene.registry ∧ Segment.Regular rule.segments ∧
    rule.shortens scene.registry rank = true

/-- From some depth on the text comes to an end where a declared type is expected that names only types of ranks
below `n`. -/
def EndsAtLast (scene : Scene) (rank : String → Nat) (n : Nat) (text : String) : Prop :=
  ∀ᶠ depth in Filter.atTop, ∀ name args span, (Ty.named name args).NamesBelow scene.rules rank n →
    (scene.fitTextWithin depth text (.named name args) span).Ends

/-- From some depth on all these texts have a property, if each of them has. -/
theorem eventually_forall_mem {α : Type} {P : Nat → α → Prop} (as : List α)
    (h : ∀ a ∈ as, ∀ᶠ depth in Filter.atTop, P depth a) : ∀ᶠ depth in Filter.atTop, ∀ a ∈ as, P depth a :=
  (Filter.eventually_all_finite as.finite_toSet).2 h

/-- What a rule makes of a text comes to an end from some depth on, if all texts do for types of smaller ranks, and
shorter texts do for types of no greater rank. -/
theorem Shortening.ends_rule (h : scene.Shortening rank) {rule : Rule} (hrule : rule ∈ scene.rules)
    {text : String} {captures : Captures} (hmatch : rule.match? text.toList = some captures) {n : Nat}
    (hn : rank rule.typeName < n) (hbelow : ∀ text, scene.EndsAtLast rank (rank rule.typeName) text)
    (hshorter : ∀ shorter : String, shorter.length < text.length → scene.EndsAtLast rank n shorter) :
    ∀ᶠ depth in Filter.atTop, ∀ t span, t.NamesBelow scene.rules rank n →
      (scene.buildTarget (scene.fitTextWithin depth) captures span rule.target t).Ends := by
  obtain ⟨hcalls, hregular, hshortens⟩ := h rule hrule
  obtain ⟨texts, htexts⟩ := Expr.exists_texts scene.registry captures rule.target
  have hends := eventually_forall_mem texts fun handed _ => hbelow handed
  have hendsShorter := eventually_forall_mem (texts.filter fun handed => handed.length < text.length)
    fun handed hmem => hshorter handed (of_decide_eq_true (List.mem_filter.1 hmem).2)
  filter_upwards [hends, hendsShorter] with depth hends hendsShorter t span ht
  refine ends_buildTarget fun handed t' hhands => ?_
  have hmem := htexts t handed t' hhands
  have hsmaller := Rule.smaller_of_hands hcalls hregular hshortens hmatch hn ht hhands
  obtain ⟨name, args, rfl⟩ := hhands.exists_named
  rcases hsmaller with hrank | ⟨hrank, hlength⟩
  · exact hends handed hmem name args span hrank
  · rw [String.length_toList] at hlength
    exact hendsShorter handed (List.mem_filter.2 ⟨hmem, decide_eq_true hlength⟩) name args span hrank

/-- What any rule of a rank below `n` makes of a text comes to an end from some depth on. -/
theorem Shortening.ends_rules (h : scene.Shortening rank) {text : String} {n : Nat}
    (hbelow : ∀ m < n, ∀ text, scene.EndsAtLast rank m text)
    (hshorter : ∀ shorter : String, shorter.length < text.length → scene.EndsAtLast rank n shorter) :
    ∀ᶠ depth in Filter.atTop, ∀ rule ∈ scene.rules, rank rule.typeName < n → ∀ captures,
      rule.match? text.toList = some captures → ∀ t span, t.NamesBelow scene.rules rank n →
        (scene.buildTarget (scene.fitTextWithin depth) captures span rule.target t).Ends := by
  refine eventually_forall_mem scene.rules fun rule hrule => ?_
  by_cases hn : rank rule.typeName < n
  · cases hmatch : rule.match? text.toList with
    | none => exact .of_forall fun _ _ _ => by rintro ⟨⟩
    | some captures =>
      filter_upwards [h.ends_rule hrule hmatch hn (hbelow _ hn) hshorter] with depth hends _ captures' hcaptures
      obtain rfl := Option.some.inj hcaptures
      exact hends
  · exact .of_forall fun _ hlt => absurd hlt hn

/-- **Every text comes to an end** from some depth on, whatever it is and whatever the ranks are. -/
theorem Shortening.endsAtLast (h : scene.Shortening rank) (n : Nat) (text : String) :
    scene.EndsAtLast rank n text := by
  induction n using Nat.strong_induction_on generalizing text with
  | _ n ihn =>
    induction hlength : text.length using Nat.strong_induction_on generalizing text with
    | _ length ih =>
      have hshorter : ∀ shorter : String, shorter.length < text.length → scene.EndsAtLast rank n shorter :=
        fun shorter hlt => ih _ (hlength ▸ hlt) shorter rfl
      obtain ⟨least, hleast⟩ := Filter.eventually_atTop.1 (h.ends_rules ihn hshorter)
      refine Filter.eventually_atTop.2 ⟨least + 1, fun depth hdepth name args span hrank => ?_⟩
      obtain ⟨depth, rfl⟩ := Nat.exists_eq_add_of_le' hdepth
      refine ends_fitTextWithin_named fun found hfound => ?_
      obtain ⟨hmem, hmatch, hname⟩ := Rule.of_firstMatchFor? hfound
      have hn : rank found.rule.typeName < n := hrank _ hmem (hname ▸ .head _)
      exact hleast _ (Nat.le_add_left ..) _ hmem hn _ hmatch _ span hrank

/-- Whatever types are expected, these texts come to an end from some depth on. -/
theorem Shortening.exists_depth (h : scene.Shortening rank) (texts : List String) :
    ∃ depth, ∀ text ∈ texts, ∀ t span, (scene.fitTextWithin depth text t span).Ends := by
  obtain ⟨n, hn⟩ := (eventually_forall_mem scene.rules fun rule _ =>
    Filter.eventually_gt_atTop (rank rule.typeName)).exists
  have hends : ∀ᶠ depth in Filter.atTop, ∀ text ∈ texts, ∀ rule ∈ scene.rules, rank rule.typeName < n →
      ∀ captures, rule.match? text.toList = some captures → ∀ t span, t.NamesBelow scene.rules rank n →
        (scene.buildTarget (scene.fitTextWithin depth) captures span rule.target t).Ends :=
    eventually_forall_mem texts fun text _ =>
      h.ends_rules (fun m _ => h.endsAtLast m) fun shorter _ => h.endsAtLast n shorter
  obtain ⟨depth, hdepth⟩ := hends.exists
  refine ⟨depth + 1, fun text htext t span => ends_fitTextWithin_succ (fun found hmem hmatch t => ?_) t⟩
  exact hdepth text htext _ hmem (hn _ hmem) _ hmatch t span fun rule hrule _ => hn rule hrule

/-! ## Bindings -/

/-- A use of a binding that was forced ends. -/
theorem ends_useForced (scene : Scene) (b : Nat) (name : String) (path : List String) (span : Span)
    (t : Ty) (whole : Bool) : (scene.useForced b name path span t whole).Ends := by
  refine .bind .get fun p => ?_
  split
  · unfold useUnfinished
    dsimp only
    split
    · exact .bind (.throw (by rintro _ _ ⟨⟩)) fun _ => by
        split
        · exact .pure _
        · exact .modify _
    · split
      · exact .pure _
      · exact .modify _
  · refine .bind .get fun p => ?_
    split
    · split
      · exact .pure _
      · exact .typeFailure _ _
    · exact .throw (by rintro _ _ ⟨⟩)
    · exact .throw (by rintro _ _ ⟨⟩)
  · exact .throw (by rintro _ _ ⟨⟩)

/-- Building on the chain of a binding ends if the building does. -/
theorem ends_onChain {b : Nat} {m : Build Value} (h : m.Ends) : (onChain b m).Ends := by
  rintro p ⟨text, span, q, hend⟩
  rw [Build.outcome_onChain] at hend
  rcases hout : m.outcome (p.enter b) with ⟨e | v, r⟩
  · rw [hout] at hend
    obtain rfl := Except.error.inj (Prod.mk.inj hend).1
    exact h (p.enter b) ⟨text, span, r, hout⟩
  · rw [hout] at hend
    cases hend

/-- The texts in data come to an end, whatever types are expected. -/
def EndsTexts (scene : Scene) (d : Data) : Prop :=
  ∀ text ∈ d.texts, ∀ t span, (scene.fitText text t span).Ends

/-- Steps that come to an end go over the same bindings. -/
theorem overBindings_ending (scene : Scene) : (ending scene).OverBindings id where
  slots := (List.map_id'' Slot.relocate_id scene.slots).symm
  get := .get
  states _ := rfl
  forcing _ := rfl
  useForced := ends_useForced scene
  onChain _ _ _ := ends_onChain

/-! ## Documents -/

/-- Building items ends if the texts of all bindings and values do. -/
theorem ends_buildItemsFrom (hfit : ∀ slot ∈ scene.slots, scene.EndsTexts slot.data) {items : List Item}
    (hitems : ∀ d, .value d ∈ items → scene.EndsTexts d) (next : Nat) : (scene.buildItemsFrom next items).Ends :=
  (overBindings_ending scene).buildItemsFrom hfit (List.forall₂_same.2 fun item _ => item.sameData_self) hitems next

/-- Building a document ends if the texts of all bindings and values do. -/
theorem ends_buildDocument (hfit : ∀ slot ∈ scene.slots, scene.EndsTexts slot.data) {items : List Item}
    (hitems : ∀ d, .value d ∈ items → scene.EndsTexts d) : (scene.buildDocument items).Ends := by
  refine .bind (ends_buildItemsFrom hfit hitems 0) fun vs => .bind .get fun p => ?_
  refine .bind (.ofExcept fun text span hend => ?_) fun _ => .pure _
  rcases error_of_runDeferred hend with hverdict | ⟨⟨_, _, ⟨⟩⟩, -⟩
  exact hverdict.ne_endless text span rfl

/-- The slots of a document do not fail for the depth. -/
theorem slotsOf_ne_endless (registry : Registry) (text : String) (span : Span) :
    (bindings : List Binding) → (seen : List String) →
      slotsOf registry seen bindings ≠ .error (.endless text span)
  | [], _ => by rintro ⟨⟩
  | binding :: bindings, seen => by
    have hslot : slotOf registry binding ≠ .error (.endless text span) := by
      unfold slotOf slotType
      cases binding.type with
      | none => rintro ⟨⟩
      | some type =>
        dsimp only
        cases registry.resolveType [] type <;> rintro ⟨⟩
    have hrest := slotsOf_ne_endless registry text span bindings (binding.name :: seen)
    intro hend
    rw [slotsOf_cons] at hend
    split at hend
    · cases hend
    · cases hof : slotOf registry binding with
      | error e =>
        rw [hof] at hend
        obtain rfl := Except.error.inj hend
        exact hslot hof
      | ok slot =>
        cases hslots : slotsOf registry (binding.name :: seen) bindings with
        | error e =>
          rw [hof, hslots] at hend
          obtain rfl := Except.error.inj hend
          exact hrest hslots
        | ok slots =>
          rw [hof, hslots] at hend
          cases hend

end Scene

namespace Document

variable {d : Document} {registry : Registry} {rules : List Rule} {rank : String → Nat} {depth : Nat}

/-- The texts in the data of a document. -/
def texts (d : Document) : List String :=
  d.bindings.flatMap (fun b => b.value.texts) ++ d.values.flatMap Data.texts

/-- A document is resolved within a bound if its texts come to an end within the bound. -/
theorem resolveWithin_ne_endless
    (hends : ∀ slots, Scene.slotsOf registry [] d.bindings = .ok slots → ∀ text ∈ d.texts, ∀ t span,
      ((⟨registry, rules, slots, depth⟩ : Scene).fitTextWithin depth text t span).Ends)
    (text : String) (span : Span) : d.resolveWithin registry rules depth ≠ .error (.endless text span) := by
  cases hslots : Scene.slotsOf registry [] d.bindings with
  | error e =>
    rw [resolveWithin_of_error hslots]
    rintro ⟨⟩
    exact Scene.slotsOf_ne_endless registry text span d.bindings [] hslots
  | ok slots =>
    have hfit : ∀ slot ∈ slots, Scene.EndsTexts ⟨registry, rules, slots, depth⟩ slot.data := by
      intro slot hslot text htext
      obtain ⟨-, -, hall⟩ := Scene.slotsOf_eq_ok_iff.1 hslots
      obtain ⟨b, hb, hof⟩ := exists_mem_of_forall₂ hall hslot
      rw [(Scene.slotOf_eq_ok_iff.1 hof).2.1] at htext
      exact hends slots hslots text (List.mem_append_left _ (List.mem_flatMap.2 ⟨b, hb, htext⟩))
    have hitems : ∀ data, .value data ∈ d.items → Scene.EndsTexts ⟨registry, rules, slots, depth⟩ data := by
      intro data hdata text htext
      have hmem : data ∈ d.values := List.mem_filterMap.2 ⟨_, hdata, rfl⟩
      exact hends slots hslots text (List.mem_append_right _ (List.mem_flatMap.2 ⟨data, hmem, htext⟩))
    intro hend
    rw [resolveWithin_of_ok hslots] at hend
    exact Scene.ends_buildDocument hfit hitems _ ⟨text, span, _, Prod.ext hend rfl⟩

/-- If a document is not cut short within a bound, it has the same result within every greater one. -/
theorem exists_result (hne : ∀ text span, d.resolveWithin registry rules depth ≠ .error (.endless text span)) :
    ∃ result : Except Failure Resolution, (∀ text span, result ≠ .error (.endless text span)) ∧
      ∀ bound, depth ≤ bound → d.resolveWithin registry rules bound = result := by
  refine ⟨_, hne, fun bound hbound => ?_⟩
  obtain ⟨more, rfl⟩ := Nat.exists_eq_add_of_le hbound
  rcases resolveWithin_add d registry rules depth more with ⟨text, span, hend⟩ | hsame
  · exact absurd hend (hne text span)
  · exact hsame

/-- **Rules that hand on something smaller come to an end.**  If every rule fills only fields whose types have
smaller ranks than its own type, a document has the same result within every bound that is above the ranks of its
rules, and this result is not that a text was taken apart too often.  If every rule hands on only what is for a type of
a smaller rank, or for one of no greater rank and shorter than the text, there is such a result within every bound
from some depth on. -/
theorem resolveWithin_of_descends (hdecls : Loaded.declarations d = .ok (registry, rules)) :
    (∀ rank depth, (∀ rule ∈ rules, rule.descends registry rank = true) →
      (∀ rule ∈ rules, rank rule.typeName ≤ depth) →
        ∃ result : Except Failure Resolution, (∀ text span, result ≠ .error (.endless text span)) ∧
          ∀ bound, depth < bound → d.resolveWithin registry rules bound = result) ∧
      ∀ rank, (∀ rule ∈ rules, rule.shortens registry rank = true) →
        ∃ (depth : Nat) (result : Except Failure Resolution),
          (∀ text span, result ≠ .error (.endless text span)) ∧
            ∀ bound, depth < bound → d.resolveWithin registry rules bound = result := by
  have hmade : ∀ rule ∈ rules, rule.Calls registry ∧ Segment.Regular rule.segments := by
    obtain ⟨_, hregistry, h⟩ := bind_eq_ok_iff.1 hdecls
    obtain ⟨_, hrules, h⟩ := bind_eq_ok_iff.1 h
    obtain ⟨rfl, rfl⟩ := Prod.mk.inj (Except.ok.inj h)
    intro rule hrule
    obtain ⟨index, decl, hof⟩ := Rule.exists_ofDecl_of_ofDeclsFrom (mapError_eq_ok_iff.1 hrules) rule hrule
    exact ⟨Rule.calls_of_ofDecl hof, Rule.regular_of_ofDecl hof⟩
  constructor
  · intro rank depth hdescends hdepth
    refine exists_result (resolveWithin_ne_endless fun slots _ text _ t span => ?_)
    have hdescending : Scene.Descending ⟨registry, rules, slots, depth + 1⟩ rank :=
      fun rule hrule => ⟨(hmade rule hrule).1, hdescends rule hrule⟩
    exact hdescending.ends_fitTextWithin hdepth text t span
  · intro rank hshortens
    have hdepth : ∃ depth, ∀ slots, Scene.slotsOf registry [] d.bindings = .ok slots → ∀ text ∈ d.texts, ∀ t span,
        ((⟨registry, rules, slots, 0⟩ : Scene).fitTextWithin depth text t span).Ends := by
      cases Scene.slotsOf registry [] d.bindings with
      | error e => exact ⟨0, by rintro _ ⟨⟩⟩
      | ok slots =>
        have hshortening : Scene.Shortening ⟨registry, rules, slots, 0⟩ rank :=
          fun rule hrule => ⟨(hmade rule hrule).1, (hmade rule hrule).2, hshortens rule hrule⟩
        obtain ⟨depth, hdepth⟩ := hshortening.exists_depth d.texts
        exact ⟨depth, fun slots' hslots => Except.ok.inj hslots ▸ hdepth⟩
    obtain ⟨depth, hdepth⟩ := hdepth
    have hends := exists_result (resolveWithin_ne_endless fun slots hslots text htext t span =>
      (hdepth slots hslots text htext t span).of_deepens (Scene.fits_deepening _ depth 0 text t span))
    obtain ⟨result, hne, hresult⟩ := hends
    exact ⟨depth, result, hne, fun bound hbound => hresult bound (Nat.le_of_lt hbound)⟩

/-- Two rules, of which the second makes a record of a text with a text for the first one in it. -/
def nesting : String :=
  "type inner = inner \x7bx: str\x7d\ntype outer = outer \x7bi: inner\x7d\n".append
    "\"<\x7bx\x7d>\" => inner(x: x)\n\"[\x7bi\x7d]\" => outer(i: i)\na: outer := \"[<b>]\"\n"

/-- The types of the two rules in their order. -/
def nestingRank (typeName : String) : Nat := if typeName = "outer" then 1 else 0

/-- A rule for a recursive type, which hands on the two sides of a pair, and one that fills the field of a
parameter. -/
def recursing : String :=
  "type t = leaf \x7bv: str\x7d | pair \x7bl: t, r: t\x7d\ntype b a = b \x7bx: a\x7d\n".append
    "\"(\x7bl\x7d+\x7br\x7d)\" => pair(l, r)\n\"\x7bv\x7d\" => leaf(v)\n\"[\x7bx\x7d]\" => b(x)\n" ++
    "a: b t := \"[((1+2)+3)]\"\n"

/-- A document with nested rules, and one with a rule for a recursive type, have results. -/
theorem resolveWithin_nesting :
    (∃ d registry rules, Document.read nesting = .ok d ∧
      Loaded.declarations d.canonical = .ok (registry, rules) ∧
      (∀ rule ∈ rules, rule.descends registry nestingRank = true) ∧
      (∀ rule ∈ rules, nestingRank rule.typeName ≤ 1) ∧
      ∃ result : Except Failure Resolution, (∀ text span, result ≠ .error (.endless text span)) ∧
        ∀ bound, 1 < bound → d.canonical.resolveWithin registry rules bound = result) ∧
    ∃ d registry rules, Document.read recursing = .ok d ∧
      Loaded.declarations d.canonical = .ok (registry, rules) ∧
      (∀ rule ∈ rules, rule.shortens registry (fun _ => 0) = true) ∧
      ∃ (depth : Nat) (result : Except Failure Resolution),
        (∀ text span, result ≠ .error (.endless text span)) ∧
          ∀ bound, depth < bound → d.canonical.resolveWithin registry rules bound = result := by
  constructor
  · have htest : (Document.read nesting).toOption.any (fun d =>
        (Loaded.declarations d.canonical).toOption.any fun found =>
          found.2.all (Rule.descends found.1 nestingRank) &&
            found.2.all fun rule => nestingRank rule.typeName ≤ 1) = true := by decide +kernel
    obtain ⟨d, hd, htest⟩ := exists_ok_of_any htest
    obtain ⟨⟨registry, rules⟩, hdecls, htest⟩ := exists_ok_of_any htest
    obtain ⟨hdescends, hdepth⟩ := Bool.and_eq_true_iff.1 htest
    have hdescends := List.all_eq_true.1 hdescends
    have hdepth : ∀ rule ∈ rules, nestingRank rule.typeName ≤ 1 :=
      fun rule hrule => of_decide_eq_true (List.all_eq_true.1 hdepth rule hrule)
    exact ⟨d, registry, rules, hd, hdecls, hdescends, hdepth,
      (resolveWithin_of_descends hdecls).1 nestingRank 1 hdescends hdepth⟩
  · have htest : (Document.read recursing).toOption.any (fun d =>
        (Loaded.declarations d.canonical).toOption.any fun found =>
          found.2.all (Rule.shortens found.1 fun _ => 0)) = true := by decide +kernel
    obtain ⟨d, hd, htest⟩ := exists_ok_of_any htest
    obtain ⟨⟨registry, rules⟩, hdecls, htest⟩ := exists_ok_of_any htest
    have hshortens := List.all_eq_true.1 htest
    exact ⟨d, registry, rules, hd, hdecls, hshortens,
      (resolveWithin_of_descends hdecls).2 (fun _ => 0) hshortens⟩

end Document

end TypedData
