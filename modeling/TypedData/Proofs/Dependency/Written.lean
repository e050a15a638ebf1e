import TypedData.Proofs.Simulation.Rebuilding

/-!
# The references in a value

A value holds no references but those that are written in its data: rules and conditions make none.  All
bindings that it refers to have been begun when it is built (`writes_buildSlot`).
-/

namespace TypedData

namespace Progress

variable {p q : Progress} {b c : Nat}

/-- The binding is in progress or finished. -/
def Begun (p : Progress) (b : Nat) : Prop := ∃ s, p.states[b]? = some s ∧ s ≠ .unresolved

/-- What was begun stays begun. -/
theorem Begun.mono (hb : p.Begun b) (h : p.Extends q) : q.Begun b := by
  obtain ⟨s, hs, hne⟩ := hb
  obtain ⟨t, ht, hst⟩ := h.states b s hs
  cases hst with
  | same => exact ⟨s, ht, hne⟩
  | finished => exact absurd rfl hne

/-- A binding that has a value has begun. -/
theorem begun_of_value? {v : Value} (h : p.value? b = some v) : p.Begun b :=
  ⟨_, value?_eq_some_iff.1 h, by rintro ⟨⟩⟩

/-- A binding that takes a later state does not make another one less begun. -/
theorem Begun.set {s : BindingState} (hc : p.Begun c) (hs : s ≠ .unresolved)
    (hq : q.states = p.states.set b s) : q.Begun c := by
  obtain ⟨t, ht, hne⟩ := hc
  rw [Begun, hq]
  by_cases hbc : b = c
  · subst hbc
    exact ⟨s, List.getElem?_set_self (List.getElem?_eq_some_iff.1 ht).1, hs⟩
  · exact ⟨t, (List.getElem?_set_ne hbc).trans ht, hne⟩

end Progress

namespace Scene

variable {scene : Scene} {p q : Progress} {references : List (String × List String)}

/-- Every reference in the value is one of these, and the binding that it names has been begun. -/
def Written (references : List (String × List String)) (p : Progress) (v : Value) : Prop :=
  ∀ r, Value.Part (.ref r) v → (r.name, r.path) ∈ references ∧ p.Begun r.binding

namespace Written

variable {v : Value} {items : List Value} {fields : List (Field Value)}

/-- What is written stays so when more references count and building goes on. -/
theorem mono {references' : List (String × List String)} (h : Written references p v)
    (hsub : references ⊆ references') (hpq : p.Extends q) : Written references' q v := by
  intro r hr
  obtain ⟨hmem, hbegun⟩ := h r hr
  exact ⟨hsub hmem, hbegun.mono hpq⟩

/-- What is written stays so when building goes on. -/
theorem later (h : Written references p v) (hpq : p.Extends q) : Written references q v :=
  h.mono (List.Subset.refl _) hpq

/-- A plain value has no references in it. -/
theorem of_plain (hv : v.Plain) : Written references p v := by
  intro r hr
  cases hv.part hr

/-- A list has only written references if its items have. -/
theorem list (h : ∀ v ∈ items, Written references p v) : Written references p (.list items) := by
  intro r hr
  cases hr with
  | item hv hpart => exact h _ hv r hpart

/-- A record has only written references if its fields have. -/
theorem record {typeName ctor : Option String}
    (h : ∀ f ∈ fields, Written references p f.value) :
    Written references p (.record typeName ctor fields) := by
  intro r hr
  cases hr with
  | field hf hpart => exact h _ hf r hpart

end Written

/-- The step builds values with these references. -/
def Writes (scene : Scene) (references : List (String × List String)) (m : Build Value) : Prop :=
  ∀ p, scene.Ensures p m fun v q => Written references q v

/-- The steps build values with these references, whatever type is expected. -/
def WritesAll (scene : Scene) (references : List (String × List String)) (args : List BuildArgument) :
    Prop :=
  ∀ arg ∈ args, ∀ t, scene.Writes references (arg.value t)

namespace Writes

variable {references' : List (String × List String)} {m : Build Value}

/-- A failure writes nothing. -/
theorem failure {e : Failure} : scene.Writes references (throw e) := fun _ => .throw

/-- A plain value may be given whatever is written. -/
theorem plain {v : Value} (hv : v.Plain) : scene.Writes references (pure v) :=
  fun _ => .pure (.of_plain hv)

/-- What writes some references writes them among more. -/
theorem mono (h : scene.Writes references m) (hsub : references ⊆ references') :
    scene.Writes references' m :=
  fun p => (h p).imp fun _ _ _ hv => hv.mono hsub (.refl _)

end Writes

/-- Arguments that write some references write them among more. -/
theorem WritesAll.mono {references' : List (String × List String)} {args : List BuildArgument}
    (h : scene.WritesAll references args) (hsub : references ⊆ references') :
    scene.WritesAll references' args :=
  fun arg harg t => (h arg harg t).mono hsub

/-! ## Records -/

/-- A field has only references that its argument writes. -/
theorem written_buildField {ctor : Constructor} {span : Span} {index : Nat} {name : Option String}
    {type : Ty} {arg : Option (Ty → Build Value)}
    (harg : ∀ build, arg = some build → ∀ t, scene.Writes references (build t)) :
    scene.Ensures p (buildField ctor span index name type arg) fun f q =>
      Written references q f.value := by
  unfold buildField
  split
  · rename_i build
    exact (harg build rfl type p).bind fun v q _ hv => .pure hv
  · split
    · exact .pure (.of_plain .null)
    · exact .throw

/-- Fields have only references that their arguments write. -/
theorem written_buildFields {ctor : Constructor} {span : Span} : (names : List (Option String)) →
    (types : List Ty) → (args : List (Option (Ty → Build Value))) → {index : Nat} →
    {p : Progress} → (∀ build, some build ∈ args → ∀ t, scene.Writes references (build t)) →
    scene.Ensures p (buildFields ctor span index names types args) fun fields q =>
      ∀ f ∈ fields, Written references q f.value
  | name :: names, type :: types, arg :: args, index, p, h => by
    rw [buildFields]
    refine (written_buildField fun build hbuild => h build (hbuild ▸ .head _)).bind
      fun field q _ hfield => ?_
    refine (written_buildFields names types args fun build hbuild => h build (.tail _ hbuild)).bind
      fun fields r hqr hfields => .pure ?_
    exact List.forall_mem_cons.2 ⟨hfield.later hqr, hfields⟩
  | [], _, _, _, _, _ | _ :: _, [], _, _, _, _ | _ :: _, _ :: _, [], _, _, _ => by
    simp only [buildFields]
    exact .pure (List.forall_mem_nil _)

/-- A record of a constructor has only references that the arguments write. -/
theorem writes_construct {ctorName : String} {args : List BuildArgument} {t : Ty} {span : Span}
    (hargs : scene.WritesAll references args) :
    scene.Writes references (scene.construct ctorName args t span) := by
  intro p
  rw [construct_eq]
  split
  · exact .throw
  · rename_i ctor _
    refine ensures_typeArguments.bind fun typeArgs _ _ _ => ?_
    split
    · exact .throw
    · rename_i placed hplaced
      have hwrites := (Constructor.place_ok
        (P := fun build : Ty → Build Value => ∀ t, scene.Writes references (build t)) hargs hplaced).1
      refine (written_buildFields _ _ placed hwrites).bind fun fields _ _ hfields => ?_
      refine (ensures_settleConditions ctor fields span).bind fun _ _ hext _ => .pure ?_
      exact .record fun f hf => (hfields f hf).later hext

/-! ## Texts -/

section Texts

variable {fitText : String → Ty → Span → Build Value}

/-- Values that are built one after another have only the references that are written. -/
theorem written_mapM {α : Type} {f : α → Build Value} : {as : List α} → {p : Progress} →
    (∀ a ∈ as, scene.Writes references (f a)) →
    scene.Ensures p (as.mapM f) fun vs q => ∀ v ∈ vs, Written references q v
  | [], p, _ => by
    rw [List.mapM_nil]
    exact .pure (List.forall_mem_nil _)
  | a :: as, p, h => by
    obtain ⟨ha, has⟩ := List.forall_mem_cons.1 h
    rw [List.mapM_cons]
    refine (ha p).bind fun v q _ hv => ?_
    refine (written_mapM has).bind fun vs r hqr hvs => .pure ?_
    exact List.forall_mem_cons.2 ⟨hv.later hqr, hvs⟩

/-- A plain value that is fitted to a type has no references, if texts have none. -/
theorem writes_coerce (hfit : ∀ text t span, scene.Writes references (fitText text t span))
    (span : Span) : (t : Ty) → {v : Value} → v.Plain →
      scene.Writes references (t.coerce fitText span v)
  | .prim .any, _, hv | .param _, _, hv => .plain hv
  | .prim .int, _, hv => by
    cases hv with
    | int n => exact .plain (.int n)
    | _ => exact .failure
  | .prim .float, _, hv => by
    cases hv with
    | int | float => exact .plain (.float _)
    | _ => exact .failure
  | .prim .str, _, hv => by
    cases hv with
    | str text => exact .plain (.str text)
    | _ => exact .failure
  | .prim .bool, _, hv => by
    cases hv with
    | bool b => exact .plain (.bool b)
    | _ => exact .failure
  | .named name args, _, hv => by
    cases hv with
    | str text => exact hfit text (.named name args) span
    | _ => exact .failure
  | .optional inner, _, hv => by
    have ih := writes_coerce hfit span inner hv
    cases hv with
    | null => exact .plain .null
    | _ => exact ih
  | .list inner, _, hv => by
    cases hv with
    | list hitems =>
      intro p
      refine (written_mapM fun v hv => ?_).bind fun vs q _ hvs => .pure (.list hvs)
      exact writes_coerce hfit span inner (hitems v hv)
    | _ => exact .failure

/-- A target that is evaluated has no references, if texts have none. -/
theorem writes_evaluateTarget (hfit : ∀ text t span, scene.Writes references (fitText text t span))
    (captures : Captures) (span : Span) (target : Expr) (t : Ty) :
    scene.Writes references (evaluateTarget fitText captures span target t) := by
  unfold evaluateTarget
  split
  · rename_i v hv
    have hplain := target.plain_eval (Rule.plain_environment captures) v hv
    exact writes_coerce hfit span t hplain.toValue
  · exact .failure

mutual

/-- A target has no references, if texts have none. -/
theorem writes_buildTarget (hfit : ∀ text t span, scene.Writes references (fitText text t span))
    (captures : Captures) (span : Span) : (target : Expr) → (t : Ty) →
      scene.Writes references (scene.buildTarget fitText captures span target t)
  | .call callSpan name args, t => by
    rw [buildTarget]
    split
    · exact writes_construct (writes_targetArguments hfit captures span args)
    · exact writes_evaluateTarget hfit captures span _ t
  | .name nameSpan name, t => by
    rw [buildTarget]
    split
    · exact writes_construct (List.forall_mem_nil _)
    · exact writes_evaluateTarget hfit captures span _ t
  | .int _ _, t | .float _ _, t | .str _ _, t | .bool _ _, t | .null _, t | .list _ _, t
  | .field _ _ _, t | .unary _ _ _, t | .binary _ _ _ _, t => by
    simp only [buildTarget]
    exact writes_evaluateTarget hfit captures span _ t

/-- Arguments of targets have no references, if texts have none. -/
theorem writes_targetArguments
    (hfit : ∀ text t span, scene.Writes references (fitText text t span)) (captures : Captures)
    (span : Span) : (args : List (Argument Expr)) →
      scene.WritesAll references (scene.targetArguments fitText captures span args)
  | [] => List.forall_mem_nil _
  | ⟨name, e⟩ :: args => by
    rw [targetArguments]
    exact List.forall_mem_cons.2
      ⟨writes_buildTarget hfit captures span e, writes_targetArguments hfit captures span args⟩

end

end Texts

/-- What a text stands for holds no references. -/
theorem writes_fitTextWithin (depth : Nat) (text : String) (t : Ty) (span : Span) :
    scene.Writes [] (scene.fitTextWithin depth text t span) := by
  induction depth generalizing text t span with
  | zero => exact .failure
  | succ depth ih =>
    rw [fitTextWithin]
    split
    · exact .plain (.str text)
    · split
      · exact writes_buildTarget ih _ span _ _
      · exact .failure
    · split
      · exact writes_buildTarget ih _ span _ _
      · exact .plain (.str text)
    · split
      · exact writes_buildTarget ih _ span _ _
      · exact .plain (.str text)
    · exact .failure

/-- What a text is taken apart into has no references. -/
theorem writes_fitText (text : String) (t : Ty) (span : Span) :
    scene.Writes references (scene.fitText text t span) :=
  (writes_fitTextWithin scene.textDepth text t span).mono (List.nil_subset _)

/-! ## Data -/

/-- Forcing a binding begins it. -/
def Begins (scene : Scene) (force : Nat → Build Unit) : Prop :=
  ∀ name b, scene.indexOf? name = some b → ∀ p, scene.Ensures p (force b) fun _ q => q.Begun b

section Data

variable {force : Nat → Build Unit}

/-- A reference is the one that is written, to a binding that has begun. -/
theorem writes_buildReference (hforce : scene.Begins force) (name : String) (path : List String)
    (span : Span) (t : Ty) (whole : Bool) :
    scene.Writes [(name, path)] (scene.buildReference force name path span t whole) := by
  intro p
  rw [buildReference_eq]
  split
  · exact .throw
  · rename_i b hb
    have huse : scene.Ensures p (scene.useBinding force b name path span t.peeled whole)
        fun _ q => q.Begun b := by
      refine (hforce name b hb p).bind fun _ q _ hbegun => ?_
      refine Ensures.imp (Q := fun _ _ => True) ?_ fun _ _ hext _ => hbegun.mono hext
      refine .get_bind ?_
      split
      · exact ensures_useUnfinished.imp fun _ _ _ _ => trivial
      · exact ensures_useFinished.imp fun _ _ _ _ => trivial
      · exact .throw
    refine huse.bind fun _ q _ hbegun => .pure fun r hr => ?_
    cases hr with
    | self => exact ⟨.head _, hbegun⟩

/-- A list has only references that its items write. -/
theorem writes_buildList {items : Ty → Build (List Value)} {t : Ty} {span : Span}
    (h : ∀ t p, scene.Ensures p (items t) fun vs q => ∀ v ∈ vs, Written references q v) :
    scene.Writes references (buildList items t span) := by
  intro p
  unfold buildList
  split
  · rename_i item _
    exact (h item p).bind fun vs q _ hvs => .pure (.list hvs)
  · exact .throw

/-- A record has only references that its arguments or its fields write. -/
theorem writes_buildRecord {args : List BuildArgument}
    {tagged : Option (String × List BuildArgument)} {fields : Build (List (Field Value))} {t : Ty}
    {span : Span} (hargs : scene.WritesAll references args)
    (htagged : ∀ key inner, tagged = some (key, inner) → scene.WritesAll references inner)
    (hfields : ∀ p, scene.Ensures p fields fun fields q => ∀ f ∈ fields,
      Written references q f.value) :
    scene.Writes references (scene.buildRecord args tagged fields t span) := by
  have huntyped : scene.Writes references (do return .record none none (← fields)) :=
    fun p => (hfields p).bind fun _ _ _ h => .pure (.record h)
  unfold buildRecord
  split
  · split
    · exact writes_construct hargs
    · split
      · split
        · exact writes_construct (htagged _ _ rfl)
        · exact .failure
      · exact .failure
  · exact huntyped
  · exact huntyped
  · exact .failure

mutual

/-- **A value holds no references but those in its data.** -/
theorem writes_buildData (hforce : scene.Begins force) : (d : Data) → (t : Ty) →
    scene.Writes d.references (buildData scene force d t)
  | .null span, t => by
    rw [buildData]
    split
    · exact .plain .null
    · exact .failure
  | .bool span b, t => writes_coerce writes_fitText span t.required (.bool b)
  | .int span n, t => writes_coerce writes_fitText span t.required (.int n)
  | .float span x, t => writes_coerce writes_fitText span t.required (.float x)
  | .str span text, t => writes_fitText text t span
  | .list span items, t | .dashList span items, t =>
    writes_buildList (written_buildItems hforce items)
  | .call span ctor args, t => writes_construct (writes_dataArguments hforce args)
  | .ctorBlock span ctor entries, t => writes_construct (writes_entryArguments hforce entries)
  | .listBlock span ctor items, t => by
    rw [buildData]
    exact writes_construct
      (List.forall_mem_singleton.2 fun item => writes_buildList (written_buildItems hforce items))
  | .record span entries, t | .fieldBlock span entries, t | .dashRecord span entries, t =>
    writes_buildRecord (writes_entryArguments hforce entries) (writes_taggedArguments hforce entries)
      (written_untypedFields hforce [] entries)
  | .reference span name path, t =>
    writes_buildReference hforce name path span t.required false

/-- The items of a list have only the references in them. -/
theorem written_buildItems (hforce : scene.Begins force) : (items : List Data) → (t : Ty) →
    (p : Progress) → scene.Ensures p (buildItems scene force items t) fun vs q =>
      ∀ v ∈ vs, Written (Data.referencesOfItems items) q v
  | [], t, p => .pure (List.forall_mem_nil _)
  | d :: ds, t, p => by
    rw [buildItems, Data.referencesOfItems]
    refine (writes_buildData hforce d t p).bind fun v q _ hv => ?_
    refine (written_buildItems hforce ds t q).bind fun vs r hqr hvs => .pure ?_
    refine List.forall_mem_cons.2 ⟨hv.mono (List.subset_append_left ..) hqr, fun w hw => ?_⟩
    exact (hvs w hw).mono (List.subset_append_right ..) (.refl r)

/-- Arguments write only the references in them. -/
theorem writes_dataArguments (hforce : scene.Begins force) : (args : List (Argument Data)) →
    scene.WritesAll (Data.referencesOfArguments args) (dataArguments scene force args)
  | [] => List.forall_mem_nil _
  | ⟨name, d⟩ :: args => by
    rw [dataArguments, Data.referencesOfArguments]
    refine List.forall_mem_cons.2 ⟨fun t => ?_, ?_⟩
    · exact (writes_buildData hforce d t).mono (List.subset_append_left ..)
    · exact (writes_dataArguments hforce args).mono (List.subset_append_right ..)

/-- Entries, read as arguments, write only the references in them. -/
theorem writes_entryArguments (hforce : scene.Begins force) : (entries : List (Entry Data)) →
    scene.WritesAll (Data.referencesOfEntries entries) (entryArguments scene force entries)
  | [] => List.forall_mem_nil _
  | ⟨key, _, d⟩ :: entries => by
    rw [entryArguments, Data.referencesOfEntries]
    refine List.forall_mem_cons.2 ⟨fun t => ?_, ?_⟩
    · exact (writes_buildData hforce d t).mono (List.subset_append_left ..)
    · exact (writes_entryArguments hforce entries).mono (List.subset_append_right ..)

/-- The entries of a tagged record write only the references in them. -/
theorem writes_taggedArguments (hforce : scene.Begins force) : (entries : List (Entry Data)) →
    ∀ key inner, taggedArguments scene force entries = some (key, inner) →
      scene.WritesAll (Data.referencesOfEntries entries) inner
  | [⟨_, _, d⟩], key, inner, h => by
    rw [taggedArguments] at h
    obtain ⟨args, hargs, hinner⟩ := Option.map_eq_some_iff.1 h
    obtain ⟨-, rfl⟩ := Prod.mk.inj hinner
    exact (writes_recordArguments hforce d args hargs).mono (List.subset_append_left ..)
  | [], _, _, h | _ :: _ :: _, _, _, h => by
    simp only [taggedArguments] at h
    cases h

/-- The entries of a record inside another one write only the references in it. -/
theorem writes_recordArguments (hforce : scene.Begins force) : (d : Data) →
    ∀ args, recordArguments scene force d = some args → scene.WritesAll d.references args
  | .record _ entries, _, h | .fieldBlock _ entries, _, h | .dashRecord _ entries, _, h => by
    obtain rfl := Option.some.inj h
    exact writes_entryArguments hforce entries
  | .str .., _, h | .int .., _, h | .float .., _, h | .bool .., _, h | .null .., _, h
  | .list .., _, h | .call .., _, h | .reference .., _, h | .ctorBlock .., _, h
  | .listBlock .., _, h | .dashList .., _, h => by
    simp only [recordArguments] at h
    cases h

/-- The fields of a record without a type have only the references in its entries. -/
theorem written_untypedFields (hforce : scene.Begins force) (seen : List String) :
    (entries : List (Entry Data)) → (p : Progress) →
      scene.Ensures p (untypedFields scene force seen entries) fun fields q =>
        ∀ f ∈ fields, Written (Data.referencesOfEntries entries) q f.value
  | [], p => .pure (List.forall_mem_nil _)
  | ⟨key, span, d⟩ :: entries, p => by
    rw [untypedFields, Data.referencesOfEntries]
    dsimp only
    split
    · exact .throw_bind
    · refine (writes_buildData hforce d .any p).bind fun v q _ hv => ?_
      refine (written_untypedFields hforce (key :: seen) entries q).bind fun fields r hqr hfields =>
        .pure ?_
      refine List.forall_mem_cons.2 ⟨hv.mono (List.subset_append_left ..) hqr, fun f hf => ?_⟩
      exact (hfields f hf).mono (List.subset_append_right ..) (.refl r)

end

/-- **A binding refers to nothing but what is written in its data.** -/
theorem writes_buildSlot (hforce : scene.Begins force) (slot : Slot) :
    scene.Writes slot.data.references (scene.buildSlot force slot) := by
  unfold buildSlot
  split
  · rename_i hdata
    rw [hdata]
    exact writes_buildReference hforce _ _ _ slot.type true
  · exact writes_buildData hforce slot.data slot.type

end Data

/-! ## Forcing -/

/-- A binding that has been forced has begun. -/
theorem begins_forceWithin (depth : Nat) : scene.Begins (scene.forceWithin depth) := by
  intro name b hb p hp u q hq
  obtain ⟨hq', hext, hforced⟩ := ensures_forceWithin depth b p hp u q hq
  refine ⟨hq', hext, ?_⟩
  obtain ⟨slot, hslot, -⟩ := slot_of_indexOf? hb
  have hlt : b < p.states.length := hp.length ▸ (List.getElem?_eq_some_iff.1 hslot).1
  by_cases hstate : p.states[b]? = some .unresolved
  · obtain ⟨v, hv⟩ := hforced hstate
    exact Progress.begun_of_value? hv
  · have hbegun : p.Begun b :=
      ⟨_, List.getElem?_eq_getElem hlt, fun h => hstate (h ▸ List.getElem?_eq_getElem hlt)⟩
    exact hbegun.mono hext

end Scene

end TypedData
