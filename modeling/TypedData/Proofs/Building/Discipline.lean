import TypedData.Proofs.Building.Position
import TypedData.Proofs.Condition.Plain
import TypedData.Proofs.Simulation.Record

/-!
# What all building keeps

All building but that of references, and the checking of conditions, is put together from steps that neither
look at the progress nor change it.  So a property of steps that is kept when they are put together
(`Discipline`) holds of all building, if it holds of these two (`Discipline.buildData`).

References may be treated by the type that is expected where they stand.  What is known about the values
that are built, `Fine`, has to hold of plain values, and of lists and records of values that it holds of.
-/

namespace TypedData

/-- A property of the steps of building. -/
structure Discipline (scene : Scene) where
  /-- The step keeps to the discipline, and what it gives has a property. -/
  Keeps : {α : Type} → Build α → (α → Prop) → Prop
  /-- What is known about values. -/
  Fine : Value → Prop
  plain : ∀ {v}, v.Plain → Fine v
  list : ∀ {items}, (∀ v ∈ items, Fine v) → Fine (.list items)
  record : ∀ {typeName ctor fields}, (∀ f ∈ fields, Fine f.value) → Fine (.record typeName ctor fields)
  pure : ∀ {α : Type} {P : α → Prop} {a : α}, P a → Keeps (Pure.pure a) P
  throw : ∀ {α : Type} {P : α → Prop} {e : Failure}, (∀ problem, e ≠ .reference problem) →
    Keeps (MonadExcept.throw e) P
  bind : ∀ {α β : Type} {P : α → Prop} {Q : β → Prop} {m : Build α} {k : α → Build β},
    Keeps m P → (∀ a, P a → Keeps (k a) Q) → Keeps (m >>= k) Q
  conditions : ∀ (ctor : String) {fields : List (Field Value)} (span : Span),
    (∀ f ∈ fields, Fine f.value) → Keeps (scene.settleConditions ctor fields span) fun _ => True

namespace Discipline

variable {scene : Scene} (disc : Discipline scene)

/-- A failure because of a type keeps everything. -/
theorem typeFailure {α : Type} {P : α → Prop} (problem : TypeProblem) (span : Span) :
    disc.Keeps (Build.typeFailure problem span) P := disc.throw (by rintro _ ⟨⟩)

/-- The step builds a value. -/
abbrev Builds (m : Build Value) : Prop := disc.Keeps m disc.Fine

/-! ## Records -/

/-- The arguments of a type are those at which the constructor builds its record. -/
theorem typeArguments (ctor : Constructor) (t : Ty) (span : Span) :
    disc.Keeps (Scene.typeArguments ctor t span) fun args => ctor.typeArguments? t = some args := by
  unfold Scene.typeArguments
  split
  · split
    · rename_i hname
      exact disc.pure (by rw [Constructor.typeArguments?, if_pos hname])
    · exact disc.typeFailure _ span
  · exact disc.pure rfl
  · exact disc.pure rfl
  · exact disc.typeFailure _ span

/-- Fields are fine if each argument builds what is fine for the type of its field. -/
theorem buildFields (ctor : Constructor) (span : Span) : (names : List (Option String)) →
    (types : List Ty) → (args : List (Option (Ty → Build Value))) → (index : Nat) →
    (∀ type build, (type, some build) ∈ types.zip args → disc.Builds (build type)) →
    disc.Keeps (Scene.buildFields ctor span index names types args)
      fun fields => ∀ f ∈ fields, disc.Fine f.value
  | name :: names, type :: types, arg :: args, index, h => by
    have hfield : disc.Keeps (Scene.buildField ctor span index name type arg)
        fun field => disc.Fine field.value := by
      unfold Scene.buildField
      split
      · exact disc.bind (h type _ (.head _)) fun v hv => disc.pure hv
      · split
        · exact disc.pure (disc.plain .null)
        · exact disc.typeFailure _ span
    have hrest := buildFields ctor span names types args (index + 1)
      fun type build hmem => h type build (.tail _ hmem)
    rw [Scene.buildFields]
    exact disc.bind hfield fun field hfine => disc.bind hrest fun fields hfines =>
      disc.pure (List.forall_mem_cons.2 ⟨hfine, hfines⟩)
  | [], _, _, _, _ | _ :: _, [], _, _, _ | _ :: _, _ :: _, [], _, _ => by
    simp only [Scene.buildFields]
    exact disc.pure (List.forall_mem_nil _)

/-- **A record is built if its arguments are,** each where the type of its field is expected. -/
theorem construct {α : Type} (build : α → Ty → Build Value) {ctorName : String}
    (args : List (Argument α)) {t : Ty}
    (h : ∀ a u, (a, u) ∈ scene.registry.fitted ctorName args t → disc.Builds (build a u))
    (span : Span) :
    disc.Builds (scene.construct ctorName (args.map (Argument.map build)) t span) := by
  rw [Scene.construct_eq]
  unfold Registry.fitted at h
  cases hctor : scene.registry.constructor? ctorName with
  | none => exact disc.typeFailure _ span
  | some ctor =>
    rw [hctor] at h
    refine disc.bind (disc.typeArguments ctor t span) fun typeArgs hargs => ?_
    rw [Constructor.place_map]
    cases hplaced : ctor.place args with
    | error problem => exact disc.typeFailure _ span
    | ok placed =>
      dsimp only at h
      rw [hargs, hplaced] at h
      have hbuild : ∀ type step, (type, some step) ∈ (scene.registry.fieldTypes ctor typeArgs).zip
          (placed.map (Option.map build)) → disc.Builds (step type) := by
        intro type step hmem
        rw [List.zip_map_right] at hmem
        obtain ⟨⟨type', arg⟩, hplace, hpair⟩ := List.mem_map.1 hmem
        obtain ⟨rfl, harg⟩ := Prod.mk.inj hpair
        obtain ⟨a, rfl, rfl⟩ := Option.map_eq_some_iff.1 harg
        exact h a _ (List.mem_filterMap.2 ⟨_, hplace, rfl⟩)
      exact disc.bind (disc.buildFields ctor span _ _ _ 0 hbuild) fun fields hfields =>
        disc.bind (disc.conditions ctor.name span hfields) fun _ _ => disc.pure (disc.record hfields)

/-! ## Texts -/

section Texts

variable {fitText : String → Ty → Span → Build Value}

/-- Values are fitted one after another, and all are fine. -/
theorem mapM {k : Value → Build Value} : (vs : List Value) → (∀ v ∈ vs, disc.Builds (k v)) →
    disc.Keeps (vs.mapM k) fun ws => ∀ w ∈ ws, disc.Fine w
  | [], _ => by
    rw [List.mapM_nil]
    exact disc.pure (List.forall_mem_nil _)
  | v :: vs, h => by
    obtain ⟨hv, hvs⟩ := List.forall_mem_cons.1 h
    rw [List.mapM_cons]
    exact disc.bind hv fun w hw => disc.bind (mapM vs hvs) fun ws hws =>
      disc.pure (List.forall_mem_cons.2 ⟨hw, hws⟩)

/-- A plain value that is fitted to a type is fine, if the texts taken apart on the way are. -/
theorem coerce (hfit : ∀ text t span, disc.Builds (fitText text t span)) (span : Span) :
    (t : Ty) → {v : Value} → v.Plain → disc.Builds (t.coerce fitText span v)
  | .prim .any, _, hv | .param _, _, hv => disc.pure (disc.plain hv)
  | .prim .int, _, hv => by
    cases hv with
    | int n => exact disc.pure (disc.plain (.int n))
    | _ => exact disc.typeFailure _ span
  | .prim .float, _, hv => by
    cases hv with
    | int | float => exact disc.pure (disc.plain (.float _))
    | _ => exact disc.typeFailure _ span
  | .prim .str, _, hv => by
    cases hv with
    | str text => exact disc.pure (disc.plain (.str text))
    | _ => exact disc.typeFailure _ span
  | .prim .bool, _, hv => by
    cases hv with
    | bool b => exact disc.pure (disc.plain (.bool b))
    | _ => exact disc.typeFailure _ span
  | .named name args, _, hv => by
    cases hv with
    | str text => exact hfit text (.named name args) span
    | _ => exact disc.typeFailure _ span
  | .optional inner, _, hv => by
    have ih := coerce hfit span inner hv
    cases hv with
    | null => exact disc.pure (disc.plain .null)
    | _ => exact ih
  | .list inner, _, hv => by
    cases hv with
    | list hitems =>
      refine disc.bind (disc.mapM _ fun v hv => ?_) fun vs hvs => disc.pure (disc.list hvs)
      exact coerce hfit span inner (hitems v hv)
    | _ => exact disc.typeFailure _ span

/-- A target that is evaluated gives a fine value, if the texts taken apart on the way are. -/
theorem evaluateTarget (hfit : ∀ text t span, disc.Builds (fitText text t span))
    (captures : Captures) (span : Span) (target : Expr) (t : Ty) :
    disc.Builds (Scene.evaluateTarget fitText captures span target t) := by
  unfold Scene.evaluateTarget
  split
  · rename_i v hv
    have hplain := target.plain_eval (Rule.plain_environment captures) v hv
    exact disc.coerce hfit span t hplain.toValue
  · exact disc.throw (by rintro _ ⟨⟩)

mutual

/-- A target gives a fine value, if the texts taken apart on the way are. -/
theorem buildTarget (hfit : ∀ text t span, disc.Builds (fitText text t span)) (captures : Captures)
    (span : Span) : (target : Expr) → (t : Ty) →
      disc.Builds (scene.buildTarget fitText captures span target t)
  | .call callSpan name args, t => by
    rw [Scene.buildTarget]
    split
    · rw [Scene.targetArguments_eq_map]
      refine disc.construct _ args (fun e u hmem => ?_) span
      obtain ⟨arg, harg, rfl⟩ := Registry.mem_of_fitted hmem
      exact targetArguments hfit captures span args arg harg u
    · exact disc.evaluateTarget hfit captures span _ t
  | .name nameSpan name, t => by
    rw [Scene.buildTarget]
    split
    · refine disc.construct (scene.buildTarget fitText captures span) [] (fun e u hmem => ?_) span
      obtain ⟨arg, harg, -⟩ := Registry.mem_of_fitted hmem
      cases harg
    · exact disc.evaluateTarget hfit captures span _ t
  | .int _ _, t | .float _ _, t | .str _ _, t | .bool _ _, t | .null _, t | .list _ _, t
  | .field _ _ _, t | .unary _ _ _, t | .binary _ _ _ _, t => by
    simp only [Scene.buildTarget]
    exact disc.evaluateTarget hfit captures span _ t

/-- The arguments of a target give fine values, if the texts taken apart on the way are. -/
theorem targetArguments (hfit : ∀ text t span, disc.Builds (fitText text t span))
    (captures : Captures) (span : Span) : (args : List (Argument Expr)) → ∀ arg ∈ args, ∀ t : Ty,
      disc.Builds (scene.buildTarget fitText captures span arg.value t)
  | [] => List.forall_mem_nil _
  | ⟨_, e⟩ :: args => List.forall_mem_cons.2
    ⟨buildTarget hfit captures span e, targetArguments hfit captures span args⟩

end

end Texts

/-- **Whatever a text stands for, it is built.** -/
theorem fitTextWithin (depth : Nat) (text : String) (t : Ty) (span : Span) :
    disc.Builds (scene.fitTextWithin depth text t span) := by
  induction depth generalizing text t span with
  | zero => exact disc.throw (by rintro _ ⟨⟩)
  | succ depth ih =>
    rw [Scene.fitTextWithin]
    split
    · exact disc.pure (disc.plain (.str text))
    · split
      · exact disc.buildTarget ih _ span _ _
      · exact disc.typeFailure _ span
    · split
      · exact disc.buildTarget ih _ span _ _
      · exact disc.pure (disc.plain (.str text))
    · split
      · exact disc.buildTarget ih _ span _ _
      · exact disc.pure (disc.plain (.str text))
    · exact disc.typeFailure _ span

/-! ## Data -/

/-- The references in data are built, where a type is expected of the data. -/
def Refers (force : Nat → Build Unit) (d : Data) (t : Ty) : Prop :=
  ∀ span name path u, d.Stands scene.registry t (.reference span name path) u →
    disc.Builds (scene.buildReference force name path span u.required false)

section Data

variable {disc} {force : Nat → Build Unit}

/-- References that are fine in data are fine in its parts. -/
theorem Refers.part {d e : Data} {t u : Ty} (h : disc.Refers force d t)
    (hpart : (e, u) ∈ d.parts scene.registry t) : disc.Refers force e u :=
  fun span name path s hstands => h span name path s (.part hpart hstands)

/-- A list of fine items is fine. -/
theorem buildList {items : Ty → Build (List Value)} {t : Ty}
    (h : ∀ item, t.item? = some item → disc.Keeps (items item) fun vs => ∀ v ∈ vs, disc.Fine v)
    (span : Span) : disc.Builds (Scene.buildList items t span) := by
  unfold Scene.buildList
  split
  · rename_i item hitem
    exact disc.bind (h item hitem) fun vs hvs => disc.pure (disc.list hvs)
  · exact disc.typeFailure _ span

/-- The arguments that data is given for are built from the data. -/
theorem dataArguments_eq_map (force : Nat → Build Unit) (args : List (Argument Data)) :
    Scene.dataArguments scene force args = args.map (Argument.map (Scene.buildData scene force)) := by
  induction args with
  | nil => rfl
  | cons arg args ih => exact congrArg _ ih

/-- The entries of a record are arguments that are named by their keys. -/
theorem entryArguments_eq_map (force : Nat → Build Unit) (entries : List (Entry Data)) :
    Scene.entryArguments scene force entries =
      (entries.map Entry.argument).map (Argument.map (Scene.buildData scene force)) := by
  induction entries with
  | nil => rfl
  | cons entry entries ih => exact congrArg _ ih

/-- The entries of a record inside another one are arguments that are named by their keys. -/
theorem recordArguments_eq_map (force : Nat → Build Unit) (d : Data) :
    Scene.recordArguments scene force d = d.entries?.map fun inner =>
      (inner.map Entry.argument).map (Argument.map (Scene.buildData scene force)) := by
  cases d with
  | record | fieldBlock | dashRecord => exact congrArg some (entryArguments_eq_map force _)
  | _ => rfl

/-- The fields of a record without a type are fine if each entry is, built for any type. -/
theorem untypedFields {entries : List (Entry Data)}
    (h : ∀ entry ∈ entries, disc.Builds (Scene.buildData scene force entry.value .any)) :
    (seen : List String) → disc.Keeps (Scene.untypedFields scene force seen entries)
      fun fields => ∀ f ∈ fields, disc.Fine f.value := by
  induction entries with
  | nil => exact fun _ => disc.pure (List.forall_mem_nil _)
  | cons entry entries ih =>
    intro seen
    obtain ⟨key, span, d⟩ := entry
    obtain ⟨hd, hentries⟩ := List.forall_mem_cons.1 h
    have hrest := ih hentries (key :: seen)
    rw [Scene.untypedFields]
    dsimp only
    split
    · exact disc.bind (P := fun _ => True) (disc.typeFailure _ span) fun _ _ =>
        disc.bind hd fun v hv => disc.bind hrest fun fields hfields =>
          disc.pure (List.forall_mem_cons.2 ⟨hv, hfields⟩)
    · exact disc.bind hd fun v hv => disc.bind hrest fun fields hfields =>
        disc.pure (List.forall_mem_cons.2 ⟨hv, hfields⟩)

/-- **A record is fine** if every part of it is, at each type that the record may give it: that of a field of its sole
constructor, of a tagged one, or any. -/
theorem buildRecord {entries : List (Entry Data)} {t : Ty}
    (h : ∀ e u, (e, u) ∈ Data.partsOfEntries scene.registry entries t →
      disc.Builds (Scene.buildData scene force e u)) (span : Span) :
    disc.Builds (scene.buildRecord (Scene.entryArguments scene force entries)
      (Scene.taggedArguments scene force entries) (Scene.untypedFields scene force [] entries) t
      span) := by
  have huntyped (hany : ∀ entry ∈ entries, disc.Builds (Scene.buildData scene force entry.value .any)) :
      disc.Builds (do return .record none none (← Scene.untypedFields scene force [] entries)) :=
    disc.bind (untypedFields hany []) fun fields hfields => disc.pure (disc.record hfields)
  have hambiguous (typeName : String) : disc.Builds (scene.ambiguousRecord typeName span) :=
    disc.typeFailure _ span
  unfold Data.partsOfEntries at h
  unfold Scene.buildRecord
  split
  · rename_i typeName args
    dsimp only at h
    cases hsole : scene.registry.soleConstructor? typeName with
    | some ctor =>
      rw [hsole] at h
      dsimp only at h ⊢
      rw [entryArguments_eq_map]
      exact disc.construct _ _ h span
    | none =>
      rw [hsole] at h
      match entries with
      | [] => exact hambiguous typeName
      | _ :: _ :: _ => exact hambiguous typeName
      | [⟨key, _, d⟩] =>
        -- a single entry may be a constructor of the type, with its fields behind it
        dsimp only at h ⊢
        rw [Scene.taggedArguments, recordArguments_eq_map]
        cases hinner : d.entries? with
        | none => exact hambiguous typeName
        | some inner =>
          rw [hinner] at h
          dsimp only [Option.map_some]
          split
          · rename_i hkey
            rw [if_pos hkey] at h
            exact disc.construct _ _ h span
          · exact hambiguous typeName
  · exact huntyped fun entry hentry => h _ _ (List.mem_map_of_mem hentry)
  · exact huntyped fun entry hentry => h _ _ (List.mem_map_of_mem hentry)
  · exact disc.typeFailure _ span

mutual

/-- **Data is built if the references in it are,** each by the type that is expected where it stands. -/
theorem buildData : (d : Data) → {t : Ty} → disc.Refers force d t →
    disc.Builds (Scene.buildData scene force d t)
  | .null span, t, _ => by
    rw [Scene.buildData]
    split
    · exact disc.pure (disc.plain .null)
    · exact disc.typeFailure _ span
  | .bool span b, t, _ => disc.coerce (disc.fitTextWithin scene.textDepth) span t.required (.bool b)
  | .int span n, t, _ => disc.coerce (disc.fitTextWithin scene.textDepth) span t.required (.int n)
  | .float span x, t, _ => disc.coerce (disc.fitTextWithin scene.textDepth) span t.required (.float x)
  | .str span text, t, _ => disc.fitTextWithin scene.textDepth text t span
  | .list span items, t, h | .dashList span items, t, h => by
    rw [Scene.buildData]
    refine buildList (fun item hitem => buildItems items fun d hd => h.part ?_) span
    rw [Data.parts, hitem]
    exact List.mem_map_of_mem hd
  | .call span ctor args, t, h => by
    rw [Scene.buildData, dataArguments_eq_map]
    refine disc.construct _ _ (fun d u hmem => ?_) span
    obtain ⟨arg, harg, rfl⟩ := Registry.mem_of_fitted hmem
    exact dataArguments args arg harg (h.part hmem)
  | .ctorBlock span ctor entries, t, h => by
    rw [Scene.buildData, entryArguments_eq_map]
    refine disc.construct _ _ (fun d u hmem => ?_) span
    obtain ⟨arg, harg, rfl⟩ := Registry.mem_of_fitted hmem
    exact entryArguments entries arg harg (h.part hmem)
  | .listBlock span ctor items, t, h => by
    rw [Scene.buildData]
    refine disc.construct (Scene.buildData scene force) [⟨none, .list span items⟩]
      (fun d u hmem => ?_) span
    obtain ⟨arg, harg, rfl⟩ := Registry.mem_of_fitted hmem
    obtain rfl := List.mem_singleton.1 harg
    have hlist := h.part hmem
    rw [Scene.buildData]
    refine buildList (fun item hitem => buildItems items fun d hd => hlist.part ?_) span
    rw [Data.parts, hitem]
    exact List.mem_map_of_mem hd
  | .record span entries, t, h | .fieldBlock span entries, t, h | .dashRecord span entries, t, h => by
    rw [Scene.buildData]
    refine buildRecord (fun e u hmem => ?_) span
    rcases Data.mem_of_partsOfEntries hmem with ⟨arg, harg, rfl⟩ | ⟨entry, hentry, inner, hinner, harg⟩
    · exact entryArguments entries arg harg (h.part hmem)
    · obtain ⟨arg, harg, rfl⟩ := harg
      exact innerArguments entries entry hentry inner hinner arg harg (h.part hmem)
  | .reference span name path, t, h => by
    rw [Scene.buildData]
    exact h span name path t (.self _ _)

/-- The items of a list are fine, if the references in them are. -/
theorem buildItems : (items : List Data) → {t : Ty} → (∀ d ∈ items, disc.Refers force d t) →
    disc.Keeps (Scene.buildItems scene force items t) fun vs => ∀ v ∈ vs, disc.Fine v
  | [], _, _ => disc.pure (List.forall_mem_nil _)
  | d :: ds, t, h => by
    obtain ⟨hd, hds⟩ := List.forall_mem_cons.1 h
    rw [Scene.buildItems]
    exact disc.bind (buildData d hd) fun v hv => disc.bind (buildItems ds hds) fun vs hvs =>
      disc.pure (List.forall_mem_cons.2 ⟨hv, hvs⟩)

/-- Arguments build what is fine, if the references in them are. -/
theorem dataArguments : (args : List (Argument Data)) → ∀ arg ∈ args, ∀ {t : Ty},
    disc.Refers force arg.value t → disc.Builds (Scene.buildData scene force arg.value t)
  | [], _, harg, _, _ => by cases harg
  | ⟨_, d⟩ :: args, arg, harg, t, h => by
    rcases List.mem_cons.1 harg with rfl | harg
    · exact buildData d h
    · exact dataArguments args arg harg h

/-- Entries build what is fine, if the references in them are. -/
theorem entryArguments : (entries : List (Entry Data)) → ∀ arg ∈ entries.map Entry.argument,
    ∀ {t : Ty}, disc.Refers force arg.value t → disc.Builds (Scene.buildData scene force arg.value t)
  | [], _, harg, _, _ => by cases harg
  | ⟨_, _, d⟩ :: entries, arg, harg, t, h => by
    rcases List.mem_cons.1 harg with rfl | harg
    · exact buildData d h
    · exact entryArguments entries arg harg h

/-- The entries of a record inside an entry build what is fine, if the references in them are. -/
theorem innerArguments : (entries : List (Entry Data)) → ∀ entry ∈ entries, ∀ inner,
    entry.value.entries? = some inner → ∀ arg ∈ inner.map Entry.argument, ∀ {t : Ty},
      disc.Refers force arg.value t → disc.Builds (Scene.buildData scene force arg.value t)
  | [], _, hentry, _, _, _, _, _, _ => by cases hentry
  | ⟨_, _, d⟩ :: entries, entry, hentry, inner, hinner, arg, harg, t, h => by
    rcases List.mem_cons.1 hentry with rfl | hentry
    · exact recordArguments d inner hinner arg harg h
    · exact innerArguments entries entry hentry inner hinner arg harg h

/-- The entries of a record build what is fine, if the references in them are. -/
theorem recordArguments : (d : Data) → ∀ inner, d.entries? = some inner →
    ∀ arg ∈ inner.map Entry.argument, ∀ {t : Ty}, disc.Refers force arg.value t →
      disc.Builds (Scene.buildData scene force arg.value t)
  | .record _ entries, _, hinner | .fieldBlock _ entries, _, hinner
  | .dashRecord _ entries, _, hinner => by
    obtain rfl := Option.some.inj hinner
    exact entryArguments entries
  | .str .., _, h | .int .., _, h | .float .., _, h | .bool .., _, h | .null .., _, h
  | .list .., _, h | .call .., _, h | .reference .., _, h | .ctorBlock .., _, h
  | .listBlock .., _, h | .dashList .., _, h => by cases h

end

/-- **The value of a binding is built if the references in it are.** -/
theorem buildSlot (slot : Slot) (h : disc.Refers force slot.data slot.type)
    (halias : ∀ span name path, slot.data = .reference span name path →
      disc.Builds (scene.buildReference force name path span slot.type true)) :
    disc.Builds (scene.buildSlot force slot) := by
  unfold Scene.buildSlot
  split
  · rename_i span name path hdata
    exact halias span name path hdata
  · exact buildData slot.data h

end Data

end Discipline

end TypedData
