import TypedData.Building
import TypedData.Document.Canonical

/-!
# Building from canonical data

Every shorthand is built in the same way as what it stands for: a constructor over entries places them
like named arguments, one over items gets the list of them, and the indented records and lists are built
like those with brackets.  So from data in canonical form, over slots in canonical form, the same steps are
taken (`buildData_canonical`, `buildDocument_canonical`), with the same values, the same checks left
for the end and the same failures at the same places.
-/

namespace TypedData

/-- Canonical data stands where the data does. -/
theorem Data.span_canonical (d : Data) : d.canonical.span = d.span := by
  cases d <;> rfl

/-- The canonical form of a slot. -/
def Slot.canonical (slot : Slot) : Slot := { slot with data := slot.data.canonical }

namespace Scene

variable {scene : Scene}

/-- The scene with its slots in canonical form. -/
def canonical (scene : Scene) : Scene := { scene with slots := scene.slots.map Slot.canonical }

/-! ## What does not depend on the notation -/

/-- The canonical form has as many bindings, so as many hops suffice. -/
theorem hops_canonical : scene.canonical.hops = scene.hops :=
  congrArg Value.hopLimit (List.length_map ..)

/-- Names stand for the same bindings in canonical form. -/
theorem indexOf?_canonical (name : String) : scene.canonical.indexOf? name = scene.indexOf? name := by
  rw [indexOf?, indexOf?, canonical, List.findIdx?_map]
  rfl

/-- The conditions on a record are the same in canonical form. -/
theorem checkRecord_canonical : scene.canonical.checkRecord = scene.checkRecord := by
  funext p ctor fields done span
  rw [checkRecord, checkRecord, hops_canonical]
  rfl

/-- Constructors build the same in canonical form. -/
theorem construct_canonical : scene.canonical.construct = scene.construct := by
  funext ctorName args expected span
  unfold construct
  rw [checkRecord_canonical]
  rfl

mutual

/-- Targets of rules build the same in canonical form. -/
theorem buildTarget_canonical (fitText : String → Ty → Span → Build Value) (captures : Captures)
    (span : Span) : (target : Expr) → (t : Ty) →
      scene.canonical.buildTarget fitText captures span target t =
        scene.buildTarget fitText captures span target t
  | .call callSpan name args, t => by
    rw [buildTarget, buildTarget, construct_canonical, targetArguments_canonical fitText captures span]
    rfl
  | .name nameSpan name, t => by
    rw [buildTarget, buildTarget, construct_canonical]
    rfl
  | .int .., _ | .float .., _ | .str .., _ | .bool .., _ | .null .., _ | .list .., _
  | .field .., _ | .unary .., _ | .binary .., _ => by
    simp only [buildTarget]

/-- Arguments of targets build the same in canonical form. -/
theorem targetArguments_canonical (fitText : String → Ty → Span → Build Value) (captures : Captures)
    (span : Span) : (args : List (Argument Expr)) →
      targetArguments scene.canonical fitText captures span args =
        targetArguments scene fitText captures span args
  | [] => rfl
  | ⟨name, e⟩ :: args => by
    rw [targetArguments, targetArguments, targetArguments_canonical fitText captures span args]
    congr 2
    funext t
    exact buildTarget_canonical fitText captures span e t

end

/-- Texts are taken apart in the same way in canonical form, to any depth. -/
theorem fitTextWithin_canonical (depth : Nat) :
    scene.canonical.fitTextWithin depth = scene.fitTextWithin depth := by
  induction depth with
  | zero => rfl
  | succ depth ih =>
    have htarget : scene.canonical.buildTarget = scene.buildTarget := by
      funext fitText captures span target t
      exact buildTarget_canonical fitText captures span target t
    funext text t span
    rw [fitTextWithin, fitTextWithin, ih, htarget]
    rfl

/-- Texts are taken apart in the same way in canonical form. -/
theorem fitText_canonical : scene.canonical.fitText = scene.fitText :=
  fitTextWithin_canonical scene.textDepth

/-- References are built in the same way in canonical form. -/
theorem buildReference_canonical : scene.canonical.buildReference = scene.buildReference := by
  funext force name path span expected whole
  unfold buildReference useFinished
  rw [indexOf?_canonical, hops_canonical]

/-- Records are built in the same way in canonical form. -/
theorem buildRecord_canonical : scene.canonical.buildRecord = scene.buildRecord := by
  funext args tagged fields expected span
  unfold buildRecord
  rw [construct_canonical]
  rfl

/-! ## Data -/

mutual

/-- **From canonical data the same steps are taken.** -/
theorem buildData_canonical (force : Nat → Build Unit) : (d : Data) → (t : Ty) →
    buildData scene.canonical force d.canonical t = buildData scene force d t
  | .null _, _ => rfl
  | .bool _ _, t | .int _ _, t | .float _ _, t | .str _ _, t => by
    rw [Data.canonical, buildData, buildData, fitText_canonical]
  | .list _ items, t | .dashList _ items, t => by
    rw [Data.canonical, buildData, buildData, funext (buildItems_canonical force items)]
  | .call _ _ args, t => by
    rw [Data.canonical, buildData, buildData, construct_canonical, dataArguments_canonical]
  | .ctorBlock _ _ entries, t => by
    rw [Data.canonical, buildData, buildData, construct_canonical, dataArguments_ofEntries]
  | .listBlock _ _ items, t => by
    rw [Data.canonical, buildData, buildData, construct_canonical, dataArguments, dataArguments]
    simp only [buildData, funext (buildItems_canonical force items)]
  | .record _ entries, t | .fieldBlock _ entries, t | .dashRecord _ entries, t => by
    rw [Data.canonical, buildData, buildData, buildRecord_canonical,
      entryArguments_canonical, taggedArguments_canonical, untypedFields_canonical]
  | .reference _ _ _, t => by
    rw [Data.canonical, buildData, buildData, buildReference_canonical]

/-- Canonical items build what the items do. -/
theorem buildItems_canonical (force : Nat → Build Unit) : (items : List Data) → (t : Ty) →
    buildItems scene.canonical force (Data.canonicalItems items) t = buildItems scene force items t
  | [], _ => rfl
  | d :: ds, t => by
    rw [Data.canonicalItems, buildItems, buildItems, buildData_canonical force d t,
      buildItems_canonical force ds t]

/-- Canonical arguments build what the arguments do. -/
theorem dataArguments_canonical (force : Nat → Build Unit) : (args : List (Argument Data)) →
    dataArguments scene.canonical force (Data.canonicalArguments args) =
      dataArguments scene force args
  | [] => rfl
  | ⟨name, d⟩ :: args => by
    rw [Data.canonicalArguments, dataArguments, dataArguments, dataArguments_canonical force args,
      funext (buildData_canonical force d)]

/-- Entries of a constructor are placed like named arguments. -/
theorem dataArguments_ofEntries (force : Nat → Build Unit) : (entries : List (Entry Data)) →
    dataArguments scene.canonical force (Data.argumentsOfEntries entries) =
      entryArguments scene force entries
  | [] => rfl
  | ⟨key, _, d⟩ :: entries => by
    rw [Data.argumentsOfEntries, dataArguments, entryArguments, dataArguments_ofEntries force entries,
      funext (buildData_canonical force d)]

/-- Canonical entries build what the entries do. -/
theorem entryArguments_canonical (force : Nat → Build Unit) : (entries : List (Entry Data)) →
    entryArguments scene.canonical force (Data.canonicalEntries entries) =
      entryArguments scene force entries
  | [] => rfl
  | ⟨key, _, d⟩ :: entries => by
    rw [Data.canonicalEntries, entryArguments, entryArguments,
      entryArguments_canonical force entries, funext (buildData_canonical force d)]

/-- A record is tagged in canonical form as it is without. -/
theorem taggedArguments_canonical (force : Nat → Build Unit) : (entries : List (Entry Data)) →
    taggedArguments scene.canonical force (Data.canonicalEntries entries) =
      taggedArguments scene force entries
  | [] => rfl
  | [⟨key, _, d⟩] => by
    rw [Data.canonicalEntries, Data.canonicalEntries, taggedArguments, taggedArguments,
      recordArguments_canonical force d]
  | ⟨_, _, _⟩ :: ⟨_, _, _⟩ :: _ => by
    simp only [Data.canonicalEntries, taggedArguments]

/-- Only records are read as records, in every notation. -/
theorem recordArguments_canonical (force : Nat → Build Unit) : (d : Data) →
    recordArguments scene.canonical force d.canonical = recordArguments scene force d
  | .record _ entries | .fieldBlock _ entries | .dashRecord _ entries => by
    rw [Data.canonical, recordArguments, recordArguments, entryArguments_canonical force entries]
  | .str .. | .int .. | .float .. | .bool .. | .null .. | .list .. | .call .. | .reference ..
  | .ctorBlock .. | .listBlock .. | .dashList .. => by
    simp only [Data.canonical, recordArguments]

/-- The fields of a record without a type are the same in canonical form. -/
theorem untypedFields_canonical (force : Nat → Build Unit) (seen : List String) :
    (entries : List (Entry Data)) →
      untypedFields scene.canonical force seen (Data.canonicalEntries entries) =
        untypedFields scene force seen entries
  | [] => rfl
  | ⟨key, span, d⟩ :: entries => by
    rw [Data.canonicalEntries, untypedFields, untypedFields, buildData_canonical force d .any,
      untypedFields_canonical force (key :: seen) entries]

end

/-! ## Bindings -/

/-- A slot in canonical form builds what the slot does. -/
theorem buildSlot_canonical (force : Nat → Build Unit) (slot : Slot) :
    scene.canonical.buildSlot force slot.canonical = scene.buildSlot force slot := by
  obtain ⟨name, data, type⟩ := slot
  cases data with
  | reference span name path =>
    rw [buildSlot, buildSlot, buildReference_canonical]
    rfl
  | _ => exact buildData_canonical force _ type

/-- The slots of the canonical form are those of the scene in canonical form, at the same positions. -/
theorem getElem?_slots_canonical (b : Nat) :
    scene.canonical.slots[b]? = scene.slots[b]?.map Slot.canonical := List.getElem?_map ..

/-- Bindings are forced in the same way in canonical form, to any depth. -/
theorem forceWithin_canonical (depth : Nat) :
    scene.canonical.forceWithin depth = scene.forceWithin depth := by
  funext b
  rw [forceWithin.eq_def, forceWithin.eq_def]
  dsimp only
  congr 1
  funext p
  rw [getElem?_slots_canonical]
  cases p.states[b]? with
  | none => rfl
  | some state =>
    cases scene.slots[b]? with
    | none => cases state <;> rfl
    | some slot =>
      cases state with
      | unresolved =>
        cases depth with
        | zero =>
          dsimp only [Option.map_some, Slot.canonical]
          rw [Data.span_canonical]
        | succ depth =>
          dsimp only [Option.map_some]
          rw [forceWithin_canonical depth, buildSlot_canonical]
          dsimp only [Slot.canonical]
          rw [Data.span_canonical]
      | _ => rfl

/-- Bindings are forced in the same way in canonical form. -/
theorem force_canonical : scene.canonical.force = scene.force :=
  forceWithin_canonical maxReferenceDepth

/-- Canonical bindings have the canonical slots, or the same failure. -/
theorem slotsOf_canonical {registry : Registry} {bindings : List Binding} {seen : List String} :
    slotsOf registry seen (bindings.map Document.canonicalBinding) =
      (slotsOf registry seen bindings).map (List.map Slot.canonical) := by
  induction bindings generalizing seen with
  | nil => rfl
  | cons binding bindings ih =>
    obtain ⟨name, type, value, span⟩ := binding
    change slotsOf registry seen
      (⟨name, type, value.canonical, span⟩ :: bindings.map Document.canonicalBinding) = _
    rw [slotsOf, slotsOf, ih]
    dsimp only
    by_cases hseen : seen.contains name = true
    · rw [if_pos hseen, if_pos hseen]
      rfl
    · rw [if_neg hseen, if_neg hseen]
      cases type with
      | none => cases slotsOf registry (name :: seen) bindings <;> rfl
      | some type =>
        dsimp only
        cases registry.resolveType [] type with
        | error e => rfl
        | ok t => cases slotsOf registry (name :: seen) bindings <;> rfl

/-! ## Documents -/

/-- Canonical items of a document build what the items do. -/
theorem buildItemsFrom_canonical : (items : List Item) → (next : Nat) →
    scene.canonical.buildItemsFrom next (items.map Item.canonical) = scene.buildItemsFrom next items
  | [], _ => rfl
  | .binding b :: items, next => by
    rw [List.map_cons, Item.canonical, buildItemsFrom, buildItemsFrom, force_canonical,
      buildItemsFrom_canonical items]
  | .value d :: items, next => by
    rw [List.map_cons, Item.canonical, buildItemsFrom, buildItemsFrom, force_canonical,
      buildItemsFrom_canonical items, buildData_canonical]
  | .type _ :: items, next | .rule _ :: items, next => by
    simp only [List.map_cons, Item.canonical, buildItemsFrom]
    exact buildItemsFrom_canonical items next

/-- The checks of types that had to wait are the same in canonical form. -/
theorem runCheck_canonical : scene.canonical.runCheck = scene.runCheck := by
  funext p check
  unfold runCheck
  rw [getElem?_slots_canonical, hops_canonical, Option.map_map]
  rfl

/-- The conditions that had to wait are the same in canonical form. -/
theorem runConstraints_canonical : scene.canonical.runConstraints = scene.runConstraints := by
  funext p pending
  unfold runConstraints
  rw [checkRecord_canonical]

/-- Everything that had to wait is the same in canonical form. -/
theorem runDeferred_canonical : scene.canonical.runDeferred = scene.runDeferred := by
  funext p
  unfold runDeferred
  rw [runCheck_canonical, runConstraints_canonical]

/-- The same bindings are finished in canonical form. -/
theorem finished_canonical (p : Progress) : scene.canonical.finished p = scene.finished p := by
  rw [finished, finished, canonical, List.zip_map_left, List.filterMap_map]
  rfl

/-- **From a document in canonical form the same steps are taken.** -/
theorem buildDocument_canonical (scene : Scene) (items : List Item) :
    scene.canonical.buildDocument (items.map Item.canonical) = scene.buildDocument items := by
  unfold buildDocument
  rw [buildItemsFrom_canonical, runDeferred_canonical, funext finished_canonical]

end Scene

end TypedData
