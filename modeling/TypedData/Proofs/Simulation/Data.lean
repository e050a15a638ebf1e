import TypedData.Proofs.Building.Text
import TypedData.Proofs.Simulation.Record

/-!
# Two runs over the same data

If a simulation relates the references of two runs, it relates what they build from data that is the same
up to places (`Simulation.buildData`, `Simulation.buildSlot`).  Texts are taken apart in the same way in
both runs, whatever the progress is.
-/

namespace TypedData

/-- The slot at other places. -/
def Slot.relocate (f : Span → Span) (slot : Slot) : Slot :=
  { slot with data := slot.data.relocate f }

/-- A slot at its own places is itself. -/
theorem Slot.relocate_id (slot : Slot) : slot.relocate id = slot := by
  rw [relocate, Data.relocate_id]

namespace Data

mutual

/-- The references in data: the names in them, with the fields that they go on to. -/
def references : Data → List (String × List String)
  | null _ | bool _ _ | int _ _ | float _ _ | str _ _ => []
  | list _ items | dashList _ items | listBlock _ _ items => referencesOfItems items
  | call _ _ args => referencesOfArguments args
  | record _ entries | fieldBlock _ entries | dashRecord _ entries | ctorBlock _ _ entries =>
    referencesOfEntries entries
  | reference _ name path => [(name, path)]

/-- The references in items. -/
def referencesOfItems : List Data → List (String × List String)
  | [] => []
  | d :: ds => d.references ++ referencesOfItems ds

/-- The references in arguments. -/
def referencesOfArguments : List (Argument Data) → List (String × List String)
  | [] => []
  | ⟨_, d⟩ :: args => d.references ++ referencesOfArguments args

/-- The references in entries. -/
def referencesOfEntries : List (Entry Data) → List (String × List String)
  | [] => []
  | ⟨_, _, d⟩ :: entries => d.references ++ referencesOfEntries entries

end

mutual

/-- The texts in data that are taken apart where a declared type is expected. -/
def texts : Data → List String
  | str _ text => [text]
  | null _ | bool _ _ | int _ _ | float _ _ | reference _ _ _ => []
  | list _ items | dashList _ items | listBlock _ _ items => textsOfItems items
  | call _ _ args => textsOfArguments args
  | record _ entries | fieldBlock _ entries | dashRecord _ entries | ctorBlock _ _ entries =>
    textsOfEntries entries

/-- The texts in items. -/
def textsOfItems : List Data → List String
  | [] => []
  | d :: ds => d.texts ++ textsOfItems ds

/-- The texts in arguments. -/
def textsOfArguments : List (Argument Data) → List String
  | [] => []
  | ⟨_, d⟩ :: args => d.texts ++ textsOfArguments args

/-- The texts in entries. -/
def textsOfEntries : List (Entry Data) → List String
  | [] => []
  | ⟨_, _, d⟩ :: entries => d.texts ++ textsOfEntries entries

end

end Data

namespace Expr

/-- Whether the expression has the form of a constructor with its arguments. -/
def isApplied : Expr → Bool
  | call _ _ _ | name _ _ => true
  | _ => false

/-- A change of expressions that moves calls and names to other places, and keeps all others from having this
form. -/
structure Moves (f : Span → Span) (g : Expr → Expr) : Prop where
  call : ∀ span callee args, g (.call span callee args) = .call (f span) callee (args.map (Argument.map g))
  name : ∀ span slot, g (.name span slot) = .name (f span) slot
  other : ∀ e, e.isApplied = false → (g e).isApplied = false

/-- Arguments are relocated one by one, each with its name. -/
theorem relocateArguments_eq_map (f : Span → Span) (args : List (Argument Expr)) :
    relocateArguments f args = args.map (Argument.map (relocate f)) := by
  induction args with
  | nil => rfl
  | cons arg args ih =>
    rw [relocateArguments, ih]
    rfl

/-- Moving expressions to other places moves calls and names. -/
theorem moves_relocate (f : Span → Span) : Moves f (relocate f) where
  call span callee args := by rw [relocate, relocateArguments_eq_map]
  name _ _ := rfl
  other e h := by
    cases e with
    | call | name => cases h
    | _ => rfl

end Expr

namespace Scene

/-- A target that does not have the form of a constructor with its arguments is evaluated. -/
theorem buildTarget_of_not_isApplied {scene : Scene} {fitText : String → Ty → Span → Build Value}
    {captures : Captures} {span : Span} {target : Expr} {t : Ty} (h : target.isApplied = false) :
    scene.buildTarget fitText captures span target t = evaluateTarget fitText captures span target t := by
  cases target with
  | call | name => cases h
  | _ => simp only [buildTarget]

/-- Uses a binding that has been forced, as far as it has come. -/
def useForced (scene : Scene) (binding : Nat) (name : String) (path : List String) (span : Span)
    (expected : Ty) (whole : Bool) : Build Unit := do
  match (← get).states[binding]? with
  | some .inProgress => useUnfinished binding name path span expected whole
  | some (.resolved value) => scene.useFinished value name path span expected
  | _ => throw (.reference (.selfDependency name span))

/-- Forces a binding and uses it. -/
def useBinding (scene : Scene) (force : Nat → Build Unit) (binding : Nat) (name : String)
    (path : List String) (span : Span) (expected : Ty) (whole : Bool) : Build Unit := do
  force binding
  scene.useForced binding name path span expected whole

/-- A reference is built by using the binding that its name belongs to. -/
theorem buildReference_eq (scene : Scene) (force : Nat → Build Unit) (name : String)
    (path : List String) (span : Span) (expected : Ty) (whole : Bool) :
    scene.buildReference force name path span expected whole =
      match scene.indexOf? name with
      | none => throw (.reference (.undefined name span))
      | some binding => do
        scene.useBinding force binding name path span expected.peeled whole
        return .ref ⟨binding, name, path⟩ := by
  unfold buildReference useBinding useForced
  cases scene.indexOf? name with
  | none => rfl
  | some b =>
    simp only [bind_assoc]
    congr 1
    funext _
    congr 1
    funext p
    cases p.states[b]? with
    | none => rfl
    | some state => cases state <;> rfl

end Scene

namespace Simulation

variable {f : Span → Span} {σ : Nat → Nat} {scene scene' : Scene}
  (sim : Simulation f σ scene scene')

/-! ## Fitting -/

/-- Steps over the values of a list go side by side if each of them does. -/
theorem mapM {k k' : Value → Build Value} (vs : List Value)
    (h : ∀ v ∈ vs, sim.Maps (Value.renumber σ) (k v) (k' (v.renumber σ))) :
    sim.Maps (Value.renumberItems σ) (vs.mapM k) ((Value.renumberItems σ vs).mapM k') := by
  induction vs with
  | nil =>
    rw [Value.renumberItems, List.mapM_nil, List.mapM_nil]
    exact sim.pure (Value.renumberItems σ) []
  | cons v vs ih =>
    obtain ⟨hv, hvs⟩ := List.forall_mem_cons.1 h
    rw [Value.renumberItems, List.mapM_cons, List.mapM_cons]
    refine sim.bind hv fun w => sim.bind (ih hvs) fun ws => ?_
    exact sim.pure (Value.renumberItems σ) (w :: ws)

/-- Two ways to take a text apart, which build the same at two places. -/
def FitsText (fitText fitText' : String → Ty → Span → Build Value) (text : String) (t : Ty)
    (span : Span) : Prop :=
  sim.Maps (Value.renumber σ) (fitText text t span) (fitText' text t (f span))

section Texts

variable {sim} {fitText fitText' : String → Ty → Span → Build Value}

/-- **The same value is fitted to a type in the same way,** if the texts are that are taken apart on the way. -/
theorem coerce (span : Span) : (t : Ty) → (v : Value) →
    (∀ text t', t.Hands v text t' → sim.FitsText fitText fitText' text t' span) →
    sim.Maps (Value.renumber σ) (t.coerce fitText span v) (t.coerce fitText' (f span) (v.renumber σ))
  | .prim p, v, _ => by
    have hmismatch := sim.mismatch (g := Value.renumber σ) (.prim p) v span
    cases p <;> cases v <;> first | exact sim.pure (Value.renumber σ) _ | exact hmismatch
  | .param _, v, _ => by cases v <;> exact sim.pure (Value.renumber σ) _
  | .named name args, v, hfit => by
    have hmismatch := sim.mismatch (g := Value.renumber σ) (.named name args) v span
    cases v with
    | str text => exact hfit text _ (.text name args text)
    | record typeName ctor fields =>
      rw [Value.renumber, Ty.coerce, Ty.coerce]
      split
      · exact sim.pure (Value.renumber σ) (.record typeName ctor fields)
      · exact hmismatch
    | _ => exact hmismatch
  | .optional inner, v, hfit => by
    have ih := coerce span inner v fun text t' h => hfit text t' (.optional h)
    cases v with
    | null => exact sim.pure (Value.renumber σ) .null
    | _ => exact ih
  | .list inner, v, hfit => by
    have hmismatch := sim.mismatch (g := Value.renumber σ) (.list inner) v span
    cases v with
    | list items =>
      refine sim.bind (sim.mapM items fun v hv => ?_) fun ws => sim.pure (Value.renumber σ) (.list ws)
      exact coerce span inner v fun text t' h => hfit text t' (.item hv h)
    | _ => exact hmismatch

/-! ## Targets -/

variable (sim) in
/-- In the second run an expression over captures has the value that another one has in the first run, or neither
has any. -/
def Evaluates (g : Expr → Expr) : Prop := ∀ captures e,
  (∃ v, e.eval (Rule.environment captures) = .ok v ∧ (g e).eval (Rule.environment captures) = .ok v) ∨
    ∃ fault fault', e.eval (Rule.environment captures) = .error fault ∧
      (g e).eval (Rule.environment captures) = .error fault' ∧
      sim.Maps (Value.renumber σ) (MonadExcept.throw (.evaluation fault))
        (MonadExcept.throw (.evaluation fault'))

variable (sim) in
/-- An expression has the same value at another place. -/
theorem evaluates_relocate : sim.Evaluates (Expr.relocate f) := by
  intro captures e
  rw [Expr.eval_relocate]
  cases e.eval (Rule.environment captures) with
  | ok v => exact .inl ⟨v, rfl, rfl⟩
  | error fault => exact .inr ⟨fault, _, rfl, rfl, sim.throw _ (.evaluation fault) rfl⟩

variable {g : Expr → Expr}

/-- A target that is evaluated gives the same in both runs, if the texts do that are taken apart for it. -/
theorem evaluateTarget (heval : sim.Evaluates g) (captures : Captures) (span : Span)
    (target : Expr) (t : Ty)
    (hfit : ∀ v text t', target.eval (Rule.environment captures) = .ok v → t.Hands v.toValue text t' →
      sim.FitsText fitText fitText' text t' span) :
    sim.Maps (Value.renumber σ) (Scene.evaluateTarget fitText captures span target t)
      (Scene.evaluateTarget fitText' captures (f span) (g target) t) := by
  unfold Scene.evaluateTarget
  rcases heval captures target with ⟨v, hv, hv'⟩ | ⟨fault, fault', hfault, hfault', hthrow⟩
  · have hplain := (target.plain_eval (Rule.plain_environment captures) v hv).toValue
    have h := coerce span t v.toValue fun text t' h => hfit v text t' hv h
    rw [hplain.renumber] at h
    rw [hv, hv']
    exact h
  · rw [hfault, hfault']
    exact hthrow

mutual

/-- **The same target is built in the same way,** if the texts are that are taken apart on the way. -/
theorem buildTarget (hg : Expr.Moves f g) (heval : sim.Evaluates g) (captures : Captures) (span : Span) :
    (target : Expr) → (t : Ty) →
      (∀ text t', target.Hands scene.registry captures t text t' →
        sim.FitsText fitText fitText' text t' span) →
      sim.Maps (Value.renumber σ) (scene.buildTarget fitText captures span target t)
        (scene'.buildTarget fitText' captures (f span) (g target) t)
  | .call callSpan callee args, t, hfit => by
    rw [hg.call, Scene.buildTarget, Scene.buildTarget, sim.isSome_constructor?]
    split
    · rw [Scene.targetArguments_eq_map, Scene.targetArguments_eq_map, List.map_map]
      have hpairs := sim.construct_of_placed (args.map (Argument.map fun e =>
        (scene.buildTarget fitText captures span e, scene'.buildTarget fitText' captures (f span) (g e))))
        callee t.peeled span fun ctor placed hctor hplaced type pair hmem => ?_
      · rwa [List.map_map, List.map_map] at hpairs
      · rw [Constructor.place_map, map_eq_ok_iff] at hplaced
        obtain ⟨placed, hplaced, rfl⟩ := hplaced
        rw [List.zip_map_right] at hmem
        obtain ⟨⟨_, arg⟩, hplace, hpair⟩ := List.mem_map.1 hmem
        obtain ⟨rfl, harg⟩ := Prod.mk.inj hpair
        obtain ⟨e, rfl, rfl⟩ := Option.map_eq_some_iff.1 harg
        obtain ⟨arg, hgiven, rfl⟩ := Expr.mem_of_place hplaced (List.of_mem_zip hplace).2
        exact targetArguments hg heval captures span args arg hgiven _ fun text t' h =>
          hfit text t' (.argument hctor hplaced hplace h)
    · rename_i hnone
      have h := evaluateTarget heval captures span (.call callSpan callee args) t fun v text t' hv h =>
        hfit text t' (.value (Bool.eq_false_iff.2 hnone) hv h)
      rwa [hg.call] at h
  | .name nameSpan slot, t, hfit => by
    rw [hg.name, Scene.buildTarget, Scene.buildTarget, sim.isSome_constructor?]
    split
    · exact sim.construct .nil slot t.peeled span
    · rename_i hnone
      have h := evaluateTarget heval captures span (.name nameSpan slot) t fun v text t' hv h =>
        hfit text t' (.value (Bool.eq_false_iff.2 hnone) hv h)
      rwa [hg.name] at h
  | .int _ _, t, hfit | .float _ _, t, hfit | .str _ _, t, hfit | .bool _ _, t, hfit | .null _, t, hfit
  | .list _ _, t, hfit | .field _ _ _, t, hfit | .unary _ _ _, t, hfit | .binary _ _ _ _, t, hfit => by
    rw [Scene.buildTarget_of_not_isApplied rfl, Scene.buildTarget_of_not_isApplied (hg.other _ rfl)]
    exact evaluateTarget heval captures span _ t fun v text t' hv h => hfit text t' (.value rfl hv h)

/-- Arguments of a target give the same in both runs, if the texts do that are taken apart for them. -/
theorem targetArguments (hg : Expr.Moves f g) (heval : sim.Evaluates g) (captures : Captures)
    (span : Span) : (args : List (Argument Expr)) → ∀ arg ∈ args, ∀ t,
      (∀ text t', arg.value.Hands scene.registry captures t text t' →
        sim.FitsText fitText fitText' text t' span) →
      sim.Maps (Value.renumber σ) (scene.buildTarget fitText captures span arg.value t)
        (scene'.buildTarget fitText' captures (f span) (g arg.value) t)
  | [] => List.forall_mem_nil _
  | ⟨_, e⟩ :: args =>
    List.forall_mem_cons.2 ⟨buildTarget hg heval captures span e, targetArguments hg heval captures span args⟩

end

end Texts

/-! ## Texts -/

section Rules

/-- The rules of the two runs accept the same texts with the same captures, and their targets go side by side. -/
structure SameRules (g : Expr → Expr) (image : Rule → Rule) : Prop where
  rules : scene'.rules = scene.rules.map image
  moves : Expr.Moves f g
  evaluates : sim.Evaluates g
  target : ∀ rule, (image rule).target = g rule.target
  typeName : ∀ rule, (image rule).typeName = rule.typeName
  match? : ∀ rule text, (image rule).match? text = rule.match? text

/-- Rules that are moved to other places accept the same texts. -/
theorem sameRules_relocate (h : scene'.rules = scene.rules.map (Rule.relocate f)) :
    sim.SameRules (Expr.relocate f) (Rule.relocate f) where
  rules := h
  moves := Expr.moves_relocate f
  evaluates := sim.evaluates_relocate
  target _ := rfl
  typeName _ := rfl
  match? := Rule.match?_relocate f

variable {sim} {g : Expr → Expr} {image : Rule → Rule}

/-- If texts are taken apart in the same way further down, so is a text here. -/
theorem SameRules.fitTextWithin_succ (h : sim.SameRules g image) {depth depth' : Nat}
    (hfit : ∀ text t span,
      sim.FitsText (scene.fitTextWithin depth) (scene'.fitTextWithin depth') text t span)
    (text : String) (t : Ty) (span : Span) :
    sim.FitsText (scene.fitTextWithin (depth + 1)) (scene'.fitTextWithin (depth' + 1)) text t span := by
  have htarget : ∀ (found : RuleMatch) (t : Ty), sim.Maps (Value.renumber σ)
      (scene.buildTarget (scene.fitTextWithin depth) found.captures span found.rule.target t)
      (scene'.buildTarget (scene'.fitTextWithin depth') found.captures (f span)
        (image found.rule).target t) := by
    intro found t
    rw [h.target]
    exact buildTarget h.moves h.evaluates found.captures span found.rule.target t fun text t' _ =>
      hfit text t' span
  unfold FitsText
  rw [Scene.fitTextWithin, Scene.fitTextWithin, h.rules]
  simp only [Rule.firstMatchFor?_map h.match? h.typeName, Rule.firstMatch?_map h.match?]
  split
  · exact sim.pure (Value.renumber σ) (.str text)
  · rename_i name args _
    cases Rule.firstMatchFor? name scene.rules text with
    | none => exact sim.typeFailure _ span
    | some found => exact htarget found _
  · cases Rule.firstMatch? scene.rules text with
    | none => exact sim.pure (Value.renumber σ) (.str text)
    | some found =>
      dsimp only [Option.map_some]
      rw [h.typeName]
      exact htarget found _
  · cases Rule.firstMatch? scene.rules text with
    | none => exact sim.pure (Value.renumber σ) (.str text)
    | some found =>
      dsimp only [Option.map_some]
      rw [h.typeName]
      exact htarget found _
  · exact sim.typeFailure _ span

variable (sim) in
/-- Taking a text apart stops in the same way in the two runs. -/
def Stops : Prop :=
  ∀ text span, sim.Maps (Value.renumber σ) (MonadExcept.throw (.endless text span))
    (MonadExcept.throw (.endless text (f span)))

/-- **A text is taken apart in the same way,** however deep it is allowed to go. -/
theorem SameRules.fitTextWithin (h : sim.SameRules g image) (hstops : sim.Stops) : (depth : Nat) →
    ∀ text t span, sim.FitsText (scene.fitTextWithin depth) (scene'.fitTextWithin depth) text t span
  | 0, text, _, span => hstops text span
  | depth + 1, text, t, span => h.fitTextWithin_succ (h.fitTextWithin hstops depth) text t span

/-- **Texts are fitted side by side,** if the rules go side by side. -/
theorem SameRules.fitText (h : sim.SameRules g image) (hstops : sim.Stops)
    (hdepth : scene'.textDepth = scene.textDepth) (text : String) (t : Ty) (span : Span) :
    sim.FitsText scene.fitText scene'.fitText text t span := by
  unfold Scene.fitText
  rw [hdepth]
  exact h.fitTextWithin hstops scene.textDepth text t span

end Rules

/-! ## Lists and records -/

/-- Lists are built side by side if their items are. -/
theorem buildList {items items' : Ty → Build (List Value)}
    (h : ∀ t, sim.Maps (Value.renumberItems σ) (items t) (items' t)) (t : Ty) (span : Span) :
    sim.Maps (Value.renumber σ) (Scene.buildList items t span)
      (Scene.buildList items' t (f span)) := by
  unfold Scene.buildList
  cases t.item? with
  | none => exact sim.typeFailure _ span
  | some item => exact sim.bind (h item) fun ws => sim.pure (Value.renumber σ) (.list ws)

/-- Records in the two runs that are tagged by the same key, or not at all. -/
def Tagged : (tagged tagged' : Option (String × List BuildArgument)) → Prop
  | some (key, args), some (key', args') => key = key' ∧ sim.Arguments args args'
  | none, none => True
  | _, _ => False

/-- A record without a constructor is refused side by side. -/
theorem ambiguousRecord (typeName : String) (span : Span) :
    sim.Maps (Value.renumber σ) (scene.ambiguousRecord typeName span)
      (scene'.ambiguousRecord typeName (f span)) := by
  unfold Scene.ambiguousRecord
  rw [sim.constructorsOf, List.head?_map, Option.map_map]
  exact sim.typeFailure _ span

/-- Records are built side by side if their fields are. -/
theorem buildRecord {args args' : List BuildArgument}
    {tagged tagged' : Option (String × List BuildArgument)}
    {fields fields' : Build (List (Field Value))} (hargs : sim.Arguments args args')
    (htagged : sim.Tagged tagged tagged')
    (hfields : sim.Maps (Value.renumberFields σ) fields fields') (t : Ty) (span : Span) :
    sim.Maps (Value.renumber σ) (scene.buildRecord args tagged fields t span)
      (scene'.buildRecord args' tagged' fields' t (f span)) := by
  have huntyped : sim.Maps (Value.renumber σ) (do return .record none none (← fields))
      (do return .record none none (← fields')) :=
    sim.bind hfields fun fields => sim.pure (Value.renumber σ) (.record none none fields)
  unfold Scene.buildRecord
  split
  · rename_i typeName _
    rw [sim.soleConstructor?]
    cases scene.registry.soleConstructor? typeName with
    | some ctor => exact sim.construct hargs ctor.name _ span
    | none =>
      dsimp only [Option.map_none]
      match tagged, tagged', htagged with
      | none, none, _ => exact sim.ambiguousRecord typeName span
      | some (key, inner), some (_, inner'), ⟨rfl, hinner⟩ =>
        dsimp only
        rw [sim.typeName_constructor?]
        split
        · exact sim.construct hinner key _ span
        · exact sim.ambiguousRecord typeName span
  · exact huntyped
  · exact huntyped
  · exact sim.typeFailure _ span

/-! ## Data -/

/-- A reference is built in the same way in the two runs, where `whole` says what it does in
`Scene.buildReference`. -/
def Refers (force force' : Nat → Build Unit) (whole : Bool) (name : String) (path : List String) :
    Prop :=
  ∀ (t : Ty) (span : Span),
    sim.Maps (Value.renumber σ) (scene.buildReference force name path span t whole)
      (scene'.buildReference force' name path (f span) t whole)

/-- All of these references, none of which is the whole value of a binding, are built in the same
way. -/
abbrev RefersAll (force force' : Nat → Build Unit) (references : List (String × List String)) : Prop :=
  ∀ reference ∈ references, sim.Refers force force' false reference.1 reference.2

/-- All of these texts are taken apart in the same way in the two runs. -/
abbrev FitsAll (texts : List String) : Prop :=
  ∀ text ∈ texts, ∀ t span, sim.FitsText scene.fitText scene'.fitText text t span

section Data

variable {sim} {force force' : Nat → Build Unit}

/-- References go side by side if bindings are used side by side. -/
theorem refers {whole : Bool} {name : String} {path : List String}
    (h : ∀ b t span, scene.indexOf? name = some b →
      sim.Maps id (scene.useBinding force b name path span t whole)
        (scene'.useBinding force' (σ b) name path (f span) t whole)) :
    sim.Refers force force' whole name path := by
  intro t span
  rw [Scene.buildReference_eq, Scene.buildReference_eq, sim.indexOf?]
  cases hname : scene.indexOf? name with
  | none => exact sim.throw _ _ rfl
  | some b =>
    exact sim.bind (h b t.peeled span hname) fun _ =>
      sim.pure (Value.renumber σ) (.ref ⟨b, name, path⟩)

mutual

/-- **The same data is built in the same way,** at two places, if its texts and references are. -/
theorem buildData : (d : Data) → sim.FitsAll d.texts →
    sim.RefersAll force force' d.references → (t : Ty) →
    sim.Maps (Value.renumber σ) (Scene.buildData scene force d t)
      (Scene.buildData scene' force' (d.relocate f) t)
  | .null span, _, _, t => by
    rw [Data.relocate, Scene.buildData, Scene.buildData]
    split
    · exact sim.pure (Value.renumber σ) .null
    · exact sim.typeFailure _ span
  | .bool span b, _, _, t => coerce span t.required (.bool b) fun _ _ h => nomatch h.mem_texts
  | .int span n, _, _, t => coerce span t.required (.int n) fun _ _ h => nomatch h.mem_texts
  | .float span x, _, _, t => coerce span t.required (.float x) fun _ _ h => nomatch h.mem_texts
  | .str span text, hfit, _, t => hfit text (.head _) t span
  | .list span items, hfit, h, t | .dashList span items, hfit, h, t =>
    sim.buildList (buildItems items hfit h) t.required span
  | .call span ctor args, hfit, h, t =>
    sim.construct (dataArguments args hfit h) ctor t.required span
  | .ctorBlock span ctor entries, hfit, h, t =>
    sim.construct (entryArguments entries hfit h) ctor t.required span
  | .listBlock span ctor items, hfit, h, t =>
    sim.construct
      (.cons none (fun item => sim.buildList (buildItems items hfit h) item.required span) .nil)
      ctor t.required span
  | .record span entries, hfit, h, t | .fieldBlock span entries, hfit, h, t
  | .dashRecord span entries, hfit, h, t =>
    sim.buildRecord (entryArguments entries hfit h) (taggedArguments entries hfit h)
      (untypedFields entries hfit h []) t.required span
  | .reference span name path, _, h, t => h (name, path) (.head _) t.required span

/-- Items of data are built side by side. -/
theorem buildItems : (items : List Data) → sim.FitsAll (Data.textsOfItems items) →
    sim.RefersAll force force' (Data.referencesOfItems items) → (t : Ty) →
    sim.Maps (Value.renumberItems σ) (Scene.buildItems scene force items t)
      (Scene.buildItems scene' force' (Data.relocateItems f items) t)
  | [], _, _, t => sim.pure (Value.renumberItems σ) []
  | d :: ds, hfit, h, t => by
    obtain ⟨hfit, hfits⟩ := List.forall_mem_append.1 hfit
    obtain ⟨hd, hds⟩ := List.forall_mem_append.1 h
    rw [Data.relocateItems, Scene.buildItems, Scene.buildItems]
    refine sim.bind (buildData d hfit hd t) fun v => ?_
    refine sim.bind (buildItems ds hfits hds t) fun vs => ?_
    exact sim.pure (Value.renumberItems σ) (v :: vs)

/-- Arguments of data go side by side. -/
theorem dataArguments : (args : List (Argument Data)) → sim.FitsAll (Data.textsOfArguments args) →
    sim.RefersAll force force' (Data.referencesOfArguments args) →
    sim.Arguments (Scene.dataArguments scene force args)
      (Scene.dataArguments scene' force' (Data.relocateArguments f args))
  | [], _, _ => .nil
  | ⟨name, d⟩ :: args, hfit, h => by
    obtain ⟨hfit, hfits⟩ := List.forall_mem_append.1 hfit
    obtain ⟨hd, hargs⟩ := List.forall_mem_append.1 h
    rw [Data.relocateArguments, Scene.dataArguments, Scene.dataArguments]
    exact .cons name (buildData d hfit hd) (dataArguments args hfits hargs)

/-- Entries go side by side, as arguments. -/
theorem entryArguments : (entries : List (Entry Data)) → sim.FitsAll (Data.textsOfEntries entries) →
    sim.RefersAll force force' (Data.referencesOfEntries entries) →
    sim.Arguments (Scene.entryArguments scene force entries)
      (Scene.entryArguments scene' force' (Data.relocateEntries f entries))
  | [], _, _ => .nil
  | ⟨key, _, d⟩ :: entries, hfit, h => by
    obtain ⟨hfit, hfits⟩ := List.forall_mem_append.1 hfit
    obtain ⟨hd, hentries⟩ := List.forall_mem_append.1 h
    rw [Data.relocateEntries, Scene.entryArguments, Scene.entryArguments]
    exact .cons (some key) (buildData d hfit hd) (entryArguments entries hfits hentries)

/-- Entries with a constructor in front go side by side, as its arguments. -/
theorem taggedArguments : (entries : List (Entry Data)) → sim.FitsAll (Data.textsOfEntries entries) →
    sim.RefersAll force force' (Data.referencesOfEntries entries) →
    sim.Tagged (Scene.taggedArguments scene force entries)
      (Scene.taggedArguments scene' force' (Data.relocateEntries f entries))
  | [], _, _ => trivial
  | [⟨key, _, d⟩], hfit, h => by
    obtain ⟨hfit, -⟩ := List.forall_mem_append.1 hfit
    obtain ⟨hd, -⟩ := List.forall_mem_append.1 h
    rw [Data.relocateEntries, Data.relocateEntries, Scene.taggedArguments, Scene.taggedArguments]
    exact recordArguments key d hfit hd
  | ⟨_, _, _⟩ :: ⟨_, _, _⟩ :: _, _, _ => by
    simp only [Data.relocateEntries, Scene.taggedArguments]
    trivial

/-- A record behind a key goes side by side, as arguments of the key. -/
theorem recordArguments (key : String) : (d : Data) → sim.FitsAll d.texts →
    sim.RefersAll force force' d.references →
    sim.Tagged ((Scene.recordArguments scene force d).map (key, ·))
      ((Scene.recordArguments scene' force' (d.relocate f)).map (key, ·))
  | .record _ entries, hfit, h | .fieldBlock _ entries, hfit, h | .dashRecord _ entries, hfit, h => by
    rw [Data.relocate, Scene.recordArguments, Scene.recordArguments]
    exact ⟨rfl, entryArguments entries hfit h⟩
  | .str .., _, _ | .int .., _, _ | .float .., _, _ | .bool .., _, _ | .null .., _, _ | .list .., _, _
  | .call .., _, _ | .reference .., _, _ | .ctorBlock .., _, _ | .listBlock .., _, _
  | .dashList .., _, _ => by
    simp only [Data.relocate, Scene.recordArguments]
    trivial

/-- Fields for which no type is expected are built side by side. -/
theorem untypedFields : (entries : List (Entry Data)) → sim.FitsAll (Data.textsOfEntries entries) →
    sim.RefersAll force force' (Data.referencesOfEntries entries) →
    (seen : List String) →
      sim.Maps (Value.renumberFields σ) (Scene.untypedFields scene force seen entries)
        (Scene.untypedFields scene' force' seen (Data.relocateEntries f entries))
  | [], _, _, _ => sim.pure (Value.renumberFields σ) []
  | ⟨key, span, d⟩ :: entries, hfit, h, seen => by
    obtain ⟨hfit, hfits⟩ := List.forall_mem_append.1 hfit
    obtain ⟨hd, hentries⟩ := List.forall_mem_append.1 h
    rw [Data.relocateEntries, Scene.untypedFields, Scene.untypedFields]
    have hfields : sim.Maps (Value.renumberFields σ)
        (do return ⟨some key, ← Scene.buildData scene force d .any⟩ ::
          (← Scene.untypedFields scene force (key :: seen) entries))
        (do return ⟨some key, ← Scene.buildData scene' force' (d.relocate f) .any⟩ ::
          (← Scene.untypedFields scene' force' (key :: seen) (Data.relocateEntries f entries))) := by
      refine sim.bind (buildData d hfit hd .any) fun v => ?_
      refine sim.bind (untypedFields entries hfits hentries (key :: seen)) fun fields => ?_
      exact sim.pure (Value.renumberFields σ) (⟨some key, v⟩ :: fields)
    split
    · exact sim.bind (sim.typeFailure (g := id) _ span) fun _ => hfields
    · exact hfields

end

/-- **The same binding is built in the same way,** at two places. -/
theorem buildSlot (slot : Slot) (hfit : sim.FitsAll slot.data.texts)
    (h : sim.RefersAll force force' slot.data.references)
    (halias : ∀ span name path, slot.data = .reference span name path →
      sim.Refers force force' true name path) :
    sim.Maps (Value.renumber σ) (scene.buildSlot force slot)
      (scene'.buildSlot force' (slot.relocate f)) := by
  obtain ⟨name, data, type⟩ := slot
  cases data with
  | reference span name path => exact halias span name path rfl type span
  | _ => exact buildData _ hfit h type

end Data

end Simulation

end TypedData
