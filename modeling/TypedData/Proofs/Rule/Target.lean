import TypedData.Proofs.Building.Discipline
import TypedData.Proofs.Loaded.Locality

/-!
# Targets and data

The target of a rule is built like data: a call of a constructor nests, and a slot stands for its text.  So a
target of calls, slots and literals is **written** as data, each slot as a text between quotation marks
(`Expr.toData?`).  Where no type is open the data is built as the target is, with the same value, the same
checks left for the end, or the same failure at another place (`Scene.target_builds_as_data`).

There is one difference.  Of a type that is optional twice over, data looks through every layer before it calls a
constructor, and a target looks through one.  So the target is refused there.
-/

namespace TypedData

/-! ## Types that are not open -/

namespace Ty

mutual

/-- Whether the type mentions neither `any` nor a parameter. -/
def isConcrete : Ty → Bool
  | prim p => p != .any
  | param _ => false
  | named _ args => areConcrete args
  | optional inner | list inner => inner.isConcrete

/-- Whether types mention neither `any` nor a parameter. -/
def areConcrete : List Ty → Bool
  | [] => true
  | arg :: args => arg.isConcrete && areConcrete args

end

mutual

/-- Nothing is put into a type without parameters. -/
theorem substitute_of_isConcrete (bindings : List (String × Ty)) :
    (t : Ty) → t.isConcrete = true → t.substitute bindings = t
  | prim _, _ => rfl
  | named name args, h => by rw [substitute, substituteArgs_of_areConcrete bindings args h]
  | optional inner, h => by rw [substitute, substitute_of_isConcrete bindings inner h]
  | list inner, h => by rw [substitute, substitute_of_isConcrete bindings inner h]

/-- Nothing is put into types without parameters. -/
theorem substituteArgs_of_areConcrete (bindings : List (String × Ty)) :
    (args : List Ty) → areConcrete args = true → substituteArgs bindings args = args
  | [], _ => rfl
  | arg :: args, h => by
    obtain ⟨harg, hargs⟩ := (Bool.and_eq_true ..).mp h
    rw [substituteArgs, substitute_of_isConcrete bindings arg harg,
      substituteArgs_of_areConcrete bindings args hargs]

end

/-- Whether a value of the type may be left out for two reasons. -/
def isOptionalTwice (t : Ty) : Bool := t.peeled.isOptional

/-- The type without a layer is required, or there is another layer. -/
theorem peeled_eq_required {t : Ty} (h : t.isOptionalTwice = false) : t.peeled = t.required := by
  cases t with
  | optional inner =>
    cases inner with
    | optional _ => cases h
    | _ => rfl
  | _ => rfl

/-- A type that is optional twice over is optional without its first layer. -/
theorem exists_peeled_eq {t : Ty} (h : t.isOptionalTwice = true) : ∃ inner, t.peeled = .optional inner := by
  unfold isOptionalTwice at h
  cases hpeeled : t.peeled with
  | optional inner => exact ⟨inner, rfl⟩
  | _ => rw [hpeeled] at h; cases h

/-! ## Fitting -/

variable {fitText : String → Ty → Span → Build Value} {span : Span}

/-- Null fits an optional type and an open one, and no other. -/
theorem coerce_null : (t : Ty) → t.coerce fitText span .null =
    if t.isOptional || t.isOpen then pure .null else Build.mismatch t "null" span
  | prim p => by cases p <;> rfl
  | named _ _ | optional _ | list _ | param _ => rfl

/-- All values but null are fitted to the type below the layers. -/
theorem coerce_required {v : Value} (hv : v ≠ .null) :
    (t : Ty) → t.required.coerce fitText span v = t.coerce fitText span v
  | optional inner => by
    rw [required, coerce_required hv inner]
    cases v with
    | null => exact absurd rfl hv
    | _ => rfl
  | prim _ | named _ _ | param _ | list _ => rfl

end Ty

namespace Registry

/-- Whether no field of a declared constructor has a type that mentions `any` or a parameter. -/
def isConcrete (r : Registry) : Bool :=
  r.constructors.all fun ctor => ctor.fields.all fun field => field.type.isConcrete

/-- Whether a field of a declared constructor is optional twice over. -/
def hasOptionalTwice (r : Registry) : Bool :=
  r.constructors.any fun ctor => ctor.fields.any fun field => field.type.isOptionalTwice

/-- The types of fields are those that are declared, whatever arguments their type has. -/
theorem exists_field_of_isConcrete {r : Registry} (h : r.isConcrete = true) {ctor : Constructor}
    (hctor : ctor ∈ r.constructors) {args : List Ty} {t : Ty} (ht : t ∈ r.fieldTypes ctor args) :
    t.isConcrete = true ∧ ∃ field ∈ ctor.fields, field.type = t := by
  obtain ⟨field, hfield, rfl⟩ := List.mem_map.1 ht
  have hfields := List.all_eq_true.1 h ctor hctor
  have hconcrete : field.type.isConcrete = true := List.all_eq_true.1 hfields field hfield
  rw [Ty.substitute_of_isConcrete _ _ hconcrete]
  exact ⟨hconcrete, field, hfield, rfl⟩

end Registry

namespace Scene

/-- A text is fitted to a type that is not open as text data is. -/
theorem coerce_text {scene : Scene} (hdepth : 0 < scene.textDepth) (text : String) (span : Span) :
    (t : Ty) → t.isConcrete = true → t.coerce scene.fitText span (.str text) = scene.fitText text t span
  | .optional inner, h => (coerce_text hdepth text span inner h).trans (fitText_optional text inner span).symm
  | .named _ _, _ => rfl
  | .prim p, h => by
    obtain ⟨depth, hdepth⟩ := Nat.exists_eq_add_of_lt hdepth
    rw [fitText, hdepth, Nat.zero_add]
    cases p with
    | any => cases h
    | _ => rfl
  | .list _, _ => by
    obtain ⟨depth, hdepth⟩ := Nat.exists_eq_add_of_lt hdepth
    rw [fitText, hdepth, Nat.zero_add]
    rfl

end Scene

/-! ## Targets that are written as data -/

namespace Expr

mutual

/-- The data that a target is written as, where slots have these texts: literals as they are, a slot as its text, and
a call of a constructor as a call.  Other targets are no data. -/
def toData? (r : Registry) (captures : Captures) : Expr → Option Data
  | int span n => some (.int span n)
  | float span x => some (.float span x)
  | str span text => some (.str span text)
  | bool span b => some (.bool span b)
  | null span => some (.null span)
  | name span n =>
    match captures.lookup n with
    | some text => some (.str span text)
    | none => if (r.constructor? n).isSome then some (.call span n []) else none
  | call span callee args =>
    if (r.constructor? callee).isSome then (argumentsToData? r captures args).map (.call span callee)
    else none
  | list .. | field .. | unary .. | binary .. => none

/-- The data that the arguments of a call are written as. -/
def argumentsToData? (r : Registry) (captures : Captures) :
    List (Argument Expr) → Option (List (Argument Data))
  | [] => some []
  | ⟨label, e⟩ :: args => do return ⟨label, ← e.toData? r captures⟩ :: (← argumentsToData? r captures args)

end

/-- Where the arguments of a call are written as data, each is, under the same name. -/
theorem exists_pairs_of_argumentsToData? {r : Registry} {captures : Captures} :
    {args : List (Argument Expr)} → {ds : List (Argument Data)} → argumentsToData? r captures args = some ds →
      ∃ pairs : List (Argument (Expr × Data)), args = pairs.map (Argument.map Prod.fst) ∧
        ds = pairs.map (Argument.map Prod.snd) ∧
        ∀ pair ∈ pairs, pair.value.1.toData? r captures = some pair.value.2
  | [], _, h => ⟨[], rfl, (Option.some.inj h).symm, List.forall_mem_nil _⟩
  | ⟨label, e⟩ :: args, ds, h => by
    rw [argumentsToData?] at h
    obtain ⟨d, hd, h⟩ := Option.bind_eq_some_iff.1 h
    obtain ⟨rest, hrest, h⟩ := Option.bind_eq_some_iff.1 h
    obtain rfl := Option.some.inj h
    obtain ⟨pairs, rfl, rfl, hpairs⟩ := exists_pairs_of_argumentsToData? hrest
    exact ⟨⟨label, (e, d)⟩ :: pairs, rfl, rfl, List.forall_mem_cons.2 ⟨hd, hpairs⟩⟩

end Expr

/-! ## Steps that do the same at different places -/

/-- How a step ends, without places. -/
def Build.unplaced {α : Type} (outcome : Except Failure α × Progress) : Except Failure α × Progress :=
  (relocateFailure nowhere outcome.1, outcome.2.relocate nowhere)

/-- A constructor is refused where an optional value is expected. -/
def Failure.IsRefusal (e : Failure) : Prop :=
  ∃ inner ctor span, e = .type ⟨.mismatch (.optional inner) ("constructor " ++ Diagnostic.name ctor), span⟩

namespace Build

variable {α β : Type} {twice : Prop}

/-- The first step ends as the second one does but for the places, or a constructor is refused, which happens
only if `twice` holds. -/
def Matches (twice : Prop) (m m' : Build α) : Prop :=
  ∀ p p' : Progress, p.relocate nowhere = p'.relocate nowhere →
    unplaced (m.outcome p) = unplaced (m'.outcome p') ∨
      twice ∧ ∃ e q, m.outcome p = (.error e, q) ∧ e.IsRefusal

namespace Matches

/-- A step that only gives a result matches itself. -/
theorem pure (a : α) : Matches twice (Pure.pure a) (Pure.pure a) :=
  fun _ _ hp => .inl (Prod.ext rfl hp)

/-- Steps that are mirrored by one step do the same. -/
theorem of_mirrors {m m' n : Build α} (h : Mirrors nowhere id m n) (h' : Mirrors nowhere id m' n) :
    Matches twice m m' := by
  have hunplaced {m : Build α} (h : Mirrors nowhere id m n) (p : Progress) :
      unplaced (m.outcome p) = n.outcome (p.relocate nowhere) := by
    rw [h p]
    rcases m.outcome p with ⟨result, q⟩
    exact Prod.ext (congrFun Except.map_id _).symm rfl
  intro p p' hp
  rw [hunplaced h, hunplaced h', hp]
  exact .inl rfl

/-- A failure matches itself at another place. -/
theorem typeFailure (problem : TypeProblem) (span span' : Span) :
    Matches twice (Build.typeFailure problem span : Build α) (Build.typeFailure problem span') :=
  of_mirrors (n := Build.typeFailure problem .zero) (.throw id _) (.throw id _)

/-- One step after another matches if both do. -/
theorem bind {m m' : Build α} {k k' : α → Build β} (hm : Matches twice m m')
    (hk : ∀ a, Matches twice (k a) (k' a)) : Matches twice (m >>= k) (m' >>= k') := by
  intro p p' hp
  have hends := hm p p' hp
  rw [outcome_bind, outcome_bind]
  generalize m.outcome p = first at hends ⊢
  generalize m'.outcome p' = second at hends ⊢
  rcases hends with hsame | ⟨htwice, e, q, rfl, he⟩
  · obtain ⟨hresult, hq⟩ := Prod.mk.inj hsame
    rcases first with ⟨e | a, q⟩
    · rcases second with ⟨e' | a', q'⟩
      · exact .inl (Prod.ext (congrArg Except.error (Except.error.inj hresult)) hq)
      · cases hresult
    · rcases second with ⟨e' | a', q'⟩
      · cases hresult
      · obtain rfl := Except.ok.inj hresult
        exact hk a q q' hq
  · exact .inr ⟨htwice, e, q, rfl, he⟩

end Matches

end Build

namespace Scene

open Build (Matches)

variable {scene : Scene} {twice : Prop}

/-! ## Records -/

/-- The conditions of a record are settled alike at two places. -/
theorem matches_settleConditions (ctor : String) (fields : List (Field Value)) (span span' : Span) :
    Matches twice (scene.settleConditions ctor fields span) (scene.settleConditions ctor fields span') :=
  .of_mirrors (mirrors_settleConditions ctor fields span) (mirrors_settleConditions ctor fields span')

/-- The arguments of a type are taken alike at two places. -/
theorem matches_typeArguments (ctor : Constructor) (t : Ty) (span span' : Span) :
    Matches twice (typeArguments ctor t span) (typeArguments ctor t span') := by
  unfold typeArguments
  split
  · split
    · exact .pure _
    · exact .typeFailure _ span span'
  · exact .pure _
  · exact .pure _
  · exact .typeFailure _ span span'

section Construction

variable {α : Type} {build build' : α → Ty → Build Value}

/-- Fields are built alike at two places if their values are. -/
theorem matches_buildFields (ctor : Constructor) (span span' : Span) : (names : List (Option String)) →
    (types : List Ty) → (placed : List (Option α)) →
    (∀ u ∈ types, ∀ a, some a ∈ placed → Matches twice (build a u) (build' a u)) → (index : Nat) →
    Matches twice (buildFields ctor span index names types (placed.map (Option.map build)))
      (buildFields ctor span' index names types (placed.map (Option.map build')))
  | name :: names, type :: types, arg :: placed, h, index => by
    have hfield : Matches twice (buildField ctor span index name type (arg.map build))
        (buildField ctor span' index name type (arg.map build')) := by
      unfold buildField
      cases arg with
      | none =>
        dsimp only [Option.map_none]
        split
        · exact .pure _
        · exact .typeFailure _ span span'
      | some a => exact (h type (.head _) a (.head _)).bind fun v => .pure _
    have hrest := matches_buildFields ctor span span' names types placed
      (fun u hu a ha => h u (.tail _ hu) a (.tail _ ha)) (index + 1)
    rw [List.map_cons, List.map_cons, buildFields, buildFields]
    exact hfield.bind fun field => hrest.bind fun fields => .pure _
  | [], _, _, _, _ | _ :: _, [], _, _, _ | _ :: _, _ :: _, [], _, _ => by
    simp only [List.map_nil, buildFields]
    exact .pure _

/-- A constructor does the same with arguments that do. -/
theorem matches_construct (build build' : α → Ty → Build Value) (args : List (Argument α))
    {ctorName : String} {ctor : Constructor} (hctor : scene.registry.constructor? ctorName = some ctor)
    (h : ∀ typeArgs, ∀ u ∈ scene.registry.fieldTypes ctor typeArgs, ∀ arg ∈ args,
      Matches twice (build arg.value u) (build' arg.value u)) (t : Ty) (span span' : Span) :
    Matches twice (scene.construct ctorName (args.map (Argument.map build)) t span)
      (scene.construct ctorName (args.map (Argument.map build')) t span') := by
  rw [construct_eq, construct_eq, hctor]
  refine (matches_typeArguments ctor t span span').bind fun typeArgs => ?_
  rw [Constructor.place_map, Constructor.place_map]
  cases hplaced : ctor.place args with
  | error problem => exact .typeFailure _ span span'
  | ok placed =>
    have hfits := (Constructor.place_ok (P := fun a => ∀ u ∈ scene.registry.fieldTypes ctor typeArgs,
      Matches twice (build a u) (build' a u)) (fun arg harg u hu => h typeArgs u hu arg harg) hplaced).1
    refine (matches_buildFields ctor span span' _ _ placed (fun u hu a ha => hfits a ha u hu) 0).bind
      fun fields => ?_
    exact (matches_settleConditions ctor.name fields span span').bind fun _ => .pure _

end Construction

/-- A constructor is refused where an optional value is expected. -/
theorem construct_optional {ctorName : String} {ctor : Constructor}
    (hctor : scene.registry.constructor? ctorName = some ctor) (args : List BuildArgument) (inner : Ty)
    (span : Span) : scene.construct ctorName args (.optional inner) span =
      Build.mismatch (.optional inner) ("constructor " ++ Diagnostic.name ctor.name) span := by
  rw [construct_eq, hctor]
  rfl

/-- A constructor that is given a type without its first layer does what it does with the type without any. -/
theorem matches_construct_peeled {ctorName : String} {ctor : Constructor}
    (hctor : scene.registry.constructor? ctorName = some ctor) {t : Ty} (ht : t.isOptionalTwice = true → twice)
    {args args' : List BuildArgument} {span span' : Span}
    (h : Matches twice (scene.construct ctorName args t.required span)
      (scene.construct ctorName args' t.required span')) :
    Matches twice (scene.construct ctorName args t.peeled span)
      (scene.construct ctorName args' t.required span') := by
  cases hlayers : t.isOptionalTwice with
  | false => rwa [Ty.peeled_eq_required hlayers]
  | true =>
    obtain ⟨inner, hinner⟩ := Ty.exists_peeled_eq hlayers
    rw [hinner, construct_optional hctor]
    exact fun p _ _ => .inr ⟨ht hlayers, _, p, rfl, inner, ctor.name, span, rfl⟩

/-! ## Targets -/

/-- A text is fitted alike at two places. -/
theorem matches_fitText (text : String) (t : Ty) (span span' : Span) :
    Matches twice (scene.fitText text t span) (scene.fitText text t span') := by
  exact .of_mirrors ((mirror nowhere scene).of_renumber (fits_mirror text t span))
    ((mirror nowhere scene).of_renumber (fits_mirror text t span'))

/-- A value is fitted alike at two places. -/
theorem matches_coerce (t : Ty) (v : Value) (span span' : Span) :
    Matches twice (t.coerce scene.fitText span v) (t.coerce scene.fitText span' v) := by
  have hcoerce (place : Span) := (mirror nowhere scene).of_renumber
    (Simulation.coerce place t v fun text t' _ => fits_mirror text t' place)
  exact .of_mirrors (hcoerce span) (hcoerce span')

/-- A literal that is not null is built as the same data is. -/
theorem matches_literal {e : Expr} {v : Operand} (t : Ty) (captures : Captures) (span span' : Span)
    (heval : e.eval (Rule.environment captures) = .ok v) (hv : v.toValue ≠ .null) :
    Matches twice (evaluateTarget scene.fitText captures span e t)
      (t.required.coerce scene.fitText span' v.toValue) := by
  rw [evaluateTarget, heval, Ty.coerce_required hv]
  exact matches_coerce t v.toValue span span'

/-- What gives a text is built as text data is. -/
theorem matches_text {e : Expr} {text : String} {t : Ty} (hdepth : 0 < scene.textDepth)
    (ht : t.isConcrete = true) (captures : Captures) (span span' : Span)
    (heval : e.eval (Rule.environment captures) = .ok (.str text)) :
    Matches twice (evaluateTarget scene.fitText captures span e t) (scene.fitText text t span') := by
  rw [evaluateTarget, heval]
  change Matches twice (t.coerce scene.fitText span (.str text)) _
  rw [coerce_text hdepth text span t ht]
  exact matches_fitText text t span span'

section Targets

variable {captures : Captures} {span : Span} {force : Nat → Build Unit}

/-- A slot evaluates to its text. -/
theorem eval_slot {name text : String} (h : captures.lookup name = some text) (span : Span) :
    (Expr.name span name).eval (Rule.environment captures) = .ok (.str text) := by
  rw [Expr.eval, Rule.environment, Environment.ofLookup]
  dsimp only
  rw [h]
  rfl

/-- No type of a field is open, texts may be taken apart, and `twice` holds if a field is optional twice over. -/
structure Definite (scene : Scene) (twice : Prop) : Prop where
  textDepth : 0 < scene.textDepth
  concrete : scene.registry.isConcrete = true
  twice : scene.registry.hasOptionalTwice = true → twice

mutual

/-- **A target is built as the data is that it is written as,** unless a constructor is called where a value is
optional twice over. -/
theorem matches_buildTarget (hscene : scene.Definite twice) : (e : Expr) → {d : Data} →
    e.toData? scene.registry captures = some d → {t : Ty} → t.isConcrete = true →
      (t.isOptionalTwice = true → twice) →
        Matches twice (scene.buildTarget scene.fitText captures span e t) (buildData scene force d t)
  | .int dspan n, _, h, t, _, _ => by
    obtain rfl := Option.some.inj h
    simp only [buildTarget, buildData]
    exact matches_literal (v := .int n) t captures span dspan rfl (by rintro ⟨⟩)
  | .float dspan x, _, h, t, _, _ => by
    obtain rfl := Option.some.inj h
    simp only [buildTarget, buildData]
    exact matches_literal (v := .float x) t captures span dspan rfl (by rintro ⟨⟩)
  | .bool dspan b, _, h, t, _, _ => by
    obtain rfl := Option.some.inj h
    simp only [buildTarget, buildData]
    exact matches_literal (v := .bool b) t captures span dspan rfl (by rintro ⟨⟩)
  | .str dspan text, _, h, t, ht, _ => by
    obtain rfl := Option.some.inj h
    simp only [buildTarget, buildData]
    exact matches_text hscene.textDepth ht captures span dspan rfl
  | .null dspan, _, h, t, _, _ => by
    obtain rfl := Option.some.inj h
    simp only [buildTarget, buildData]
    change Matches twice (t.coerce scene.fitText span .null) _
    rw [Ty.coerce_null]
    split
    · exact .pure _
    · exact .typeFailure _ span dspan
  | .name dspan n, d, h, t, ht, hlayers => by
    rw [Expr.toData?] at h
    rw [buildTarget]
    cases hslot : captures.lookup n with
    | some text =>
      rw [hslot] at h
      obtain rfl := Option.some.inj h
      rw [buildData]
      exact matches_text hscene.textDepth ht captures span dspan (eval_slot hslot dspan)
    | none =>
      rw [hslot] at h
      dsimp only at h
      split at h
      · -- a name that is no slot is a constructor without arguments
        rename_i hsome
        obtain rfl := Option.some.inj h
        obtain ⟨ctor, hctor⟩ := Option.isSome_iff_exists.1 hsome
        rw [Option.isNone_none, Bool.true_and, if_pos hsome, buildData]
        refine matches_construct_peeled hctor hlayers ?_
        exact matches_construct (fun pair : Expr × Data => scene.buildTarget scene.fitText captures span pair.1)
          (fun pair => buildData scene force pair.2) [] hctor (by rintro _ _ _ _ ⟨⟩) t.required span dspan
      · cases h
  | .call dspan callee args, d, h, t, ht, hlayers => by
    rw [Expr.toData?] at h
    rw [buildTarget]
    split at h
    · rename_i hsome
      obtain ⟨ds, hds, rfl⟩ := Option.map_eq_some_iff.1 h
      obtain ⟨ctor, hctor⟩ := Option.isSome_iff_exists.1 hsome
      have hargs := matches_targetArguments hscene args
      obtain ⟨pairs, rfl, rfl, hpairs⟩ := Expr.exists_pairs_of_argumentsToData? hds
      rw [if_pos hsome, buildData, targetArguments_eq_map, Discipline.dataArguments_eq_map, List.map_map,
        List.map_map]
      refine matches_construct_peeled hctor hlayers ?_
      refine matches_construct (fun pair => scene.buildTarget scene.fitText captures span pair.1)
        (fun pair => buildData scene force pair.2) pairs hctor ?_ t.required span dspan
      -- whatever the type arguments are, a field has the type that is declared for it
      intro typeArgs u hu pair hpair
      have hmem := List.mem_of_find?_eq_some hctor
      obtain ⟨hu, field, hfield, rfl⟩ := Registry.exists_field_of_isConcrete hscene.concrete hmem hu
      refine hargs _ (List.mem_map_of_mem hpair) (hpairs pair hpair) hu fun hlayers => hscene.twice ?_
      exact List.any_eq_true.2 ⟨ctor, hmem, List.any_eq_true.2 ⟨field, hfield, hlayers⟩⟩
    · cases h
  | .list .., _, h, _, _, _ | .field .., _, h, _, _, _ | .unary .., _, h, _, _, _
  | .binary .., _, h, _, _, _ => by cases h

/-- The arguments of a target are built as the data is that they are written as. -/
theorem matches_targetArguments (hscene : scene.Definite twice) : (args : List (Argument Expr)) →
    ∀ arg ∈ args, ∀ {d : Data}, arg.value.toData? scene.registry captures = some d → ∀ {t : Ty},
      t.isConcrete = true → (t.isOptionalTwice = true → twice) →
        Matches twice (scene.buildTarget scene.fitText captures span arg.value t) (buildData scene force d t)
  | [], _, harg, _, _, _, _, _ => by cases harg
  | ⟨_, e⟩ :: args, arg, harg, d, hd, t, ht, hlayers => by
    rcases List.mem_cons.1 harg with rfl | harg
    · exact matches_buildTarget hscene e hd ht hlayers
    · exact matches_targetArguments hscene args arg harg hd ht hlayers

end

end Targets

/-- **A target builds what the same data would build.**  It gives the same value and leaves the same checks, or it
has the same failure, all but for the places; or a constructor is called where a value is optional twice over, and
the target is refused. -/
theorem target_builds_as_data (scene : Scene) (hdepth : 0 < scene.textDepth)
    (hconcrete : scene.registry.isConcrete = true) {t : Ty} (ht : t.isConcrete = true) (captures : Captures)
    {e : Expr} {d : Data} (hd : e.toData? scene.registry captures = some d) (span : Span)
    (force : Nat → Build Unit) (p : Progress) :
    Build.unplaced ((scene.buildTarget scene.fitText captures span e t).outcome p) =
        Build.unplaced ((buildData scene force d t).outcome p) ∨
      (t.isOptionalTwice = true ∨ scene.registry.hasOptionalTwice = true) ∧
        ∃ failure q, (scene.buildTarget scene.fitText captures span e t).outcome p = (.error failure, q) ∧
          failure.IsRefusal := by
  have hscene : scene.Definite (t.isOptionalTwice = true ∨ scene.registry.hasOptionalTwice = true) :=
    ⟨hdepth, hconcrete, .inr⟩
  exact matches_buildTarget hscene e hd ht .inl p p rfl

/-- Two types, of which the second has an optional field of the first, and a rule for the second. -/
def marks : String :=
  "type u = u {s: str}\n" ++ "type t = t {n: float, a: optional u}\n" ++ "\"{x}!\" => t(a: u(x), n: 1)\n"

/-- Whether no type is open, no field is optional twice over, and the target of the only rule is data and gives a
value, when its slot is `hi`. -/
def isMarked (registry : Registry) (rules : List Rule) : Bool :=
  let scene : Scene := ⟨registry, rules, [], maxTextDepth⟩
  match rules with
  | [rule] =>
    registry.isConcrete && !registry.hasOptionalTwice && (rule.target.toData? registry [("x", "hi")]).isSome &&
      ((scene.buildTarget scene.fitText [("x", "hi")] .zero rule.target (.named "t" [])).outcome
        (.initial 0)).1.toOption.isSome
  | _ => false

/-- A target with a call for an optional field, and an integer for a float, is built as its data is. -/
theorem target_builds_as_data_marks : ∃ document registry rule, Document.read marks = .ok document ∧
    Loaded.declarations document = .ok (registry, [rule]) ∧ registry.isConcrete = true ∧
    let scene : Scene := ⟨registry, [rule], [], maxTextDepth⟩
    ∃ d, rule.target.toData? registry [("x", "hi")] = some d ∧
      Build.unplaced ((scene.buildTarget scene.fitText [("x", "hi")] .zero rule.target (.named "t" [])).outcome
          (.initial 0)) =
        Build.unplaced ((buildData scene scene.force d (.named "t" [])).outcome (.initial 0)) ∧
      ∃ v q, (scene.buildTarget scene.fitText [("x", "hi")] .zero rule.target (.named "t" [])).Gives
        (.initial 0) v q := by
  have htest : (Document.read marks).toOption.any (fun document =>
      (Loaded.declarations document).toOption.any fun declarations =>
        isMarked declarations.1 declarations.2) = true := by
    decide +kernel
  obtain ⟨document, hdocument, htest⟩ := exists_ok_of_any htest
  obtain ⟨⟨registry, rules⟩, hdeclarations, htest⟩ := exists_ok_of_any htest
  unfold isMarked at htest
  dsimp only at htest
  split at htest
  · rename_i rule
    simp only [Bool.and_eq_true, Bool.not_eq_true'] at htest
    obtain ⟨⟨⟨hconcrete, htwice⟩, hdata⟩, hgives⟩ := htest
    obtain ⟨d, hd⟩ := Option.isSome_iff_exists.1 hdata
    have hdepth : 0 < maxTextDepth := by decide
    refine ⟨document, registry, rule, hdocument, hdeclarations, hconcrete, d, hd, ?_, ?_⟩
    · refine (target_builds_as_data ⟨registry, _, [], maxTextDepth⟩ hdepth hconcrete rfl _ hd .zero _
        (.initial 0)).resolve_right ?_
      rintro ⟨hlayers | hlayers, -⟩
      · cases hlayers
      · cases htwice.symm.trans hlayers
    · generalize hout : Build.outcome _ _ = out at hgives
      rcases out with ⟨e | v, q⟩
      · cases hgives
      · exact ⟨v, q, hout⟩
  · cases htest

/-- Two types, of which the second has a field of the first that is optional twice over. -/
def twiceOptional : Scene where
  registry :=
    { types := [⟨"u", [], ["u"], .zero⟩, ⟨"t", [], ["t"], .zero⟩]
      constructors :=
        [⟨"u", "u", [⟨some "s", .prim .str, .zero⟩], .zero⟩,
          ⟨"t", "t", [⟨some "a", .optional (.optional (.named "u" [])), .zero⟩], .zero⟩]
      constraints := [] }
  rules := []
  slots := []
  textDepth := maxTextDepth

/-- The target `t(u(x))`. -/
def nestedCall : Expr := .call .zero "t" [⟨none, .call .zero "u" [⟨none, .name .zero "x"⟩]⟩]

/-- The data `t(u("hi"))`. -/
def nestedData : Data := .call .zero "t" [⟨none, .call .zero "u" [⟨none, .str .zero "hi"⟩]⟩]

/-- The target is refused, and the data that it is written as is accepted. -/
theorem target_differs_from_data :
    twiceOptional.registry.isConcrete = true ∧ (Ty.named "t" []).isConcrete = true ∧
      nestedCall.toData? twiceOptional.registry [("x", "hi")] = some nestedData ∧
      (twiceOptional.buildTarget twiceOptional.fitText [("x", "hi")] .zero nestedCall (.named "t" [])).outcome
          (.initial 0) =
        (.error (.type ⟨.mismatch (.optional (.named "u" [])) ("constructor " ++ Diagnostic.name "u"), .zero⟩),
          .initial 0) ∧
      (buildData twiceOptional twiceOptional.force nestedData (.named "t" [])).outcome (.initial 0) =
        (.ok (.record (some "t") (some "t")
          [⟨some "a", .record (some "u") (some "u") [⟨some "s", .str "hi"⟩]⟩]), .initial 0) :=
  ⟨rfl, rfl, rfl, rfl, rfl⟩

end Scene

end TypedData
