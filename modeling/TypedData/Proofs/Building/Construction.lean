import TypedData.Proofs.Building.Placing
import TypedData.Proofs.Simulation.Record

/-!
# What a constructor makes of its arguments

Where arguments cannot be bound to the fields nothing is built.  Otherwise the fields are built in their order,
each from the argument that is bound to it, and the conditions are checked after that.  A field without an
argument is null if its type is optional, and stops the building if not (`Scene.instantiates_construct`).

All of this depends on which argument is bound to which field, and not on the order of the arguments
(`Scene.construct_binds`).
-/

namespace TypedData

/-! ## Arguments that cannot be bound -/

/-- Whether the problem is that the arguments of a constructor do not go with its fields. -/
def TypeProblem.isOfBinding (ctor : String) : TypeProblem → Bool
  | tooManyArguments name _ _ | unknownField name _ | duplicateField name _ => name == ctor
  | _ => false

namespace Constructor

variable {α : Type} {ctor : Constructor} {problem : TypeProblem}

/-- If an argument cannot be placed, this is a failure of the binding of arguments to this constructor. -/
theorem isOfBinding_of_placeAt {k : Nat} {a : α} {placed : List (Option α)}
    (h : ctor.placeAt k a placed = .error problem) : problem.isOfBinding ctor.name = true := by
  unfold placeAt at h
  split at h
  · rw [← Except.error.inj h]
    exact beq_self_eq_true _
  · cases h

/-- If arguments cannot be placed, this is a failure of the binding of arguments to this constructor. -/
theorem isOfBinding_of_placeFrom {given : Nat} : {args : List (Argument α)} → {next : Nat} →
    {placed : List (Option α)} → ctor.placeFrom given next placed args = .error problem →
      problem.isOfBinding ctor.name = true
  | [], _, _, h => by cases h
  | ⟨none, a⟩ :: args, next, placed, h => by
    rw [placeFrom] at h
    split at h
    · rw [← Except.error.inj h]
      exact beq_self_eq_true _
    · cases hplaced : ctor.placeAt next a placed with
      | error problem' =>
        rw [hplaced] at h
        exact Except.error.inj h ▸ isOfBinding_of_placeAt hplaced
      | ok placed' =>
        rw [hplaced] at h
        exact isOfBinding_of_placeFrom h
  | ⟨some name, a⟩ :: args, next, placed, h => by
    rw [placeFrom] at h
    split at h
    · rw [← Except.error.inj h]
      exact beq_self_eq_true _
    · rename_i k _
      cases hplaced : ctor.placeAt k a placed with
      | error problem' =>
        rw [hplaced] at h
        exact Except.error.inj h ▸ isOfBinding_of_placeAt hplaced
      | ok placed' =>
        rw [hplaced] at h
        exact isOfBinding_of_placeFrom h

end Constructor

namespace Scene

variable {scene : Scene} {ctor : Constructor} {span : Span}

/-! ## Fields -/

/-- A field is built from its argument, or it has none and may be left out. -/
theorem of_gives_buildField {index : Nat} {name : Option String} {type : Ty} {arg : Option (Ty → Build Value)}
    {p q : Progress} {f : Field Value} (h : (buildField ctor span index name type arg).Gives p f q) :
    f.name = name ∧ ((∃ build, arg = some build ∧ (build type).Gives p f.value q) ∨
      arg = none ∧ type.isOptional = true ∧ f.value = .null) := by
  unfold buildField at h
  split at h
  · rename_i build
    obtain ⟨v, p', hv, h⟩ := Build.gives_bind_iff.1 h
    obtain ⟨rfl, rfl⟩ := Build.gives_pure_iff.1 h
    exact ⟨rfl, .inl ⟨build, rfl, hv⟩⟩
  · split at h
    · rename_i hoptional
      obtain ⟨rfl, -⟩ := Build.gives_pure_iff.1 h
      exact ⟨rfl, .inr ⟨rfl, hoptional, rfl⟩⟩
    · exact absurd h Build.not_gives_throw

/-- The fields that are built have their names and their order, and each is built as it has to be. -/
theorem of_gives_buildFields : {names : List (Option String)} → {types : List Ty} →
    {args : List (Option (Ty → Build Value))} → {index : Nat} → {p q : Progress} → {fields : List (Field Value)} →
    types.length = names.length → args.length = names.length →
    (buildFields ctor span index names types args).Gives p fields q →
      fields.map Field.name = names ∧ ∀ (k : Nat) (f : Field Value) (u : Ty) (arg : Option (Ty → Build Value)),
        fields[k]? = some f → types[k]? = some u → args[k]? = some arg →
          (∃ build, arg = some build ∧ ∃ p' q', (build u).Gives p' f.value q') ∨
            arg = none ∧ u.isOptional = true ∧ f.value = .null
  | [], [], [], _, _, _, fields, _, _, h => by
    obtain ⟨rfl, -⟩ := Build.gives_pure_iff.1 h
    exact ⟨rfl, fun k f u arg hf => by cases hf⟩
  | name :: names, type :: types, arg :: args, index, p, q, fields, htypes, hargs, h => by
    rw [buildFields] at h
    obtain ⟨f, p', hf, h⟩ := Build.gives_bind_iff.1 h
    obtain ⟨rest, q', hrest, h⟩ := Build.gives_bind_iff.1 h
    obtain ⟨rfl, rfl⟩ := Build.gives_pure_iff.1 h
    obtain ⟨hname, hvalue⟩ := of_gives_buildField hf
    obtain ⟨hnames, hvalues⟩ := of_gives_buildFields (Nat.succ.inj htypes) (Nat.succ.inj hargs) hrest
    refine ⟨by rw [List.map_cons, hname, hnames], fun k g u arg' hg hu harg' => ?_⟩
    cases k with
    | zero =>
      obtain rfl := Option.some.inj hg
      obtain rfl := Option.some.inj hu
      obtain rfl := Option.some.inj harg'
      refine hvalue.imp_left ?_
      rintro ⟨build, hbuild, hgives⟩
      exact ⟨build, hbuild, p, p', hgives⟩
    | succ k => exact hvalues k g u arg' hg hu harg'

/-- **A field that is missing stops the building,** after the fields before it. -/
theorem outcome_buildFields_missing {u : Ty} {label : Option String} (hu : u.isOptional = false) :
    {names : List (Option String)} → {types : List Ty} → {args : List (Option (Ty → Build Value))} →
    {k index : Nat} → {p q : Progress} → {fields : List (Field Value)} →
    names[k]? = some label → types[k]? = some u → args[k]? = some none →
    (buildFields ctor span index (names.take k) (types.take k) (args.take k)).Gives p fields q →
      (buildFields ctor span index names types args).outcome p =
        (.error (.type ⟨.missingField ctor.name (fieldLabel (index + k) label), span⟩), q)
  | name :: names, type :: types, arg :: args, 0, index, p, q, fields, hname, htype, harg, h => by
    obtain rfl := Option.some.inj hname
    obtain rfl := Option.some.inj htype
    obtain rfl := Option.some.inj harg
    obtain ⟨-, rfl⟩ := Build.gives_pure_iff.1 h
    rw [buildFields, Build.outcome_bind, buildField, hu]
    rfl
  | name :: names, type :: types, arg :: args, k + 1, index, p, q, fields, hname, htype, harg, h => by
    rw [List.take_succ_cons, List.take_succ_cons, List.take_succ_cons, buildFields] at h
    obtain ⟨f, p', hf, h⟩ := Build.gives_bind_iff.1 h
    obtain ⟨rest, q', hrest, h⟩ := Build.gives_bind_iff.1 h
    obtain ⟨-, rfl⟩ := Build.gives_pure_iff.1 h
    have hmissing := outcome_buildFields_missing hu (List.getElem?_cons_succ ▸ hname) (List.getElem?_cons_succ ▸ htype)
      (List.getElem?_cons_succ ▸ harg) hrest
    rw [buildFields, Build.outcome_bind, hf]
    dsimp only
    rw [Build.outcome_bind, hmissing, Nat.add_assoc, Nat.add_comm 1 k]

/-! ## Records -/

/-- A constructor that is accepted for a type builds its record at the arguments that the type gives. -/
theorem typeArguments_of_accepts {t : Ty} {typeArgs : List Ty} (h : Accepts t ctor typeArgs) :
    typeArguments ctor t span = pure typeArgs := by
  rcases h with rfl | ⟨hopen, rfl⟩
  · rw [typeArguments, if_pos rfl]
  · rcases Ty.eq_of_isOpen hopen with rfl | ⟨name, rfl⟩ <;> rfl

/-- Builds the fields of a record from the arguments that are bound to them, and checks the conditions on it. -/
def constructBound (scene : Scene) (ctor : Constructor) (typeArgs : List Ty)
    (bound : List (Option (Ty → Build Value))) (span : Span) : Build Value := do
  let fields ← buildFields ctor span 0 (ctor.fields.map FieldSpec.name) (scene.registry.fieldTypes ctor typeArgs) bound
  scene.settleConditions ctor.name fields span
  return .record (some ctor.typeName) (some ctor.name) fields

/-- **What a constructor makes of its arguments,** where its type has the given arguments. -/
structure Instantiates (scene : Scene) (ctor : Constructor) (typeArgs : List Ty) (args : List BuildArgument)
    (span : Span) (build : Build Value) : Prop where
  /-- The arguments can be bound exactly if each has a field and no two have the same. -/
  binds : (∃ bound, ctor.place args = .ok bound) ↔ ctor.Bindable args
  /-- If they cannot, nothing is built. -/
  unbindable : ¬ ctor.Bindable args → ∀ p, ∃ problem, problem.isOfBinding ctor.name = true ∧
    build.outcome p = (.error (.type ⟨problem, span⟩), p)
  /-- If they can, each is bound to the field that it is for, and the record is built from what is bound. -/
  bindable : ∀ bound, ctor.place args = .ok bound →
    ctor.Bound args bound ∧ build = scene.constructBound ctor typeArgs bound span
  /-- A record that is built has all fields in the order of the declaration.  The value of a field is what its
  argument builds at the type of the field; without an argument it is null, and the type optional. -/
  record : ∀ p v q, build.Gives p v q → ∃ fields, v = .record (some ctor.typeName) (some ctor.name) fields ∧
    fields.map Field.name = ctor.fields.map FieldSpec.name ∧
    ∀ (k : Nat) (f : Field Value) (u : Ty), fields[k]? = some f →
      (scene.registry.fieldTypes ctor typeArgs)[k]? = some u →
        (∃ arg, (some k, arg) ∈ ctor.targets args ∧ ∃ p' q', (arg u).Gives p' f.value q') ∨
          (∀ arg, (some k, arg) ∉ ctor.targets args) ∧ u.isOptional = true ∧ f.value = .null
  /-- A field that has no argument and no optional type is missing: when the fields before it are built, building
  fails. -/
  missing : ∀ bound (k : Nat) (field : FieldSpec) (u : Ty), ctor.place args = .ok bound →
    ctor.fields[k]? = some field → (scene.registry.fieldTypes ctor typeArgs)[k]? = some u →
    (∀ arg, (some k, arg) ∉ ctor.targets args) → u.isOptional = false →
    ∀ p fields q, (buildFields ctor span 0 ((ctor.fields.map FieldSpec.name).take k)
      ((scene.registry.fieldTypes ctor typeArgs).take k) (bound.take k)).Gives p fields q →
        build.outcome p = (.error (.type ⟨.missingField ctor.name (fieldLabel k field.name), span⟩), q)

variable {name : String} {args args' : List BuildArgument} {expected : Ty} {typeArgs : List Ty}

/-- What a constructor does, where a type is expected that admits it. -/
theorem construct_of_accepts (hctor : scene.registry.constructor? name = some ctor)
    (haccepts : Accepts expected ctor typeArgs) : scene.construct name args expected span =
      match ctor.place args with
      | .error problem => Build.typeFailure problem span
      | .ok bound => scene.constructBound ctor typeArgs bound span := by
  rw [construct_eq, hctor]
  dsimp only
  rw [typeArguments_of_accepts haccepts, pure_bind]
  rfl

/-- **Construction binds its arguments as they are meant.**  Where the constructor is accepted and all arguments can
be bound, the fields are built in order, an optional field without an argument being null; otherwise construction
fails before any argument is built, as `Instantiates` says. -/
theorem instantiates_construct (hctor : scene.registry.constructor? name = some ctor)
    (haccepts : Accepts expected ctor typeArgs) (args : List BuildArgument) (span : Span) :
    scene.Instantiates ctor typeArgs args span (scene.construct name args expected span) where
  binds := Constructor.exists_place_iff
  unbindable hunbindable p := by
    rw [construct_of_accepts hctor haccepts]
    cases hplaced : ctor.place args with
    | error problem => exact ⟨problem, Constructor.isOfBinding_of_placeFrom hplaced, rfl⟩
    | ok bound => exact absurd (Constructor.exists_place_iff.1 ⟨bound, hplaced⟩) hunbindable
  bindable bound hplaced := by
    rw [construct_of_accepts hctor haccepts, hplaced]
    exact ⟨Constructor.bound_of_place hplaced, rfl⟩
  record p v q h := by
    rw [construct_of_accepts hctor haccepts] at h
    cases hplaced : ctor.place args with
    | error problem =>
      rw [hplaced] at h
      exact absurd h Build.not_gives_throw
    | ok bound =>
      rw [hplaced] at h
      have hbound := Constructor.bound_of_place hplaced
      obtain ⟨fields, p', hfields, h⟩ := Build.gives_bind_iff.1 h
      obtain ⟨_, _, -, h⟩ := Build.gives_bind_iff.1 h
      obtain ⟨rfl, -⟩ := Build.gives_pure_iff.1 h
      have hlength : (ctor.fields.map FieldSpec.name).length = ctor.fields.length := List.length_map ..
      obtain ⟨hnames, hvalues⟩ := of_gives_buildFields
        ((Registry.length_fieldTypes ..).trans hlength.symm) (hbound.length.trans hlength.symm) hfields
      refine ⟨fields, rfl, hnames, fun k f u hf hu => ?_⟩
      have hk : k < ctor.fields.length := by
        rw [← Registry.length_fieldTypes scene.registry ctor typeArgs]
        exact (List.getElem?_eq_some_iff.1 hu).1
      have harg := List.getElem?_eq_getElem (hbound.length ▸ hk)
      refine (hvalues k f u _ hf hu harg).imp ?_ ?_
      · rintro ⟨build, hbuild, hgives⟩
        exact ⟨build, (hbound.getElem? k build).1 (harg.trans (congrArg some hbuild)), hgives⟩
      · rintro ⟨hnone, hnull⟩
        exact ⟨(hbound.getElem?_eq_some_none_iff hk).1 (harg.trans (congrArg some hnone)), hnull⟩
  missing bound k field u hplaced hfield hu hnone hoptional p fields q h := by
    have hk := (List.getElem?_eq_some_iff.1 hfield).1
    have hname : (ctor.fields.map FieldSpec.name)[k]? = some field.name := by rw [List.getElem?_map, hfield]; rfl
    have harg := ((Constructor.bound_of_place hplaced).getElem?_eq_some_none_iff hk).2 hnone
    have hmissing := outcome_buildFields_missing hoptional hname hu harg h
    rw [construct_of_accepts hctor haccepts, hplaced]
    dsimp only
    rw [constructBound, Build.outcome_bind, hmissing, Nat.zero_add]

/-- Arguments with the same targets make the same record, if they can be bound. -/
theorem construct_of_perm (hctor : scene.registry.constructor? name = some ctor)
    (haccepts : Accepts expected ctor typeArgs) (hperm : (ctor.targets args).Perm (ctor.targets args'))
    (hbindable : ctor.Bindable args) :
    scene.construct name args' expected span = scene.construct name args expected span := by
  obtain ⟨bound, hplaced⟩ := Constructor.exists_place_iff.2 hbindable
  rw [construct_of_accepts hctor haccepts, construct_of_accepts hctor haccepts, hplaced,
    (Constructor.place_of_perm hperm).1 hplaced]

/-- Arguments that cannot be bound make nothing. -/
theorem not_gives_construct (hctor : scene.registry.constructor? name = some ctor)
    (haccepts : Accepts expected ctor typeArgs) (hunbindable : ¬ ctor.Bindable args) {p q : Progress} {v : Value} :
    ¬ (scene.construct name args expected span).Gives p v q := by
  obtain ⟨problem, -, hfails⟩ := (instantiates_construct hctor haccepts args span).unbindable hunbindable p
  exact Build.not_gives_of_error hfails

/-- **A constructor binds its arguments to its fields, in whichever order they stand.**  Where arguments are moved, but
those without names keep their order, they can be bound just as before, and then the whole construction is the same:
it gives the same record with the same conditions left to be checked, or it fails alike. -/
theorem construct_binds (hctor : scene.registry.constructor? name = some ctor)
    (haccepts : Accepts expected ctor typeArgs) (args : List BuildArgument) (span : Span) :
    scene.Instantiates ctor typeArgs args span (scene.construct name args expected span) ∧
      ∀ args' : List BuildArgument, args.Perm args' →
        args.filter Argument.isPositional = args'.filter Argument.isPositional →
          (ctor.Bindable args ↔ ctor.Bindable args') ∧
          (ctor.Bindable args → scene.construct name args' expected span = scene.construct name args expected span) ∧
          ∀ p v q, (scene.construct name args expected span).Gives p v q ↔
            (scene.construct name args' expected span).Gives p v q := by
  refine ⟨instantiates_construct hctor haccepts args span, fun args' hmoved horder => ?_⟩
  have hperm : (ctor.targets args).Perm (ctor.targets args') := Constructor.perm_targets hmoved horder
  have hbindable := Constructor.bindable_of_perm hperm
  refine ⟨hbindable, construct_of_perm hctor haccepts hperm, fun p v q => ?_⟩
  by_cases h : ctor.Bindable args
  · rw [construct_of_perm hctor haccepts hperm h]
  · exact iff_of_false (not_gives_construct hctor haccepts h) (not_gives_construct hctor haccepts (mt hbindable.2 h))

/-- A constructor with a field that may be left out between two others. -/
def pair : Constructor :=
  ⟨"pair", "pair", [⟨some "first", .prim .str, .zero⟩, ⟨some "middle", .optional (.prim .str), .zero⟩,
    ⟨some "last", .prim .str, .zero⟩], .zero⟩

/-- A scene with this constructor. -/
def ofPairs : Scene := ⟨⟨[⟨"pair", [], ["pair"], .zero⟩], [pair], []⟩, [], [], 0⟩

/-- The last field before the first one, which is not named. -/
def lastFirst : List BuildArgument :=
  [⟨some "last", fun _ => pure (.str "b")⟩, ⟨none, fun _ => pure (.str "a")⟩]

/-- Two named arguments in either order, with an optional field between them left out. -/
theorem construct_binds_lastFirst :
    ofPairs.Instantiates pair [] lastFirst .zero (ofPairs.construct "pair" lastFirst (.named "pair" []) .zero) ∧
      lastFirst.Perm lastFirst.reverse ∧
      (ofPairs.construct "pair" lastFirst.reverse (.named "pair" []) .zero).Gives (.initial 0)
        (.record (some "pair") (some "pair")
          [⟨some "first", .str "a"⟩, ⟨some "middle", .null⟩, ⟨some "last", .str "b"⟩])
        (.initial 0) := by
  have hctor : ofPairs.registry.constructor? "pair" = some pair := rfl
  obtain ⟨hinstantiates, hmoved⟩ :=
    construct_binds hctor (.inl rfl : Accepts (.named "pair" []) pair []) lastFirst .zero
  have hperm : lastFirst.Perm lastFirst.reverse := (List.reverse_perm _).symm
  refine ⟨hinstantiates, hperm, ((hmoved _ hperm rfl).2.2 _ _ _).1 ?_⟩
  rfl

end Scene

end TypedData
