import TypedData.Proofs.Building.Complete
import TypedData.Proofs.Condition.Waiting
import TypedData.Proofs.Value.Written

/-!
# Building values from what is written

What is written for a value that was built (`Value.written`) can be built again, over the same declarations and
without rules, if the value holds no references and the fields without names come first in each of its records: it
gives the value, and nothing else changes (`Complete.restores`).  The type that is expected may be wider than the one
the value was built at.  Otherwise nothing can be built from it (`Built.inOrder`), as arguments are placed at fields
in their order just when those without names come first (`Constructor.place_eq_ok_iff`).
-/

namespace TypedData

/-! ## Placing arguments -/

/-- Those without names come before those with names. -/
def PositionalFirst (names : List (Option String)) : Prop := names.Pairwise fun a b => b = none → a = none

namespace PositionalFirst

variable {names : List (Option String)} {name : String}

/-- No names stand in the right order. -/
@[simp] theorem nil : PositionalFirst [] := List.Pairwise.nil

/-- A position in front of names in the right order is allowed. -/
@[simp] theorem none_cons : PositionalFirst (none :: names) ↔ PositionalFirst names := by
  simp [PositionalFirst]

/-- Behind a name there is no position any more. -/
@[simp] theorem some_cons : PositionalFirst (some name :: names) ↔ none ∉ names ∧ PositionalFirst names := by
  simp only [PositionalFirst, List.pairwise_cons, reduceCtorEq, imp_false]
  refine and_congr_left fun _ => ⟨fun h hmem => h none hmem rfl, ?_⟩
  rintro hnone _ hmem rfl
  exact hnone hmem

/-- Names alone stand in the right order. -/
theorem map_some (keys : List String) : PositionalFirst (keys.map some) := by
  induction keys with
  | nil => exact nil
  | cons key keys ih => simp [ih]

end PositionalFirst

namespace Constructor

variable {α : Type} {ctor : Constructor}

/-- A field is found by its name, if none before it has the same. -/
theorem fieldIndex?_eq {name : String} {before after : List (Option String)}
    (hnames : ctor.fields.map FieldSpec.name = before ++ some name :: after) (hbefore : some name ∉ before) :
    ctor.fieldIndex? name = some before.length := by
  have hmap : ctor.fieldIndex? name = (before ++ some name :: after).findIdx? (· == some name) := by
    rw [← hnames, List.findIdx?_map]
    rfl
  have hnone : before.findIdx? (· == some name) = none :=
    List.findIdx?_eq_none_iff.2 fun other hother => beq_eq_false_iff_ne.2 fun h => hbefore (h ▸ hother)
  rw [hmap, List.findIdx?_append, hnone, List.findIdx?_cons, beq_self_eq_true]
  simp

/-- No two fields have the same name, so a name is not among those before it. -/
theorem not_mem_of_nodup {name : String} {before after : List (Option String)}
    (hnodup : (ctor.fields.filterMap FieldSpec.name).Nodup)
    (hnames : ctor.fields.map FieldSpec.name = before ++ some name :: after) : some name ∉ before := by
  intro hmem
  have hall : ctor.fields.filterMap FieldSpec.name = before.filterMap id ++ name :: after.filterMap id := by
    rw [← Function.id_comp FieldSpec.name, ← List.filterMap_map, hnames, List.filterMap_append]
    rfl
  rw [hall] at hnodup
  have hname : name ∈ before.filterMap id := List.mem_filterMap.2 ⟨some name, hmem, rfl⟩
  exact (List.nodup_append.1 hnodup).2.2 name hname name (.head _) rfl

/-- The field of a name stands where the argument with the name does. -/
theorem fieldIndex?_eq_length {name : String} {arg : α} {before args : List (Argument α)}
    (hnodup : (ctor.fields.filterMap FieldSpec.name).Nodup)
    (hnames : ctor.fields.map FieldSpec.name = (before ++ (⟨some name, arg⟩ : Argument α) :: args).map Argument.name) :
    ctor.fieldIndex? name = some before.length := by
  have hnames := hnames.trans List.map_append
  rw [fieldIndex?_eq hnames (not_mem_of_nodup hnodup hnames), List.length_map]

/-- The next argument is placed at the next field. -/
theorem placeAt_length (before : List (Argument α)) (arg : Argument α) (rest : Nat) :
    ctor.placeAt before.length arg.value (before.map (fun arg => some arg.value) ++ List.replicate (rest + 1) none) =
      .ok ((before ++ [arg]).map (fun arg => some arg.value) ++ List.replicate rest none) := by
  have hfree : (before.map (fun arg => some arg.value) ++ List.replicate (rest + 1) none)[before.length]? =
      some none := by
    rw [List.getElem?_append_right (by simp)]
    simp
  rw [placeAt, hfree]
  simp [List.replicate_succ]

/-- A field does not take a second argument. -/
theorem placeAt_ne_ok {index : Nat} {arg other : α} {placed placed' : List (Option α)}
    (h : placed[index]? = some (some other)) : ctor.placeAt index arg placed ≠ .ok placed' := by
  rw [placeAt, h]
  rintro ⟨⟩

/-- Arguments in the order of the fields are placed just when those without names come first, and the next of them has
the next field: the field of the next one would have been taken otherwise. -/
theorem placeFrom_eq_ok_iff (given : Nat) (hnodup : (ctor.fields.filterMap FieldSpec.name).Nodup)
    (placed : List (Option α)) {args : List (Argument α)} (before : List (Argument α)) (next : Nat)
    (hnames : ctor.fields.map FieldSpec.name = (before ++ args).map Argument.name) (hnext : next ≤ before.length) :
    ctor.placeFrom given next (before.map (fun arg => some arg.value) ++ List.replicate args.length none) args =
      .ok placed ↔
      (PositionalFirst (args.map Argument.name) ∧ (none ∈ args.map Argument.name → next = before.length)) ∧
        (before ++ args).map (fun arg => some arg.value) = placed := by
  induction args generalizing before next with
  | nil => simp [placeFrom, PositionalFirst]
  | cons arg args ih =>
    have happend : (before ++ [arg]) ++ args = before ++ arg :: args := List.append_assoc before [arg] args
    have hplace := ctor.placeAt_length before arg args.length
    have hrest := fun next => ih (before ++ [arg]) next (happend ▸ hnames)
    rw [happend, List.length_append] at hrest
    obtain ⟨label, arg⟩ := arg
    cases label with
    | none =>
      rw [placeFrom, if_neg (by simp; omega)]
      rcases hnext.eq_or_lt with rfl | hlt
      · -- The next field is free, and it is the one of this argument.
        rw [List.length_cons, hplace]
        refine (hrest (before.length + 1) le_rfl).trans ?_
        simp [PositionalFirst]
      · -- The next field has been taken by name.
        have htaken : (before.map (fun arg => some arg.value) ++
            List.replicate (args.length + 1) none)[next]? = some (some before[next].value) := by
          rw [List.getElem?_append_left (by simpa using hlt)]
          simp [hlt]
        constructor
        · intro hplaced
          obtain ⟨_, htwice, -⟩ := bind_eq_ok_iff.1 hplaced
          exact absurd htwice (placeAt_ne_ok htaken)
        · rintro ⟨⟨-, hnone⟩, -⟩
          exact absurd (hnone (.head _)) hlt.ne
    | some name =>
      have hindex := fieldIndex?_eq_length hnodup hnames
      rw [placeFrom, hindex]
      dsimp only
      rw [List.length_cons, hplace]
      refine (hrest next (by simp; omega)).trans (and_congr_left fun _ => ?_)
      -- None of those that follow may be without a name, as the next field lies behind.
      have hnone : (none ∈ args.map Argument.name → next = before.length + 1) ↔ none ∉ args.map Argument.name :=
        ⟨fun h hmem => by have := h hmem; omega, fun h hmem => absurd hmem h⟩
      rw [List.length_singleton, hnone, List.map_cons, PositionalFirst.some_cons]
      constructor
      · rintro ⟨hfirst, hnone⟩
        exact ⟨⟨hnone, hfirst⟩, by simpa using fun arg harg hname => absurd (List.mem_map.2 ⟨arg, harg, hname⟩) hnone⟩
      · rintro ⟨⟨hnone, hfirst⟩, -⟩
        exact ⟨hfirst, hnone⟩

/-- **Arguments in the order of the fields are placed at the fields** just when those without names come first. -/
theorem place_eq_ok_iff {args : List (Argument α)} {placed : List (Option α)}
    (hnodup : (ctor.fields.filterMap FieldSpec.name).Nodup)
    (hnames : ctor.fields.map FieldSpec.name = args.map Argument.name) :
    ctor.place args = .ok placed ↔
      PositionalFirst (args.map Argument.name) ∧ args.map (fun arg => some arg.value) = placed := by
  have hlength : ctor.fields.length = args.length := by simpa using congrArg List.length hnames
  rw [place, hlength]
  refine (placeFrom_eq_ok_iff args.length hnodup placed [] 0 hnames le_rfl).trans ?_
  simp

end Constructor

namespace Scene

variable {scene target : Scene} {p q : Progress} {force : Nat → Build Unit} {t u : Ty} {v : Value} {span : Span}

/-- Where a type is expected, the value is built again from what is written for it, and nothing else changes. -/
def Restores (target : Scene) (force : Nat → Build Unit) (q : Progress) (v : Value) (u : Ty) : Prop :=
  (target.buildData force v.written u).Gives q v q

/-! ## Lists and records -/

/-- Items that are each built from what is written for them are built from the list of that. -/
theorem gives_buildItems : (vs : List Value) → (∀ v ∈ vs, target.Restores force q v u) →
    (buildItems target force (Value.writtenItems vs) u).Gives q vs q
  | [], _ => Build.gives_pure_iff.2 ⟨rfl, rfl⟩
  | v :: vs, h => by
    obtain ⟨hv, hvs⟩ := List.forall_mem_cons.1 h
    rw [Value.writtenItems, buildItems]
    refine Build.gives_bind_iff.2 ⟨v, q, hv, Build.gives_bind_iff.2 ⟨vs, q, gives_buildItems vs hvs, ?_⟩⟩
    exact Build.gives_pure_iff.2 ⟨rfl, rfl⟩

/-- The arguments that are written for fields have the names of the fields. -/
theorem names_dataArguments (fields : List (Field Value)) :
    (dataArguments target force (Value.writtenArguments fields)).map Argument.name = fields.map Field.name := by
  induction fields with
  | nil => rfl
  | cons f fields ih => exact congrArg (f.name :: ·) ih

/-- The fields of a record are built again, each where its type is expected. -/
theorem gives_buildFields (ctor : Constructor) : (fields : List (Field Value)) → (types : List Ty) → (index : Nat) →
    types.length = fields.length →
    (∀ (i : Nat) (f : Field Value) (u : Ty), fields[i]? = some f → types[i]? = some u →
      target.Restores force q f.value u) →
    (buildFields ctor span index (fields.map Field.name) types
      ((dataArguments target force (Value.writtenArguments fields)).map fun arg => some arg.value)).Gives q fields q
  | [], _, _, _, _ => Build.gives_pure_iff.2 ⟨rfl, rfl⟩
  | ⟨name, v⟩ :: fields, type :: types, index, hlength, h => by
    rw [Value.writtenArguments, dataArguments, List.map_cons, List.map_cons, buildFields]
    have hfield : (buildField ctor span index name type
        (some fun type => target.buildData force v.written type)).Gives q ⟨name, v⟩ q :=
      Build.gives_bind_iff.2 ⟨v, q, h 0 _ _ rfl rfl, Build.gives_pure_iff.2 ⟨rfl, rfl⟩⟩
    have hrest := gives_buildFields ctor fields types (index + 1) (Nat.succ.inj hlength)
      fun i f u hf hu => h (i + 1) f u hf hu
    refine Build.gives_bind_iff.2 ⟨_, q, hfield, Build.gives_bind_iff.2 ⟨fields, q, hrest, ?_⟩⟩
    exact Build.gives_pure_iff.2 ⟨rfl, rfl⟩

/-- A record of a constructor has as many fields as the constructor has types for them. -/
theorem length_fieldTypes_of_names {ctor : Constructor} {fields : List (Field Value)} (registry : Registry)
    (args : List Ty) (hnames : fields.map Field.name = ctor.fields.map FieldSpec.name) :
    (registry.fieldTypes ctor args).length = fields.length := by
  rw [Registry.length_fieldTypes]
  simpa using (congrArg List.length hnames).symm

/-- **A record is constructed again** from arguments in the order of its fields. -/
theorem gives_construct {ctor : Constructor} {typeArgs : List Ty} {fields : List (Field Value)}
    (hctor : target.registry.constructor? ctor.name = some ctor)
    (hnodup : (ctor.fields.filterMap FieldSpec.name).Nodup)
    (hnames : fields.map Field.name = ctor.fields.map FieldSpec.name)
    (hfirst : PositionalFirst (fields.map Field.name))
    (hargs : (typeArguments ctor u span).Gives q typeArgs q)
    (hfields : ∀ (i : Nat) (f : Field Value) (u : Ty), fields[i]? = some f →
      (target.registry.fieldTypes ctor typeArgs)[i]? = some u → target.Restores force q f.value u)
    (hconditions : ∀ constraint ∈ target.registry.constraintsFor ctor.name,
      constraint.condition.check (recordEnvironment q.value? target.hops fields) = .ok true) :
    (target.construct ctor.name (dataArguments target force (Value.writtenArguments fields)) u span).Gives q
      (.record (some ctor.typeName) (some ctor.name) fields) q := by
  have hplace : ctor.place (dataArguments target force (Value.writtenArguments fields)) = .ok _ :=
    (Constructor.place_eq_ok_iff hnodup (by rw [names_dataArguments, hnames])).2 ⟨by rwa [names_dataArguments], rfl⟩
  have hlength := length_fieldTypes_of_names target.registry typeArgs hnames
  have hcheck : target.checkRecord q ctor.name fields 0 span = .ok none := checkConstraints_of_holds hconditions
  unfold construct
  rw [hctor]
  refine Build.gives_bind_iff.2 ⟨typeArgs, q, hargs, ?_⟩
  rw [hplace, ← hnames]
  refine Build.gives_bind_iff.2 ⟨fields, q, gives_buildFields ctor fields _ 0 hlength hfields, ?_⟩
  refine Build.gives_bind_iff.2 ⟨q, q, Build.gives_get_iff.2 ⟨rfl, rfl⟩, ?_⟩
  refine Build.gives_bind_iff.2 ⟨none, q, Build.gives_ofExcept_iff.2 ⟨hcheck, rfl⟩, ?_⟩
  exact Build.gives_pure_iff.2 ⟨rfl, rfl⟩

/-- Fields with distinct keys are built from the entries that are written for them. -/
theorem gives_untypedFields : (fields : List (Field Value)) → (seen : List String) → Unseen seen fields →
    (∀ f ∈ fields, target.Restores force q f.value .any) →
      (untypedFields target force seen (Value.writtenEntries fields)).Gives q fields q
  | [], _, _, _ => Build.gives_pure_iff.2 ⟨rfl, rfl⟩
  | ⟨name, v⟩ :: fields, seen, hunseen, h => by
    obtain ⟨hv, hfields⟩ := List.forall_mem_cons.1 h
    obtain ⟨key, rfl, hkey, hrest⟩ := hunseen.of_cons
    rw [Value.writtenEntries, untypedFields, Option.getD_some]
    dsimp only
    rw [if_neg (by rwa [List.contains_iff_mem])]
    refine Build.gives_bind_iff.2 ⟨v, q, hv, Build.gives_bind_iff.2 ⟨fields, q, ?_, ?_⟩⟩
    · exact gives_untypedFields fields (key :: seen) hrest hfields
    · exact Build.gives_pure_iff.2 ⟨rfl, rfl⟩

/-! ## Types -/

/-- Where a constructor is accepted, it is accepted after widening, perhaps with fewer type arguments. -/
theorem exists_typeArguments {ctor : Constructor} {args : List Ty} (haccepts : Accepts t ctor args)
    (htu : t.Widens u) (span : Span) : u.required = u ∧
      ∃ args', (typeArguments ctor u span).Gives q args' q ∧ Ty.ArgsWiden args args' := by
  have hopen : u.isOpen = true → u.required = u ∧
      ∃ args', (typeArguments ctor u span).Gives q args' q ∧ Ty.ArgsWiden args args' := by
    intro hu
    rcases Ty.eq_of_isOpen hu with rfl | ⟨name, rfl⟩
    · exact ⟨rfl, [], Build.gives_pure_iff.2 ⟨rfl, rfl⟩, .nil args⟩
    · exact ⟨rfl, [], Build.gives_pure_iff.2 ⟨rfl, rfl⟩, .nil args⟩
  rcases haccepts with rfl | ⟨ht, rfl⟩
  · cases htu with
    | «open» hu => exact hopen hu
    | @named _ _ args' hlength hargs =>
      refine ⟨rfl, args', ?_, hlength, hargs⟩
      rw [typeArguments, if_pos rfl]
      exact Build.gives_pure_iff.2 ⟨rfl, rfl⟩
  · exact hopen (htu.isOpen ht)

/-! ## Scalars -/

/-- A value that is fitted to an open type is kept. -/
theorem gives_coerce_open (fitText : String → Ty → Span → Build Value) (span : Span) (hu : u.isOpen = true)
    (v : Value) : (u.required.coerce fitText span v).Gives q v q := by
  rcases Ty.eq_of_isOpen hu with rfl | ⟨name, rfl⟩
  · exact Build.gives_pure_iff.2 ⟨rfl, rfl⟩
  · exact Build.gives_pure_iff.2 ⟨rfl, rfl⟩

/-- Without rules a text stays a text. -/
theorem gives_fitText (hrules : target.rules = []) (hdepth : target.textDepth ≠ 0)
    (hu : u = .prim .str ∨ u.isOpen = true) (text : String) : (target.fitText text u span).Gives q (.str text) q := by
  obtain ⟨depth, hdepth⟩ := Nat.exists_eq_succ_of_ne_zero hdepth
  have hpure : (target.fitText text u span) = pure (.str text) := by
    rw [fitText, hdepth, fitTextWithin, hrules]
    rcases hu with rfl | hu
    · rfl
    · rcases Ty.eq_of_isOpen hu with rfl | ⟨name, rfl⟩ <;> rfl
  rw [hpure]
  exact Build.gives_pure_iff.2 ⟨rfl, rfl⟩

/-- Being optional makes no difference to what is built. -/
theorem Restores.optional (h : target.Restores force q v u) : target.Restores force q v (.optional u) := by
  cases v with
  | null => exact Build.gives_pure_iff.2 ⟨rfl, rfl⟩
  | str text => exact (congrArg (Build.Gives · q _ q) (fitText_optional text u .zero)).mpr h
  | record typeName ctor fields => cases ctor <;> exact h
  | _ => exact h

/-- A list is built from what is written for it, if its items are. -/
theorem Restores.list {item : Ty} {items : List Value} (hrequired : u.required = u) (hitem : u.item? = some item)
    (h : ∀ v ∈ items, target.Restores force q v item) : target.Restores force q (.list items) u := by
  rw [Restores, Value.written, buildData, hrequired, buildList, hitem]
  exact Build.gives_bind_iff.2 ⟨items, q, gives_buildItems items h, Build.gives_pure_iff.2 ⟨rfl, rfl⟩⟩

/-- Where any value is accepted, one without records is built again. -/
theorem restores_plain (hrules : target.rules = []) (hdepth : target.textDepth ≠ 0) (hu : u.isOpen = true)
    (hv : v.Plain) : target.Restores force q v u := by
  induction hv generalizing u with
  | null =>
    rw [Restores, Value.written, buildData, hu, Bool.or_true, if_pos rfl]
    exact Build.gives_pure_iff.2 ⟨rfl, rfl⟩
  | bool b => exact gives_coerce_open target.fitText .zero hu (.bool b)
  | int n => exact gives_coerce_open target.fitText .zero hu (.int n)
  | float x => exact gives_coerce_open target.fitText .zero hu (.float x)
  | str text => exact gives_fitText hrules hdepth (.inr hu) text
  | list _ ih =>
    rcases Ty.eq_of_isOpen hu with rfl | ⟨name, rfl⟩
    · exact .list rfl rfl fun v hv => ih v hv rfl
    · exact .list rfl rfl fun v hv => ih v hv rfl

/-! ## Values -/

/-- The second scene has the same declarations, and no rules. -/
structure Echoes (scene target : Scene) : Prop where
  registry : target.registry = scene.registry
  rules : target.rules = []
  textDepth : target.textDepth ≠ 0
  nodup : ∀ ctor ∈ scene.registry.constructors, (ctor.fields.filterMap FieldSpec.name).Nodup

end Scene

/-- If a value is a record, its fields without names come first. -/
def Value.IsInOrder : Value → Prop
  | .record _ _ fields => PositionalFirst (fields.map Field.name)
  | _ => True

/-- A value without records is in order throughout. -/
theorem Value.Plain.inOrder {v : Value} (hv : v.Plain) : Value.Throughout Value.IsInOrder v := by
  intro x hx
  cases hv.part hx <;> trivial

namespace Scene

variable {scene target : Scene} {p q : Progress} {force : Nat → Build Unit} {t u : Ty} {v : Value}

/-- **What was built is built again** from what is written for it, where the type that was expected is widened. -/
theorem Complete.restores (h : scene.Complete p) (hechoes : scene.Echoes target) (hv : scene.Built p t v)
    (hu : t.Widens u) (hclosed : ∀ r, ¬ Value.Part (.ref r) v) (horder : Value.Throughout Value.IsInOrder v) :
    target.Restores force q v u := by
  induction hv generalizing u with
  | null ht =>
    have haccepts : (u.isOptional || u.isOpen) = true := by
      rcases ht with ht | ht
      · cases hu with
        | «open» hu => rw [hu, Bool.or_true]
        | optional => rfl
        | _ => cases ht
      · rw [hu.isOpen ht, Bool.or_true]
    rw [Restores, Value.written, buildData, if_pos haccepts]
    exact Build.gives_pure_iff.2 ⟨rfl, rfl⟩
  | optional _ ih =>
    cases hu with
    | «open» hu => exact ih (.open hu) hclosed horder
    | optional hu => exact (ih hu hclosed horder).optional
  | plain ht hv => exact restores_plain hechoes.rules hechoes.textDepth (hu.isOpen ht) hv
  | int n =>
    cases hu with
    | «open» hu => exact gives_coerce_open target.fitText .zero hu (.int n)
    | prim => exact Build.gives_pure_iff.2 ⟨rfl, rfl⟩
  | float x =>
    cases hu with
    | «open» hu => exact gives_coerce_open target.fitText .zero hu (.float x)
    | prim => exact Build.gives_pure_iff.2 ⟨rfl, rfl⟩
  | bool b =>
    cases hu with
    | «open» hu => exact gives_coerce_open target.fitText .zero hu (.bool b)
    | prim => exact Build.gives_pure_iff.2 ⟨rfl, rfl⟩
  | str text =>
    refine gives_fitText hechoes.rules hechoes.textDepth ?_ text
    cases hu with
    | «open» hu => exact .inr hu
    | prim => exact .inl rfl
  | list hitem _ ih =>
    obtain ⟨item', hitem', hwiden, hrequired⟩ := hu.exists_item hitem
    exact .list hrequired hitem' fun v hv => ih v hv hwiden (fun r hr => hclosed r (.item hv hr)) (horder.item v hv)
  | @fields _ fields ht hkeyed _ ih =>
    have hfields : (untypedFields target force [] (Value.writtenEntries fields)).Gives q fields q :=
      gives_untypedFields fields [] (.of_keyed hkeyed) fun f hf =>
        ih f hf (.open rfl) (fun r hr => hclosed r (.field hf hr)) (horder.field f hf)
    rcases Ty.eq_of_isOpen (hu.isOpen ht) with rfl | ⟨name, rfl⟩
    · exact Build.gives_bind_iff.2 ⟨fields, q, hfields, Build.gives_pure_iff.2 ⟨rfl, rfl⟩⟩
    · exact Build.gives_bind_iff.2 ⟨fields, q, hfields, Build.gives_pure_iff.2 ⟨rfl, rfl⟩⟩
  | @record t ctor args fields hctor haccepts hnames _ hchecked ih =>
    -- the fields are built for wider types, and conditions that see no references have the verdicts they had
    obtain ⟨hrequired, args', hargs, hwiden⟩ := exists_typeArguments (q := q) haccepts hu .zero
    have hclosed : ∀ f ∈ fields, ∀ r, ¬ Value.Part (.ref r) f.value := fun f hf r hr => hclosed r (.field hf hr)
    rw [Restores, Value.written, buildData, hrequired]
    refine gives_construct (hechoes.registry ▸ hctor) (hechoes.nodup ctor (Registry.mem_of_constructor? hctor))
      hnames (horder _ (.self _)) hargs (fun i f u hf hu => ?_) fun constraint hmem => ?_
    · rw [hechoes.registry] at hu
      obtain ⟨t, ht, htu⟩ := scene.registry.fieldTypes_widens ctor hwiden hu
      have hf' := List.mem_of_getElem? hf
      exact ih i f t hf ht htu (hclosed f hf') (horder.field f hf')
    · rw [hechoes.registry] at hmem
      rw [constraint.condition.check_eq_of_no_references hclosed _ p.value? _ scene.hops]
      exact h.holds hchecked hmem
  | handle => exact (hclosed _ (.self _)).elim

/-! ## What must be in order -/

/-- Where a type is expected, some value is built from what is written for the value. -/
def Allows (target : Scene) (force : Nat → Build Unit) (v : Value) (u : Ty) : Prop :=
  ∃ q w q', (target.buildData force v.written u).Gives q w q'

/-- If items are built from what is written, every item may be written. -/
theorem allows_of_buildItems : (vs : List Value) → {q q' : Progress} → {ws : List Value} →
    (buildItems target force (Value.writtenItems vs) u).Gives q ws q' → ∀ v ∈ vs, target.Allows force v u
  | [], _, _, _, _ => List.forall_mem_nil _
  | v :: vs, q, _, _, h => by
    rw [Value.writtenItems, buildItems] at h
    obtain ⟨w, q₁, hv, h⟩ := Build.gives_bind_iff.1 h
    obtain ⟨ws, q₂, hvs, -⟩ := Build.gives_bind_iff.1 h
    exact List.forall_mem_cons.2 ⟨⟨q, w, q₁, hv⟩, allows_of_buildItems vs hvs⟩

/-- If fields are built from what is written, every field may be written at the type that it has. -/
theorem allows_of_buildFields {ctor : Constructor} {span : Span} : (fields : List (Field Value)) →
    (types : List Ty) → (index : Nat) → {q q' : Progress} → {built : List (Field Value)} →
    (buildFields ctor span index (fields.map Field.name) types
      ((dataArguments target force (Value.writtenArguments fields)).map fun arg => some arg.value)).Gives q built q' →
    ∀ (i : Nat) (f : Field Value) (u : Ty), fields[i]? = some f → types[i]? = some u → target.Allows force f.value u
  | [], _, _, _, _, _, _ => by simp
  | _ :: _, [], _, _, _, _, _ => by simp
  | ⟨name, v⟩ :: fields, type :: types, index, q, _, _, h => by
    rw [Value.writtenArguments, dataArguments, List.map_cons, List.map_cons, buildFields] at h
    obtain ⟨_, q₁, hfield, h⟩ := Build.gives_bind_iff.1 h
    obtain ⟨_, q₂, hfields, -⟩ := Build.gives_bind_iff.1 h
    obtain ⟨w, q₃, hv, -⟩ := Build.gives_bind_iff.1 hfield
    rintro (_ | i) f u hf hu
    · obtain rfl := Option.some.inj hf
      obtain rfl := Option.some.inj hu
      exact ⟨q, w, q₃, hv⟩
    · exact allows_of_buildFields fields types (index + 1) hfields i f u hf hu

/-- If the fields of a record without a type are built from what is written, every field may be written. -/
theorem allows_of_untypedFields : (fields : List (Field Value)) → (seen : List String) → {q q' : Progress} →
    {built : List (Field Value)} → (untypedFields target force seen (Value.writtenEntries fields)).Gives q built q' →
      ∀ f ∈ fields, target.Allows force f.value .any
  | [], _, _, _, _, _ => List.forall_mem_nil _
  | ⟨name, v⟩ :: fields, seen, q, _, _, h => by
    rw [Value.writtenEntries, untypedFields] at h
    dsimp only at h
    split at h
    · obtain ⟨_, _, htwice, -⟩ := Build.gives_bind_iff.1 h
      exact (Build.not_gives_throw htwice).elim
    · obtain ⟨w, q₁, hv, h⟩ := Build.gives_bind_iff.1 h
      obtain ⟨_, _, hfields, -⟩ := Build.gives_bind_iff.1 h
      exact List.forall_mem_cons.2 ⟨⟨q, w, q₁, hv⟩, allows_of_untypedFields fields _ hfields⟩

/-- A record is only constructed again if its fields without names come first. -/
theorem positionalFirst_of_construct {ctor : Constructor} {typeArgs : List Ty} {fields : List (Field Value)}
    {span : Span} {w : Value} {q' : Progress}
    (hctor : target.registry.constructor? ctor.name = some ctor)
    (hnodup : (ctor.fields.filterMap FieldSpec.name).Nodup)
    (hnames : fields.map Field.name = ctor.fields.map FieldSpec.name)
    (hargs : (typeArguments ctor u span).Gives q typeArgs q)
    (h : (target.construct ctor.name (dataArguments target force (Value.writtenArguments fields)) u span).Gives
      q w q') :
    PositionalFirst (fields.map Field.name) ∧ ∀ (i : Nat) (f : Field Value) (u : Ty), fields[i]? = some f →
      (target.registry.fieldTypes ctor typeArgs)[i]? = some u → target.Allows force f.value u := by
  unfold construct at h
  rw [hctor] at h
  obtain ⟨typeArgs', q₁, hargs', h⟩ := Build.gives_bind_iff.1 h
  obtain ⟨hsame, rfl⟩ := Prod.mk.inj (hargs.symm.trans hargs')
  obtain rfl := Except.ok.inj hsame
  cases hplace : ctor.place (dataArguments target force (Value.writtenArguments fields)) with
  | error problem =>
    rw [hplace] at h
    exact (Build.not_gives_throw h).elim
  | ok placed =>
    rw [hplace, ← hnames] at h
    have hplaced := (Constructor.place_eq_ok_iff hnodup (by rw [names_dataArguments, hnames])).1 hplace
    rw [names_dataArguments] at hplaced
    obtain ⟨hfirst, rfl⟩ := hplaced
    obtain ⟨_, _, hfields, -⟩ := Build.gives_bind_iff.1 h
    exact ⟨hfirst, allows_of_buildFields fields _ 0 hfields⟩

/-- Being optional makes no difference to what can be built, null apart. -/
theorem Allows.of_optional (hv : v ≠ .null) (h : target.Allows force v (.optional u)) : target.Allows force v u := by
  obtain ⟨q, w, q', h⟩ := h
  refine ⟨q, w, q', ?_⟩
  cases v with
  | null => exact absurd rfl hv
  | str text => exact (congrArg (Build.Gives · q w q') (fitText_optional text u .zero)).mp h
  | record typeName ctor fields => cases ctor <;> exact h
  | _ => exact h

/-- **If anything is built from what is written for what was built,** the fields without names come first in each of
its records. -/
theorem Built.inOrder (hv : scene.Built p t v) (hechoes : scene.Echoes target) (hu : t.Widens u)
    (h : target.Allows force v u) : Value.Throughout Value.IsInOrder v := by
  induction hv generalizing u with
  | @optional inner v _ ih =>
    by_cases hnull : v = .null
    · exact hnull ▸ Value.Plain.null.inOrder
    cases hu with
    | «open» hu => exact ih (.open hu) h
    | optional hu => exact ih hu (h.of_optional hnull)
  | list hitem _ ih =>
    obtain ⟨item', hitem', hwiden, hrequired⟩ := hu.exists_item hitem
    obtain ⟨q, w, q', h⟩ := h
    rw [Value.written, buildData, hrequired, buildList, hitem'] at h
    obtain ⟨ws, q₁, hitems, -⟩ := Build.gives_bind_iff.1 h
    intro x hx
    cases hx with
    | self => trivial
    | item hv hx => exact ih _ hv hwiden (allows_of_buildItems _ hitems _ hv) _ hx
  | @fields _ fields ht hkeyed _ ih =>
    obtain ⟨q, w, q', h⟩ := h
    have hfields : ∀ f ∈ fields, target.Allows force f.value .any := by
      rw [Value.written, buildData] at h
      rcases Ty.eq_of_isOpen (hu.isOpen ht) with rfl | ⟨name, rfl⟩
      · obtain ⟨_, _, hfields, -⟩ := Build.gives_bind_iff.1 h
        exact allows_of_untypedFields fields [] hfields
      · obtain ⟨_, _, hfields, -⟩ := Build.gives_bind_iff.1 h
        exact allows_of_untypedFields fields [] hfields
    intro x hx
    cases hx with
    | self =>
      obtain ⟨keys, -, hnames⟩ := hkeyed
      exact (congrArg PositionalFirst hnames).mpr (PositionalFirst.map_some keys)
    | field hf hx => exact ih _ hf (.open rfl) (hfields _ hf) _ hx
  | @record t ctor args fields hctor haccepts hnames _ hchecked ih =>
    obtain ⟨q, w, q', h⟩ := h
    obtain ⟨hrequired, args', hargs, hwiden⟩ := exists_typeArguments (q := q) haccepts hu .zero
    rw [Value.written, buildData, hrequired] at h
    -- the constructor takes its arguments only if those without names come first
    obtain ⟨hfirst, hfields⟩ := positionalFirst_of_construct (hechoes.registry ▸ hctor)
      (hechoes.nodup ctor (Registry.mem_of_constructor? hctor)) hnames hargs h
    intro x hx
    cases hx with
    | self => exact hfirst
    | @field f _ _ _ hf hx =>
      obtain ⟨i, hi⟩ := List.mem_iff_getElem?.1 hf
      have hlength := length_fieldTypes_of_names target.registry args' hnames
      obtain ⟨u, hu⟩ : ∃ u, (target.registry.fieldTypes ctor args')[i]? = some u :=
        ⟨_, List.getElem?_eq_getElem (hlength ▸ (List.getElem?_eq_some_iff.1 hi).1)⟩
      obtain ⟨t, ht, htu⟩ := scene.registry.fieldTypes_widens ctor hwiden (hechoes.registry ▸ hu)
      exact ih i f t hi ht htu (hfields i f u hi hu) _ hx
  | plain _ hv => exact hv.inOrder
  | null => exact Value.Plain.null.inOrder
  | int n => exact (Value.Plain.int n).inOrder
  | float x => exact (Value.Plain.float x).inOrder
  | bool b => exact (Value.Plain.bool b).inOrder
  | str text => exact (Value.Plain.str text).inOrder
  | handle =>
    intro x hx
    cases hx
    trivial

end Scene

end TypedData
