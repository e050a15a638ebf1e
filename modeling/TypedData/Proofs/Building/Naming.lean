import TypedData.Proofs.Building.Construction
import TypedData.Proofs.Loaded.Names
import TypedData.Proofs.Reading.Legibility

/-!
# What is built names its arguments

The keys in a block of a constructor may be any texts, but nothing is built from one that is not the name of a field.
As a value is made of everything that is written in data, the keys in all such blocks are names if anything is built
(`Scene.namesArguments_of_gives`).
-/

namespace TypedData

/-- At some type a value is built. -/
def Buildable (build : Ty → Build Value) : Prop := ∃ t p v q, (build t).Gives p v q

namespace Constructor

variable {ctor : Constructor}

/-- A field that is found by its name has the name. -/
theorem mem_of_fieldIndex? {name : String} {k : Nat} (h : ctor.fieldIndex? name = some k) :
    name ∈ ctor.fields.filterMap FieldSpec.name := by
  obtain ⟨hk, hname, -⟩ := List.findIdx?_eq_some_iff_getElem.1 h
  exact List.mem_filterMap.2 ⟨_, List.getElem_mem hk, beq_iff_eq.1 hname⟩

/-- Where arguments can be bound there is a field for each of them, and its name is that of a field. -/
theorem Bindable.exists_field {α : Type} {args : List (Argument α)} {arg : Argument α} (h : ctor.Bindable args)
    (harg : arg ∈ args) : ∃ k, (some k, arg.value) ∈ ctor.targets args ∧
      ∀ key, arg.name = some key → key ∈ ctor.fields.filterMap FieldSpec.name := by
  obtain ⟨i, hi, rfl⟩ := List.mem_iff_getElem.1 harg
  let position := 0 + (args.take i).countP Argument.isPositional
  have htarget : (ctor.fieldFor? position args[i].name, args[i].value) ∈ ctor.targets args :=
    List.mem_mapIdx.2 ⟨i, hi, rfl⟩
  obtain ⟨k, hk⟩ := Option.ne_none_iff_exists'.1 (h.found _ htarget)
  have hk : ctor.fieldFor? position args[i].name = some k := hk
  rw [hk] at htarget
  refine ⟨k, htarget, fun key hkey => ?_⟩
  rw [hkey] at hk
  exact mem_of_fieldIndex? hk

end Constructor

namespace Scene

variable {scene : Scene} {force : Nat → Build Unit} {ctor : Constructor} {args : List BuildArgument} {t : Ty}
  {span : Span} {p q : Progress} {v : Value}

/-- Where the fields of a constructor are built, so is every argument that is bound to one. -/
theorem buildable_of_buildFields {bound : List (Option (Ty → Build Value))} {typeArgs : List Ty} {index k : Nat}
    {fields : List (Field Value)} {build : Ty → Build Value} (hbound : bound.length = ctor.fields.length)
    (h : (buildFields ctor span index (ctor.fields.map FieldSpec.name) (scene.registry.fieldTypes ctor typeArgs)
      bound).Gives p fields q) (hbuild : bound[k]? = some (some build)) : Buildable build := by
  have hlength : (ctor.fields.map FieldSpec.name).length = ctor.fields.length := List.length_map ..
  have htypes : (scene.registry.fieldTypes ctor typeArgs).length = ctor.fields.length := Registry.length_fieldTypes ..
  obtain ⟨hnames, hvalues⟩ := of_gives_buildFields (htypes.trans hlength.symm) (hbound.trans hlength.symm) h
  have hk : k < ctor.fields.length := hbound ▸ (List.getElem?_eq_some_iff.1 hbuild).1
  have hfields : k < fields.length := by rwa [← List.length_map Field.name, hnames, hlength]
  have hf := List.getElem?_eq_getElem hfields
  have hu := List.getElem?_eq_getElem (htypes.symm ▸ hk)
  rcases hvalues k _ _ _ hf hu hbuild with ⟨build', hsame, p', q', hv⟩ | ⟨hnone, -⟩
  · obtain rfl := Option.some.inj hsame
    exact ⟨_, p', _, q', hv⟩
  · cases hnone

/-- **A constructor makes values of all its arguments,** and their names are those of fields. -/
theorem buildable_of_construct {name : String} (h : (scene.construct name args t span).Gives p v q) :
    ∃ ctor ∈ scene.registry.constructors, ∀ arg ∈ args, Buildable arg.value ∧
      ∀ key, arg.name = some key → key ∈ ctor.fields.filterMap FieldSpec.name := by
  unfold construct at h
  split at h
  · exact absurd h Build.not_gives_throw
  · rename_i ctor hctor
    obtain ⟨typeArgs, _, -, h⟩ := Build.gives_bind_iff.1 h
    split at h
    · exact absurd h Build.not_gives_throw
    · rename_i bound hplaced
      obtain ⟨fields, _, hfields, -⟩ := Build.gives_bind_iff.1 h
      have hbound := Constructor.bound_of_place hplaced
      have hbindable := Constructor.exists_place_iff.1 ⟨bound, hplaced⟩
      refine ⟨ctor, Registry.mem_of_constructor? hctor, fun arg harg => ?_⟩
      obtain ⟨k, htarget, hnames⟩ := hbindable.exists_field harg
      exact ⟨buildable_of_buildFields hbound.length hfields ((hbound.getElem? k arg.value).2 htarget), hnames⟩

/-- What a record is built from. -/
theorem buildable_of_buildRecord {tagged : Option (String × List BuildArgument)} {fields : Build (List (Field Value))}
    (h : (scene.buildRecord args tagged fields t span).Gives p v q) :
    (∀ arg ∈ args, Buildable arg.value) ∨
      (∃ key inner, tagged = some (key, inner) ∧ ∀ arg ∈ inner, Buildable arg.value) ∨
        ∃ p' fs q', fields.Gives p' fs q' := by
  unfold buildRecord at h
  split at h
  · split at h
    · obtain ⟨_, -, hargs⟩ := buildable_of_construct h
      exact .inl fun arg harg => (hargs arg harg).1
    · split at h
      · rename_i key inner
        split at h
        · obtain ⟨_, -, hargs⟩ := buildable_of_construct h
          exact .inr (.inl ⟨key, inner, rfl, fun arg harg => (hargs arg harg).1⟩)
        · exact absurd h Build.not_gives_throw
      · exact absurd h Build.not_gives_throw
  · obtain ⟨fs, q', hfields, -⟩ := Build.gives_bind_iff.1 h
    exact .inr (.inr ⟨p, fs, q', hfields⟩)
  · obtain ⟨fs, q', hfields, -⟩ := Build.gives_bind_iff.1 h
    exact .inr (.inr ⟨p, fs, q', hfields⟩)
  · exact absurd h Build.not_gives_throw

/-- A list that is built comes from its items. -/
theorem gives_items_of_buildList {items : Ty → Build (List Value)} (h : (buildList items t span).Gives p v q) :
    ∃ item vs q', (items item).Gives p vs q' := by
  unfold buildList at h
  split at h
  · rename_i item _
    obtain ⟨vs, q', hitems, -⟩ := Build.gives_bind_iff.1 h
    exact ⟨item, vs, q', hitems⟩
  · exact absurd h Build.not_gives_throw

/-! ## Data -/

/-- Every constructor is well named. -/
def WellNamed (scene : Scene) : Prop := ∀ ctor ∈ scene.registry.constructors, ctor.WellNamed

/-- The keys of a record are the names of the arguments that it is read as. -/
theorem keys_of_entryArguments {entries : List (Entry Data)} {names : List String}
    (h : ∀ arg ∈ entryArguments scene force entries, ∀ key, arg.name = some key → key ∈ names) :
    ∀ e ∈ entries, e.key ∈ names := by
  induction entries with
  | nil => exact List.forall_mem_nil _
  | cons e entries ih =>
    obtain ⟨hkey, h⟩ := List.forall_mem_cons.1 h
    exact List.forall_mem_cons.2 ⟨hkey e.key rfl, ih h⟩

mutual

/-- **Data that a value is built from names its arguments.** -/
theorem namesArguments_of_gives (hnamed : scene.WellNamed) :
    (d : Data) → {t : Ty} → {p q : Progress} → {v : Value} → (buildData scene force d t).Gives p v q →
      d.namesArguments = true
  | .null .., _, _, _, _, _ | .bool .., _, _, _, _, _ | .int .., _, _, _, _, _ | .float .., _, _, _, _, _
  | .str .., _, _, _, _, _ | .reference .., _, _, _, _, _ => rfl
  | .list _ items, _, _, _, _, h | .dashList _ items, _, _, _, _, h => by
    obtain ⟨_, _, _, hitems⟩ := gives_items_of_buildList h
    exact allNameArguments_of_gives_items hnamed items hitems
  | .call _ _ args, _, _, _, _, h => by
    obtain ⟨_, -, hargs⟩ := buildable_of_construct h
    exact allNameArguments_of_arguments hnamed args fun arg harg => (hargs arg harg).1
  | .ctorBlock _ _ entries, _, _, _, _, h => by
    obtain ⟨ctor, hctor, hargs⟩ := buildable_of_construct h
    have hkeys := keys_of_entryArguments fun arg harg => (hargs arg harg).2
    refine Bool.and_eq_true_iff.2 ⟨List.all_eq_true.2 fun e he => ?_, ?_⟩
    · exact (hnamed ctor hctor).fields e.key (hkeys e he)
    · exact allNameArguments_of_entries hnamed entries fun arg harg => (hargs arg harg).1
  | .listBlock _ _ items, _, _, _, _, h => by
    obtain ⟨_, -, hargs⟩ := buildable_of_construct h
    obtain ⟨⟨_, _, _, _, hlist⟩, -⟩ := List.forall_mem_singleton.1 hargs
    obtain ⟨_, _, _, hitems⟩ := gives_items_of_buildList hlist
    exact allNameArguments_of_gives_items hnamed items hitems
  | .record _ entries, _, _, _, _, h | .fieldBlock _ entries, _, _, _, _, h | .dashRecord _ entries, _, _, _, _, h => by
    -- The record itself is not built where its only entry names a constructor, but what stands in that entry is.
    rcases buildable_of_buildRecord h with hargs | ⟨key, inner, htagged, hargs⟩ | ⟨_, _, _, hfields⟩
    · exact allNameArguments_of_entries hnamed entries hargs
    · exact allNameArguments_of_tagged hnamed entries htagged hargs
    · exact allNameArguments_of_gives_fields hnamed entries hfields

/-- Items that are built name their arguments. -/
theorem allNameArguments_of_gives_items (hnamed : scene.WellNamed) :
    (items : List Data) → {t : Ty} → {p q : Progress} → {vs : List Value} →
    (buildItems scene force items t).Gives p vs q → Data.allNameArgumentsOfItems items = true
  | [], _, _, _, _, _ => rfl
  | d :: ds, _, _, _, _, h => by
    rw [buildItems] at h
    obtain ⟨_, _, hd, h⟩ := Build.gives_bind_iff.1 h
    obtain ⟨_, _, hds, -⟩ := Build.gives_bind_iff.1 h
    exact Bool.and_eq_true_iff.2 ⟨namesArguments_of_gives hnamed d hd,
      allNameArguments_of_gives_items hnamed ds hds⟩

/-- Arguments that something can be built from name their own arguments. -/
theorem allNameArguments_of_arguments (hnamed : scene.WellNamed) : (args : List (Argument Data)) →
    (∀ arg ∈ dataArguments scene force args, Buildable arg.value) → Data.allNameArgumentsOfArguments args = true
  | [], _ => rfl
  | ⟨name, d⟩ :: args, h => by
    rw [dataArguments] at h
    obtain ⟨⟨_, _, _, _, hd⟩, hargs⟩ := List.forall_mem_cons.1 h
    exact Bool.and_eq_true_iff.2 ⟨namesArguments_of_gives hnamed d hd,
      allNameArguments_of_arguments hnamed args hargs⟩

/-- Entries that something can be built from name their arguments. -/
theorem allNameArguments_of_entries (hnamed : scene.WellNamed) : (entries : List (Entry Data)) →
    (∀ arg ∈ entryArguments scene force entries, Buildable arg.value) → Data.allNameArgumentsOfEntries entries = true
  | [], _ => rfl
  | ⟨key, _, d⟩ :: entries, h => by
    rw [entryArguments] at h
    obtain ⟨⟨_, _, _, _, hd⟩, hentries⟩ := List.forall_mem_cons.1 h
    exact Bool.and_eq_true_iff.2 ⟨namesArguments_of_gives hnamed d hd,
      allNameArguments_of_entries hnamed entries hentries⟩

/-- The entries of a tagged record name their arguments, if something can be built from the record inside it. -/
theorem allNameArguments_of_tagged (hnamed : scene.WellNamed) :
    (entries : List (Entry Data)) → {key : String} → {inner : List BuildArgument} →
    taggedArguments scene force entries = some (key, inner) → (∀ arg ∈ inner, Buildable arg.value) →
      Data.allNameArgumentsOfEntries entries = true
  | [⟨_, _, d⟩], key, inner, htagged, h => by
    rw [taggedArguments] at htagged
    obtain ⟨args, hargs, hinner⟩ := Option.map_eq_some_iff.1 htagged
    obtain ⟨-, rfl⟩ := Prod.mk.inj hinner
    exact Bool.and_eq_true_iff.2 ⟨namesArguments_of_record hnamed d hargs h, rfl⟩
  | [], _, _, htagged, _ | _ :: _ :: _, _, _, htagged, _ => by
    rw [taggedArguments] at htagged
    · cases htagged
    · rintro _ _ _ ⟨⟩

/-- A record inside another one names its arguments, if something can be built from its entries. -/
theorem namesArguments_of_record (hnamed : scene.WellNamed) : (d : Data) → {args : List BuildArgument} →
    recordArguments scene force d = some args → (∀ arg ∈ args, Buildable arg.value) → d.namesArguments = true
  | .record _ entries, _, hargs, h | .fieldBlock _ entries, _, hargs, h | .dashRecord _ entries, _, hargs, h => by
    obtain rfl := Option.some.inj hargs
    exact allNameArguments_of_entries hnamed entries h
  | .str .., _, h, _ | .int .., _, h, _ | .float .., _, h, _ | .bool .., _, h, _ | .null .., _, h, _
  | .list .., _, h, _ | .call .., _, h, _ | .reference .., _, h, _ | .ctorBlock .., _, h, _
  | .listBlock .., _, h, _ | .dashList .., _, h, _ => by
    simp only [recordArguments] at h
    cases h

/-- The entries of a record without a type name their arguments. -/
theorem allNameArguments_of_gives_fields (hnamed : scene.WellNamed) :
    (entries : List (Entry Data)) → {seen : List String} → {p q : Progress} → {fields : List (Field Value)} →
    (untypedFields scene force seen entries).Gives p fields q →
      Data.allNameArgumentsOfEntries entries = true
  | [], _, _, _, _, _ => rfl
  | ⟨key, _, d⟩ :: entries, seen, _, _, _, h => by
    rw [untypedFields] at h
    dsimp only at h
    split at h
    · obtain ⟨_, _, htwice, -⟩ := Build.gives_bind_iff.1 h
      exact absurd htwice Build.not_gives_throw
    · obtain ⟨_, _, hd, h⟩ := Build.gives_bind_iff.1 h
      obtain ⟨_, _, hentries, -⟩ := Build.gives_bind_iff.1 h
      exact Bool.and_eq_true_iff.2 ⟨namesArguments_of_gives hnamed d hd,
        allNameArguments_of_gives_fields hnamed entries hentries⟩

end

/-- A binding that a value is built from names its arguments. -/
theorem namesArguments_of_buildSlot (hnamed : scene.WellNamed) {slot : Slot}
    (h : (scene.buildSlot force slot).Gives p v q) : slot.data.namesArguments = true := by
  unfold buildSlot at h
  split at h
  · rename_i hdata
    rw [hdata]
    rfl
  · exact namesArguments_of_gives hnamed slot.data h

end Scene

end TypedData
