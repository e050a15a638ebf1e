import TypedData.Export
import TypedData.Proofs.Export.Tree
import TypedData.Proofs.Loaded.Names
import TypedData.Proofs.Loaded.References
import TypedData.Proofs.Loaded.Types

/-!
# What the export of a loaded document tells

Loaded values with the same tree are equal up to the order of fields, unless one of them holds a record that
looks like another kind of value, or a record two of whose fields have the same label (`Loaded.tree_tells`).
Keys are not escaped, so a document may have such values (`Loaded.tree_does_not_tell`).
-/

namespace TypedData

open PlainTree (ofValue ofItems ofFields)
open Value (Part)

/-- The keys of a constructor and of references are no labels of fields. -/
theorem Constructor.WellNamed.ctor_not_mem_labels {ctor : Constructor} (h : ctor.WellNamed) :
    "$ctor" ∉ fieldLabels (ctor.fields.map FieldSpec.name) := by
  intro hmem
  obtain ⟨i, hi, hlabel⟩ := List.mem_mapIdx.1 hmem
  cases hname : (ctor.fields.map FieldSpec.name)[i] with
  | none =>
    rw [hname] at hlabel
    have hfirst := congrArg (fun text => text.toList.head?) hlabel
    simp [fieldLabel, positionLabel] at hfirst
  | some name =>
    rw [hname] at hlabel
    obtain rfl : name = "$ctor" := hlabel
    have hspec : some "$ctor" ∈ ctor.fields.map FieldSpec.name := hname ▸ List.getElem_mem hi
    obtain ⟨spec, hspec, hspecName⟩ := List.mem_map.1 hspec
    have hword := h.fields _ (List.mem_filterMap.2 ⟨spec, hspec, hspecName⟩)
    revert hword
    decide

/-- No two fields have the same label, if it is a record. -/
def Value.DistinctlyLabelled : Value → Prop
  | record _ _ fields => (fieldLabels (fields.map Field.name)).Nodup
  | _ => True

namespace Loaded

variable {loaded : Loaded} {scene : Scene} {p : Progress}

/-- The value looks neither like a record of a declared constructor nor like a reference to a binding. -/
def Unmistakable (loaded : Loaded) (v : Value) : Prop :=
  (∀ ctor ∈ loaded.registry.constructors, ¬ v.LooksBuiltBy ctor) ∧
  ∀ name ∈ loaded.bindings.map Prod.fst, ¬ v.LooksLikeReference name

/-- The value has no part that looks like another kind of value, and no record in it has two fields with the
same label. -/
def Telling (loaded : Loaded) (v : Value) : Prop :=
  ∀ x, Part x v → loaded.Unmistakable x ∧ x.DistinctlyLabelled

/-- A value of the result that is telling. -/
structure Tells (loaded : Loaded) (v : Value) : Prop where
  contains : loaded.Contains v
  telling : loaded.Telling v

/-- What tells of a value tells of its parts. -/
theorem Tells.part {x v : Value} (h : loaded.Tells v) (hx : Part x v) : loaded.Tells x :=
  ⟨h.contains.part hx, fun y hy => h.telling y (hy.trans hx)⟩

/-- What tells of a list tells of its items. -/
theorem Tells.items {items : List Value} (h : loaded.Tells (.list items)) : ∀ v ∈ items, loaded.Tells v :=
  fun v hv => h.part (.item hv (.self v))

/-- What tells of a record tells of its fields. -/
theorem Tells.fields {typeName ctor : Option String} {fields : List (Field Value)}
    (h : loaded.Tells (.record typeName ctor fields)) : ∀ f ∈ fields, loaded.Tells f.value :=
  fun f hf => h.part (.field hf (.self f.value))

/-! ## Records -/

/-- The declarations of a loaded document, of which all constructors are well named. -/
structure Exports (loaded : Loaded) (scene : Scene) (p : Progress) : Prop where
  builtIn : loaded.BuiltIn scene p
  named : ∀ ctor ∈ loaded.registry.constructors, ctor.WellNamed

namespace Exports

/-- A loaded record with a constructor has its fields, and none of them is labelled like the constructor. -/
theorem built_record (h : loaded.Exports scene p) {typeName : Option String} {c : String}
    {fields : List (Field Value)} (hx : loaded.Contains (.record typeName (some c) fields)) :
    ∃ ctor, loaded.registry.constructor? c = some ctor ∧ typeName = some ctor.typeName ∧
      fields.map Field.name = ctor.fields.map FieldSpec.name ∧ "$ctor" ∉ fieldLabels (fields.map Field.name) := by
  obtain ⟨ctor, hctor, htype, hnames, -⟩ := h.builtIn.record_conforms hx
  have hnamed := h.named ctor (Registry.mem_of_constructor? hctor)
  exact ⟨ctor, hctor, htype, hnames, hnames ▸ hnamed.ctor_not_mem_labels⟩

/-- What looks like no other kind of value has the tree of no other kind of value. -/
theorem exists_untyped (h : loaded.Exports scene p) {fields : List (Field Value)} {y : Value}
    (hx : loaded.Contains (.record none none fields)) (hy : loaded.Contains y)
    (hclear : loaded.Unmistakable (.record none none fields))
    (htree : ofValue (.record none none fields) = ofValue y) : ∃ fields', y = .record none none fields' := by
  obtain ⟨-, hkeyed⟩ := h.builtIn.untyped hx
  cases y with
  | record typeName' ctor' fields' =>
    cases ctor' with
    | none =>
      obtain ⟨rfl, -⟩ := h.builtIn.untyped hy
      exact ⟨fields', rfl⟩
    | some c =>
      obtain ⟨ctor, hctor, -, hnames, hlabels⟩ := h.built_record hy
      obtain rfl := Registry.name_of_constructor? hctor
      exact absurd (PlainTree.looksBuiltBy_of_ofValue hkeyed hnames hlabels htree)
        (hclear.1 ctor (Registry.mem_of_constructor? hctor))
  | ref r =>
    obtain ⟨v, hv⟩ := h.builtIn.names_reference hy
    have hname : r.name ∈ loaded.bindings.map Prod.fst := List.mem_map.2 ⟨_, List.mem_of_getElem? hv, rfl⟩
    exact absurd (PlainTree.looksLikeReference_of_ofValue hkeyed htree) (hclear.2 r.name hname)
  | _ => simp [ofValue, PlainTree.ofMembers] at htree

/-- **Records with the same tree have the same fields,** but for their order, with the same trees. -/
theorem exists_reordered (h : loaded.Exports scene p) {typeName typeName' ctor ctor' : Option String}
    {fields fields' : List (Field Value)} (hv : loaded.Tells (.record typeName ctor fields))
    (hw : loaded.Tells (.record typeName' ctor' fields'))
    (htree : ofValue (.record typeName ctor fields) = ofValue (.record typeName' ctor' fields')) :
    typeName = typeName' ∧ ctor = ctor' ∧ ∃ reordered : List (Field Value), reordered.Perm fields' ∧
      fields.map Field.name = reordered.map Field.name ∧ ofFields 0 fields = ofFields 0 reordered := by
  cases ctor with
  | none =>
    obtain ⟨rfl, hkeyed⟩ := h.builtIn.untyped hv.contains
    obtain ⟨_, hw'⟩ := h.exists_untyped hv.contains hw.contains (hv.telling _ (.self _)).1 htree
    obtain ⟨rfl, rfl, rfl⟩ := Value.record.inj hw'
    obtain ⟨-, hkeyed'⟩ := h.builtIn.untyped hw.contains
    exact ⟨rfl, rfl, PlainTree.exists_reordered hkeyed hkeyed' htree⟩
  | some c =>
    cases ctor' with
    | none =>
      obtain ⟨rfl, -⟩ := h.builtIn.untyped hw.contains
      obtain ⟨_, hv'⟩ := h.exists_untyped hw.contains hv.contains (hw.telling _ (.self _)).1 htree.symm
      cases hv'
    | some c' =>
      obtain ⟨built, hbuilt, rfl, hnames, hlabels⟩ := h.built_record hv.contains
      obtain ⟨built', hbuilt', rfl, hnames', hlabels'⟩ := h.built_record hw.contains
      obtain rfl := PlainTree.ctor_eq_of_ofValue hlabels hlabels' htree
      obtain rfl := Option.some.inj (hbuilt.symm.trans hbuilt')
      have hsame := hnames.trans hnames'.symm
      have hnodup : (fieldLabels (fields.map Field.name)).Nodup := (hv.telling _ (.self _)).2
      exact ⟨rfl, rfl, fields', .refl _, hsame, PlainTree.ofFields_eq_of_ofValue hsame hlabels hnodup htree⟩

/-! ## Values -/

mutual

/-- **Telling values with the same tree are equal up to the order of fields.** -/
theorem eqUpToOrder (h : loaded.Exports scene p) : (v w : Value) → loaded.Tells v → loaded.Tells w →
    ofValue v = ofValue w → v.EqUpToOrder w
  | .null, w, _, _, htree => by
    cases w <;> simp_all [ofValue, PlainTree.ofMembers, PlainTree.ofReference, Value.EqUpToOrder]
  | .bool b, w, _, _, htree => by
    cases w <;> simp_all [ofValue, PlainTree.ofMembers, PlainTree.ofReference, Value.EqUpToOrder]
  | .int n, w, _, _, htree => by
    cases w <;> simp_all [ofValue, PlainTree.ofMembers, PlainTree.ofReference, Value.EqUpToOrder]
  | .float x, w, _, _, htree => by
    cases w <;> simp_all [ofValue, PlainTree.ofMembers, PlainTree.ofReference, Value.EqUpToOrder]
  | .str text, w, _, _, htree => by
    cases w <;> simp_all [ofValue, PlainTree.ofMembers, PlainTree.ofReference, Value.EqUpToOrder]
  | .list items, w, hv, hw, htree => by
    cases w with
    | list items' => exact itemsEqUpToOrder h items items' hv.items hw.items (PlainTree.list.inj htree)
    | _ => simp [ofValue, PlainTree.ofMembers, PlainTree.ofReference] at htree
  | .record typeName ctor fields, w, hv, hw, htree => by
    cases w with
    | record typeName' ctor' fields' =>
      obtain ⟨htype, hctor, reordered, hperm, hnames, hmembers⟩ := h.exists_reordered hv hw htree
      have hw' : ∀ f ∈ reordered, loaded.Tells f.value := fun f hf => hw.fields f (hperm.subset hf)
      exact ⟨htype, hctor, reordered, hperm, fieldsEqUpToOrder h fields reordered 0 hv.fields hw' hnames hmembers⟩
    | ref r =>
      cases ctor with
      | none =>
        obtain ⟨rfl, -⟩ := h.builtIn.untyped hv.contains
        obtain ⟨_, hw'⟩ := h.exists_untyped hv.contains hw.contains (hv.telling _ (.self _)).1 htree
        cases hw'
      | some c => exact absurd htree (PlainTree.ofValue_record_ne_ref c fields r)
    | _ => simp [ofValue, PlainTree.ofMembers] at htree
  | .ref r, w, hv, hw, htree => by
    cases w with
    | ref r' =>
      obtain ⟨hname, hpath⟩ := PlainTree.reference_eq_of_ofValue htree
      exact congrArg Value.ref (h.builtIn.reference_eq hv.contains hw.contains hname hpath)
    | record typeName' ctor' fields' =>
      cases ctor' with
      | none =>
        obtain ⟨rfl, -⟩ := h.builtIn.untyped hw.contains
        obtain ⟨_, hv'⟩ := h.exists_untyped hw.contains hv.contains (hw.telling _ (.self _)).1 htree.symm
        cases hv'
      | some c => exact absurd htree.symm (PlainTree.ofValue_record_ne_ref c fields' r)
    | _ => simp [ofValue, PlainTree.ofReference, PlainTree.ofMembers] at htree

/-- Items with the same trees are the same up to the order of fields. -/
theorem itemsEqUpToOrder (h : loaded.Exports scene p) : (vs ws : List Value) → (∀ v ∈ vs, loaded.Tells v) →
    (∀ w ∈ ws, loaded.Tells w) → ofItems vs = ofItems ws → Value.ItemsEqUpToOrder vs ws
  | [], [], _, _, _ => trivial
  | [], _ :: _, _, _, htree => by simp [ofItems] at htree
  | _ :: _, [], _, _, htree => by simp [ofItems] at htree
  | v :: vs, w :: ws, hvs, hws, htree => by
    simp only [ofItems, List.cons.injEq] at htree
    simp only [List.forall_mem_cons] at hvs hws
    exact ⟨eqUpToOrder h v w hvs.1 hws.1 htree.1, itemsEqUpToOrder h vs ws hvs.2 hws.2 htree.2⟩

/-- Fields with the same names and the same trees are the same up to the order of fields inside. -/
theorem fieldsEqUpToOrder (h : loaded.Exports scene p) : (fields fields' : List (Field Value)) → (index : Nat) →
    (∀ f ∈ fields, loaded.Tells f.value) → (∀ f ∈ fields', loaded.Tells f.value) →
    fields.map Field.name = fields'.map Field.name → ofFields index fields = ofFields index fields' →
    Value.FieldsEqUpToOrder fields fields'
  | [], [], _, _, _, _, _ => trivial
  | [], _ :: _, _, _, _, hnames, _ => by simp at hnames
  | _ :: _, [], _, _, _, hnames, _ => by simp at hnames
  | ⟨name, v⟩ :: fields, ⟨name', w⟩ :: fields', index, hvs, hws, hnames, htree => by
    simp only [ofFields, List.cons.injEq, Member.mk.injEq] at htree
    simp only [List.forall_mem_cons, List.map_cons, List.cons.injEq] at hvs hws hnames
    exact ⟨hnames.1, eqUpToOrder h v w hvs.1 hws.1 htree.1.2,
      fieldsEqUpToOrder h fields fields' (index + 1) hvs.2 hws.2 hnames.2 htree.2⟩

end

/-- The map of a record has one member for each field, and one for the constructor, if there is one. -/
theorem exists_members (h : loaded.Exports scene p) {typeName ctor : Option String}
    {fields : List (Field Value)} (hx : loaded.Contains (.record typeName ctor fields))
    (hlabels : (fieldLabels (fields.map Field.name)).Nodup) :
    ∃ members, ofValue (.record typeName ctor fields) = .map members ∧ (members.map Member.key).Nodup ∧
      members.Perm (PlainTree.ctorMembers ctor ++
        fields.mapIdx fun i field => ⟨fieldLabel i field.name, ofValue field.value⟩) := by
  have hkeys : ((PlainTree.recordMembers ctor fields).map Member.key).Nodup := by
    rw [PlainTree.keys_recordMembers]
    cases ctor with
    | none => exact hlabels
    | some c =>
      obtain ⟨_, -, -, -, hctor⟩ := h.built_record hx
      exact List.nodup_cons.2 ⟨hctor, hlabels⟩
  have hperm := Member.perm_sorted hkeys
  have hfields : ofFields 0 fields =
      fields.mapIdx fun i field => ⟨fieldLabel i field.name, ofValue field.value⟩ := by
    refine List.ext_getElem? fun i => ?_
    simp [PlainTree.getElem?_ofFields]
  refine ⟨_, rfl, (hperm.map Member.key).nodup_iff.2 hkeys, ?_⟩
  rw [← hfields]
  exact hperm

end Exports

/-- A text that loads is exported from some scene, at some progress at the end. -/
theorem exports_of_load {source : String} (h : load source = .ok loaded) :
    ∃ scene p, loaded.Exports scene p := by
  obtain ⟨_, _, _, scene, p, hbuilt⟩ := exists_builtIn_of_load h
  exact ⟨scene, p, hbuilt, fun _ => wellNamed_of_load h⟩

/-- **The export of a loaded document tells its values.**  Telling values of the result with the same tree
are equal up to the order of fields.  The map of a record, no two of whose fields have the same label, has one
member for each field, and one for the constructor if there is one.  And a record without a constructor that
looks like no other kind of value has the tree of none. -/
theorem tree_tells {source : String} (h : load source = .ok loaded) :
    (∀ v w, loaded.Contains v → loaded.Contains w → loaded.Telling v → loaded.Telling w →
      ofValue v = ofValue w → v.EqUpToOrder w) ∧
    (∀ typeName ctor fields, loaded.Contains (.record typeName ctor fields) →
      (fieldLabels (fields.map Field.name)).Nodup →
      ∃ members, ofValue (.record typeName ctor fields) = .map members ∧ (members.map Member.key).Nodup ∧
        members.Perm (PlainTree.ctorMembers ctor ++
          fields.mapIdx fun i field => ⟨fieldLabel i field.name, ofValue field.value⟩)) ∧
    ∀ fields y, loaded.Contains (.record none none fields) → loaded.Contains y →
      loaded.Unmistakable (.record none none fields) → ofValue (.record none none fields) = ofValue y →
      ∃ fields', y = .record none none fields' := by
  obtain ⟨scene, p, hexports⟩ := exports_of_load h
  refine ⟨fun v w hv hw htv htw => hexports.eqUpToOrder v w ⟨hv, htv⟩ ⟨hw, htw⟩, ?_, ?_⟩
  · exact fun typeName ctor fields hx hlabels => hexports.exists_members hx hlabels
  · exact fun fields y hx hy hclear => hexports.exists_untyped hx hy hclear

/-- Two records without constructors that differ in the order of their fields. -/
def turned : String := "x := \x7ba: 1, b: \"one\"\x7d\ny := \x7bb: \"one\", a: 1\x7d\n"

/-- Whether the values are two records with a number under `a` and a text under `b`, one of them turned. -/
def isTurned (loaded : Loaded) : Bool :=
  match loaded.bindings, loaded.registry.constructors with
  | [("x", .record none none [⟨some "a", .int n⟩, ⟨some "b", .str text⟩]),
      ("y", .record none none [⟨some "b", .str text'⟩, ⟨some "a", .int n'⟩])], [] => n == n' && text == text'
  | _, _ => false

/-- Where no constructors are declared, a record of scalars with keys that do not start with a dollar sign
is telling. -/
theorem telling_of_scalars (hctors : loaded.registry.constructors = []) {fields : List (Field Value)}
    (hkeys : (fieldLabels (fields.map Field.name)).Nodup) (href : some "$ref" ∉ fields.map Field.name)
    (hscalars : ∀ f ∈ fields, (∃ n, f.value = .int n) ∨ ∃ text, f.value = .str text) :
    loaded.Telling (.record none none fields) := by
  intro x hx
  have hnone : ∀ ctor ∈ loaded.registry.constructors, ¬ x.LooksBuiltBy ctor := by simp [hctors]
  cases hx with
  | self =>
    refine ⟨⟨hnone, ?_⟩, hkeys⟩
    rintro name - ⟨path, hperm⟩
    have hmem := (hperm.map Field.name).symm.subset (List.mem_cons_self ..)
    exact href hmem
  | field hf hx =>
    rcases hscalars _ hf with ⟨n, hn⟩ | ⟨text, htext⟩
    · rw [hn] at hx
      cases hx
      exact ⟨⟨hnone, by simp [Value.LooksLikeReference]⟩, trivial⟩
    · rw [htext] at hx
      cases hx
      exact ⟨⟨hnone, by simp [Value.LooksLikeReference]⟩, trivial⟩

/-- Two records whose fields stand in different orders. -/
theorem tree_tells_turned : ∃ loaded n text, load turned = .ok loaded ∧
    (Value.record none none [⟨some "a", .int n⟩, ⟨some "b", .str text⟩]).EqUpToOrder
      (.record none none [⟨some "b", .str text⟩, ⟨some "a", .int n⟩]) := by
  have htest : (load turned).toOption.any isTurned = true := by decide +kernel
  obtain ⟨loaded, h, htest⟩ := exists_ok_of_any htest
  unfold isTurned at htest
  split at htest
  · rename_i n text text' n' hbindings hctors
    obtain ⟨hn, htext⟩ := Bool.and_eq_true_iff.1 htest
    obtain rfl := beq_iff_eq.1 hn
    obtain rfl := beq_iff_eq.1 htext
    have hx : loaded.Contains (.record none none [⟨some "a", .int n⟩, ⟨some "b", .str text⟩]) :=
      ⟨_, .inl ⟨"x", by simp [hbindings]⟩, .self _⟩
    have hy : loaded.Contains (.record none none [⟨some "b", .str text⟩, ⟨some "a", .int n⟩]) :=
      ⟨_, .inl ⟨"y", by simp [hbindings]⟩, .self _⟩
    refine ⟨loaded, n, text, h, (tree_tells h).1 _ _ hx hy ?_ ?_ ?_⟩
    · exact telling_of_scalars hctors (by simp [fieldLabels, fieldLabel]) (by simp) (by simp)
    · exact telling_of_scalars hctors (by simp [fieldLabels, fieldLabel]) (by simp) (by simp)
    · simp only [ofValue, ofFields, PlainTree.ofMembers, PlainTree.ctorMembers, fieldLabel, Option.getD_some,
        Nat.zero_add, List.nil_append, Member.sorted, List.foldl, Member.put, String.reduceLT, String.reduceEq,
        if_true, if_false]
  · cases htest

/-- A constructor with a field that is named like the label of another, and records that look like one of
the constructor and like a reference. -/
def mistaken : String :=
  "type t = t \x7b_1: int, int\x7d\n" ++
  "a := t(1, 2)\n" ++
  "b := t(3, 2)\n" ++
  "c := \x7b\"$ctor\": \"t\", _1: 2\x7d\n" ++
  "d := \x7b\"$ref\": \"a\"\x7d\n" ++
  "e := [!a]\n"

/-- Whether the values are the records and the reference that are written. -/
def isMistaken (loaded : Loaded) : Bool :=
  match loaded.bindings with
  | [("a", .record (some "t") (some "t") [⟨some "_1", .int n⟩, ⟨none, .int k⟩]),
      ("b", .record (some "t") (some "t") [⟨some "_1", .int n'⟩, ⟨none, .int k'⟩]),
      ("c", .record none none [⟨some "$ctor", .str "t"⟩, ⟨some "_1", .int k''⟩]),
      ("d", .record none none [⟨some "$ref", .str "a"⟩]), ("e", .list [.ref ⟨_, "a", []⟩])] =>
    n != n' && k == k' && k == k''
  | _ => false

/-- Values that are not telling may have the same tree: two records of a constructor two of whose fields have
the same label, a record without a constructor that looks like one of them, and one that looks like a
reference. -/
theorem tree_does_not_tell : ∃ loaded a b c d r, load mistaken = .ok loaded ∧
    (∀ v ∈ [a, b, c, d, .ref r], loaded.Contains v) ∧
    (ofValue a = ofValue b ∧ ¬ a.EqUpToOrder b) ∧ (ofValue a = ofValue c ∧ ¬ a.EqUpToOrder c) ∧
    ofValue d = ofValue (.ref r) ∧ ¬ d.EqUpToOrder (.ref r) := by
  have htest : (load mistaken).toOption.any isMistaken = true := by decide +kernel
  obtain ⟨loaded, h, htest⟩ := exists_ok_of_any htest
  unfold isMistaken at htest
  split at htest
  · rename_i n k n' k' k'' binding hbindings
    simp only [Bool.and_eq_true, bne_iff_ne, beq_iff_eq] at htest
    obtain ⟨⟨hn, rfl⟩, rfl⟩ := htest
    have hlabel : positionLabel 1 = "_1" := by decide
    refine ⟨loaded, .record (some "t") (some "t") [⟨some "_1", .int n⟩, ⟨none, .int k⟩],
      .record (some "t") (some "t") [⟨some "_1", .int n'⟩, ⟨none, .int k⟩],
      .record none none [⟨some "$ctor", .str "t"⟩, ⟨some "_1", .int k⟩],
      .record none none [⟨some "$ref", .str "a"⟩], ⟨binding, "a", []⟩, h, ?_, ⟨?_, ?_⟩, ⟨?_, ?_⟩, ?_, ?_⟩
    · have hcontains : ∀ name v, (name, v) ∈ loaded.bindings → loaded.Contains v :=
        fun name v hv => ⟨v, .inl ⟨name, hv⟩, .self v⟩
      have hlist : loaded.Contains (.list [.ref ⟨binding, "a", []⟩]) := hcontains "e" _ (by simp [hbindings])
      intro v hv
      simp only [List.mem_cons, List.not_mem_nil, or_false] at hv
      rcases hv with rfl | rfl | rfl | rfl | rfl
      · exact hcontains "a" _ (by simp [hbindings])
      · exact hcontains "b" _ (by simp [hbindings])
      · exact hcontains "c" _ (by simp [hbindings])
      · exact hcontains "d" _ (by simp [hbindings])
      · exact hlist.part (.item (.head _) (.self _))
    · simp only [ofValue, ofFields, PlainTree.ofMembers, PlainTree.ctorMembers, fieldLabel, hlabel,
        Option.getD_some, Option.getD_none, Nat.zero_add, List.nil_append, List.cons_append, Member.sorted,
        List.foldl, Member.put, String.reduceLT, String.reduceEq, if_true, if_false]
    · rintro ⟨-, -, _ | ⟨⟨name, v⟩, rest⟩, hperm, hfields⟩
      · exact hfields
      · obtain ⟨rfl, hv, -⟩ := hfields
        obtain rfl : Value.int n = v := hv
        have hmem := hperm.subset (List.mem_cons_self ..)
        simp [hn] at hmem
    · simp only [ofValue, ofFields, PlainTree.ofMembers, PlainTree.ctorMembers, fieldLabel, hlabel,
        Option.getD_some, Option.getD_none, Nat.zero_add, List.nil_append, List.cons_append, Member.sorted,
        List.foldl, Member.put, String.reduceLT, String.reduceEq, if_true, if_false]
    · rintro ⟨⟨⟩⟩
    · rfl
    · intro h
      cases h
  · cases htest

end Loaded

end TypedData
