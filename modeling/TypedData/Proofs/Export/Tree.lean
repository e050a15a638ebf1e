import Mathlib.Data.List.Forall2
import TypedData.Proofs.Building.Built
import TypedData.Proofs.Export.Members

/-!
# What a tree tells about its value

The tree of a record without a constructor tells its fields but for their order (`exists_reordered`), and that
of a record with a constructor tells the constructor and, where no two fields have the same label, its fields
(`ofFields_eq_of_ofValue`).  A reference is told from all records with constructors.

Records without constructors may have any keys, so they may look like others: like a record of a constructor
(`Value.LooksBuiltBy`), or like a reference (`Value.LooksLikeReference`).  Only those that do have the same
tree as one.
-/

namespace TypedData

/-! ## Equal up to order -/

namespace Value

mutual

/-- Equal up to the order of the fields of records, at any depth. -/
def EqUpToOrder : Value → Value → Prop
  | list items, list items' => ItemsEqUpToOrder items items'
  | record typeName ctor fields, record typeName' ctor' fields' => typeName = typeName' ∧ ctor = ctor' ∧
      ∃ reordered : List (Field Value), reordered.Perm fields' ∧ FieldsEqUpToOrder fields reordered
  | v, w => v = w

/-- The items of two lists are equal up to the order of fields. -/
def ItemsEqUpToOrder : List Value → List Value → Prop
  | [], [] => True
  | v :: vs, w :: ws => v.EqUpToOrder w ∧ ItemsEqUpToOrder vs ws
  | _, _ => False

/-- The fields have the same names in the same order, with values that are equal up to the order of their
fields. -/
def FieldsEqUpToOrder : List (Field Value) → List (Field Value) → Prop
  | [], [] => True
  | ⟨name, v⟩ :: fields, ⟨name', w⟩ :: fields' =>
    name = name' ∧ v.EqUpToOrder w ∧ FieldsEqUpToOrder fields fields'
  | _, _ => False

end

/-! ## Looking like something else -/

/-- A record without a constructor that has the keys of a record of the constructor, with the name of the
constructor under `$ctor`. -/
def LooksBuiltBy (ctor : Constructor) : Value → Prop
  | record _ none fields => ⟨some "$ctor", str ctor.name⟩ ∈ fields ∧ ∀ key, some key ∈ fields.map Field.name ↔
      key = "$ctor" ∨ key ∈ fieldLabels (ctor.fields.map FieldSpec.name)
  | _ => False

/-- What a reference looks like: the name under `$ref` and the path, if there is one, under `$path`. -/
def referenceFields (name : String) (path : List String) : List (Field Value) :=
  ⟨some "$ref", str name⟩ :: if path = [] then [] else [⟨some "$path", list (path.map str)⟩]

/-- A record without a constructor that has the fields that a reference to the name looks like. -/
def LooksLikeReference (name : String) : Value → Prop
  | record _ none fields => ∃ path, fields.Perm (referenceFields name path)
  | _ => False

end Value

namespace PlainTree

variable {v w : Value} {fields fields' : List (Field Value)} {typeName typeName' ctor ctor' : Option String}
  {c c' : String}

/-! ## Scalars -/

/-- Only a text has the tree of a text. -/
theorem eq_str_of_ofValue {text : String} (h : ofValue v = str text) : v = .str text := by
  cases v <;> simp_all [ofValue, ofMembers, ofReference]

/-- Texts as items have the trees of texts. -/
theorem ofItems_map_str (texts : List String) : ofItems (texts.map .str) = texts.map str := by
  induction texts with
  | nil => rfl
  | cons text texts ih => simp [ofItems, ofValue, ih]

/-- Only texts have the trees of texts, as items. -/
theorem eq_of_ofItems {texts : List String} {vs : List Value} (h : ofItems vs = texts.map str) :
    vs = texts.map .str := by
  induction vs generalizing texts with
  | nil => cases texts <;> simp_all [ofItems]
  | cons v vs ih =>
    cases texts with
    | nil => simp [ofItems] at h
    | cons text texts =>
      simp only [ofItems, List.map_cons, List.cons.injEq] at h ⊢
      exact ⟨eq_str_of_ofValue h.1, ih h.2⟩

/-- Only a list of texts has the tree of one. -/
theorem eq_list_of_ofValue {texts : List String} (h : ofValue v = list (texts.map str)) :
    v = .list (texts.map .str) := by
  cases v with
  | list vs =>
    simp only [ofValue, list.injEq] at h
    rw [eq_of_ofItems h]
  | _ => simp [ofValue, ofMembers, ofReference] at h

/-! ## Members -/

/-- The members that the tree of a record is made of. -/
def recordMembers (ctor : Option String) (fields : List (Field Value)) : List (Member PlainTree) :=
  ctorMembers ctor ++ ofFields 0 fields

/-- The members that the tree of a reference is made of. -/
def referenceMembers (r : Reference) : List (Member PlainTree) :=
  ⟨"$ref", str r.name⟩ :: if r.path = [] then [] else [⟨"$path", list (r.path.map str)⟩]

/-- Records with the same tree have the same members in order. -/
theorem sorted_eq_of_ofValue
    (h : ofValue (.record typeName ctor fields) = ofValue (.record typeName' ctor' fields')) :
    Member.sorted (recordMembers ctor fields) = Member.sorted (recordMembers ctor' fields') :=
  PlainTree.map.inj h

/-- The keys of a record are its labels, behind the one for the constructor if there is one. -/
theorem keys_recordMembers (ctor : Option String) (fields : List (Field Value)) :
    (recordMembers ctor fields).map Member.key =
      (if ctor.isSome then ["$ctor"] else []) ++ fieldLabels (fields.map Field.name) := by
  rw [recordMembers, List.map_append, keys_ofFields]
  cases ctor <;> rfl

/-- The members of a reference have distinct keys. -/
theorem nodup_referenceMembers (r : Reference) : ((referenceMembers r).map Member.key).Nodup := by
  unfold referenceMembers
  split <;> simp

/-- The member for a field that has a name. -/
def keyedMember (field : Field Value) : Member PlainTree := ⟨field.name.getD "", ofValue field.value⟩

/-- Keyed fields become members under their keys. -/
theorem ofFields_of_keyed (h : Field.Keyed fields) (index : Nat) :
    ofFields index fields = fields.map keyedMember := by
  obtain ⟨keys, -, hnames⟩ := h
  induction fields generalizing index keys with
  | nil => rfl
  | cons field fields ih =>
    cases keys with
    | nil => simp at hnames
    | cons key keys =>
      simp only [List.map_cons, List.cons.injEq] at hnames
      simp [ofFields, keyedMember, fieldLabel, hnames.1, ih _ keys hnames.2]

/-- Keyed fields have their keys as labels. -/
theorem labels_of_keyed {keys : List String} (h : fields.map Field.name = keys.map some) :
    fieldLabels (fields.map Field.name) = keys := by
  refine List.ext_getElem? fun i => ?_
  rw [h, fieldLabels, List.getElem?_mapIdx, List.getElem?_map]
  cases keys[i]? <;> rfl

/-- Keyed fields have distinct labels. -/
theorem nodup_labels_of_keyed (h : Field.Keyed fields) : (fieldLabels (fields.map Field.name)).Nodup := by
  obtain ⟨keys, hnodup, hnames⟩ := h
  rwa [labels_of_keyed hnames]

/-- Each of keyed fields has a key. -/
theorem name_of_keyed (h : Field.Keyed fields) {field : Field Value} (hfield : field ∈ fields) :
    ∃ key, field.name = some key := by
  obtain ⟨keys, -, hnames⟩ := h
  have hmem := List.mem_map_of_mem (f := Field.name) hfield
  rw [hnames] at hmem
  obtain ⟨key, -, hkey⟩ := List.mem_map.1 hmem
  exact ⟨key, hkey.symm⟩

/-! ## Records without constructors -/

/-- Items that are the same but for their order after a function are so before it. -/
theorem exists_perm_of_map_perm {α β : Type} {f : α → β} {as bs : List α} (h : (as.map f).Perm (bs.map f)) :
    ∃ reordered : List α, reordered.Perm bs ∧ as.map f = reordered.map f := by
  have hbs : List.Forall₂ (fun b a => b = f a) (bs.map f) bs := by
    rw [List.forall₂_map_left_iff]
    exact List.forall₂_same.2 fun _ _ => rfl
  obtain ⟨reordered, hsame, hperm⟩ := List.perm_comp_forall₂ h hbs
  refine ⟨reordered, hperm, ?_⟩
  have hall := List.forall₂_map_right_iff.2 hsame
  exact List.forall₂_eq_eq_eq ▸ hall

/-- A map without two arguments for one value, on lists, tells the lists. -/
theorem eq_of_map_eq {α β : Type} {f : α → β} {as bs : List α} (h : as.map f = bs.map f)
    (hf : ∀ a ∈ as, ∀ b ∈ bs, f a = f b → a = b) : as = bs := by
  induction as generalizing bs with
  | nil => simpa using h.symm
  | cons a as ih =>
    cases bs with
    | nil => simp at h
    | cons b bs =>
      simp only [List.map_cons, List.cons.injEq] at h
      have hab := hf a (.head _) b (.head _) h.1
      have hrest := ih h.2 fun a ha b hb => hf a (.tail _ ha) b (.tail _ hb)
      rw [hab, hrest]

/-- The members of a record without a constructor are its keyed fields. -/
theorem recordMembers_of_keyed (h : Field.Keyed fields) : recordMembers none fields = fields.map keyedMember :=
  ofFields_of_keyed h 0

/-- The members of keyed fields have distinct keys. -/
theorem nodup_keyedMembers (h : Field.Keyed fields) : ((fields.map keyedMember).map Member.key).Nodup := by
  rw [← recordMembers_of_keyed h, keys_recordMembers]
  exact nodup_labels_of_keyed h

/-- The names of keyed fields can be read off their members. -/
theorem names_keyedMembers (h : ∀ field ∈ fields, ∃ key, field.name = some key) :
    fields.map Field.name = (fields.map keyedMember).map fun m => some m.key := by
  rw [List.map_map, List.map_inj_left]
  intro field hfield
  obtain ⟨key, hkey⟩ := h field hfield
  simp [keyedMember, hkey]

/-- **The tree of a record without a constructor tells its fields,** but for their order. -/
theorem exists_reordered (h : Field.Keyed fields) (h' : Field.Keyed fields')
    (htree : ofValue (.record none none fields) = ofValue (.record none none fields')) :
    ∃ reordered : List (Field Value), reordered.Perm fields' ∧
      fields.map Field.name = reordered.map Field.name ∧ ofFields 0 fields = ofFields 0 reordered := by
  have hsorted := sorted_eq_of_ofValue htree
  rw [recordMembers_of_keyed h, recordMembers_of_keyed h'] at hsorted
  have hperm := Member.perm_of_sorted_eq hsorted (nodup_keyedMembers h) (nodup_keyedMembers h')
  obtain ⟨reordered, hreordered, hmembers⟩ := exists_perm_of_map_perm hperm
  have hnames : fields.map Field.name = reordered.map Field.name := by
    have hall : ∀ field ∈ reordered, ∃ key, field.name = some key :=
      fun field hfield => name_of_keyed h' (hreordered.subset hfield)
    rw [names_keyedMembers fun field => name_of_keyed h, names_keyedMembers hall, hmembers]
  have hkeyed : Field.Keyed reordered := by
    obtain ⟨keys, hnodup, hkeys⟩ := h
    exact ⟨keys, hnodup, hnames ▸ hkeys⟩
  exact ⟨reordered, hreordered, hnames, by rw [ofFields_of_keyed h, ofFields_of_keyed hkeyed, hmembers]⟩

/-! ## Records with constructors -/

/-- The constructor is told by its key, where no field has this label. -/
theorem ctor_mem_sorted (h : "$ctor" ∉ fieldLabels (fields.map Field.name)) {v : PlainTree}
    (hmem : ⟨"$ctor", v⟩ ∈ Member.sorted (recordMembers ctor fields)) : ∃ c, ctor = some c ∧ v = str c := by
  rcases List.mem_append.1 (Member.mem_of_mem_sorted hmem) with hmem | hmem
  · cases ctor with
    | none => cases hmem
    | some c =>
      obtain rfl := (Member.mk.inj (List.mem_singleton.1 hmem)).2
      exact ⟨c, rfl, rfl⟩
  · have hkey := List.mem_map_of_mem (f := Member.key) hmem
    rw [keys_ofFields] at hkey
    exact absurd hkey h

/-- The constructor of a record is among its members, if no field has the label for it. -/
theorem exists_ctor_mem_sorted (c : String) (fields : List (Field Value))
    (h : "$ctor" ∉ fieldLabels (fields.map Field.name)) :
    ⟨"$ctor", str c⟩ ∈ Member.sorted (recordMembers (some c) fields) := by
  have hkey : "$ctor" ∈ (Member.sorted (recordMembers (some c) fields)).map Member.key := by
    rw [Member.mem_keys_sorted, keys_recordMembers]
    simp
  obtain ⟨⟨key, v⟩, hmem, rfl⟩ := List.mem_map.1 hkey
  obtain ⟨c', hc, rfl⟩ := ctor_mem_sorted h hmem
  obtain rfl := Option.some.inj hc
  exact hmem

/-- The tree tells the constructor, if no field has the label for it. -/
theorem ctor_eq_of_ofValue (h : "$ctor" ∉ fieldLabels (fields.map Field.name))
    (h' : "$ctor" ∉ fieldLabels (fields'.map Field.name))
    (htree : ofValue (.record typeName (some c) fields) = ofValue (.record typeName' (some c') fields')) :
    c = c' := by
  have hmem := exists_ctor_mem_sorted c fields h
  rw [sorted_eq_of_ofValue htree] at hmem
  obtain ⟨_, hc, hstr⟩ := ctor_mem_sorted h' hmem
  rw [PlainTree.str.inj hstr, Option.some.inj hc]

/-- **The tree of a record with a constructor tells its fields,** where no two have the same label. -/
theorem ofFields_eq_of_ofValue (hnames : fields.map Field.name = fields'.map Field.name)
    (hctor : "$ctor" ∉ fieldLabels (fields.map Field.name)) (hnodup : (fieldLabels (fields.map Field.name)).Nodup)
    (htree : ofValue (.record typeName (some c) fields) = ofValue (.record typeName' (some c) fields')) :
    ofFields 0 fields = ofFields 0 fields' := by
  have hkeys : ((recordMembers (some c) fields).map Member.key).Nodup := by
    rw [keys_recordMembers]
    exact List.nodup_cons.2 ⟨hctor, hnodup⟩
  have hkeys' : ((recordMembers (some c) fields').map Member.key).Nodup := by
    rwa [keys_recordMembers, ← hnames, ← keys_recordMembers (some c)]
  have hperm := Member.perm_of_sorted_eq (PlainTree.map.inj htree) hkeys hkeys'
  refine Member.eq_of_perm hperm.cons_inv ?_ ?_
  · rw [keys_ofFields, keys_ofFields, hnames]
  · rwa [keys_ofFields]

/-! ## Records that look like something else -/

/-- A record without a constructor that has the tree of a record with one looks like it. -/
theorem looksBuiltBy_of_ofValue {built : Constructor} (h : Field.Keyed fields)
    (hnames : fields'.map Field.name = built.fields.map FieldSpec.name)
    (hctor : "$ctor" ∉ fieldLabels (fields'.map Field.name))
    (htree : ofValue (.record none none fields) = ofValue (.record typeName' (some built.name) fields')) :
    (Value.record none none fields).LooksBuiltBy built := by
  have hsorted := sorted_eq_of_ofValue htree
  rw [recordMembers_of_keyed h] at hsorted
  refine ⟨?_, fun key => ?_⟩
  · have hmem := exists_ctor_mem_sorted built.name fields' hctor
    rw [← hsorted] at hmem
    obtain ⟨⟨name, v⟩, hfield, hmember⟩ := List.mem_map.1 (Member.mem_of_mem_sorted hmem)
    obtain ⟨key, rfl⟩ := name_of_keyed h hfield
    obtain ⟨rfl, hv⟩ := Member.mk.inj hmember
    obtain rfl := eq_str_of_ofValue hv
    exact hfield
  · have hkeys : key ∈ (Member.sorted (fields.map keyedMember)).map Member.key ↔
        key ∈ (Member.sorted (recordMembers (some built.name) fields')).map Member.key := by rw [hsorted]
    rw [Member.mem_keys_sorted, Member.mem_keys_sorted, keys_recordMembers, hnames] at hkeys
    rw [names_keyedMembers fun field => name_of_keyed h, ← hnames]
    simpa [hnames] using hkeys

/-! ## References -/

/-- The members of a reference are those of a record with its name and its path. -/
theorem referenceMembers_eq (r : Reference) :
    referenceMembers r = (Value.referenceFields r.name r.path).map keyedMember := by
  unfold referenceMembers Value.referenceFields
  split <;> simp [keyedMember, ofValue, ofItems_map_str]

/-- A member of the tree of a reference is that of only one field. -/
theorem eq_of_keyedMember {name : String} {path : List String} {field target : Field Value}
    (htarget : target ∈ Value.referenceFields name path) (hfield : ∃ key, field.name = some key)
    (h : keyedMember field = keyedMember target) : field = target := by
  obtain ⟨label, v⟩ := field
  obtain ⟨key, rfl⟩ := hfield
  have hcases : target = ⟨some "$ref", .str name⟩ ∨ target = ⟨some "$path", .list (path.map .str)⟩ := by
    rcases List.mem_cons.1 htarget with h | h
    · exact .inl h
    · split at h
      · cases h
      · exact .inr (List.mem_singleton.1 h)
  rcases hcases with rfl | rfl
  · obtain ⟨rfl, hv⟩ := Member.mk.inj h
    obtain rfl := eq_str_of_ofValue hv
    rfl
  · obtain ⟨rfl, hv⟩ := Member.mk.inj h
    obtain rfl := eq_list_of_ofValue (hv.trans (congrArg list (ofItems_map_str path)))
    rfl

/-- A record without a constructor that has the tree of a reference looks like one. -/
theorem looksLikeReference_of_ofValue {r : Reference} (h : Field.Keyed fields)
    (htree : ofValue (.record none none fields) = ofValue (.ref r)) :
    (Value.record none none fields).LooksLikeReference r.name := by
  have hsorted : Member.sorted (recordMembers none fields) = Member.sorted (referenceMembers r) :=
    PlainTree.map.inj htree
  have hnodup := nodup_referenceMembers r
  rw [recordMembers_of_keyed h, referenceMembers_eq] at hsorted
  rw [referenceMembers_eq] at hnodup
  obtain ⟨reordered, hperm, hmembers⟩ :=
    exists_perm_of_map_perm (Member.perm_of_sorted_eq hsorted (nodup_keyedMembers h) hnodup)
  have hfields : fields = reordered := eq_of_map_eq hmembers fun field hfield target htarget =>
    eq_of_keyedMember (hperm.subset htarget) (name_of_keyed h hfield)
  exact ⟨r.path, hfields ▸ hperm⟩

/-- A record with a constructor has not the tree of a reference. -/
theorem ofValue_record_ne_ref (c : String) (fields : List (Field Value)) (r : Reference) :
    ofValue (.record typeName (some c) fields) ≠ ofValue (.ref r) := by
  intro h
  have hsorted : Member.sorted (recordMembers (some c) fields) = Member.sorted (referenceMembers r) :=
    PlainTree.map.inj h
  have hkey : "$ctor" ∈ (Member.sorted (recordMembers (some c) fields)).map Member.key := by
    rw [Member.mem_keys_sorted, keys_recordMembers]
    simp
  rw [hsorted, Member.mem_keys_sorted] at hkey
  unfold referenceMembers at hkey
  split at hkey <;> simp at hkey

/-- The tree of a reference tells its name and its path. -/
theorem reference_eq_of_ofValue {r r' : Reference} (h : ofValue (.ref r) = ofValue (.ref r')) :
    r.name = r'.name ∧ r.path = r'.path := by
  have hsorted : Member.sorted (referenceMembers r) = Member.sorted (referenceMembers r') :=
    PlainTree.map.inj h
  have hperm := Member.perm_of_sorted_eq hsorted (nodup_referenceMembers r) (nodup_referenceMembers r')
  have hname : r.name = r'.name := by
    have hmem := hperm.subset (.head _)
    unfold referenceMembers at hmem
    split at hmem <;> simpa using hmem
  refine ⟨hname, ?_⟩
  unfold referenceMembers at hperm
  rw [hname] at hperm
  have hpath := hperm.cons_inv
  have hmap : r.path.map str = r'.path.map str := by
    split at hpath <;> split at hpath <;> simp_all
  exact eq_of_map_eq hmap fun _ _ _ _ h => PlainTree.str.inj h

end PlainTree

end TypedData
