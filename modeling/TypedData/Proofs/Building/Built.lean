import TypedData.Proofs.Building.Growth
import TypedData.Proofs.Condition.Extension
import TypedData.Proofs.Typing.Registry
import TypedData.Proofs.Value.Settlement

/-!
# What has been built

`scene.Built p t v` says that `v` was built where `t` was expected, as far as that is known at the
progress `p`.  What is not known yet is left to be checked: the type of a binding that a reference leads
to, and the conditions on a record from the first one on that had to wait.

This is the invariant of building.  It holds of every part of a value at some type (`Built.of_part`), and
it is kept when the progress grows (`Built.mono`), so a value that was built stays built.
-/

namespace TypedData

/-- Every field has a name, and no two have the same. -/
def Field.Keyed {α : Type} (fields : List (Field α)) : Prop :=
  ∃ keys : List String, keys.Nodup ∧ fields.map Field.name = keys.map some

namespace Scene

variable {scene : Scene} {p q : Progress}

/-- Every condition on a record holds, or it is left to be checked with all that come after it. -/
def Checked (scene : Scene) (p : Progress) (ctor : Constructor) (fields : List (Field Value)) :
    Prop :=
  ∀ (i : Nat) (constraint : Constraint),
    (scene.registry.constraintsFor ctor.name)[i]? = some constraint →
      constraint.condition.check (recordEnvironment p.value? scene.hops fields) = .ok true ∨
        ∃ pending ∈ p.constraints,
          pending.ctor = ctor.name ∧ pending.fields = fields ∧ pending.done ≤ i

/-- Where a type is expected, a reference leads to a value of the type, or it is a whole binding whose
type is left to be checked. -/
def Reaches (scene : Scene) (p : Progress) (t : Ty) (r : Reference) : Prop :=
  (∃ base target, p.value? r.binding = some base ∧
    base.follow p.value? scene.hops r.path = .ok target ∧ t.conforms target = true) ∨
  (r.path = [] ∧ (t.isOpen = true ∨ ∃ span, ⟨r.binding, t, span⟩ ∈ p.checks))

/-- The type arguments with which a constructor is built where a type is expected. -/
def Accepts (t : Ty) (ctor : Constructor) (args : List Ty) : Prop :=
  t = .named ctor.typeName args ∨ t.isOpen = true ∧ args = []

/-- `scene.Built p t v` says that `v` was built where `t` was expected. -/
inductive Built (scene : Scene) (p : Progress) : Ty → Value → Prop
  | null {t : Ty} : t.isOptional = true ∨ t.isOpen = true → Built scene p t .null
  | optional {inner : Ty} {v : Value} : Built scene p inner v → Built scene p (.optional inner) v
  | plain {t : Ty} {v : Value} : t.isOpen = true → v.Plain → Built scene p t v
  | int (n : Integer) : Built scene p (.prim .int) (.int n)
  | float (x : Double) : Built scene p (.prim .float) (.float x)
  | bool (b : Bool) : Built scene p (.prim .bool) (.bool b)
  | str (text : String) : Built scene p (.prim .str) (.str text)
  | list {t item : Ty} {items : List Value} :
      t.item? = some item → (∀ v ∈ items, Built scene p item v) → Built scene p t (.list items)
  | fields {t : Ty} {fields : List (Field Value)} :
      t.isOpen = true → Field.Keyed fields → (∀ f ∈ fields, Built scene p .any f.value) →
      Built scene p t (.record none none fields)
  | record {t : Ty} {ctor : Constructor} {args : List Ty} {fields : List (Field Value)} :
      scene.registry.constructor? ctor.name = some ctor → Accepts t ctor args →
      fields.map Field.name = ctor.fields.map FieldSpec.name →
      (∀ (i : Nat) (f : Field Value) (u : Ty), fields[i]? = some f →
        (scene.registry.fieldTypes ctor args)[i]? = some u → Built scene p u f.value) →
      scene.Checked p ctor fields →
      Built scene p t (.record (some ctor.typeName) (some ctor.name) fields)
  | handle {t : Ty} {r : Reference} :
      scene.indexOf? r.name = some r.binding → scene.Reaches p t r → Built scene p t (.ref r)

/-- Conditions that have been checked stay checked when building goes on. -/
theorem Checked.mono {ctor : Constructor} {fields : List (Field Value)} (hpq : p.Grows q)
    (h : scene.Checked p ctor fields) : scene.Checked q ctor fields := by
  intro i constraint hi
  rcases h i constraint hi with hok | ⟨pending, hpending, hrest⟩
  · left
    have hext := recordEnvironment_extends hpq.keeps (Nat.le_refl scene.hops) fields
    exact (constraint.condition.check_agrees hext).eq_of_ok hok
  · exact .inr ⟨pending, hpq.constraints hpending, hrest⟩

/-- A reference leads to where it leads when building goes on. -/
theorem Reaches.mono {t : Ty} {r : Reference} (hpq : p.Grows q) (h : scene.Reaches p t r) :
    scene.Reaches q t r := by
  rcases h with ⟨base, target, hbase, htarget, hconf⟩ | ⟨hpath, hopen | ⟨span, hcheck⟩⟩
  · exact .inl ⟨base, target, hpq.keeps _ _ hbase,
      Value.follow_ok_mono hpq.keeps (Nat.le_refl _) htarget, hconf⟩
  · exact .inr ⟨hpath, .inl hopen⟩
  · exact .inr ⟨hpath, .inr ⟨span, hpq.checks hcheck⟩⟩

namespace Built

variable {t : Ty} {v x : Value}

/-- **What was built stays built.** -/
theorem mono (hpq : p.Grows q) (h : scene.Built p t v) : scene.Built q t v := by
  induction h with
  | null h => exact .null h
  | optional _ ih => exact .optional ih
  | plain ht hv => exact .plain ht hv
  | int n => exact .int n
  | float x => exact .float x
  | bool b => exact .bool b
  | str text => exact .str text
  | list ht _ ih => exact .list ht ih
  | fields ht hkeys _ ih => exact .fields ht hkeys ih
  | record hctor ht hnames _ hchecked ih => exact .record hctor ht hnames ih (hchecked.mono hpq)
  | handle hr hreach => exact .handle hr (hreach.mono hpq)

/-! ## Being optional -/

/-- What is built for the type without its optional layers is built for the type. -/
theorem of_peeled (h : scene.Built p t.peeled v) : scene.Built p t v := by
  cases t with
  | optional inner => exact .optional h
  | _ => exact h

/-- What is built for the type without its outermost optional layer is built for the type. -/
theorem of_required : {t : Ty} → scene.Built p t.required v → scene.Built p t v
  | .optional _, h => .optional (of_required h)
  | .prim _, h | .named _ _, h | .param _, h | .list _, h => h

/-! ## Parts -/

/-- An item of a list that is built is built for some type. -/
theorem item {items : List Value} (hx : x ∈ items) :
    {t : Ty} → scene.Built p t (.list items) → ∃ u, scene.Built p u x
  | _, .optional h => item hx h
  | _, .plain _ (.list h) => ⟨.any, .plain rfl (h x hx)⟩
  | _, .list _ h => ⟨_, h x hx⟩

/-- The value of a field of a record that is built is built for some type. -/
theorem field {typeName ctor : Option String} {fields : List (Field Value)} {f : Field Value}
    (hf : f ∈ fields) :
    {t : Ty} → scene.Built p t (.record typeName ctor fields) → ∃ u, scene.Built p u f.value
  | _, .optional h => field hf h
  | _, .fields _ _ h => ⟨_, h f hf⟩
  | _, @record _ _ _ ctor args fields _ _ hnames h _ => by
    obtain ⟨i, hi⟩ := List.mem_iff_getElem?.1 hf
    have hlen := congrArg List.length hnames
    rw [List.length_map, List.length_map] at hlen
    have hlt := (List.getElem?_eq_some_iff.1 hi).1
    have hu : i < (scene.registry.fieldTypes ctor args).length := by
      rw [Registry.length_fieldTypes]
      omega
    exact ⟨_, h i f _ hi (List.getElem?_eq_getElem hu)⟩

/-- **Every part of what was built was built.** -/
theorem of_part (h : scene.Built p t v) (hx : Value.Part x v) : ∃ u, scene.Built p u x := by
  induction hx generalizing t with
  | self => exact ⟨t, h⟩
  | item hv _ ih =>
    obtain ⟨u, hu⟩ := item hv h
    exact ih hu
  | field hf _ ih =>
    obtain ⟨u, hu⟩ := field hf h
    exact ih hu

/-! ## Records and references -/

/-- What is known about a record that was built by a constructor. -/
theorem of_record {typeName : Option String} {c : String} {fields : List (Field Value)} :
    {t : Ty} → scene.Built p t (.record typeName (some c) fields) →
      ∃ ctor args, scene.registry.constructor? c = some ctor ∧ typeName = some ctor.typeName ∧
        fields.map Field.name = ctor.fields.map FieldSpec.name ∧
        (∀ (i : Nat) (f : Field Value) (u : Ty), fields[i]? = some f →
          (scene.registry.fieldTypes ctor args)[i]? = some u → scene.Built p u f.value) ∧
        ctor.name = c ∧ scene.Checked p ctor fields
  | _, .optional h => of_record h
  | _, .record hctor _ hnames hfields hchecked =>
    ⟨_, _, hctor, rfl, hnames, hfields, rfl, hchecked⟩

/-- A record without a constructor has no type, and its fields have names of their own. -/
theorem of_untyped {typeName : Option String} {fields : List (Field Value)} :
    {t : Ty} → scene.Built p t (.record typeName none fields) → typeName = none ∧ Field.Keyed fields
  | _, .optional h => of_untyped h
  | _, .fields _ hkeys _ => ⟨rfl, hkeys⟩

/-- What is known about a reference. -/
theorem of_ref {r : Reference} : {t : Ty} → scene.Built p t (.ref r) →
    scene.indexOf? r.name = some r.binding ∧ ∃ u, scene.Reaches p u r
  | _, .optional h => of_ref h
  | _, .handle hr h => ⟨hr, _, h⟩

end Built

end Scene

end TypedData
