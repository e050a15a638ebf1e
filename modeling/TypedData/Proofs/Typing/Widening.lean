import TypedData.Building.Fit
import TypedData.Typing.Registry

/-!
# Types that accept more

A type is **widened** by putting open types in the place of parts of it.  Where a constructor is used
with fewer type arguments, the types of its fields are widened (`Registry.fieldTypes_widens`), and a
value that conforms to a type conforms to each that it is widened to.
-/

namespace TypedData

namespace Ty

/-- `t.Widens u` says that `u` is `t` with open types in the place of parts of it.  A type argument that
is not there counts as open. -/
inductive Widens : Ty → Ty → Prop
  | open {t u : Ty} : u.isOpen = true → Widens t u
  | prim (p : Primitive) : Widens (.prim p) (.prim p)
  | named {name : String} {args args' : List Ty} :
      args'.length ≤ args.length →
      (∀ (i : Nat) (t u : Ty), args[i]? = some t → args'[i]? = some u → Widens t u) →
      Widens (.named name args) (.named name args')
  | optional {t u : Ty} : Widens t u → Widens (.optional t) (.optional u)
  | list {t u : Ty} : Widens t u → Widens (.list t) (.list u)

/-- Type arguments are widened one by one; at the end some may be missing. -/
def ArgsWiden (args args' : List Ty) : Prop :=
  args'.length ≤ args.length ∧
  ∀ (i : Nat) (t u : Ty), args[i]? = some t → args'[i]? = some u → t.Widens u

/-- Every argument is widened to a missing one. -/
theorem ArgsWiden.nil (args : List Ty) : ArgsWiden args [] := ⟨Nat.zero_le _, nofun⟩

/-- Arguments widen behind the first ones if they do. -/
theorem ArgsWiden.tail {t u : Ty} {args args' : List Ty} (h : ArgsWiden (t :: args) (u :: args')) :
    ArgsWiden args args' :=
  ⟨Nat.le_of_succ_le_succ h.1, fun i => h.2 (i + 1)⟩

/-! ## Substitution -/

/-- What a parameter stands for. -/
def ofParam (bindings : List (String × Ty)) (name : String) : Ty := (bindings.lookup name).getD any

/-- Wider arguments give a wider type to every parameter. -/
theorem ofParam_widens : {params : List String} → {args args' : List Ty} → ArgsWiden args args' →
    (name : String) → (ofParam (params.zip args) name).Widens (ofParam (params.zip args') name)
  | [], _, _, _, _ | _ :: _, _, [], _, _ => .open rfl
  | _ :: _, [], _ :: _, h, _ => absurd h.1 (Nat.not_succ_le_zero _)
  | first :: params, t :: args, u :: args', h, name => by
    unfold ofParam
    rw [List.zip_cons_cons, List.zip_cons_cons, List.lookup_cons, List.lookup_cons]
    cases name == first with
    | true => exact h.2 0 t u rfl rfl
    | false => exact ofParam_widens h.tail name

mutual

/-- A type with wider types in it is wider. -/
theorem substitute_widens {bindings bindings' : List (String × Ty)}
    (h : ∀ name, (ofParam bindings name).Widens (ofParam bindings' name)) :
    (t : Ty) → (t.substitute bindings).Widens (t.substitute bindings')
  | .prim p => .prim p
  | .param name => h name
  | .named name args => by
    rw [substitute, substitute]
    obtain ⟨hlen, hargs⟩ := substituteArgs_widen h args
    exact .named hlen hargs
  | .optional inner => .optional (substitute_widens h inner)
  | .list inner => .list (substitute_widens h inner)

/-- Arguments with wider types in them are wider. -/
theorem substituteArgs_widen {bindings bindings' : List (String × Ty)}
    (h : ∀ name, (ofParam bindings name).Widens (ofParam bindings' name)) :
    (args : List Ty) → ArgsWiden (substituteArgs bindings args) (substituteArgs bindings' args)
  | [] => .nil _
  | arg :: args => by
    obtain ⟨hlen, hargs⟩ := substituteArgs_widen h args
    rw [substituteArgs, substituteArgs]
    refine ⟨Nat.succ_le_succ hlen, fun i t u ht hu => ?_⟩
    cases i with
    | zero =>
      obtain rfl := Option.some.inj ht
      obtain rfl := Option.some.inj hu
      exact substitute_widens h arg
    | succ i => exact hargs i t u ht hu

end

/-! ## Open types -/

/-- An open type is `any` or a parameter. -/
theorem eq_of_isOpen {t : Ty} (h : t.isOpen = true) : t = any ∨ ∃ name, t = .param name := by
  unfold isOpen at h
  split at h
  · exact .inl rfl
  · exact .inr ⟨_, rfl⟩
  · cases h

/-- What an open type is widened to is open. -/
theorem Widens.isOpen {t u : Ty} (h : t.Widens u) (ht : t.isOpen = true) : u.isOpen = true := by
  cases h with
  | «open» hu => exact hu
  | prim => exact ht
  | _ => cases ht

/-- Where lists are accepted they are accepted after widening, and the type of their items is widened. -/
theorem Widens.exists_item {t u item : Ty} (h : t.Widens u) (hitem : t.item? = some item) :
    ∃ item', u.item? = some item' ∧ item.Widens item' ∧ u.required = u := by
  have hopen : u.isOpen = true → ∃ item', u.item? = some item' ∧ item.Widens item' ∧ u.required = u := by
    intro hu
    rcases eq_of_isOpen hu with rfl | ⟨name, rfl⟩
    · exact ⟨any, rfl, .open rfl, rfl⟩
    · exact ⟨any, rfl, .open rfl, rfl⟩
  cases h with
  | «open» hu => exact hopen hu
  | prim p =>
    cases p with
    | any => exact hopen rfl
    | _ => cases hitem
  | list hinner =>
    obtain rfl := Option.some.inj hitem
    exact ⟨_, rfl, hinner, rfl⟩
  | _ => cases hitem

/-! ## Conforming -/

/-- Every value has an open type. -/
theorem conforms_of_isOpen {t : Ty} (ht : t.isOpen = true) (v : Value) : t.conforms v = true := by
  unfold isOpen at ht
  split at ht
  · rfl
  · rfl
  · cases ht

/-- A value of a type is one of the type made optional. -/
theorem conforms_optional {inner : Ty} {v : Value} (h : inner.conforms v = true) :
    (optional inner).conforms v = true := by
  cases v with
  | null => rfl
  | _ => exact h

/-- References are taken on trust. -/
theorem conforms_ref : (t : Ty) → (r : Reference) → t.conforms (.ref r) = true
  | optional inner, r => conforms_ref inner r
  | prim p, _ => by cases p <;> rfl
  | named _ _, _ | param _, _ | list _, _ => rfl

/-- Null conforms where it may be written: in an optional or open place. -/
theorem conforms_null (t : Ty) : t.conforms .null = (t.isOptional || t.isOpen) := by
  cases t with
  | prim p => cases p <;> rfl
  | _ => rfl

/-- Being optional only matters to null. -/
theorem conforms_peeled {t : Ty} {v : Value} (hv : v ≠ .null) (h : t.conforms v = true) :
    t.peeled.conforms v = true := by
  cases t with
  | optional inner =>
    cases v with
    | null => exact absurd rfl hv
    | _ => exact h
  | _ => exact h

/-- A value of a type that is not null is one of the type below its layers. -/
theorem conforms_required {v : Value} (hv : v ≠ .null) : {t : Ty} → t.conforms v = true →
    t.required.conforms v = true
  | optional inner, h => conforms_required (t := inner) hv (conforms_peeled hv h)
  | prim _, h | named _ _, h | param _, h | list _, h => h

/-- What is below all layers is not optional. -/
theorem isOptional_required : (t : Ty) → t.required.isOptional = false
  | optional inner => isOptional_required inner
  | prim _ | named _ _ | param _ | list _ => rfl

/-- What is below all layers has no layer to take off. -/
theorem peeled_required : (t : Ty) → t.required.peeled = t.required
  | optional inner => peeled_required inner
  | prim _ | named _ _ | param _ | list _ => rfl

/-- What conforms to a type, as far as can be seen, conforms to each that it is widened to. -/
theorem Widens.conforms {t u : Ty} (h : t.Widens u) :
    {v : Value} → t.conforms v = true → u.conforms v = true := by
  induction h with
  | «open» hu => exact fun _ => conforms_of_isOpen hu _
  | prim p => exact id
  | named =>
    intro v hv
    cases v with
    | record | ref => exact hv
    | _ => cases hv
  | optional _ ih =>
    intro v hv
    cases v with
    | null => rfl
    | _ => exact ih hv
  | list _ ih =>
    intro v hv
    cases v with
    | list items =>
      have hitems := List.all_eq_true.1 hv
      exact List.all_eq_true.2 fun x hx => ih (hitems x hx)
    | ref => rfl
    | _ => cases hv

end Ty

/-- **With fewer type arguments the types of the fields are widened.** -/
theorem Registry.fieldTypes_widens (r : Registry) (ctor : Constructor) {args args' : List Ty}
    (h : Ty.ArgsWiden args args') {i : Nat} {u : Ty}
    (hu : (r.fieldTypes ctor args')[i]? = some u) :
    ∃ t, (r.fieldTypes ctor args)[i]? = some t ∧ t.Widens u := by
  unfold fieldTypes at hu ⊢
  rw [List.getElem?_map] at hu ⊢
  obtain ⟨field, hfield, rfl⟩ := Option.map_eq_some_iff.1 hu
  rw [hfield]
  exact ⟨_, rfl, Ty.substitute_widens (Ty.ofParam_widens h) field.type⟩

end TypedData
