import Mathlib.Data.List.Nodup
import TypedData.Proofs.Building.Written

/-!
# Which field an argument is for

Arguments with and without names may stand in any order.  `Constructor.targets` says of each of them which
field it is for, with no regard to what the others are for: that of its name, or the k-th field for the k-th
argument without a name.  Placing the arguments succeeds exactly if each of them has a field and no two have
the same one (`Constructor.exists_place_iff`), and then each field has the argument that is for it
(`Constructor.bound_of_place`).

Both depend on the targets alone, and not on their order.  To move arguments without changing the order of
those without names is to move the targets (`Constructor.perm_targets`), and places the same arguments at the
same fields (`Constructor.place_of_perm`).
-/

namespace TypedData

/-- Whether the argument has no name. -/
def Argument.isPositional {α : Type} (arg : Argument α) : Bool := arg.name.isNone

namespace Constructor

variable {α : Type}

/-! ## Targets -/

/-- The field that an argument is for, if there is one: the field of its name, or the one at a position. -/
def fieldFor? (ctor : Constructor) (position : Nat) : Option String → Option Nat
  | none => if position < ctor.fields.length then some position else none
  | some name => ctor.fieldIndex? name

/-- The arguments with the fields that they are for.  The position of an argument is the number of those without
names before it, and `next` that of the first one. -/
def targetsFrom (ctor : Constructor) (next : Nat) (args : List (Argument α)) : List (Option Nat × α) :=
  args.mapIdx fun i arg => (ctor.fieldFor? (next + (args.take i).countP Argument.isPositional) arg.name, arg.value)

/-- **The arguments with the fields that they are for.** -/
def targets (ctor : Constructor) (args : List (Argument α)) : List (Option Nat × α) := ctor.targetsFrom 0 args

/-- Every argument has a field, and no two have the same. -/
structure Bindable (ctor : Constructor) (args : List (Argument α)) : Prop where
  found : ∀ target ∈ ctor.targets args, target.1 ≠ none
  distinct : ((ctor.targets args).map Prod.fst).Nodup

/-- There is a place for each field, which has the argument that is for the field. -/
structure Bound (ctor : Constructor) (args : List (Argument α)) (bound : List (Option α)) : Prop where
  length : bound.length = ctor.fields.length
  getElem? : ∀ k a, bound[k]? = some (some a) ↔ (some k, a) ∈ ctor.targets args

variable {ctor : Constructor} {given next : Nat} {arg : Argument α} {args args' : List (Argument α)}
  {placed placed' : List (Option α)}

/-- Without arguments there is nothing to place. -/
@[simp] theorem targetsFrom_nil : ctor.targetsFrom next ([] : List (Argument α)) = [] := rfl

/-- The first argument goes to its field, and the next one without a name to the field behind that, if the first had
no name. -/
theorem targetsFrom_cons : ctor.targetsFrom next (arg :: args) =
    (ctor.fieldFor? next arg.name, arg.value) ::
      ctor.targetsFrom (next + if arg.isPositional then 1 else 0) args := by
  rw [targetsFrom, List.mapIdx_cons, targetsFrom]
  refine congrArg ((ctor.fieldFor? next arg.name, arg.value) :: ·) ?_
  refine congrArg (List.mapIdx · args) (funext fun i => funext fun other => ?_)
  rw [List.take_succ_cons, List.countP_cons, Nat.add_comm (List.countP _ _), Nat.add_assoc]

/-- Only fields of the constructor are found. -/
theorem lt_of_fieldFor? {position k : Nat} {label : Option String} (h : ctor.fieldFor? position label = some k) :
    k < ctor.fields.length := by
  cases label with
  | none =>
    rw [fieldFor?] at h
    split at h
    · rename_i hlt
      exact Option.some.inj h ▸ hlt
    · cases h
  | some name =>
    obtain ⟨hlt, -⟩ := List.findIdx?_eq_some_iff_getElem.1 h
    exact hlt

/-- An argument is for one of the fields. -/
theorem lt_of_mem_targets {k : Nat} {a : α} (h : (some k, a) ∈ ctor.targets args) : k < ctor.fields.length := by
  obtain ⟨i, _, htarget⟩ := List.mem_mapIdx.1 h
  exact lt_of_fieldFor? (Prod.mk.inj htarget).1

/-! ## Placing one argument after another -/

/-- An argument is placed exactly at a field that is still free. -/
theorem placeAt_eq_ok_iff {k : Nat} {a : α} (hk : k < placed.length) :
    ctor.placeAt k a placed = .ok placed' ↔ placed[k]? = some none ∧ placed' = placed.set k (some a) := by
  rw [placeAt, List.getElem?_eq_getElem hk]
  cases placed[k] with
  | none => simp [eq_comm]
  | some b => simp

/-- The first argument goes to its field, which must be free, and the others follow. -/
theorem placeFrom_cons_eq_ok_iff (hlen : placed.length = ctor.fields.length) :
    ctor.placeFrom given next placed (arg :: args) = .ok placed' ↔
      ∃ k, ctor.fieldFor? next arg.name = some k ∧ placed[k]? = some none ∧
        ctor.placeFrom given (next + if arg.isPositional then 1 else 0) (placed.set k (some arg.value)) args =
          .ok placed' := by
  obtain ⟨_ | name, a⟩ := arg
  · rw [placeFrom, fieldFor?, ← hlen]
    by_cases hlt : next < placed.length
    · rw [if_neg (Nat.not_le.2 hlt), if_pos hlt, bind_eq_ok_iff]
      simp [placeAt_eq_ok_iff hlt, Argument.isPositional, and_assoc]
    · rw [if_pos (Nat.le_of_not_lt hlt), if_neg hlt]
      simp
  · rw [placeFrom, fieldFor?]
    cases hindex : ctor.fieldIndex? name with
    | none => simp
    | some k =>
      have hfor : ctor.fieldFor? next (some name) = some k := hindex
      have hlt : k < placed.length := hlen ▸ lt_of_fieldFor? hfor
      dsimp only
      rw [bind_eq_ok_iff]
      simp [placeAt_eq_ok_iff hlt, Argument.isPositional, and_assoc]

/-- The fields that are free after an argument is placed are the others that were. -/
theorem getElem?_set_eq_some_none_iff {k j : Nat} {a : α} :
    (placed.set k (some a))[j]? = some none ↔ k ≠ j ∧ placed[j]? = some none := by
  rw [List.getElem?_set]
  by_cases hkj : k = j
  · rw [if_pos hkj]
    split <;> simp [hkj]
  · rw [if_neg hkj, and_iff_right hkj]

/-- The arguments after one is placed are those before, and this one. -/
theorem getElem?_set_eq_some_some_iff {k j : Nat} {a b : α} (hfree : placed[k]? = some none) :
    (placed.set k (some a))[j]? = some (some b) ↔ placed[j]? = some (some b) ∨ j = k ∧ b = a := by
  rw [List.getElem?_set]
  by_cases hkj : k = j
  · subst hkj
    rw [if_pos rfl, if_pos (List.getElem?_eq_some_iff.1 hfree).1, hfree]
    simp [eq_comm]
  · rw [if_neg hkj]
    simp [Ne.symm hkj]

/-- Arguments are placed at free fields, each at another one. -/
theorem exists_placeFrom_iff : {args : List (Argument α)} → {next : Nat} → {placed : List (Option α)} →
    placed.length = ctor.fields.length →
      ((∃ placed', ctor.placeFrom given next placed args = .ok placed') ↔
        (∀ target ∈ ctor.targetsFrom next args, ∃ k, target.1 = some k ∧ placed[k]? = some none) ∧
          ((ctor.targetsFrom next args).map Prod.fst).Nodup)
  | [], next, placed, _ => iff_of_true ⟨placed, rfl⟩ ⟨List.forall_mem_nil _, .nil⟩
  | arg :: args, next, placed, hlen => by
    have hrest (k : Nat) : (∃ placed', ctor.placeFrom given (next + if arg.isPositional then 1 else 0)
        (placed.set k (some arg.value)) args = .ok placed') ↔ _ :=
      exists_placeFrom_iff (List.length_set.trans hlen)
    simp only [placeFrom_cons_eq_ok_iff hlen, targetsFrom_cons, List.forall_mem_cons, List.map_cons, List.nodup_cons]
    constructor
    · rintro ⟨placed', k, hk, hfree, hplaced⟩
      obtain ⟨hfresh, hnodup⟩ := (hrest k).1 ⟨placed', hplaced⟩
      refine ⟨⟨⟨k, hk, hfree⟩, fun target htarget => ?_⟩, fun hmem => ?_, hnodup⟩
      · obtain ⟨j, hj, hfreej⟩ := hfresh target htarget
        exact ⟨j, hj, (getElem?_set_eq_some_none_iff.1 hfreej).2⟩
      · obtain ⟨target, htarget, hsame⟩ := List.mem_map.1 hmem
        obtain ⟨j, hj, hfreej⟩ := hfresh target htarget
        obtain rfl : j = k := Option.some.inj (hj.symm.trans (hsame.trans hk))
        exact (getElem?_set_eq_some_none_iff.1 hfreej).1 rfl
    · rintro ⟨⟨⟨k, hk, hfree⟩, hfresh⟩, hnotmem, hnodup⟩
      have hothers : ∀ target ∈ ctor.targetsFrom (next + if arg.isPositional then 1 else 0) args,
          ∃ j, target.1 = some j ∧ (placed.set k (some arg.value))[j]? = some none := by
        intro target htarget
        obtain ⟨j, hj, hfreej⟩ := hfresh target htarget
        refine ⟨j, hj, getElem?_set_eq_some_none_iff.2 ⟨?_, hfreej⟩⟩
        rintro rfl
        exact hnotmem (List.mem_map.2 ⟨target, htarget, hj.trans hk.symm⟩)
      obtain ⟨placed', hplaced⟩ := (hrest k).2 ⟨hothers, hnodup⟩
      exact ⟨placed', k, hk, hfree, hplaced⟩

/-- After that, each field has what it had before, or the argument that is for it. -/
theorem getElem?_of_placeFrom : {args : List (Argument α)} → {next : Nat} → {placed : List (Option α)} →
    placed.length = ctor.fields.length → ctor.placeFrom given next placed args = .ok placed' →
      placed'.length = ctor.fields.length ∧ ∀ k a, placed'[k]? = some (some a) ↔
        placed[k]? = some (some a) ∨ (some k, a) ∈ ctor.targetsFrom next args
  | [], next, placed, hlen, h => by
    obtain rfl := Except.ok.inj h
    exact ⟨hlen, fun k a => (or_iff_left List.not_mem_nil).symm⟩
  | arg :: args, next, placed, hlen, h => by
    obtain ⟨k, hk, hfree, hplaced⟩ := (placeFrom_cons_eq_ok_iff hlen).1 h
    obtain ⟨hlen', hget⟩ := getElem?_of_placeFrom (List.length_set.trans hlen) hplaced
    refine ⟨hlen', fun j a => ?_⟩
    rw [hget, getElem?_set_eq_some_some_iff hfree, targetsFrom_cons, List.mem_cons, hk, Prod.mk.injEq,
      Option.some.injEq, or_assoc]

/-! ## Placing all arguments -/

/-- **Arguments are placed exactly if each has a field and no two have the same.** -/
theorem exists_place_iff : (∃ placed, ctor.place args = .ok placed) ↔ ctor.Bindable args := by
  rw [place, exists_placeFrom_iff List.length_replicate]
  constructor
  · rintro ⟨hfound, hdistinct⟩
    refine ⟨fun target htarget hnone => ?_, hdistinct⟩
    obtain ⟨k, hk, -⟩ := hfound target htarget
    cases hk.symm.trans hnone
  · rintro ⟨hfound, hdistinct⟩
    refine ⟨fun target htarget => ?_, hdistinct⟩
    obtain ⟨k, hk⟩ := Option.ne_none_iff_exists'.1 (hfound target htarget)
    obtain ⟨_, a⟩ := target
    obtain rfl := hk
    exact ⟨k, rfl, List.getElem?_replicate_of_lt (lt_of_mem_targets htarget)⟩

/-- **Each field has the argument that is for it.** -/
theorem bound_of_place (h : ctor.place args = .ok placed) : ctor.Bound args placed := by
  obtain ⟨hlen, hget⟩ := getElem?_of_placeFrom List.length_replicate h
  refine ⟨hlen, fun k a => (hget k a).trans (or_iff_right fun hnone => ?_)⟩
  cases List.eq_of_mem_replicate (List.mem_of_getElem? hnone)

/-- A field that no argument is for has none. -/
theorem Bound.getElem?_eq_some_none_iff (h : ctor.Bound args placed) {k : Nat} (hk : k < ctor.fields.length) :
    placed[k]? = some none ↔ ∀ a, (some k, a) ∉ ctor.targets args := by
  have hlt : k < placed.length := h.length ▸ hk
  simp only [← h.getElem?]
  rw [List.getElem?_eq_getElem hlt]
  cases placed[k] <;> simp

/-- The arguments that are for the fields are determined by the targets. -/
theorem Bound.unique (h : ctor.Bound args placed) (h' : ctor.Bound args' placed')
    (hmem : ∀ target, target ∈ ctor.targets args ↔ target ∈ ctor.targets args') : placed = placed' := by
  refine List.ext_getElem (h.length.trans h'.length.symm) fun k hk hk' => Option.ext fun a => ?_
  have hget := ((h.getElem? k a).trans (hmem _)).trans (h'.getElem? k a).symm
  rwa [List.getElem?_eq_getElem hk, List.getElem?_eq_getElem hk', Option.some.injEq, Option.some.injEq] at hget

/-! ## Arguments in another order -/

/-- The arguments without names are for the fields from `next` on, and the others for those of their names. -/
theorem perm_targetsFrom : (ctor.targetsFrom next args).Perm
    (((args.filter Argument.isPositional).mapIdx fun i arg => (ctor.fieldFor? (next + i) none, arg.value)) ++
      (args.filter (!Argument.isPositional ·)).map fun arg => (ctor.fieldFor? 0 arg.name, arg.value)) := by
  induction args generalizing next with
  | nil => exact .nil
  | cons arg args ih =>
    rw [targetsFrom_cons]
    obtain ⟨_ | name, a⟩ := arg
    · have hshift : ∀ i, next + 1 + i = next + (i + 1) := fun i => by omega
      have hrest : (ctor.targetsFrom (next + 1) args).Perm _ := ih
      simp only [hshift] at hrest
      rw [List.filter_cons_of_pos rfl, List.mapIdx_cons, List.filter_cons_of_neg (by rintro ⟨⟩)]
      exact hrest.cons _
    · rw [List.filter_cons_of_neg (by rintro ⟨⟩), List.filter_cons_of_pos rfl, List.map_cons]
      exact (ih.cons _).trans List.perm_middle.symm

/-- **To move arguments is to move their targets,** if those without names keep their order. -/
theorem perm_targets (hperm : args.Perm args')
    (horder : args.filter Argument.isPositional = args'.filter Argument.isPositional) :
    (ctor.targets args).Perm (ctor.targets args') := by
  refine perm_targetsFrom.trans (.trans ?_ perm_targetsFrom.symm)
  rw [horder]
  exact ((hperm.filter _).map _).append_left _

/-- Whether arguments can be bound depends only on which of them is for which field. -/
theorem bindable_of_perm (h : (ctor.targets args).Perm (ctor.targets args')) :
    ctor.Bindable args ↔ ctor.Bindable args' := by
  constructor
  · rintro ⟨hfound, hdistinct⟩
    exact ⟨fun target htarget => hfound target (h.mem_iff.2 htarget), (h.map _).nodup_iff.1 hdistinct⟩
  · rintro ⟨hfound, hdistinct⟩
    exact ⟨fun target htarget => hfound target (h.mem_iff.1 htarget), (h.map _).nodup_iff.2 hdistinct⟩

/-- **The same arguments are placed at the same fields,** in whichever order they have the same targets. -/
theorem place_of_perm (h : (ctor.targets args).Perm (ctor.targets args')) :
    ctor.place args = .ok placed ↔ ctor.place args' = .ok placed := by
  have hsame : ∀ {args args' : List (Argument α)}, (ctor.targets args).Perm (ctor.targets args') →
      ctor.place args = .ok placed → ctor.place args' = .ok placed := by
    intro args args' h hplaced
    obtain ⟨placed', hplaced'⟩ := exists_place_iff.2 ((bindable_of_perm h).1 (exists_place_iff.1 ⟨placed, hplaced⟩))
    rw [hplaced', (bound_of_place hplaced).unique (bound_of_place hplaced') fun _ => h.mem_iff]
  exact ⟨hsame h, hsame h.symm⟩

end Constructor

end TypedData
