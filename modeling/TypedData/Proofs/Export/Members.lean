import Mathlib.Data.List.Induction
import Mathlib.Data.List.Perm.Basic
import TypedData.Export.Tree

/-!
# The members of a map

Sorting keeps members and keys (`mem_of_mem_sorted`, `mem_keys_sorted`); no member is lost where no two have
the same key (`perm_sorted`).  So with keys of their own, members with the same map are the same but for their
order, and members with the same keys in the same order are the same (`eq_of_perm`).

The members for the fields of a record have the labels of the fields as keys.
-/

namespace TypedData

namespace Member

variable {α : Type} {new m : Member α} {members members' : List (Member α)} {key : String}

/-- A member of a map into which one was put is that one, or was there before. -/
theorem mem_put (h : m ∈ put new members) : m = new ∨ m ∈ members := by
  fun_induction put new members with
  | case1 => simpa using h
  | case2 => simpa using h
  | case3 m' members _ hkey =>
    rcases List.mem_cons.1 h with h | h
    · exact .inl h
    · exact .inr (.tail _ h)
  | case4 m' members _ _ ih =>
    rcases List.mem_cons.1 h with rfl | h
    · exact .inr (.head _)
    · exact (ih h).imp_right (.tail _)

/-- The keys of a map into which a member was put are its key and those before. -/
theorem mem_keys_put :
    key ∈ (put new members).map Member.key ↔ key = new.key ∨ key ∈ members.map Member.key := by
  fun_induction put new members with
  | case1 => simp
  | case2 => simp
  | case3 m members _ hkey => simp [hkey]
  | case4 m members _ _ ih =>
    rw [List.map_cons, List.mem_cons, ih, List.map_cons, List.mem_cons]
    tauto

/-- If its key is new, a member is added to those before. -/
theorem perm_put (h : new.key ∉ members.map Member.key) : (put new members).Perm (new :: members) := by
  fun_induction put new members with
  | case1 => rfl
  | case2 => rfl
  | case3 m members _ hkey => simp [hkey] at h
  | case4 m members _ _ ih =>
    have hrest : new.key ∉ members.map Member.key := fun hmem => h (.tail _ hmem)
    exact ((ih hrest).cons m).trans (.swap new m members)

/-- The last member that is put into a map is put in at last. -/
theorem sorted_append_singleton (members : List (Member α)) (m : Member α) :
    sorted (members ++ [m]) = put m (sorted members) := by
  simp [sorted]

/-- Only members that are given are there. -/
theorem mem_of_mem_sorted (h : m ∈ sorted members) : m ∈ members := by
  induction members using List.reverseRecOn with
  | nil => exact h
  | append_singleton members last ih =>
    rw [sorted_append_singleton] at h
    rcases mem_put h with rfl | h
    · simp
    · exact List.mem_append_left _ (ih h)

/-- There is a member of every key that is given. -/
theorem mem_keys_sorted : key ∈ (sorted members).map Member.key ↔ key ∈ members.map Member.key := by
  induction members using List.reverseRecOn with
  | nil => rfl
  | append_singleton members last ih =>
    rw [sorted_append_singleton, mem_keys_put, ih]
    simp [or_comm]

/-- **No member is lost where no two have the same key.** -/
theorem perm_sorted (h : (members.map Member.key).Nodup) : (sorted members).Perm members := by
  induction members using List.reverseRecOn with
  | nil => rfl
  | append_singleton members last ih =>
    simp only [List.map_append, List.map_cons, List.map_nil, List.nodup_append] at h
    have hlast : last.key ∉ (sorted members).map Member.key := by
      rw [mem_keys_sorted]
      exact fun hmem => h.2.2 _ hmem _ (.head _) rfl
    rw [sorted_append_singleton]
    exact (perm_put hlast).trans (((ih h.1).cons last).trans (List.perm_append_singleton last members).symm)

/-- Maps with the same members in order have the same members, if no key comes twice. -/
theorem perm_of_sorted_eq (h : sorted members = sorted members') (hkeys : (members.map Member.key).Nodup)
    (hkeys' : (members'.map Member.key).Nodup) : members.Perm members' :=
  (perm_sorted hkeys).symm.trans (h ▸ perm_sorted hkeys')

/-- Members with the same keys in the same order are the same, if they are so but for their order. -/
theorem eq_of_perm (h : members.Perm members') (hsame : members.map Member.key = members'.map Member.key)
    (hkeys : (members.map Member.key).Nodup) : members = members' := by
  induction members generalizing members' with
  | nil => exact (List.nil_perm.1 h).symm
  | cons m members ih =>
    cases members' with
    | nil => simp at hsame
    | cons m' members' =>
      simp only [List.map_cons, List.cons.injEq, List.nodup_cons] at hsame hkeys
      obtain ⟨hkey, hsame⟩ := hsame
      have hm : m = m' := by
        rcases List.mem_cons.1 (h.subset (.head _)) with hm | hm
        · exact hm
        · exact absurd (hsame ▸ List.mem_map_of_mem hm) hkeys.1
      subst hm
      rw [ih h.cons_inv hsame hkeys.2]

end Member

/-! ## Fields as members -/

/-- The labels of fields with the given names. -/
def fieldLabels (names : List (Option String)) : List String := names.mapIdx fieldLabel

namespace PlainTree

/-- Fields become members under their labels, one for one. -/
theorem getElem?_ofFields (index : Nat) (fields : List (Field Value)) (i : Nat) :
    (ofFields index fields)[i]? =
      fields[i]?.map fun field => ⟨fieldLabel (index + i) field.name, ofValue field.value⟩ := by
  induction fields generalizing index i with
  | nil => simp [ofFields]
  | cons field fields ih =>
    cases i with
    | zero => simp [ofFields]
    | succ i => simp [ofFields, ih, Nat.add_comm, Nat.add_left_comm]

/-- The keys of the members of a record are the labels of its fields. -/
theorem keys_ofFields (fields : List (Field Value)) :
    (ofFields 0 fields).map Member.key = fieldLabels (fields.map Field.name) := by
  refine List.ext_getElem? fun i => ?_
  simp only [List.getElem?_map, getElem?_ofFields, fieldLabels, List.getElem?_mapIdx, Option.map_map]
  cases fields[i]? <;> simp

end PlainTree

end TypedData
