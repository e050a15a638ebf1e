import TypedData.Proofs.Loaded.Basic

/-!
# The conditions on loaded records hold

When a record is built, some of its conditions may read bindings that are not finished; these and all
after them are checked at the end.  Whichever way they were checked, over the finished bindings each of
them holds.
-/

namespace TypedData

namespace Loaded

variable {loaded : Loaded} {scene : Scene} {p : Progress}

/-- More hops than those of the scene change nothing about the conditions on a record. -/
theorem BuiltIn.holds (h : loaded.BuiltIn scene p) {typeName : Option String} {c : String}
    {fields : List (Field Value)} (hx : loaded.Contains (.record typeName (some c) fields))
    {constraint : Constraint} (hmem : constraint ∈ loaded.registry.constraintsFor c) {hops : Nat}
    (hhops : Value.hopLimit loaded.bindings.length ≤ hops) :
    constraint.condition.check (recordEnvironment loaded.root hops fields) = .ok true := by
  obtain ⟨t, ht⟩ := h.built hx
  obtain ⟨ctor, -, -, -, -, -, rfl, hchecked⟩ := ht.of_record
  have hholds := h.complete.holds hchecked (h.registry ▸ hmem)
  rw [h.length_bindings] at hhops
  have hext := recordEnvironment_extends (.refl p.value?) hhops fields
  rw [h.root]
  exact (constraint.condition.check_agrees hext).eq_of_ok hholds

/-- **Every condition on every loaded record holds.**  It is checked over the fields of the record, with
references followed through the finished bindings, and however many hops are allowed beyond those that
are needed, the answer is that it holds: it is not false, it does not fault, and it does not wait. -/
theorem constraints_hold {source : String} (h : load source = .ok loaded)
    {typeName : Option String} {c : String} {fields : List (Field Value)}
    (hx : loaded.Contains (.record typeName (some c) fields)) {constraint : Constraint}
    (hmem : constraint ∈ loaded.registry.constraintsFor c) {hops : Nat}
    (hhops : Value.hopLimit loaded.bindings.length ≤ hops) :
    constraint.condition.check (recordEnvironment loaded.root hops fields) = .ok true := by
  obtain ⟨_, _, _, _, _, hbuilt⟩ := exists_builtIn_of_load h
  exact hbuilt.holds hx hmem hhops

/-- A condition on a record that refers to another one. -/
theorem constraints_hold_ring : ∃ loaded typeName fields constraint, load ring = .ok loaded ∧
    loaded.Contains (.record typeName (some "node") fields) ∧
    constraint ∈ loaded.registry.constraintsFor "node" ∧
    constraint.condition.check
      (recordEnvironment loaded.root (Value.hopLimit loaded.bindings.length) fields) = .ok true := by
  obtain ⟨loaded, hload, ⟨typeName, fields, ha⟩, -, constraint, hmem⟩ := load_ring
  have hx : loaded.Contains (.record typeName (some "node") fields) := ⟨_, .inl ⟨"a", ha⟩, .self _⟩
  exact ⟨loaded, typeName, fields, constraint, hload, hx, hmem,
    constraints_hold hload hx hmem (Nat.le_refl _)⟩

end Loaded

end TypedData
