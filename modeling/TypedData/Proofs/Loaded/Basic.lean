import TypedData.Load
import TypedData.Proofs.Building.Complete
import TypedData.Proofs.Building.Slots

/-!
# What a loaded document was built from

Every successful load comes from a scene at a complete progress (`exists_builtIn_of_load`).  The slots of
the scene are the bindings of the document, and what was built is what was loaded, so every value that
occurs in the result was built at some type (`BuiltIn.built`).
-/

namespace TypedData

/-! ## Loading -/

namespace Loaded

variable {loaded : Loaded} {scene : Scene} {p : Progress}

/-- What the declarations of a document give. -/
theorem declarations_eq_ok_iff {d : Document} {registry : Registry} {rules : List Rule} :
    declarations d = .ok (registry, rules) ↔
      Registry.ofDecls d.types = .ok registry ∧ Rule.ofDecls registry d.rules = .ok rules := by
  constructor
  · intro h
    obtain ⟨registry', hregistry, h⟩ := bind_eq_ok_iff.1 h
    obtain ⟨rules', hrules, h⟩ := bind_eq_ok_iff.1 h
    obtain ⟨rfl, rfl⟩ := Prod.mk.inj (Except.ok.inj h)
    exact ⟨mapError_eq_ok_iff.1 hregistry, mapError_eq_ok_iff.1 hrules⟩
  · rintro ⟨hregistry, hrules⟩
    exact bind_eq_ok_iff.2 ⟨_, mapError_eq_ok_iff.2 hregistry, bind_eq_ok_iff.2 ⟨_, mapError_eq_ok_iff.2 hrules, rfl⟩⟩

/-- What is loaded is the document, what it declares, and the values over that. -/
theorem of_ofDocument {d : Document} (h : ofDocument d = .ok loaded) : loaded.document = d ∧
    declarations d = .ok (loaded.registry, loaded.rules) ∧
    d.resolve loaded.registry loaded.rules = .ok ⟨loaded.bindings, loaded.values⟩ := by
  obtain ⟨⟨registry, rules⟩, hdeclarations, h⟩ := bind_eq_ok_iff.1 h
  obtain ⟨resolution, hresolve, h⟩ := bind_eq_ok_iff.1 h
  obtain rfl := Except.ok.inj h
  exact ⟨rfl, hdeclarations, hresolve⟩

/-- The document was built in the scene, and `p` is the progress at the end. -/
structure BuiltIn (loaded : Loaded) (scene : Scene) (p : Progress) : Prop where
  registry : scene.registry = loaded.registry
  slots : Scene.slotsOf loaded.registry [] loaded.document.bindings = .ok scene.slots
  complete : scene.Complete p
  bindings : loaded.bindings = scene.finished p
  values : ∀ v ∈ loaded.values, scene.Built p .any v

/-- A document that loads was built in some scene, at some progress at the end. -/
theorem exists_builtIn {d : Document} (h : ofDocument d = .ok loaded) :
    loaded.document = d ∧ ∃ scene p, loaded.BuiltIn scene p := by
  obtain ⟨hdocument, -, hresolve⟩ := of_ofDocument h
  obtain ⟨slots, hslots, hbuild⟩ := bind_eq_ok_iff.1 hresolve
  have hlen := (Scene.slotsOf_ok hslots).1
  obtain ⟨p, hgives⟩ := Build.exists_gives hbuild
  obtain ⟨hcomplete, hbindings, hvalues⟩ :=
    Scene.complete_of_buildDocument ⟨loaded.registry, loaded.rules, slots, Scene.maxTextDepth⟩ hlen hgives
  exact ⟨hdocument, _, p, rfl, hdocument ▸ hslots, hcomplete, hbindings, hvalues⟩

/-- **What is loaded from a text was built.** -/
theorem exists_builtIn_of_load {source : String} (h : load source = .ok loaded) :
    ∃ d, Document.read source = .ok d ∧ loaded.document = d.canonical ∧
      ∃ scene p, loaded.BuiltIn scene p := by
  obtain ⟨d, hd, h⟩ := bind_eq_ok_iff.1 h
  exact ⟨d, hd, exists_builtIn h⟩

/-- Two nodes that refer to each other, and an alias of the first of them through both. -/
def ring : String :=
  "type node = node {id: int, next: optional node} where next.id != id\n" ++
  "a: node := node(id: 1, next: !b)\n" ++
  "b := node(id: 2, next: !a)\n" ++
  "c := !a.next\n"

/-- Whether the bindings are a node, whatever follows it, and a reference, and nodes have a condition. -/
def isRing (loaded : Loaded) : Bool :=
  match loaded.bindings with
  | [(a, .record _ (some ctor) _), _, (c, .ref _)] =>
    a == "a" && ctor == "node" && c == "c" && (loaded.registry.constraintsFor "node").length == 1
  | _ => false

/-- Two records that refer to each other, and a reference to one of them. -/
theorem load_ring : ∃ loaded, load ring = .ok loaded ∧
    (∃ typeName fields, ("a", .record typeName (some "node") fields) ∈ loaded.bindings) ∧
    (∃ r, ("c", .ref r) ∈ loaded.bindings) ∧
    ∃ constraint, constraint ∈ loaded.registry.constraintsFor "node" := by
  have hring : (load ring).toOption.any isRing = true := by decide +kernel
  cases hload : load ring with
  | error e => rw [hload] at hring; cases hring
  | ok loaded =>
    rw [hload] at hring
    change loaded.isRing = true at hring
    unfold isRing at hring
    split at hring
    · rename_i a typeName ctor fields second c r hbindings
      simp only [Bool.and_eq_true, beq_iff_eq] at hring
      obtain ⟨⟨⟨rfl, rfl⟩, rfl⟩, hlen⟩ := hring
      obtain ⟨constraint, hmem⟩ := List.exists_mem_of_length_pos (hlen ▸ Nat.one_pos)
      refine ⟨loaded, rfl, ⟨typeName, fields, ?_⟩, ⟨r, ?_⟩, constraint, hmem⟩
      · rw [hbindings]; exact .head _
      · rw [hbindings]; exact .tail _ (.tail _ (.head _))
    · cases hring

/-- `loaded.Contains x` says that `x` occurs in the result, at any depth in a binding or in a value
without a name. -/
def Contains (loaded : Loaded) (x : Value) : Prop :=
  ∃ v, ((∃ name, (name, v) ∈ loaded.bindings) ∨ v ∈ loaded.values) ∧ Value.Part x v

/-- What is part of a contained value is contained. -/
theorem Contains.part {x v : Value} (h : loaded.Contains v) (hx : Value.Part x v) : loaded.Contains x := by
  obtain ⟨w, hw, hv⟩ := h
  exact ⟨w, hw, hx.trans hv⟩

namespace BuiltIn

/-- The bindings of a loaded document are those that are finished at the end. -/
theorem root (h : loaded.BuiltIn scene p) : loaded.root = p.value? := by
  rw [← h.complete.root_finished, ← h.bindings]
  rfl

/-- A loaded document has one binding for each slot. -/
theorem length_bindings (h : loaded.BuiltIn scene p) :
    loaded.bindings.length = scene.slots.length := by
  have hnames := congrArg List.length h.complete.names_finished
  rwa [List.length_map, List.length_map, ← h.bindings] at hnames

/-- **Everything that occurs in the result was built at some type.** -/
theorem built (h : loaded.BuiltIn scene p) {x : Value} (hx : loaded.Contains x) :
    ∃ t, scene.Built p t x := by
  rcases hx with ⟨v, ⟨name, hv⟩ | hv, hx⟩
  · obtain ⟨b, hb⟩ := List.mem_iff_getElem?.1 (h.bindings ▸ hv)
    obtain ⟨slot, hslot, -, hvalue⟩ := h.complete.getElem?_finished.1 hb
    exact (h.complete.sound.built b slot v hslot hvalue).of_part hx
  · exact (h.values v hv).of_part hx

end BuiltIn

end Loaded

end TypedData
