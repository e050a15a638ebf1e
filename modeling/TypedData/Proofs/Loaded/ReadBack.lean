import TypedData.Proofs.Building.Written
import TypedData.Proofs.Loaded.Locality
import TypedData.Proofs.Loaded.Names

/-!
# Reading back printed values

In a document without rules a printed value can be read, and what is read is resolved to the same value or not at all.
Which of the two it is depends on nothing but the order of fields with and without names in its records.
-/

namespace TypedData

/-- Whether a value is read back, as far as can be seen without looking at its parts: it is neither a reference nor a
float that is not a number. -/
def Value.IsLiteral : Value → Prop
  | .ref _ => False
  | .float x => x.isFinite = true
  | _ => True

/-! ## Documents of one value -/

/-- A document of a single value, which is built where nothing else is, has this value. -/
theorem Document.resolve_value {registry : Registry} {rules : List Rule} {v : Value} {d : Data}
    (h : ∀ force, (Scene.buildData ⟨registry, rules, [], Scene.maxTextDepth⟩ force d .any).Gives
      (.initial 0) v (.initial 0)) :
    (Document.mk [.value d]).resolve registry rules = .ok ⟨[], [v]⟩ := by
  let scene : Scene := ⟨registry, rules, [], Scene.maxTextDepth⟩
  have hitems : (scene.buildItemsFrom 0 [.value d]).Gives (.initial 0) [v] (.initial 0) := by
    refine Build.gives_bind_iff.2 ⟨v, .initial 0, h scene.force, Build.gives_bind_iff.2 ⟨[], .initial 0, ?_, ?_⟩⟩
    · exact Build.gives_pure_iff.2 ⟨rfl, rfl⟩
    · exact Build.gives_pure_iff.2 ⟨rfl, rfl⟩
  change ((scene.buildDocument [.value d]).outcome (.initial 0)).1 = _
  rw [Scene.outcome_buildDocument, hitems]
  rfl

/-- If a document of one value can be resolved, the value can be built. -/
theorem Document.exists_gives_of_resolve {registry : Registry} {rules : List Rule} {d : Data} {resolution : Resolution}
    (h : (Document.mk [.value d]).resolve registry rules = .ok resolution) :
    ∃ force v q, (Scene.buildData ⟨registry, rules, [], Scene.maxTextDepth⟩ force d .any).Gives (.initial 0) v q := by
  let scene : Scene := ⟨registry, rules, [], Scene.maxTextDepth⟩
  obtain ⟨_, hgives⟩ := Build.exists_gives (m := scene.buildDocument [.value d]) h
  obtain ⟨hitems, -⟩ := Scene.gives_of_buildDocument scene hgives
  obtain ⟨v, q, hv, -⟩ := Build.gives_bind_iff.1 hitems
  exact ⟨scene.force, v, q, hv⟩

/-- The same data at other places is resolved to the same values. -/
theorem Document.resolve_of_relocate (f : Span → Span) {registry : Registry} {rules : List Rule} {d d' : Data}
    {resolution : Resolution} (hd : d'.relocate f = d.relocate f)
    (h : (Document.mk [.value d]).resolve registry rules = .ok resolution) :
    (Document.mk [.value d']).resolve registry rules = .ok resolution := by
  have hsame : (Document.mk [.value d']).relocate f = (Document.mk [.value d]).relocate f :=
    congrArg (fun d => Document.mk [.value d]) hd
  have hresult := (resolve_relocate f (.mk [.value d']) registry rules).symm
  rw [hsame, resolve_relocate, h] at hresult
  cases hresolve : (Document.mk [.value d']).resolve registry rules with
  | error e =>
    rw [hresolve] at hresult
    cases hresult
  | ok resolution' =>
    rw [hresolve] at hresult
    exact hresult

namespace Loaded

variable {loaded : Loaded} {scene : Scene} {p : Progress} {v : Value}

/-- A document without rules has none when it is loaded. -/
theorem rules_of_load {source : String} (h : load source = .ok loaded) (hrules : loaded.document.rules = []) :
    loaded.rules = [] := by
  obtain ⟨d, -, h⟩ := bind_eq_ok_iff.1 h
  obtain ⟨hdocument, hdeclarations, -⟩ := of_ofDocument h
  have hof := (declarations_eq_ok_iff.1 hdeclarations).2
  rw [← hdocument, hrules] at hof
  exact (Except.ok.inj hof).symm

/-- A loaded value without references and infinite floats is written in a way that can be read. -/
theorem legible_of_literal {source : String} (h : load source = .ok loaded) (hbuilt : loaded.BuiltIn scene p)
    (hv : loaded.Contains v) (hliteral : Value.Throughout Value.IsLiteral v) :
    Value.Throughout Value.IsLegible v := by
  intro x hx
  obtain ⟨t, ht⟩ := hbuilt.built (hv.part hx)
  have hhere := hliteral x hx
  cases x with
  | record typeName ctor fields =>
    cases ctor with
    | none =>
      obtain ⟨-, keys, -, hnames⟩ := ht.of_untyped
      intro f hf hnone
      have hname : f.name ∈ keys.map some := hnames ▸ List.mem_map.2 ⟨f, hf, rfl⟩
      obtain ⟨key, -, hkey⟩ := List.mem_map.1 hname
      cases hkey.trans hnone
    | some c =>
      obtain ⟨ctor, args, hctor, -, hnames, -, rfl, -⟩ := ht.of_record
      have hnamed := wellNamed_of_load h (Registry.mem_of_constructor? (hbuilt.registry ▸ hctor))
      refine ⟨hnamed.name, fun f hf name hname => hnamed.fields name ?_⟩
      have hmem : some name ∈ ctor.fields.map FieldSpec.name :=
        hnames ▸ List.mem_map.2 ⟨f, hf, hname⟩
      obtain ⟨spec, hspec, hspecName⟩ := List.mem_map.1 hmem
      exact List.mem_filterMap.2 ⟨spec, hspec, hspecName⟩
  | float x => exact hhere
  | ref r => exact hhere
  | _ => trivial

/-- **A printed value is read back as itself, or not at all,** in a document without rules: if there are no references
and no infinite floats in it, and it is not nested too deeply, it is read back as itself just when the fields without
names come first in each of its records. -/
theorem print_reads_back {source : String} (h : load source = .ok loaded) (hrules : loaded.document.rules = [])
    (hv : loaded.Contains v) (hliteral : Value.Throughout Value.IsLiteral v) :
    (∃ span, Data.read v.print = .error (.parse (.tooDeep span))) ∨
      ∃ d, Data.read v.print = .ok d ∧ ∀ resolution,
        (Document.mk [.value d]).resolve loaded.registry loaded.rules = .ok resolution ↔
          Value.Throughout Value.IsInOrder v ∧ resolution = ⟨[], [v]⟩ := by
  obtain ⟨_, _, _, scene, p, hbuilt⟩ := exists_builtIn_of_load h
  refine (Value.read_print (f := nowhere) (fun _ _ => rfl) (legible_of_literal h hbuilt hv hliteral)).imp_right ?_
  rintro ⟨d, hread, hd⟩
  refine ⟨d, hread, fun resolution => ?_⟩
  obtain ⟨t, ht⟩ := hbuilt.built hv
  have hechoes : scene.Echoes ⟨loaded.registry, loaded.rules, [], Scene.maxTextDepth⟩ :=
    { registry := hbuilt.registry.symm
      rules := rules_of_load h hrules
      textDepth := (by decide : Scene.maxTextDepth ≠ 0)
      nodup := fun ctor hctor => (wellNamed_of_load h (hbuilt.registry ▸ hctor)).nodup }
  have hself : Value.Throughout Value.IsInOrder v →
      (Document.mk [.value d]).resolve loaded.registry loaded.rules = .ok ⟨[], [v]⟩ := fun horder =>
    Document.resolve_of_relocate nowhere hd (Document.resolve_value fun force =>
      hbuilt.complete.restores hechoes ht (.open rfl) (fun r hr => hliteral _ hr) horder)
  constructor
  · intro hresolve
    obtain ⟨_, w, q, hw⟩ :=
      Document.exists_gives_of_resolve (Document.resolve_of_relocate nowhere hd.symm hresolve)
    have horder := ht.inOrder hechoes (.open rfl) ⟨_, w, q, hw⟩
    exact ⟨horder, Except.ok.inj (hresolve.symm.trans (hself horder))⟩
  · rintro ⟨horder, rfl⟩
    exact hself horder

/-- A record of two fields, the second of which is left out. -/
def omitted : String := "type t = t \x7bint, note: optional str\x7d\nx := t(1)\n"

/-- Whether there are no rules, and the only binding is a record of a number and null that can be read. -/
def isOmitted (loaded : Loaded) : Bool :=
  match loaded.document.rules, loaded.bindings with
  | [], [("x", .record typeName (some "t") [⟨none, .int n⟩, ⟨some "note", .null⟩])] =>
    (Data.read (Value.record typeName (some "t") [⟨none, .int n⟩, ⟨some "note", .null⟩]).print).toOption.isSome
  | _, _ => false

/-- A record with a field without a name, and an optional one with a name left out. -/
theorem print_reads_back_omitted : ∃ loaded typeName n d, load omitted = .ok loaded ∧
    Data.read (Value.record typeName (some "t") [⟨none, .int n⟩, ⟨some "note", .null⟩]).print = .ok d ∧
    (Document.mk [.value d]).resolve loaded.registry loaded.rules =
      .ok ⟨[], [.record typeName (some "t") [⟨none, .int n⟩, ⟨some "note", .null⟩]]⟩ := by
  have htest : (load omitted).toOption.any isOmitted = true := by decide +kernel
  obtain ⟨loaded, h, htest⟩ := exists_ok_of_any htest
  unfold isOmitted at htest
  split at htest
  · rename_i typeName n hrules hbindings
    let v : Value := .record typeName (some "t") [⟨none, .int n⟩, ⟨some "note", .null⟩]
    have hv : loaded.Contains v := ⟨v, .inl ⟨"x", by simp [hbindings, v]⟩, .self v⟩
    have hliteral : Value.Throughout Value.IsLiteral v :=
      .of_fields trivial (List.forall_mem_cons.2 ⟨.int trivial, List.forall_mem_singleton.2 (.null trivial)⟩)
    have horder : Value.Throughout Value.IsInOrder v := by
      refine .of_fields ?_ (List.forall_mem_cons.2 ⟨.int trivial, List.forall_mem_singleton.2 (.null trivial)⟩)
      simp [Value.IsInOrder]
    rcases print_reads_back h hrules hv hliteral with ⟨span, hdeep⟩ | ⟨d, hread, hresolve⟩
    · rw [show Data.read _ = _ from hdeep] at htest
      cases htest
    · exact ⟨loaded, typeName, n, d, h, hread, (hresolve _).2 ⟨horder, rfl⟩⟩
  · cases htest

/-- A record whose field without a name stands after one with a name. -/
def mixed : String := "type t = t \x7ba: int, int\x7d\nx := t(1, 2)\n"

/-- Whether data could not be resolved because the field `a` of `t` was given twice. -/
def isGivenTwice : Except Failure Resolution → Bool
  | .error (.type ⟨.duplicateField "t" "a", _⟩) => true
  | _ => false

/-- Whether there are no rules, and the only binding is a record that is printed in a way that can be read, but not be
resolved. -/
def isMixed (loaded : Loaded) : Bool :=
  match loaded.document.rules, loaded.bindings with
  | [], [("x", .record typeName (some "t") [⟨some "a", .int m⟩, ⟨none, .int n⟩])] =>
    (Data.read (Value.record typeName (some "t") [⟨some "a", .int m⟩, ⟨none, .int n⟩]).print).toOption.any fun d =>
      isGivenTwice ((Document.mk [.value d]).resolve loaded.registry loaded.rules)
  | _, _ => false

/-- A printed value need not be read back: an argument without a name is taken for the first field, though one with
the name of the field has been given before it. -/
theorem mixed_is_not_read_back : ∃ loaded v d span, load mixed = .ok loaded ∧ loaded.document.rules = [] ∧
    loaded.Contains v ∧ Value.Throughout Value.IsLiteral v ∧ Data.read v.print = .ok d ∧
    (Document.mk [.value d]).resolve loaded.registry loaded.rules = .error (.type ⟨.duplicateField "t" "a", span⟩) := by
  have htest : (load mixed).toOption.any isMixed = true := by decide +kernel
  obtain ⟨loaded, h, htest⟩ := exists_ok_of_any htest
  unfold isMixed at htest
  split at htest
  · rename_i typeName m n hrules hbindings
    let v : Value := .record typeName (some "t") [⟨some "a", .int m⟩, ⟨none, .int n⟩]
    have hv : loaded.Contains v := ⟨v, .inl ⟨"x", by simp [hbindings, v]⟩, .self v⟩
    have hliteral : Value.Throughout Value.IsLiteral v :=
      .of_fields trivial (List.forall_mem_cons.2 ⟨.int trivial, List.forall_mem_singleton.2 (.int trivial)⟩)
    obtain ⟨d, hread, htwice⟩ := exists_ok_of_any htest
    generalize hresolve : (Document.mk [.value d]).resolve loaded.registry loaded.rules = result at htwice
    unfold isGivenTwice at htwice
    split at htwice
    · rename_i span
      exact ⟨loaded, v, d, span, h, hrules, hv, hliteral, hread, hresolve⟩
    · cases htwice
  · cases htest

end Loaded

end TypedData
