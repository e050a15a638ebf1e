import TypedData.Proofs.Building.Slots
import TypedData.Proofs.Canonical.Meaning
import TypedData.Proofs.Loaded.Basic
import TypedData.Proofs.Relocation.Run
import TypedData.Proofs.Simulation.Agreement
import TypedData.Proofs.Simulation.Rebuilding

/-!
# A value depends on nothing but its own text

Two documents that agree in their declarations, their rules and the names of their bindings, and both
load, agree in the value of every binding that is written in the same way in both, and in every such value
without a name, however else they differ.  For each of these values is built again over the finished
bindings, and what such a step gives does not depend on what is finished.
-/

namespace TypedData

/-! ## Up to places -/

/-- Trees are the same up to places if they are equal when all places are made equal. -/
abbrev nowhere (_ : Span) : Span := .zero

namespace Loaded

variable {d d' : Document} {loaded loaded' : Loaded} {scene scene' : Scene}
  {final final' : Progress}

/-- The document was built in the scene, and over the final bindings it is built again. -/
structure RebuiltIn (d : Document) (loaded : Loaded) (scene : Scene) (final : Progress) : Prop where
  declarations : declarations d = .ok (scene.registry, scene.rules)
  textDepth : scene.textDepth = Scene.maxTextDepth
  names : (d.bindings.map Binding.name).Nodup
  slots : List.Forall₂ (fun b slot => Scene.slotOf scene.registry b = .ok slot) d.bindings scene.slots
  complete : scene.Complete final
  bindings : loaded.bindings = scene.finished final
  rebuilt : scene.Rebuilt final final
  values : scene.RebuiltValues final d.values loaded.values

/-- A document that loads has values that are built again from themselves. -/
theorem exists_rebuiltIn (h : ofDocument d = .ok loaded) :
    ∃ scene final, RebuiltIn d loaded scene final := by
  obtain ⟨-, hdecls, hresolve⟩ := of_ofDocument h
  obtain ⟨slots, hslots, hbuild⟩ := bind_eq_ok_iff.1 hresolve
  obtain ⟨-, hnames, hslots⟩ := Scene.slotsOf_eq_ok_iff.1 hslots
  obtain ⟨final, hcomplete, hbindings, hrebuilt, hvalues⟩ :=
    Scene.rebuilt_of_buildDocument ⟨loaded.registry, loaded.rules, slots, Scene.maxTextDepth⟩
      hslots.length_eq.symm hbuild
  exact ⟨_, final, hdecls, rfl, hnames, hslots, hcomplete, hbindings, hrebuilt, hvalues⟩

namespace RebuiltIn

/-- Two documents with the same declarations and the same names of bindings are built in scenes that are alike. -/
theorem alike (h : RebuiltIn d loaded scene final) (h' : RebuiltIn d' loaded' scene' final')
    (hdecls : Loaded.declarations d' = Loaded.declarations d)
    (hnames : d.bindings.map Binding.name = d'.bindings.map Binding.name) :
    scene.Alike id scene' := by
  have hsame := Except.ok.inj (h.declarations.symm.trans (hdecls.symm.trans h'.declarations))
  obtain ⟨hregistry, hrules⟩ := Prod.mk.inj hsame
  refine ⟨hregistry.symm, hrules.symm, h'.textDepth.trans h.textDepth.symm, fun name => ?_⟩
  rw [Scene.indexOf?_eq, Scene.indexOf?_eq, Scene.names_of_slots h.slots,
    Scene.names_of_slots h'.slots, hnames, Option.map_id]
  rfl

/-- A binding has the value that is built again for its slot. -/
theorem binding (h : RebuiltIn d loaded scene final) {i : Nat} {b : Binding}
    (hb : d.bindings[i]? = some b) :
    ∃ slot v, Scene.slotOf scene.registry b = .ok slot ∧ loaded.bindings[i]? = some (b.name, v) ∧
      (scene.buildSlot Scene.idle slot).Gives final v final := by
  obtain ⟨slot, hslot, hof⟩ := exists_of_forall₂ h.slots hb
  obtain ⟨v, hv⟩ := h.complete.value?_of_slot hslot
  refine ⟨slot, v, hof, ?_, h.rebuilt i slot v hslot hv⟩
  rw [h.bindings]
  exact h.complete.getElem?_finished.2 ⟨slot, hslot, (Scene.slotOf_eq_ok_iff.1 hof).1, hv⟩

/-- **The same binding has the same value** in documents that are alike. -/
theorem getElem?_bindings (h : RebuiltIn d loaded scene final)
    (h' : RebuiltIn d' loaded' scene' final') (halike : scene.Alike id scene') {i : Nat} {b b' : Binding}
    (hb : d.bindings[i]? = some b) (hb' : d'.bindings[i]? = some b') (hname : b.name = b'.name)
    (htype : b.type = b'.type) (hvalue : b.value = b'.value) :
    ∃ v, loaded.bindings[i]? = some (b.name, v) ∧ loaded'.bindings[i]? = some (b.name, v) := by
  obtain ⟨slot, v, hslot, hloaded, hv⟩ := h.binding hb
  obtain ⟨slot', v', hslot', hloaded', hv'⟩ := h'.binding hb'
  have hsame : slot' = slot := by
    rw [Scene.slotOf, halike.registry, ← htype, ← hname, ← hvalue] at hslot'
    exact Except.ok.inj (hslot'.symm.trans hslot)
  subst hsame
  obtain rfl := (halike.buildSlot hv hv').trans (Value.renumber_id v)
  exact ⟨_, hloaded, hname ▸ hloaded'⟩

/-- Data without a name has the same value in two scenes that are alike, wherever it stands among the others. -/
theorem getElem?_values (h : RebuiltIn d loaded scene final)
    (h' : RebuiltIn d' loaded' scene' final') (halike : scene.Alike id scene') {i j : Nat} {e : Data}
    (he : d.values[i]? = some e) (he' : d'.values[j]? = some e) :
    ∃ v, loaded.values[i]? = some v ∧ loaded'.values[j]? = some v := by
  obtain ⟨v, hloaded, hv⟩ := exists_of_forall₂ h.values he
  obtain ⟨v', hloaded', hv'⟩ := exists_of_forall₂ h'.values he'
  obtain rfl := (halike.buildData hv hv').trans (Value.renumber_id v)
  exact ⟨_, hloaded, hloaded'⟩

end RebuiltIn

/-! ## Documents in any notation, at any places -/

/-- The canonical form loads as the document does. -/
theorem ofDocument_canonical (d : Document) :
    ofDocument d.canonical =
      (ofDocument d).map fun loaded => { loaded with document := d.canonical } := by
  have hdecls : Loaded.declarations d.canonical = Loaded.declarations d := by
    rw [Loaded.declarations, Loaded.declarations, Document.types_canonical,
      Registry.ofDecls_canonical, Document.rules_canonical]
  unfold ofDocument
  rw [hdecls]
  rcases Loaded.declarations d with e | ⟨registry, rules⟩
  · rfl
  · change (Document.resolve _ _ _ >>= _) = (d.resolve registry rules >>= _).map _
    rw [Document.resolve_canonical]
    rcases d.resolve registry rules with e | resolution <;> rfl

/-- Loading a text is loading the document that is read from it, but that the canonical form is kept. -/
theorem load_of_read {source : String} (hd : Document.read source = .ok d) :
    load source = (ofDocument d).map fun loaded => { loaded with document := d.canonical } := by
  rw [← ofDocument_canonical, load, hd]
  rfl

/-- What is loaded from a document at other places is what is loaded from the document, moved. -/
theorem ofDocument_relocate_eq_ok_iff {f : Span → Span} :
    ofDocument (d.relocate f) = .ok loaded ↔ ∃ built, ofDocument d = .ok built ∧ built.relocate f = loaded := by
  rw [ofDocument_relocate, map_eq_ok_iff]
  simp only [relocateFailure, mapError_eq_ok_iff]

/-- What is loaded from a text was built from its document, whose shorthands and places make no
difference. -/
theorem exists_rebuiltIn_of_load {source : String} (hd : Document.read source = .ok d)
    (h : load source = .ok loaded) :
    ∃ scene final, RebuiltIn (d.relocate nowhere) loaded scene final := by
  rw [load_of_read hd] at h
  obtain ⟨built, hof, rfl⟩ := map_eq_ok_iff.1 h
  obtain ⟨scene, final, hbuilt⟩ := exists_rebuiltIn (ofDocument_relocate_eq_ok_iff.2 ⟨built, hof, rfl⟩)
  exact ⟨scene, final, ⟨hbuilt.declarations, hbuilt.textDepth, hbuilt.names, hbuilt.slots,
    hbuilt.complete, hbuilt.bindings, hbuilt.rebuilt, hbuilt.values⟩⟩

/-- **A value depends on nothing but its own text.**  Let two documents that both load have the same
types, rules and names of bindings.  A binding with the same type and the same data in both, up to places,
has the same value in both; and so have two values without a name that are written in the same way,
wherever they stand. -/
theorem values_are_local {source source' : String} (hd : Document.read source = .ok d)
    (hd' : Document.read source' = .ok d') (h : load source = .ok loaded)
    (h' : load source' = .ok loaded')
    (htypes : d.types.map (TypeDecl.relocate nowhere) = d'.types.map (TypeDecl.relocate nowhere))
    (hrules : d.rules.map (RuleDecl.relocate nowhere) = d'.rules.map (RuleDecl.relocate nowhere))
    (hnames : d.bindings.map Binding.name = d'.bindings.map Binding.name) :
    (∀ (i : Nat) (b b' : Binding), d.bindings[i]? = some b → d'.bindings[i]? = some b' →
      b.type.map (TypeExpr.relocate nowhere) = b'.type.map (TypeExpr.relocate nowhere) →
      b.value.relocate nowhere = b'.value.relocate nowhere →
      ∃ v, loaded.bindings[i]? = some (b.name, v) ∧ loaded'.bindings[i]? = some (b.name, v)) ∧
    ∀ (i j : Nat) (e e' : Data), d.values[i]? = some e → d'.values[j]? = some e' →
      e.relocate nowhere = e'.relocate nowhere →
      ∃ v, loaded.values[i]? = some v ∧ loaded'.values[j]? = some v := by
  obtain ⟨scene, final, hbuilt⟩ := exists_rebuiltIn_of_load hd h
  obtain ⟨scene', final', hbuilt'⟩ := exists_rebuiltIn_of_load hd' h'
  have hdecls : Loaded.declarations (d'.relocate nowhere) = Loaded.declarations (d.relocate nowhere) := by
    rw [Loaded.declarations, Loaded.declarations, Document.types_relocate, Document.types_relocate,
      Document.rules_relocate, Document.rules_relocate, htypes, hrules]
  have hnames : (d.relocate nowhere).bindings.map Binding.name =
      (d'.relocate nowhere).bindings.map Binding.name := by
    rw [Document.bindings_relocate, Document.bindings_relocate, List.map_map, List.map_map]
    exact hnames
  -- the two scenes are alike, so that the same data is built to the same value in both
  have halike := hbuilt.alike hbuilt' hdecls hnames
  refine ⟨fun i b b' hb hb' htype hvalue => ?_, fun i j e e' he he' hsame => ?_⟩
  · have hname : b.name = b'.name := by
      have hi := congrArg (·[i]?) hnames
      simp only [Document.bindings_relocate, List.getElem?_map, hb, hb', Option.map_some] at hi
      exact Option.some.inj hi
    have hb : (d.relocate nowhere).bindings[i]? = some (b.relocate nowhere) := by
      rw [Document.bindings_relocate, List.getElem?_map, hb]
      rfl
    have hb' : (d'.relocate nowhere).bindings[i]? = some (b'.relocate nowhere) := by
      rw [Document.bindings_relocate, List.getElem?_map, hb']
      rfl
    have hsame := hbuilt.getElem?_bindings hbuilt' halike hb hb' hname htype hvalue
    exact hsame
  · have he : (d.relocate nowhere).values[i]? = some (e.relocate nowhere) := by
      rw [Document.values_relocate, List.getElem?_map, he]
      rfl
    have he' : (d'.relocate nowhere).values[j]? = some (e.relocate nowhere) := by
      rw [Document.values_relocate, List.getElem?_map, he', hsame]
      rfl
    exact hbuilt.getElem?_values hbuilt' halike he he'

/-- A number and an alias of it, and a list that holds the alias. -/
def aliasOfNumber : String := "a := 1\nb := !a\n[!b, 2]\n"

/-- The same alias and the same list, further down, in a document that is otherwise different. -/
def aliasOfText : String := "\na := \"one\"\n\nb := !a\ntrue\n[!b, 2]\n"

/-- Whether a document has no declarations and no rules, and binds `b` to `a`, which is bound to
something. -/
def bindsAlias (d : Document) : Bool :=
  match d.types, d.rules, d.bindings with
  | [], [], [⟨"a", none, _, _⟩, ⟨"b", none, .reference _ "a" [], _⟩] => true
  | _, _, _ => false

/-- A document that binds an alias has a binding `a` and a reference `b` to it, and no declarations. -/
theorem exists_of_bindsAlias (h : bindsAlias d = true) : d.types = [] ∧ d.rules = [] ∧
    ∃ data place span span', d.bindings =
      [⟨"a", none, data, place⟩, ⟨"b", none, .reference span "a" [], span'⟩] := by
  unfold bindsAlias at h
  split at h
  · rename_i htypes hrules hbindings
    exact ⟨htypes, hrules, _, _, _, _, hbindings⟩
  · cases h

/-- An alias of a number and one of a text, which have the same value. -/
theorem values_are_local_alias : ∃ d d' loaded loaded',
    Document.read aliasOfNumber = .ok d ∧ Document.read aliasOfText = .ok d' ∧
    load aliasOfNumber = .ok loaded ∧ load aliasOfText = .ok loaded' ∧
    d.types.map (TypeDecl.relocate nowhere) = d'.types.map (TypeDecl.relocate nowhere) ∧
    d.rules.map (RuleDecl.relocate nowhere) = d'.rules.map (RuleDecl.relocate nowhere) ∧
    d.bindings.map Binding.name = d'.bindings.map Binding.name ∧
    ∃ v, loaded.bindings[1]? = some ("b", v) ∧ loaded'.bindings[1]? = some ("b", v) := by
  have hread : (Document.read aliasOfNumber).toOption.any bindsAlias = true := by decide +kernel
  have hread' : (Document.read aliasOfText).toOption.any bindsAlias = true := by decide +kernel
  have hload : (load aliasOfNumber).toOption.any (fun _ => true) = true := by decide +kernel
  have hload' : (load aliasOfText).toOption.any (fun _ => true) = true := by decide +kernel
  obtain ⟨d, hd, halias⟩ := exists_ok_of_any hread
  obtain ⟨d', hd', halias'⟩ := exists_ok_of_any hread'
  obtain ⟨loaded, h, -⟩ := exists_ok_of_any hload
  obtain ⟨loaded', h', -⟩ := exists_ok_of_any hload'
  obtain ⟨htypes, hrules, data, place, span, stop, hbindings⟩ := exists_of_bindsAlias halias
  obtain ⟨htypes', hrules', data', place', span', stop', hbindings'⟩ := exists_of_bindsAlias halias'
  have hnames : d.bindings.map Binding.name = d'.bindings.map Binding.name := by
    rw [hbindings, hbindings']
    rfl
  have hb : d.bindings[1]? = some ⟨"b", none, .reference span "a" [], stop⟩ := by
    rw [hbindings]
    rfl
  have hb' : d'.bindings[1]? = some ⟨"b", none, .reference span' "a" [], stop'⟩ := by
    rw [hbindings']
    rfl
  refine ⟨d, d', loaded, loaded', hd, hd', h, h', by rw [htypes, htypes'], by rw [hrules, hrules'],
    hnames, ?_⟩
  exact (values_are_local hd hd' h h' (by rw [htypes, htypes']) (by rw [hrules, hrules']) hnames).1
    1 _ _ hb hb' rfl rfl

end Loaded

end TypedData
