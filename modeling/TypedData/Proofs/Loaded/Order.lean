import Mathlib.Data.List.Nodup
import Mathlib.Data.List.Perm.Basic
import Mathlib.Logic.Equiv.Basic
import TypedData.Proofs.Dependency.Document
import TypedData.Proofs.Loaded.Locality
import TypedData.Proofs.Simulation.Following

/-!
# The order of the bindings

The bindings of a document may be written in any order.  If a document loads, then in another order it has
the same values, but for the numbers of the bindings in references.  There is one exception: where a binding
needs the value of another one from which references lead back to it, it finds this one finished in one
order and unfinished in another, so a binding may be found to depend on itself.
-/

namespace TypedData

/-! ## Lists in another order -/

/-- The same permutation one place further on. -/
def permSucc (σ : Equiv.Perm Nat) : Equiv.Perm Nat where
  toFun
    | 0 => 0
    | i + 1 => σ i + 1
  invFun
    | 0 => 0
    | i + 1 => σ.symm i + 1
  left_inv
    | 0 => rfl
    | i + 1 => congrArg Nat.succ (σ.symm_apply_apply i)
  right_inv
    | 0 => rfl
    | i + 1 => congrArg Nat.succ (σ.apply_symm_apply i)

/-- A rearrangement of a list moves every item by a permutation of the positions. -/
theorem exists_perm_of_list_perm {α : Type} {xs ys : List α} (h : xs.Perm ys) :
    ∃ σ : Equiv.Perm Nat, ∀ i, ys[σ i]? = xs[i]? := by
  induction h with
  | nil => exact ⟨.refl _, fun _ => rfl⟩
  | cons x _ ih =>
    obtain ⟨σ, hσ⟩ := ih
    refine ⟨permSucc σ, fun i => ?_⟩
    cases i with
    | zero => rfl
    | succ i => exact hσ i
  | swap x y l =>
    refine ⟨Equiv.swap 0 1, fun i => ?_⟩
    rcases i with _ | _ | i
    · rfl
    · rfl
    · rw [Equiv.swap_apply_of_ne_of_ne (by omega) (by omega)]
      rfl
  | trans _ _ ih ih' =>
    obtain ⟨σ, hσ⟩ := ih
    obtain ⟨τ, hτ⟩ := ih'
    exact ⟨σ.trans τ, fun i => (hτ (σ i)).trans (hσ i)⟩

namespace Scene

variable {scene scene' : Scene} {σ : Equiv.Perm Nat}

/-- Slots in another order have the same names at other numbers. -/
theorem indexOf?_of_slots (hslots : ∀ b, scene'.slots[σ b]? = scene.slots[b]?)
    (hnodup : (scene.slots.map Slot.name).Nodup) (hnodup' : (scene'.slots.map Slot.name).Nodup)
    (name : String) : scene'.indexOf? name = (scene.indexOf? name).map σ := by
  refine Option.ext fun c => ?_
  have hsame := hslots (σ.symm c)
  rw [Equiv.apply_symm_apply] at hsame
  rw [indexOf?_eq_some_iff hnodup', List.getElem?_map, hsame, ← List.getElem?_map,
    ← indexOf?_eq_some_iff hnodup, Option.map_eq_some_iff]
  constructor
  · intro h
    exact ⟨_, h, σ.apply_symm_apply c⟩
  · rintro ⟨b, hb, rfl⟩
    rw [Equiv.symm_apply_apply, hb]

end Scene

namespace Loaded

variable {d d' : Document} {loaded loaded' : Loaded} {scene scene' : Scene}
  {final final' : Progress} {σ : Equiv.Perm Nat}

/-! ## Documents in another order -/

/-- The second document has the same declarations, rules and values without a name, and the bindings of
the first in another order. -/
structure Reordered (d d' : Document) : Prop where
  types : d.types = d'.types
  rules : d.rules = d'.rules
  values : d.values = d'.values
  bindings : d.bindings.Perm d'.bindings

/-- Bindings in another order leave the declarations as they are. -/
theorem Reordered.declarations (h : Reordered d d') :
    Loaded.declarations d' = Loaded.declarations d := by
  rw [Loaded.declarations, Loaded.declarations, h.types, h.rules]

/-- The slots are those of the bindings at the same positions. -/
theorem getElem?_of_slots {registry : Registry} {bindings : List Binding} {slots : List Slot}
    (h : List.Forall₂ (fun b slot => Scene.slotOf registry b = .ok slot) bindings slots) (i : Nat) :
    slots[i]? = bindings[i]?.bind fun b => (Scene.slotOf registry b).toOption := by
  cases hb : bindings[i]? with
  | none => exact List.getElem?_eq_none (h.length_eq ▸ List.getElem?_eq_none_iff.1 hb)
  | some b =>
    obtain ⟨slot, hslot, hof⟩ := exists_of_forall₂ h hb
    rw [hslot, Option.bind_some, hof]
    rfl

/-- Slots are moved as their bindings are. -/
theorem getElem?_slots {registry : Registry} {slots slots' : List Slot}
    (h : List.Forall₂ (fun b slot => Scene.slotOf registry b = .ok slot) d.bindings slots)
    (h' : List.Forall₂ (fun b slot => Scene.slotOf registry b = .ok slot) d'.bindings slots')
    (hσ : ∀ i, d'.bindings[σ i]? = d.bindings[i]?) (i : Nat) : slots'[σ i]? = slots[i]? := by
  rw [getElem?_of_slots h, getElem?_of_slots h', hσ]

namespace RebuiltIn

/-- The bindings in another order make the same slots in another order. -/
theorem exists_permuted (h : RebuiltIn d loaded scene final) (hperm : d.bindings.Perm d'.bindings) :
    ∃ σ slots', Scene.slotsOf scene.registry [] d'.bindings = .ok slots' ∧
      scene.Permuted σ ⟨scene.registry, scene.rules, slots', scene.textDepth⟩ := by
  obtain ⟨σ, hσ⟩ := exists_perm_of_list_perm hperm
  obtain ⟨slots', hslots', hperm'⟩ := List.perm_comp_forall₂ hperm.symm h.slots
  have hnames' : (d'.bindings.map Binding.name).Nodup := (hperm.map _).nodup_iff.1 h.names
  refine ⟨σ, slots', Scene.slotsOf_eq_ok_iff.2 ⟨fun b _ hb => ?_, hnames', hslots'⟩, ?_⟩
  · cases hb
  · have hslots := getElem?_slots h.slots hslots' hσ
    refine { registry := rfl, rules := rfl, textDepth := rfl, slots := hslots,
             length := hperm'.length_eq, indexOf? := ?_ }
    refine Scene.indexOf?_of_slots hslots ?_ ?_
    · rw [Scene.names_of_slots h.slots]
      exact h.names
    · rw [Scene.names_of_slots hslots']
      exact hnames'

/-- **A document in another order loads,** or a binding of it is found to depend on itself, where some
binding reads another one from which references lead back to it. -/
theorem loads (h : RebuiltIn d loaded scene final) (hmax : d.bindings.length ≤ maxReferenceDepth)
    (hd : Reordered d d') : (∃ loaded', ofDocument d' = .ok loaded') ∨
      d'.ReadsInCycle ∧
        ∃ name span, ofDocument d' = .error (.reference (.selfDependency name span)) := by
  obtain ⟨σ, slots', hslots', hpermuted⟩ := h.exists_permuted hd.bindings
  have hlen : slots'.length = d'.bindings.length :=
    (Scene.slotsOf_eq_ok_iff.1 hslots').2.2.length_eq.symm
  have hbuilds := hpermuted.settles_buildDocument h.complete h.rebuilt (hd.values ▸ h.values) hlen
    (hlen.trans hd.bindings.length_eq.symm ▸ hmax)
  have hresolve : d'.resolve scene.registry scene.rules =
      ((Scene.buildDocument ⟨scene.registry, scene.rules, slots', scene.textDepth⟩ d'.items).run
        (.initial slots'.length)).1 := by
    rw [Document.resolve, hslots', h.textDepth]
    rfl
  have hof : ofDocument d' = do
      let resolution ← d'.resolve scene.registry scene.rules
      return ⟨d', scene.registry, scene.rules, resolution.bindings, resolution.values⟩ := by
    rw [ofDocument, hd.declarations, h.declarations]
    rfl
  rw [hof, hresolve]
  rcases hbuilds with ⟨resolution, hok⟩ | ⟨hcycle, name, span, herror⟩
  · exact .inl ⟨_, by rw [hok]; rfl⟩
  · have hslots := (Scene.slotsOf_eq_ok_iff.1 hslots').2.2
    exact .inr ⟨Document.readsInCycle_of_slots hslots hcycle, name, span, by rw [herror]; rfl⟩

/-- Bindings in another order are built in scenes that are alike, up to their numbers. -/
theorem alike_of_reordered (h : RebuiltIn d loaded scene final)
    (h' : RebuiltIn d' loaded' scene' final') (hd : Reordered d d')
    (hσ : ∀ i, d'.bindings[σ i]? = d.bindings[i]?) : scene.Alike σ scene' := by
  have hsame := Except.ok.inj
    (h.declarations.symm.trans (hd.declarations.symm.trans h'.declarations))
  obtain ⟨hregistry, hrules⟩ := Prod.mk.inj hsame
  refine ⟨hregistry.symm, hrules.symm, h'.textDepth.trans h.textDepth.symm, ?_⟩
  have hslots := getElem?_slots h.slots (hregistry ▸ h'.slots) hσ
  refine Scene.indexOf?_of_slots hslots ?_ ?_
  · rw [Scene.names_of_slots h.slots]
    exact h.names
  · rw [Scene.names_of_slots h'.slots]
    exact h'.names

/-- A loaded document has one value for each binding. -/
theorem length_bindings (h : RebuiltIn d loaded scene final) :
    loaded.bindings.length = d.bindings.length := by
  have hnames := h.complete.names_finished
  rw [← h.bindings] at hnames
  rw [← List.length_map Prod.fst, hnames, List.length_map, h.slots.length_eq]

/-- **Every name has the same value,** under the new numbers. -/
theorem getElem?_of_reordered (h : RebuiltIn d loaded scene final)
    (h' : RebuiltIn d' loaded' scene' final') (halike : scene.Alike σ scene')
    (hσ : ∀ i, d'.bindings[σ i]? = d.bindings[i]?) (i : Nat) :
    loaded'.bindings[σ i]? =
      loaded.bindings[i]?.map fun (name, v) => (name, v.renumber σ) := by
  cases hb : d.bindings[i]? with
  | none =>
    have hb' := (hσ i).trans hb
    rw [List.getElem?_eq_none_iff, ← h.length_bindings, ← List.getElem?_eq_none_iff] at hb
    rw [List.getElem?_eq_none_iff, ← h'.length_bindings, ← List.getElem?_eq_none_iff] at hb'
    rw [hb, hb']
    rfl
  | some b =>
    obtain ⟨slot, v, hslot, hloaded, hv⟩ := h.binding hb
    obtain ⟨slot', v', hslot', hloaded', hv'⟩ := h'.binding ((hσ i).trans hb)
    rw [halike.registry, hslot] at hslot'
    obtain rfl := Except.ok.inj hslot'
    rw [hloaded, hloaded', halike.buildSlot hv hv']
    rfl

/-- Values without a name are the same when bindings are in another order, up to the numbers of bindings. -/
theorem values_of_reordered (h : RebuiltIn d loaded scene final)
    (h' : RebuiltIn d' loaded' scene' final') (halike : scene.Alike σ scene')
    (hvalues : d.values = d'.values) :
    loaded'.values = loaded.values.map (Value.renumber σ) := by
  refine List.ext_getElem? fun i => ?_
  rw [List.getElem?_map]
  cases he : d.values[i]? with
  | none =>
    have he' := hvalues ▸ he
    rw [List.getElem?_eq_none_iff, h.values.length_eq, ← List.getElem?_eq_none_iff] at he
    rw [List.getElem?_eq_none_iff, h'.values.length_eq, ← List.getElem?_eq_none_iff] at he'
    rw [he, he']
    rfl
  | some e =>
    obtain ⟨v, hloaded, hv⟩ := exists_of_forall₂ h.values he
    obtain ⟨v', hloaded', hv'⟩ := exists_of_forall₂ h'.values (hvalues ▸ he)
    rw [hloaded, hloaded', halike.buildData hv hv']
    rfl

end RebuiltIn

/-! ## Texts in another order -/

/-- A text loads if its document does at other places. -/
theorem exists_load_of_relocated {source : String} (hd : Document.read source = .ok d)
    (h : ofDocument (d.relocate nowhere) = .ok loaded) : ∃ loaded, load source = .ok loaded := by
  obtain ⟨built, hof, -⟩ := ofDocument_relocate_eq_ok_iff.1 h
  exact ⟨_, (load_of_read hd).trans (map_eq_ok_iff.2 ⟨built, hof, rfl⟩)⟩

/-- A text fails with the dependence of a binding on itself if its document does so at other places. -/
theorem load_of_relocated_selfDependency {source name : String} {span : Span}
    (hd : Document.read source = .ok d)
    (h : ofDocument (d.relocate nowhere) = .error (.reference (.selfDependency name span))) :
    ∃ span, load source = .error (.reference (.selfDependency name span)) := by
  rw [load_of_read hd]
  rw [ofDocument_relocate] at h
  cases hof : ofDocument d with
  | ok built => rw [hof] at h; cases h
  | error e =>
    rw [hof] at h
    cases e with
    | reference problem =>
      cases problem with
      | selfDependency other span =>
        cases h
        exact ⟨span, rfl⟩
      | _ => cases h
    | _ => cases h

/-- **The order of the bindings does not matter,** unless a reference that needs the value of the binding
that it names leads back to the binding that it is in.  Let a text load whose bindings may all be built from
inside one another, and let a second text have the same types, rules and values without a name, and the same
bindings in another order, up to places.  Then the second text loads, with the same values up to the numbers
of the bindings in references, or a binding is found to depend on itself, and there is a reference, the
whole value of its binding or one to a field, such that references lead from the binding that it names back
to its own. -/
theorem order_of_bindings {source source' : String} (hd : Document.read source = .ok d)
    (hd' : Document.read source' = .ok d') (h : load source = .ok loaded)
    (hmax : d.bindings.length ≤ maxReferenceDepth)
    (hsame : Reordered (d.relocate nowhere) (d'.relocate nowhere)) :
    (∃ loaded', ∃ σ : Equiv.Perm Nat, load source' = .ok loaded' ∧
      (∀ i, loaded'.bindings[σ i]? =
        loaded.bindings[i]?.map fun (name, v) => (name, v.renumber σ)) ∧
      loaded'.values = loaded.values.map (Value.renumber σ)) ∨
    d'.ReadsInCycle ∧
      ∃ name span, load source' = .error (.reference (.selfDependency name span)) := by
  obtain ⟨scene, final, hbuilt⟩ := exists_rebuiltIn_of_load hd h
  have hmax : (d.relocate nowhere).bindings.length ≤ maxReferenceDepth := by
    rwa [Document.bindings_relocate, List.length_map]
  rcases hbuilt.loads hmax hsame with ⟨_, hok⟩ | ⟨hcycle, name, span, herror⟩
  · left
    obtain ⟨loaded', h'⟩ := exists_load_of_relocated hd' hok
    obtain ⟨scene', final', hbuilt'⟩ := exists_rebuiltIn_of_load hd' h'
    obtain ⟨σ, hσ⟩ := exists_perm_of_list_perm hsame.bindings
    have halike := hbuilt.alike_of_reordered hbuilt' hsame hσ
    exact ⟨loaded', σ, h', hbuilt.getElem?_of_reordered hbuilt' halike hσ,
      hbuilt.values_of_reordered hbuilt' halike hsame.values⟩
  · right
    obtain ⟨span, h'⟩ := load_of_relocated_selfDependency hd' herror
    exact ⟨hcycle.of_relocate, name, span, h'⟩

/-- Whether a document consists of two bindings, one of each kind. -/
def isPair (first second : Binding → Bool) (d : Document) : Bool :=
  match d.items with
  | [.binding b, .binding c] => first b && second c
  | _ => false

/-- A document of two bindings that are known up to places is known up to places. -/
theorem relocate_of_isPair {first second : Binding → Bool} {b c : Binding}
    (hfirst : ∀ x, first x = true → x.relocate nowhere = b)
    (hsecond : ∀ x, second x = true → x.relocate nowhere = c) (h : isPair first second d = true) :
    d.relocate nowhere = ⟨[.binding b, .binding c]⟩ := by
  unfold isPair at h
  split at h
  · rename_i hitems
    obtain ⟨hb, hc⟩ := Bool.and_eq_true_iff.1 h
    rw [Document.relocate, hitems, ← hfirst _ hb, ← hsecond _ hc]
    rfl
  · cases h

/-- A document of two bindings has them in another order when they change places. -/
theorem reordered_of_isPair {first second : Binding → Bool} {b c : Binding}
    (hfirst : ∀ x, first x = true → x.relocate nowhere = b)
    (hsecond : ∀ x, second x = true → x.relocate nowhere = c) (h : isPair first second d = true)
    (h' : isPair second first d' = true) :
    Reordered (d.relocate nowhere) (d'.relocate nowhere) := by
  rw [relocate_of_isPair hfirst hsecond h, relocate_of_isPair hsecond hfirst h']
  exact ⟨rfl, rfl, rfl, .swap c b []⟩

/-- Whether the name `a` is bound to a text. -/
def isText : Binding → Bool
  | ⟨"a", none, .str _ "one", _⟩ => true
  | _ => false

/-- This binding is a text. -/
theorem relocate_of_isText (x : Binding) (h : isText x = true) :
    x.relocate nowhere = ⟨"a", none, .str .zero "one", .zero⟩ := by
  unfold isText at h
  split at h
  · rfl
  · cases h

/-- Whether the name `b` is an alias of `a`. -/
def isAlias : Binding → Bool
  | ⟨"b", none, .reference _ "a" [], _⟩ => true
  | _ => false

/-- This binding is an alias. -/
theorem relocate_of_isAlias (x : Binding) (h : isAlias x = true) :
    x.relocate nowhere = ⟨"b", none, .reference .zero "a" [], .zero⟩ := by
  unfold isAlias at h
  split at h
  · rfl
  · cases h

/-- An alias after the text that it is an alias of. -/
def aliasAfter : String := "a := \"one\"\nb := !a\n"

/-- An alias before the text that it is an alias of. -/
def aliasBefore : String := "b := !a\na := \"one\"\n"

/-- A text and an alias of it, in either order. -/
theorem order_of_bindings_alias : ∃ d d' loaded loaded',
    Document.read aliasAfter = .ok d ∧ Document.read aliasBefore = .ok d' ∧
    load aliasAfter = .ok loaded ∧ d.bindings.length ≤ maxReferenceDepth ∧
    Reordered (d.relocate nowhere) (d'.relocate nowhere) ∧ load aliasBefore = .ok loaded' ∧
    ∃ σ : Equiv.Perm Nat, ∀ i, loaded'.bindings[σ i]? =
      loaded.bindings[i]?.map fun (name, v) => (name, v.renumber σ) := by
  have hread : (Document.read aliasAfter).toOption.any
      (fun d => isPair isText isAlias d && d.bindings.length ≤ maxReferenceDepth) = true := by
    decide +kernel
  have hread' : (Document.read aliasBefore).toOption.any (isPair isAlias isText) = true := by
    decide +kernel
  have hload : (load aliasAfter).toOption.any (fun _ => true) = true := by decide +kernel
  have hload' : (load aliasBefore).toOption.any (fun _ => true) = true := by decide +kernel
  obtain ⟨d, hd, hpair⟩ := exists_ok_of_any hread
  obtain ⟨d', hd', hpair'⟩ := exists_ok_of_any hread'
  obtain ⟨loaded, h, -⟩ := exists_ok_of_any hload
  obtain ⟨loaded', h', -⟩ := exists_ok_of_any hload'
  obtain ⟨hpair, hmax⟩ := Bool.and_eq_true_iff.1 hpair
  have hmax := of_decide_eq_true hmax
  have hsame := reordered_of_isPair relocate_of_isText relocate_of_isAlias hpair hpair'
  rcases order_of_bindings hd hd' h hmax hsame with ⟨again, σ, hagain, hbindings, -⟩ | ⟨-, _, _, herror⟩
  · obtain rfl := Except.ok.inj (h'.symm.trans hagain)
    exact ⟨d, d', loaded, loaded', hd, hd', h, hmax, hsame, h', σ, hbindings⟩
  · cases h'.symm.trans herror

/-- Whether the name `a` is bound to a record with a text and a reference to `b` in it. -/
def isHolder : Binding → Bool
  | ⟨"a", none, .record _ [⟨"x", _, .str _ "one"⟩, ⟨"y", _, .reference _ "b" []⟩], _⟩ => true
  | _ => false

/-- This binding is a record with a text and a reference in it. -/
theorem relocate_of_isHolder (x : Binding) (h : isHolder x = true) :
    x.relocate nowhere = ⟨"a", none,
      .record .zero [⟨"x", .zero, .str .zero "one"⟩, ⟨"y", .zero, .reference .zero "b" []⟩],
      .zero⟩ := by
  unfold isHolder at h
  split at h
  · rfl
  · cases h

/-- Whether the name `b` is bound to the text in `a`. -/
def isReader : Binding → Bool
  | ⟨"b", none, .reference _ "a" ["x"], _⟩ => true
  | _ => false

/-- This binding is a reference to a field. -/
theorem relocate_of_isReader (x : Binding) (h : isReader x = true) :
    x.relocate nowhere = ⟨"b", none, .reference .zero "a" ["x"], .zero⟩ := by
  unfold isReader at h
  split at h
  · rfl
  · cases h

/-- A binding that reads a record which refers to it, before the record. -/
def readerFirst : String := "b := !a.x\na := \x7bx: \"one\", y: !b\x7d\n"

/-- A binding that reads a record which refers to it, after the record. -/
def readerLast : String := "a := \x7bx: \"one\", y: !b\x7d\nb := !a.x\n"

/-- On a cycle the order decides whether a binding is found to depend on itself: to read a field of a
record that is being built is not possible, but to refer to a binding that is being built is. -/
theorem order_decides_selfDependency : ∃ d d' loaded name span,
    Document.read readerFirst = .ok d ∧ Document.read readerLast = .ok d' ∧
    d.bindings.length ≤ maxReferenceDepth ∧
    Reordered (d.relocate nowhere) (d'.relocate nowhere) ∧ load readerFirst = .ok loaded ∧
    load readerLast = .error (.reference (.selfDependency name span)) := by
  have hread : (Document.read readerFirst).toOption.any
      (fun d => isPair isReader isHolder d && d.bindings.length ≤ maxReferenceDepth) = true := by
    decide +kernel
  have hread' : (Document.read readerLast).toOption.any (isPair isHolder isReader) = true := by
    decide +kernel
  have hload : (load readerFirst).toOption.any (fun _ => true) = true := by decide +kernel
  have hload' : isSelfDependent (load readerLast) = true := by decide +kernel
  obtain ⟨d, hd, hpair⟩ := exists_ok_of_any hread
  obtain ⟨d', hd', hpair'⟩ := exists_ok_of_any hread'
  obtain ⟨loaded, h, -⟩ := exists_ok_of_any hload
  obtain ⟨hpair, hmax⟩ := Bool.and_eq_true_iff.1 hpair
  have hmax := of_decide_eq_true hmax
  have hsame := reordered_of_isPair relocate_of_isReader relocate_of_isHolder hpair hpair'
  obtain ⟨name, span, hfails⟩ := exists_of_isSelfDependent hload'
  exact ⟨d, d', loaded, name, span, hd, hd', hmax, hsame, h, hfails⟩

end Loaded

end TypedData
