import TypedData.Proofs.Building.Typed

/-!
# References to finished bindings

The value of a binding is fitted to its type when it is built, and each reference to the binding looks at it
again, by another test (`Ty.conforms`) and without layers of being optional.  The two agree on all values but
null.  So a binding can be referred to where its own type is expected (`Document.bindings_are_referable`),
unless its value is null: the test would accept null in an optional place, but it is asked about a type that
is not optional any more.
-/

namespace TypedData

namespace Scene

variable {scene : Scene} {p q : Progress} {b : Nat}

/-- A finished binding is not built again. -/
theorem gives_forceWithin {v : Value} (hv : p.value? b = some v) (depth : Nat) :
    (scene.forceWithin depth b).Gives p () p := by
  have hstate := Progress.value?_eq_some_iff.1 hv
  rw [Build.Gives, forceWithin.eq_def, Build.outcome_get_bind, hstate]
  rfl

/-- **A reference to a finished binding** is accepted exactly if the value conforms to the type that is expected,
without one layer of being optional. -/
theorem outcome_buildReference {force : Nat → Build Unit} {name : String} {v : Value}
    (hb : scene.indexOf? name = some b) (hforce : (force b).Gives p () q) (hv : q.value? b = some v)
    (href : v.isReference = false) (span : Span) (t : Ty) (whole : Bool) :
    (scene.buildReference force name [] span t whole).outcome p =
      if t.peeled.conforms v then (.ok (.ref ⟨b, name, []⟩), q)
      else (.error (.type ⟨.mismatch t.peeled v.describe, span⟩), q) := by
  have hstate := Progress.value?_eq_some_iff.1 hv
  have huse : (scene.useForced b name [] span t.peeled whole).outcome q =
      if t.peeled.conforms v then (.ok (), q)
      else (.error (.type ⟨.mismatch t.peeled v.describe, span⟩), q) := by
    rw [useForced, Build.outcome_get_bind, hstate]
    dsimp only
    rw [useFinished, Build.outcome_get_bind, Value.follow_nil, Value.settle_of_not_reference href]
    dsimp only
    split <;> rfl
  unfold Build.Gives at hforce
  rw [buildReference_eq, hb]
  dsimp only
  rw [useBinding, Build.outcome_bind, Build.outcome_bind, hforce]
  dsimp only
  rw [huse]
  cases t.peeled.conforms v <;> rfl

/-- Builds a reference as a field, an item or another part of a value, where a type is expected. -/
def buildMention (scene : Scene) (depth : Nat) (span : Span) (name : String) (t : Ty) : Build Value :=
  buildData scene (scene.forceWithin depth) (.reference span name []) t

/-- Builds a binding of a type that is nothing but a reference. -/
def buildAlias (scene : Scene) (depth : Nat) (span : Span) (other name : String) (t : Ty) : Build Value :=
  scene.buildSlot (scene.forceWithin depth) ⟨other, .reference span name [], t⟩

/-- What becomes of references to the binding number `b`, which has a name and a type, where its type is expected.
They are built from the progress `p`; when the binding has been forced for them, the progress is `q`, and its value
is `v`. -/
structure Referable (scene : Scene) (depth : Nat) (p q : Progress) (b : Nat) (name : String) (t : Ty)
    (v : Value) : Prop where
  /-- As a part of a value the reference is accepted.  Null behind it has to be accepted without any layer of being
  optional. -/
  part : ∀ span, (v = .null → t.required.isOpen = true) →
    (scene.buildMention depth span name t).Gives p (.ref ⟨b, name, []⟩) q
  /-- Other null is refused there. -/
  part_null : ∀ span, v = .null → t.required.isOpen = false →
    (scene.buildMention depth span name t).outcome p = (.error (.type ⟨.mismatch t.required "null", span⟩), q)
  /-- As the whole of a binding the reference is accepted.  Null behind it has to be accepted without one layer of being
  optional. -/
  whole : ∀ span other, (v = .null → t.peeled.isOptional = true ∨ t.peeled.isOpen = true) →
    (scene.buildAlias depth span other name t).Gives p (.ref ⟨b, name, []⟩) q
  /-- Other null is refused there. -/
  whole_null : ∀ span other, v = .null → t.peeled.isOptional = false → t.peeled.isOpen = false →
    (scene.buildAlias depth span other name t).outcome p = (.error (.type ⟨.mismatch t.peeled "null", span⟩), q)

/-- A value conforms to the type of its binding again where the binding is referred to. -/
theorem referable_of_conforms {depth : Nat} {name : String} {t : Ty} {v : Value}
    (hb : scene.indexOf? name = some b) (hforce : (scene.forceWithin depth b).Gives p () q)
    (hv : q.value? b = some v) (href : v.isReference = false) (hconforms : t.conforms v = true) :
    scene.Referable depth p q b name t v := by
  have hpart (span : Span) : (scene.buildMention depth span name t).outcome p =
      if t.required.conforms v then (.ok (.ref ⟨b, name, []⟩), q)
      else (.error (.type ⟨.mismatch t.required v.describe, span⟩), q) := by
    rw [buildMention, buildData, outcome_buildReference hb hforce hv href, Ty.peeled_required]
  have hwhole (span : Span) (other : String) : (scene.buildAlias depth span other name t).outcome p =
      if t.peeled.conforms v then (.ok (.ref ⟨b, name, []⟩), q)
      else (.error (.type ⟨.mismatch t.peeled v.describe, span⟩), q) :=
    outcome_buildReference hb hforce hv href span t true
  refine ⟨fun span hnull => ?asPart, fun span hnull hopen => ?asPartNull, fun span other hnull => ?asWhole,
    fun span other hnull hoptional hopen => ?asWholeNull⟩
  case asPart =>
    rw [Build.Gives, hpart, if_pos]
    by_cases hv : v = .null
    · exact Ty.conforms_of_isOpen (hnull hv) v
    · exact Ty.conforms_required hv hconforms
  case asPartNull =>
    subst hnull
    rw [hpart, Ty.conforms_null, Ty.isOptional_required, hopen]
    rfl
  case asWhole =>
    rw [Build.Gives, hwhole, if_pos]
    by_cases hv : v = .null
    · rw [hv, Ty.conforms_null, Bool.or_eq_true]
      exact hnull hv
    · exact Ty.conforms_peeled hv hconforms
  case asWholeNull =>
    subst hnull
    rw [hwhole, Ty.conforms_null, hoptional, hopen]
    rfl

end Scene

namespace Document

/-- A binding of the document has a name and is annotated with a type. -/
def Annotates (d : Document) (registry : Registry) (b : Nat) (name : String) (t : Ty) : Prop :=
  ∃ binding type, d.bindings[b]? = some binding ∧ binding.name = name ∧ binding.type = some type ∧
    registry.resolveType [] type = .ok t

/-- A binding with a type has a slot with that type. -/
theorem Annotates.slot {d : Document} {registry : Registry} {slots : List Slot} {b : Nat} {name : String} {t : Ty}
    (h : d.Annotates registry b name t) (hslots : Scene.slotsOf registry [] d.bindings = .ok slots) :
    ∃ slot, slots[b]? = some slot ∧ slot.name = name ∧ slot.type = t := by
  obtain ⟨binding, type, hbinding, rfl, htype, ht⟩ := h
  obtain ⟨slot, hslot, hof⟩ := (Scene.slotsOf_ok hslots).2 b binding hbinding
  exact ⟨slot, hslot, hof.name, Except.ok.inj ((hof.type type htype).symm.trans ht)⟩

/-- **A binding with a type can be referred to where its type is expected,** whenever it has been forced for the
reference and is finished with a value that is not a reference itself.  Only null, which is then the value of an
optional binding, may be refused (`Scene.Referable`). -/
theorem bindings_are_referable {d : Document} {registry : Registry} {rules : List Rule} {slots : List Slot}
    (hslots : Scene.slotsOf registry [] d.bindings = .ok slots) :
    let scene : Scene := ⟨registry, rules, slots, Scene.maxTextDepth⟩
    d.resolve registry rules = (scene.run d.items).1 ∧
    ∀ q, scene.Reached d.items q → ∀ b name t v, d.Annotates registry b name t →
      q.value? b = some v → v.isReference = false →
      (v = .null → t.isOptional = true ∨ t.isOpen = true) ∧
      (∀ depth, (scene.forceWithin depth b).Gives q () q) ∧
      ∀ depth p, (scene.forceWithin depth b).Gives p () q → scene.Referable depth p q b name t v := by
  intro scene
  refine ⟨by rw [resolve, hslots]; rfl, fun q hq b name t v hannotates hv href => ?_⟩
  obtain ⟨slot, hslot, rfl, rfl⟩ := hannotates.slot hslots
  obtain ⟨-, hnodup, hforall⟩ := Scene.slotsOf_eq_ok_iff.1 hslots
  have hindex : scene.indexOf? slot.name = some b := by
    rw [Scene.indexOf?_eq_some_iff (Scene.names_of_slots hforall ▸ hnodup), List.getElem?_map, hslot, Option.map_some]
  have hconforms : slot.type.conforms v = true := hq.typed b slot v hslot hv
  refine ⟨?_, Scene.gives_forceWithin hv, fun depth p hforce =>
    Scene.referable_of_conforms hindex hforce hv href hconforms⟩
  rintro rfl
  rwa [Ty.conforms_null, Bool.or_eq_true] at hconforms

/-- A list with null in it, and a reference to the list. -/
def shared : String := "a: list optional int := [null]\nb: list optional int := !a\n"

/-- Whether a type that is written is that of lists of optional integers. -/
def isOptionalInts (type : TypeExpr) : Bool :=
  match (⟨[], [], []⟩ : Registry).resolveType [] type with
  | .ok (.list (.optional (.prim .int))) => true
  | _ => false

/-- Whether the first binding is `a`, is annotated with the type of lists of optional integers, and has a value in the
end. -/
def isShared (d : Document) (slots : List Slot) : Bool :=
  match d.bindings, ((⟨⟨[], [], []⟩, [], slots, Scene.maxTextDepth⟩ : Scene).run d.items).2.value? 0 with
  | ⟨name, some type, _, _⟩ :: _, some v => name == "a" && isOptionalInts type && !v.isReference
  | _, _ => false

/-- A list that is referred to from two bindings, one of which has a type for it. -/
theorem bindings_are_referable_shared : ∃ d slots v, Document.read shared = .ok d ∧
    Scene.slotsOf ⟨[], [], []⟩ [] d.bindings = .ok slots ∧
    let scene : Scene := ⟨⟨[], [], []⟩, [], slots, Scene.maxTextDepth⟩
    let q := (scene.run d.items).2
    let t := Ty.list (.optional (.prim .int))
    d.Annotates scene.registry 0 "a" t ∧ q.value? 0 = some v ∧ v.isReference = false ∧
      ∀ depth, scene.Referable depth q q 0 "a" t v := by
  have htest : (Document.read shared).toOption.any (fun d =>
      (Scene.slotsOf ⟨[], [], []⟩ [] d.bindings).toOption.any (isShared d)) = true := by
    decide +kernel
  obtain ⟨d, hd, htest⟩ := exists_ok_of_any htest
  obtain ⟨slots, hslots, htest⟩ := exists_ok_of_any htest
  unfold isShared at htest
  split at htest
  · rename_i name type value span bindings v hbindings hv
    rw [Bool.and_eq_true, Bool.and_eq_true, beq_iff_eq, Bool.not_eq_true'] at htest
    obtain ⟨⟨rfl, htype⟩, href⟩ := htest
    have hannotates : d.Annotates ⟨[], [], []⟩ 0 "a" (.list (.optional (.prim .int))) := by
      unfold isOptionalInts at htype
      split at htype
      · rename_i hresolve
        exact ⟨⟨"a", some type, value, span⟩, type, by rw [hbindings]; rfl, rfl, rfl, hresolve⟩
      · cases htype
    obtain ⟨-, hreferable⟩ := bindings_are_referable hslots
    obtain ⟨-, hfinished, hreferable⟩ :=
      hreferable _ (Scene.reached_run _ _) 0 "a" _ v hannotates hv href
    exact ⟨d, slots, v, hd, hslots, hannotates, hv, href, fun depth => hreferable depth _ (hfinished depth)⟩
  · cases htest

/-- Null, and a reference to it. -/
def nullAlias : String := "a: optional int := null\nb: optional int := !a\n"

/-- Whether the bindings are null and a reference to it, both of optional integers, and the reference is refused
though what it refers to is finished. -/
def isRefused (slots : List Slot) (outcome : Except Failure Resolution × Progress) : Bool :=
  match slots, outcome with
  | [⟨a, .null _, .optional (.prim .int)⟩, ⟨_, .reference _ name [], .optional (.prim .int)⟩],
    (.error (.type ⟨.mismatch (.prim .int) found, _⟩), q) =>
      a == "a" && name == "a" && found == "null" &&
        match q.value? 0 with
        | some .null => true
        | _ => false
  | _, _ => false

/-- Where null was accepted, a reference to it need not be: the type that it is compared with has lost its layer of
being optional. -/
theorem null_is_not_referable : ∃ d other nullSpan span, Document.read nullAlias = .ok d ∧
    let slots : List Slot := [⟨"a", .null nullSpan, .optional (.prim .int)⟩,
      ⟨other, .reference span "a" [], .optional (.prim .int)⟩]
    let scene : Scene := ⟨⟨[], [], []⟩, [], slots, Scene.maxTextDepth⟩
    Scene.slotsOf ⟨[], [], []⟩ [] d.bindings = .ok slots ∧
      (scene.run d.items).2.value? 0 = some .null ∧
      ∃ place, d.resolve ⟨[], [], []⟩ [] = .error (.type ⟨.mismatch (.prim .int) "null", place⟩) := by
  have htest : (Document.read nullAlias).toOption.any (fun d =>
      (Scene.slotsOf ⟨[], [], []⟩ [] d.bindings).toOption.any fun slots =>
        isRefused slots ((⟨⟨[], [], []⟩, [], slots, Scene.maxTextDepth⟩ : Scene).run d.items)) = true := by
    decide +kernel
  obtain ⟨d, hd, htest⟩ := exists_ok_of_any htest
  obtain ⟨slots, hslots, htest⟩ := exists_ok_of_any htest
  have hresolve : d.resolve ⟨[], [], []⟩ [] =
      ((⟨⟨[], [], []⟩, [], slots, Scene.maxTextDepth⟩ : Scene).run d.items).1 := by
    rw [resolve, hslots]
    rfl
  generalize hrun : Scene.run _ d.items = outcome at htest hresolve
  unfold isRefused at htest
  split at htest
  · rename_i a nullSpan other span name found place q
    rw [Bool.and_eq_true, Bool.and_eq_true, Bool.and_eq_true, beq_iff_eq, beq_iff_eq, beq_iff_eq] at htest
    obtain ⟨⟨⟨rfl, rfl⟩, rfl⟩, htest⟩ := htest
    split at htest
    · rename_i hv
      refine ⟨d, other, nullSpan, span, hd, hslots, ?_, place, hresolve⟩
      rw [hrun]
      exact hv
    · cases htest
  · cases htest

end Document

end TypedData
