import TypedData.Proofs.Building.Naming
import TypedData.Proofs.Canonical.Final
import TypedData.Proofs.Loaded.Order
import TypedData.Proofs.Reading.Blocks
import TypedData.Proofs.Reading.FixedPoint
import TypedData.Proofs.Reading.Height
import TypedData.Proofs.Simulation.Signs

/-!
# Loading what was printed

A loaded document may be printed and loaded again.  What is read then stands at other places, and loading does not
depend on places; so all names have the same values again (`Loaded.load_print`).  Two slips of the printer do no harm
here.  It writes a sign before a field of a number in such a way that the sign is taken for that of the number, but
neither of the two readings ever has a value (`Loaded.ofDocument_reread`).  And it writes the keys in blocks of
constructors as names, whatever they are, but where one is not the name of a field, nothing has been loaded
(`Loaded.namesArguments_of_load`).

Not every document is read back.  A number that is too large for a float is printed as `inf`, which is read as a name,
and parentheses that spend no levels are left out, so that what is printed may be nested more deeply than what was read.
-/

namespace TypedData

variable {f : Span → Span}

/-! ## Canonical forms at other places -/

/-- The canonical form of a declaration at other places is the canonical form at other places. -/
theorem TypeDecl.canonical_relocate (decl : TypeDecl) :
    (decl.relocate f).canonical = decl.canonical.relocate f := by
  have hlifted : (decl.ctors.map (CtorDecl.relocate f)).filterMap CtorDecl.liftedClause? =
      (decl.ctors.filterMap CtorDecl.liftedClause?).map (WhereClause.relocate f) := by
    rw [List.filterMap_map, List.map_filterMap]
    congr 1
    funext ctor
    obtain ⟨name, fields, _ | clause, span⟩ := ctor <;> rfl
  simp only [canonical, relocate, hlifted, List.map_map, List.map_append]
  rfl

/-- The canonical form of an item at other places is the canonical form at other places. -/
theorem Item.canonical_relocate (item : Item) : (item.relocate f).canonical = item.canonical.relocate f := by
  cases item with
  | type decl => exact congrArg type decl.canonical_relocate
  | rule => rfl
  | binding b => exact congrArg (fun d => binding ⟨b.name, _, d, f b.span⟩) (b.value.canonical_relocate f)
  | value d => exact congrArg value (d.canonical_relocate f)

namespace Document

/-- The canonical form of a document at other places is the canonical form at other places. -/
theorem canonical_relocate (d : Document) : (d.relocate f).canonical = d.canonical.relocate f := by
  rw [canonical, canonical, relocate, relocate, List.map_map, List.map_map]
  exact congrArg mk (List.map_congr_left fun item _ => item.canonical_relocate)

/-- A document that is in canonical form at other places is so where it stands. -/
theorem relocate_canonical_of_relocate {d d' : Document} (h : d'.relocate f = d.canonical.relocate f) :
    d'.canonical.relocate f = d.canonical.relocate f := by
  rw [← canonical_relocate, h, canonical_relocate, canonical_of_isCanonical d.isCanonical_canonical]

/-! ## Signs -/

/-- Whether a sign that stands before a field of a number in a condition, a guard or a target cannot be told from that
of the number. -/
def signsDigit (d : Document) : Bool := d.items.any fun item => item.exprs.any Expr.signsDigit

/-- A document is read as it is printed, if the signs in it can be told from those of numbers. -/
theorem reread_of_signsDigit {d : Document} (h : d.signsDigit = false) : d.reread = d := by
  refine reread_eq_self fun item hitem e he => ?_
  rw [signsDigit, List.any_eq_false] at h
  have hitem := h item hitem
  rw [List.any_eq_true] at hitem
  exact Bool.eq_false_iff.2 fun hsign => hitem ⟨e, he, hsign⟩

end Document

namespace Loaded

variable {d : Document} {loaded : Loaded}

/-- **The data of a document that loads names its arguments.** -/
theorem namesArguments_of_load {source : String} (hd : Document.read source = .ok d) (h : load source = .ok loaded) :
    ∀ item ∈ d.items, ∀ e ∈ item.data, e.namesArguments = true := by
  have hwellNamed : ∀ ctor ∈ loaded.registry.constructors, ctor.WellNamed := fun _ => wellNamed_of_load h
  rw [load_of_read hd] at h
  obtain ⟨built, hbuilt, rfl⟩ := map_eq_ok_iff.1 h
  obtain ⟨scene, final, hscene⟩ := exists_rebuiltIn hbuilt
  have hdecls := hscene.declarations.symm.trans (of_ofDocument hbuilt).2.1
  have hnamed : scene.WellNamed := by rwa [Scene.WellNamed, (Prod.mk.inj (Except.ok.inj hdecls)).1]
  rintro (_ | _ | b | e) hitem e' he
  · cases he
  · cases he
  · obtain rfl := List.mem_singleton.1 he
    have hb : b ∈ d.bindings := List.mem_filterMap.2 ⟨_, hitem, rfl⟩
    obtain ⟨i, hi⟩ := List.mem_iff_getElem?.1 hb
    obtain ⟨slot, v, hslot, -, hv⟩ := hscene.binding hi
    rw [← (Scene.slotOf_eq_ok_iff.1 hslot).2.1]
    exact Scene.namesArguments_of_buildSlot hnamed hv
  · obtain rfl := List.mem_singleton.1 he
    have hvalue : e' ∈ d.values := List.mem_filterMap.2 ⟨_, hitem, rfl⟩
    obtain ⟨i, hi⟩ := List.mem_iff_getElem?.1 hvalue
    obtain ⟨v, -, hv⟩ := exists_of_forall₂ hscene.values hi
    exact Scene.namesArguments_of_gives hnamed e' hv

/-- **The same document at other places is loaded with the same values.** -/
theorem load_of_relocate {source : String} (h : ofDocument loaded.document = .ok loaded)
    (hread : Document.read source = .ok d) (hd : d.relocate f = loaded.document.relocate f) :
    ∃ again, load source = .ok again ∧ again.document = d.canonical ∧
      again.bindings = loaded.bindings ∧ again.values = loaded.values := by
  obtain ⟨built, hof, hsame⟩ := ofDocument_relocate_eq_ok_iff.1
    (hd ▸ ofDocument_relocate_eq_ok_iff.2 ⟨loaded, h, rfl⟩ : ofDocument (d.relocate f) = .ok (loaded.relocate f))
  have hload := (load_of_read hread).trans (map_eq_ok_iff.2 ⟨built, hof, rfl⟩)
  have hbindings := congrArg Loaded.bindings hsame
  have hvalues := congrArg Loaded.values hsame
  exact ⟨_, hload, rfl, hbindings, hvalues⟩

/-- **What is printed is loaded again, with the same values,** or it is nested too deeply, if all floats in the text are
finite.  It is the same document, at other places, if the signs in it can be told from those of numbers. -/
theorem load_print {source : String} (h : load source = .ok loaded) (hfinite : hasFiniteFloats source = true) :
    (∃ span, load loaded.document.print = .error (.parse (.tooDeep span))) ∨
      ∃ again, load loaded.document.print = .ok again ∧ again.document.isCanonical = true ∧
        (loaded.document.signsDigit = false →
          again.document.relocate nowhere = loaded.document.relocate nowhere) ∧
        again.bindings = loaded.bindings ∧ again.values = loaded.values := by
  obtain ⟨d, hread, hof⟩ := bind_eq_ok_iff.1 h
  obtain ⟨hdocument, -, -⟩ := of_ofDocument hof
  have hmade := Document.made_legible hread hfinite
  have hnames := namesArguments_of_load hread h
  rcases Document.read_print (f := nowhere) (fun _ _ => rfl) hmade hnames with ⟨span, hdeep⟩ | ⟨d', hread', hd'⟩
  · refine .inl ⟨span, ?_⟩
    rw [load, hdocument, hdeep]
    rfl
  · rw [← hdocument] at hof hread' hd'
    have hreread : ofDocument loaded.reread.document = .ok loaded.reread := ofDocument_reread hof
    obtain ⟨again, hagain, hcanonical, hbindings, hvalues⟩ := load_of_relocate hreread hread' hd'
    refine .inr ⟨again, hagain, hcanonical ▸ d'.isCanonical_canonical, fun hsigns => ?_, hbindings, hvalues⟩
    rw [Document.reread_of_signsDigit hsigns] at hd'
    rw [hdocument] at hd' ⊢
    rw [hcanonical]
    exact Document.relocate_canonical_of_relocate hd'

/-- A condition that holds before the sign in it is come to, which stands before a field of a number. -/
def shortcut : String := "type t = t \x7bx: int\x7d where x > 0 or - 1 .a > 0\nw := t(2)\n"

/-- Whether what is printed is loaded, though a sign in the document is taken for that of a number. -/
def isLoadedAgain (loaded : Loaded) : Bool :=
  loaded.document.signsDigit && (load loaded.document.print).toOption.isSome

/-- A condition in which a sign changes its place, and still the same values are loaded. -/
theorem load_print_shortcut : ∃ loaded again, load shortcut = .ok loaded ∧ hasFiniteFloats shortcut = true ∧
    loaded.document.signsDigit = true ∧ load loaded.document.print = .ok again ∧
    again.bindings = loaded.bindings ∧ again.values = loaded.values := by
  have hfinite : hasFiniteFloats shortcut = true := by decide +kernel
  have htest : (load shortcut).toOption.any isLoadedAgain = true := by decide +kernel
  obtain ⟨loaded, h, htest⟩ := exists_ok_of_any htest
  obtain ⟨hsigns, hback⟩ := Bool.and_eq_true_iff.1 htest
  rcases load_print h hfinite with ⟨span, hdeep⟩ | ⟨again, hagain, -, -, hbindings, hvalues⟩
  · rw [hdeep] at hback
    cases hback
  · exact ⟨loaded, again, h, hfinite, hsigns, hagain, hbindings, hvalues⟩

/-- Whether reading has failed because what is read is nested too deeply. -/
def isTooDeep : Except Failure Document → Bool
  | .error (.parse (.tooDeep _)) => true
  | _ => false

/-- Whether the canonical form of the document loads, but is nested too deeply to be read as it is written. -/
def isTooDeepAgain (d : Document) : Bool :=
  (ofDocument d.canonical).toOption.any fun _ => isTooDeep (Document.readChars (Line.text d.lines))

/-- Without the parentheses in it, which spend no levels, what is printed may be nested too deeply to be read again. -/
theorem deep_is_not_read_back : ∃ loaded span, load (.ofList highCondition) = .ok loaded ∧
    load loaded.document.print = .error (.parse (.tooDeep span)) := by
  have htest : (Document.readChars highCondition).toOption.any isTooDeepAgain = true := by decide +kernel
  obtain ⟨d, hread, htest⟩ := exists_ok_of_any htest
  obtain ⟨loaded, hof, htest⟩ := exists_ok_of_any htest
  obtain ⟨hdocument, -, -⟩ := of_ofDocument hof
  generalize hagain : Document.readChars (Line.text d.lines) = result at htest
  unfold isTooDeep at htest
  split at htest
  · rename_i span
    refine ⟨loaded, span, ?_, ?_⟩
    · rw [load, Document.read_ofList, hread]
      exact hof
    · have hdeep : Document.read d.canonical.print = .error (.parse (.tooDeep span)) := by
        rw [Document.read_eq_readChars, d.text_lines, hagain]
      rw [load, hdocument, hdeep]
      rfl
  · cases htest

/-- A number that is too large for a float. -/
def huge : String := "x := 1e999\n"

/-- Whether loading has failed because there is no constructor `inf`. -/
def isUnknownInf : Except Failure Loaded → Bool
  | .error (.type ⟨.unknownConstructor "inf", _⟩) => true
  | _ => false

/-- A document that loads need not load again when it is printed: a number that is too large for a float
is read as infinity, and infinity is printed as a name. -/
theorem huge_is_not_read_back : ∃ loaded span, load huge = .ok loaded ∧
    loaded.document.print = "x := inf\n" ∧
    load loaded.document.print = .error (.type ⟨.unknownConstructor "inf", span⟩) := by
  have htest : (load huge).toOption.any (fun loaded => loaded.document.print == "x := inf\n" &&
      isUnknownInf (load loaded.document.print)) = true := by decide +kernel
  obtain ⟨loaded, h, htest⟩ := exists_ok_of_any htest
  obtain ⟨hprint, htest⟩ := Bool.and_eq_true_iff.1 htest
  generalize hagain : load loaded.document.print = result at htest
  unfold isUnknownInf at htest
  split at htest
  · rename_i span
    exact ⟨loaded, span, h, beq_iff_eq.1 hprint, hagain⟩
  · cases htest

end Loaded

end TypedData
