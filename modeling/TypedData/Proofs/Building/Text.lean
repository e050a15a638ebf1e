import TypedData.Building.Text
import TypedData.Proofs.Building.Record
import TypedData.Proofs.Condition.Plain

/-!
# Building from texts is sound

What a rule makes of a text is built like data.  The expressions in its target compute plain values, so
records come from constructors alone, and references not at all.
-/

namespace TypedData

namespace Scene

variable {scene : Scene} {p q : Progress} {fitText : String → Ty → Span → Build Value}

namespace Builds

variable {t : Ty} {m : Build Value}

/-- A failure builds nothing, so nothing that would not be of the type. -/
theorem failure {e : Failure} : scene.Builds t (throw e) := fun _ => .throw

/-- A value that is built for a type whatever the progress is, is built for it. -/
theorem done {v : Value} (h : ∀ p, scene.Built p t v) (hv : v.isReference = false) :
    scene.Builds t (pure v) := fun p => .pure ⟨h p, hv⟩

/-- What builds for a type builds for its optional layer. -/
theorem optional (h : scene.Builds t m) : scene.Builds (.optional t) m := by
  intro p
  refine (h p).imp ?_
  rintro v q - ⟨hv, href⟩
  exact ⟨.optional hv, href⟩

/-- What builds for a type without its optional layers builds for the type. -/
theorem of_peeled (h : scene.Builds t.peeled m) : scene.Builds t m := by
  intro p
  refine (h p).imp ?_
  rintro v q - ⟨hv, href⟩
  exact ⟨.of_peeled hv, href⟩

/-- What builds for a type without its outermost optional layer builds for the type. -/
theorem of_required (h : scene.Builds t.required m) : scene.Builds t m := by
  intro p
  refine (h p).imp ?_
  rintro v q - ⟨hv, href⟩
  exact ⟨.of_required hv, href⟩

end Builds

/-- Values are built one after another. -/
theorem ensures_mapM {α : Type} {t : Ty} {f : α → Build Value} :
    {as : List α} → {p : Progress} →
      (∀ a ∈ as, ∀ p, scene.Ensures p (f a) fun v q => scene.Built q t v) →
      scene.Ensures p (as.mapM f) fun vs q => ∀ v ∈ vs, scene.Built q t v
  | [], p, _ => by
    rw [List.mapM_nil]
    exact .pure (List.forall_mem_nil _)
  | a :: as, p, h => by
    obtain ⟨ha, has⟩ := List.forall_mem_cons.1 h
    rw [List.mapM_cons]
    refine (ha p).bind fun v q _ hv => ?_
    refine (ensures_mapM has).bind fun vs r hqr hvs => .pure ?_
    exact List.forall_mem_cons.2 ⟨hv.mono hqr.grows, hvs⟩

/-- A plain value that is fitted to a primitive type is built for it. -/
theorem builds_coerce_prim (span : Span) (primitive : Primitive) {v : Value} (hv : v.Plain) :
    scene.Builds (.prim primitive) ((Ty.prim primitive).coerce fitText span v) := by
  cases primitive with
  | any => exact .done (fun _ => .plain rfl hv) hv.isReference
  | int =>
    cases hv with
    | int n => exact .done (fun _ => .int n) rfl
    | _ => exact .failure
  | float =>
    cases hv with
    | int | float => exact .done (fun _ => .float _) rfl
    | _ => exact .failure
  | str =>
    cases hv with
    | str text => exact .done (fun _ => .str text) rfl
    | _ => exact .failure
  | bool =>
    cases hv with
    | bool b => exact .done (fun _ => .bool b) rfl
    | _ => exact .failure

/-- **Fitting a plain value to a type is sound.** -/
theorem builds_coerce (hfit : ∀ text t span, scene.Builds t (fitText text t span)) (span : Span) :
    (t : Ty) → {v : Value} → v.Plain → scene.Builds t (t.coerce fitText span v)
  | .prim primitive, _, hv => builds_coerce_prim span primitive hv
  | .param _, _, hv => .done (fun _ => .plain rfl hv) hv.isReference
  | .named name args, _, hv => by
    cases hv with
    | str text => exact hfit text (.named name args) span
    | _ => exact .failure
  | .optional inner, _, hv => by
    have ih := builds_coerce hfit span inner hv
    cases hv with
    | null => exact .done (fun _ => .null (.inl rfl)) rfl
    | _ => exact ih.optional
  | .list inner, _, hv => by
    cases hv with
    | list hitems =>
      intro p
      refine (ensures_mapM fun v hv q => ?_).bind fun vs q _ hvs => .pure ⟨.list rfl hvs, rfl⟩
      exact (builds_coerce hfit span inner (hitems v hv) q).imp fun _ _ _ h => h.1
    | _ => exact .failure

/-! ## Targets -/

/-- A target that is evaluated builds for the type that is expected. -/
theorem builds_evaluateTarget (hfit : ∀ text t span, scene.Builds t (fitText text t span))
    (captures : Captures) (span : Span) (target : Expr) (t : Ty) :
    scene.Builds t (evaluateTarget fitText captures span target t) := by
  unfold evaluateTarget
  split
  · rename_i v hv
    have hplain := target.plain_eval (Rule.plain_environment captures) v hv
    exact builds_coerce hfit span t hplain.toValue
  · exact .failure

mutual

/-- **Building a target is sound.** -/
theorem builds_buildTarget (hfit : ∀ text t span, scene.Builds t (fitText text t span))
    (captures : Captures) (span : Span) :
    (target : Expr) → (t : Ty) → scene.Builds t (scene.buildTarget fitText captures span target t)
  | .call callSpan name args, t => by
    rw [buildTarget]
    split
    · exact (builds_construct (fits_targetArguments hfit captures span args)).of_peeled
    · exact builds_evaluateTarget hfit captures span _ t
  | .name nameSpan name, t => by
    rw [buildTarget]
    split
    · exact (builds_construct (List.forall_mem_nil _)).of_peeled
    · exact builds_evaluateTarget hfit captures span _ t
  | .int _ _, t | .float _ _, t | .str _ _, t | .bool _ _, t | .null _, t | .list _ _, t
  | .field _ _ _, t | .unary _ _ _, t | .binary _ _ _ _, t => by
    simp only [buildTarget]
    exact builds_evaluateTarget hfit captures span _ t

/-- The arguments of a target build for whatever type is expected. -/
theorem fits_targetArguments (hfit : ∀ text t span, scene.Builds t (fitText text t span))
    (captures : Captures) (span : Span) : (args : List (Argument Expr)) →
    ∀ arg ∈ targetArguments scene fitText captures span args, scene.Fits arg.value
  | [], _, harg => nomatch harg
  | ⟨name, e⟩ :: args, arg, harg => by
    rw [targetArguments, List.mem_cons] at harg
    rcases harg with rfl | harg
    · exact fun t p => (builds_buildTarget hfit captures span e t p).imp fun _ _ _ h => h.1
    · exact fits_targetArguments hfit captures span args arg harg

end

/-! ## Texts -/

/-- What a constructor builds may stand where any value is accepted. -/
theorem Built.to_open {t : Ty} {name : String} {v : Value} (ht : t.isOpen = true)
    (h : scene.Built p (.named name []) v) (hv : v.isReference = false) : scene.Built p t v := by
  cases h with
  | null h => cases h.elim id id
  | plain h _ => cases h
  | list h _ => cases h
  | fields h _ => cases h
  | record hctor haccepts hnames hfields hchecked =>
    rcases haccepts with h | ⟨h, -⟩
    · obtain ⟨rfl, rfl⟩ := Ty.named.inj h
      exact .record hctor (.inr ⟨ht, rfl⟩) hnames hfields hchecked
    · cases h
  | handle => cases hv

/-- A text that may stand for itself or for a record is built for an open type either way. -/
theorem builds_anyText (hfit : ∀ text t span, scene.Builds t (fitText text t span)) {t : Ty}
    (ht : t.isOpen = true) {text : String} {span : Span} :
    scene.Builds t
      (match Rule.firstMatch? scene.rules text with
      | some found =>
        scene.buildTarget fitText found.captures span found.rule.target
          (.named found.rule.typeName [])
      | none => return .str text) := by
  split
  · rename_i found _
    intro p
    refine (builds_buildTarget hfit found.captures span found.rule.target _ p).imp ?_
    rintro v q - ⟨hv, href⟩
    exact ⟨hv.to_open ht href, href⟩
  · exact .done (fun _ => .plain ht (.str text)) rfl

/-- **Taking a text apart is sound,** however deep it is allowed to go. -/
theorem builds_fitTextWithin (depth : Nat) (text : String) (t : Ty) (span : Span) :
    scene.Builds t (scene.fitTextWithin depth text t span) := by
  induction depth generalizing text t span with
  | zero => exact .failure
  | succ depth ih =>
    refine .of_required ?_
    rw [fitTextWithin]
    generalize t.required = required
    split
    · exact .done (fun _ => .str text) rfl
    · split
      · exact builds_buildTarget ih _ span _ _
      · exact .failure
    · exact builds_anyText ih rfl
    · exact builds_anyText ih rfl
    · exact .failure

/-- A text is built for the type that is expected. -/
theorem builds_fitText (text : String) (t : Ty) (span : Span) :
    scene.Builds t (scene.fitText text t span) := builds_fitTextWithin scene.textDepth text t span

/-- Being optional makes no difference to a text. -/
theorem fitText_optional (text : String) (t : Ty) (span : Span) :
    scene.fitText text (.optional t) span = scene.fitText text t span := by
  unfold fitText
  cases scene.textDepth with
  | zero => rfl
  | succ depth => rw [fitTextWithin, fitTextWithin, Ty.required]

end Scene

end TypedData
