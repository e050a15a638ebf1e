import TypedData.Building.Text
import TypedData.Proofs.Condition.Names
import TypedData.Proofs.Rule.Matching

/-!
# The names in a rule

A rule is accepted only if every name in its target and its guards is a slot of the template or a declared constructor
(`Rule.readable_of_ofDecl`).  What fits the template gives every slot a text, so no guard comes to be missing for a
name that is misspelt.  And whatever else may have a value, it changes nothing: neither what the guards and the target
evaluate to, nor what is built of the target (`Rule.reads_readable`).
-/

namespace TypedData

/-! ## Building targets -/

namespace Rule

variable {captures captures' : Captures}

/-- Captures that agree on some names give environments that do. -/
theorem agreesOn_environment {names : List String}
    (h : ∀ name ∈ names, captures'.lookup name = captures.lookup name) :
    (environment captures).AgreesOn (environment captures') names where
  lookup name hname := congrArg (Option.map Operand.str) (h name hname)
  follow _ := rfl

end Rule

namespace Scene

variable {captures captures' : Captures} (scene : Scene) (fitText : String → Ty → Span → Build Value) (span : Span)

/-- A target is evaluated alike if the captures agree on its free names. -/
theorem evaluateTarget_congr {e : Expr} (h : ∀ name ∈ e.freeNames, captures'.lookup name = captures.lookup name)
    (expected : Ty) :
    evaluateTarget fitText captures' span e expected = evaluateTarget fitText captures span e expected := by
  rw [evaluateTarget, evaluateTarget, e.eval_congr (Rule.agreesOn_environment h)]

mutual

/-- **What is built of a target depends on the names in it only.** -/
theorem buildTarget_congr : (e : Expr) → (∀ name ∈ e.freeNames, captures'.lookup name = captures.lookup name) →
    (expected : Ty) →
      scene.buildTarget fitText captures' span e expected = scene.buildTarget fitText captures span e expected
  | .call callSpan name args, h, expected => by
    rw [buildTarget, buildTarget, targetArguments_congr args h, evaluateTarget_congr fitText span h]
  | .name nameSpan name, h, expected => by
    rw [buildTarget, buildTarget, h name (List.mem_singleton_self name), evaluateTarget_congr fitText span h]
  | .int .., h, expected | .float .., h, expected | .str .., h, expected | .bool .., h, expected
  | .null _, h, expected | .list .., h, expected | .field .., h, expected | .unary .., h, expected
  | .binary .., h, expected => by
    simp only [buildTarget]
    exact evaluateTarget_congr fitText span h expected

/-- Arguments of a target are built alike if the captures agree on their free names. -/
theorem targetArguments_congr : (args : List (Argument Expr)) →
    (∀ name ∈ Expr.freeNamesOfArguments args, captures'.lookup name = captures.lookup name) →
      targetArguments scene fitText captures' span args = targetArguments scene fitText captures span args
  | [], _ => rfl
  | ⟨label, e⟩ :: args, h => by
    rw [targetArguments, targetArguments, funext (buildTarget_congr e fun name hname => h name ?_),
      targetArguments_congr args fun name hname => h name ?_]
    · exact List.mem_append_right _ hname
    · exact List.mem_append_left _ hname

end

end Scene

/-! ## The names that are readable -/

/-- What fits a template gives every slot a text. -/
theorem Segment.exists_text_of_fitText? {segments : List Segment} {text : List Char} {captures : Captures}
    {name : String} (h : fitText? segments text = some captures) (hname : name ∈ slots segments) :
    ∃ t, captures.lookup name = some t := by
  rw [fitText?_eq] at h
  rw [← (fits_of_fit? h).map_fst] at hname
  obtain ⟨capture, hcapture, rfl⟩ := List.mem_map.1 hname
  exact Option.isSome_iff_exists.1 (List.lookup_isSome_iff.2 ⟨capture, hcapture, beq_self_eq_true _⟩)

/-- The names that may stand in the target and the guards of a rule: its slots, and the constructors. -/
def RuleDecl.readable (registry : Registry) (decl : RuleDecl) : List String :=
  decl.template.slots ++ registry.constructors.map Constructor.name

namespace Rule

variable {registry : Registry} {index : Nat} {decl : RuleDecl} {rule : Rule}

/-- The names of a rule pass when each is a slot or a constructor. -/
theorem checkNames_eq_ok_iff {segments : List Segment} {names : List String} :
    checkNames registry segments names = .ok () ↔
      ∀ name ∈ names, name ∈ Segment.slots segments ∨ (registry.constructor? name).isSome = true := by
  rw [checkNames, forM_eq_ok_iff]
  refine forall₂_congr fun name _ => ?_
  rw [Segment.mem_slots_iff, ← List.contains_iff_mem, ← Bool.or_eq_true]
  split
  · exact iff_of_true rfl ‹_›
  · exact iff_of_false (by rintro ⟨⟩) ‹_›

/-- **Every name in a rule is readable.** -/
theorem readable_of_ofDecl (h : ofDecl registry index decl = .ok rule) {e : Expr}
    (he : e ∈ rule.target :: rule.guards) : e.freeNames ⊆ decl.readable registry := by
  obtain ⟨_, _, _, _, -, -, -, hnames, hrule⟩ := exists_of_ofDecl h
  rw [show rule.target = decl.target from congrArg target hrule,
    show rule.guards = decl.guards from congrArg guards hrule] at he
  intro name hname
  rw [RuleDecl.readable, List.mem_append, ← (slots_of_ofDecl h).1]
  refine (checkNames_eq_ok_iff.1 hnames name (List.mem_flatMap.2 ⟨e, he, hname⟩)).imp_right fun hsome => ?_
  obtain ⟨ctor, hctor, hctorName⟩ := List.find?_isSome.1 hsome
  exact List.mem_map.2 ⟨ctor, hctor, beq_iff_eq.1 hctorName⟩

/-- **What is read is named.**  Expressions are evaluated alike where their names have the same values.  So the guards
and the target of a rule are evaluated alike, and the target is built alike, where the slots of the template and the
constructors have the same values; no other name is in them, and what fits the template gives every slot a text. -/
theorem reads_readable :
    (∀ (e : Expr) (env env' : Environment), env.AgreesOn env' e.freeNames →
      e.eval env' = e.eval env ∧ e.check env' = e.check env) ∧
    ∀ registry index decl rule, ofDecl registry index decl = .ok rule →
      (∀ env env' : Environment, env.AgreesOn env' (decl.readable registry) →
        (∀ guard ∈ rule.guards, guard.check env' = guard.check env) ∧ rule.target.eval env' = rule.target.eval env) ∧
      (∀ captures captures' : Captures,
        (∀ name ∈ decl.readable registry, captures'.lookup name = captures.lookup name) →
          (∀ guard ∈ rule.guards, accepts captures' guard = accepts captures guard) ∧
          ∀ (scene : Scene) (fitText : String → Ty → Span → Build Value) (span : Span) (expected : Ty),
            scene.buildTarget fitText captures' span rule.target expected =
              scene.buildTarget fitText captures span rule.target expected) ∧
      ∀ text captures, Segment.fitText? rule.segments text = some captures →
        ∀ e ∈ rule.target :: rule.guards, ∀ name ∈ e.freeNames,
          (∃ t, captures.lookup name = some t) ∨ name ∈ registry.constructors.map Constructor.name := by
  refine ⟨fun e env env' h => ⟨e.eval_congr h, Expr.check_congr h⟩, fun registry index decl rule hrule => ⟨?_, ?_, ?_⟩⟩
  · intro env env' h
    have hagrees : ∀ e ∈ rule.target :: rule.guards, env.AgreesOn env' e.freeNames := fun e he =>
      h.mono (readable_of_ofDecl hrule he)
    exact ⟨fun guard hguard => Expr.check_congr (hagrees guard (.tail _ hguard)),
      rule.target.eval_congr (hagrees rule.target (.head _))⟩
  · intro captures captures' h
    refine ⟨fun guard hguard => ?_, fun scene fitText span expected => ?_⟩
    · have hagrees : (environment captures).AgreesOn (environment captures') guard.freeNames :=
        (agreesOn_environment h).mono (readable_of_ofDecl hrule (.tail _ hguard))
      rw [accepts, accepts, Expr.check_congr hagrees]
    · exact scene.buildTarget_congr fitText span rule.target
        (fun name hname => h name (readable_of_ofDecl hrule (.head _) hname)) expected
  · intro text captures hfit e he name hname
    refine (List.mem_append.1 (readable_of_ofDecl hrule he hname)).imp_left fun hslot => ?_
    exact Segment.exists_text_of_fitText? hfit ((slots_of_ofDecl hrule).1 ▸ hslot)

/-- The rule `"{x}-{y}" => pair(x, upper(y)) where x == "a" or len(y) > 1`. -/
def dashedPair : RuleDecl where
  template := ⟨[.slot "x", .text "-", .slot "y"]⟩
  target := .call .zero "pair"
    [⟨none, .name .zero "x"⟩, ⟨none, .call .zero "upper" [⟨none, .name .zero "y"⟩]⟩]
  guards := [.binary .zero .or (.binary .zero .eq (.name .zero "x") (.str .zero "a"))
    (.binary .zero .gt (.call .zero "len" [⟨none, .name .zero "y"⟩]) (.int .zero .one))]
  span := .zero

/-- What the text `b-cd` gives the slots. -/
def dashedCaptures : Captures := [("x", "b"), ("y", "cd")]

/-- A capture that no part of a rule names changes neither guards nor target. -/
theorem reads_readable_dashedPair : ∃ rule, ofDecl (registryOf "pair") 0 dashedPair = .ok rule ∧
    Segment.fitText? rule.segments "b-cd".toList = some dashedCaptures ∧
    (∀ name ∈ dashedPair.readable (registryOf "pair"),
      List.lookup name (("z", "e") :: dashedCaptures) = List.lookup name dashedCaptures) ∧
    ((∀ guard ∈ rule.guards, accepts (("z", "e") :: dashedCaptures) guard = accepts dashedCaptures guard) ∧
      ∀ (scene : Scene) (fitText : String → Ty → Span → Build Value) (span : Span) (expected : Ty),
        scene.buildTarget fitText (("z", "e") :: dashedCaptures) span rule.target expected =
          scene.buildTarget fitText dashedCaptures span rule.target expected) ∧
    ∀ e ∈ rule.target :: rule.guards, ∀ name ∈ e.freeNames,
      (∃ t, dashedCaptures.lookup name = some t) ∨
        name ∈ (registryOf "pair").constructors.map Constructor.name := by
  have hrule : ofDecl (registryOf "pair") 0 dashedPair = .ok ⟨[.slot "x", .text "-", .slot "y"],
      dashedPair.target, "pair", "pair", dashedPair.guards, 0, .zero⟩ := rfl
  have hfit : Segment.fitText? [.slot "x", .text "-", .slot "y"] "b-cd".toList = some dashedCaptures := by
    rw [Segment.fitText?_eq]
    decide
  have hunread : "z" ∉ dashedPair.readable (registryOf "pair") := by decide
  have hlookup : ∀ name ∈ dashedPair.readable (registryOf "pair"),
      List.lookup name (("z", "e") :: dashedCaptures) = List.lookup name dashedCaptures := by
    intro name hname
    have hne : (name == "z") = false := beq_eq_false_iff_ne.2 fun h => hunread (h ▸ hname)
    rw [List.lookup_cons, hne]
  obtain ⟨-, hbuilt, hbound⟩ := reads_readable.2 _ _ _ _ hrule
  exact ⟨_, hrule, hfit, hlookup, hbuilt _ _ hlookup, hbound _ _ hfit⟩

end Rule

end TypedData
