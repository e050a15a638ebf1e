import TypedData.Building.Record

/-!
# Building values from texts

Where a declared type is expected, a text stands for what a rule makes of it: the target of the first
rule for the type that accepts the text.  Where any value is accepted, the first rule for whatever type
is taken, and a text that no rule accepts stays a text.

A target is built like data: calls of constructors nest, and a slot or another expression is
evaluated and fitted to the type of its field.  If that gives a text where a declared type is expected,
it is taken apart again.  Rules may do so without end; `textDepth` bounds how often it is tried.
-/

namespace TypedData

namespace Scene

/-- Evaluates a target over the captures of a text, and fits the result to a type. -/
def evaluateTarget (fitText : String → Ty → Span → Build Value) (captures : Captures)
    (span : Span) (target : Expr) (expected : Ty) : Build Value :=
  match target.eval (Rule.environment captures) with
  | .ok v => expected.coerce fitText span v.toValue
  | .error fault => throw (.evaluation fault)

mutual

/-- Builds the target of a rule over the captures of a text at `span`.  A name that is no slot may be
a constructor without arguments. -/
def buildTarget (scene : Scene) (fitText : String → Ty → Span → Build Value)
    (captures : Captures) (span : Span) : Expr → Ty → Build Value
  | .call callSpan name args, expected =>
    if (scene.registry.constructor? name).isSome then
      scene.construct name (targetArguments scene fitText captures span args) expected.peeled span
    else evaluateTarget fitText captures span (.call callSpan name args) expected
  | .name nameSpan name, expected =>
    if (captures.lookup name).isNone && (scene.registry.constructor? name).isSome then
      scene.construct name [] expected.peeled span
    else evaluateTarget fitText captures span (.name nameSpan name) expected
  | target, expected => evaluateTarget fitText captures span target expected

/-- The arguments of a constructor in the target of a rule. -/
def targetArguments (scene : Scene) (fitText : String → Ty → Span → Build Value)
    (captures : Captures) (span : Span) : List (Argument Expr) → List BuildArgument
  | [] => []
  | ⟨name, e⟩ :: args =>
    ⟨name, fun type => buildTarget scene fitText captures span e type⟩ ::
      targetArguments scene fitText captures span args

end

/-- Builds what a text stands for where a type is expected, taking texts apart at most `depth`
deep. -/
def fitTextWithin (scene : Scene) : (depth : Nat) → String → Ty → Span → Build Value
  | 0, text, _, span => throw (.endless text span)
  | depth + 1, text, expected, span =>
    match expected.required with
    | .prim .str => return .str text
    | .named name args =>
      match Rule.firstMatchFor? name scene.rules text with
      | some found =>
        scene.buildTarget (scene.fitTextWithin depth) found.captures span found.rule.target
          (.named name args)
      | none => Build.typeFailure (.noRule text (.named name args)) span
    | .prim .any | .param _ =>
      match Rule.firstMatch? scene.rules text with
      | some found =>
        scene.buildTarget (scene.fitTextWithin depth) found.captures span found.rule.target
          (.named found.rule.typeName [])
      | none => return .str text
    | expected => Build.mismatch expected "a string" span

/-- Builds what a text stands for where a type is expected. -/
def fitText (scene : Scene) : String → Ty → Span → Build Value :=
  scene.fitTextWithin scene.textDepth

end Scene

end TypedData
