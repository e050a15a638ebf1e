import TypedData.Condition.Eval
import TypedData.Rule.Segment
import TypedData.Typing.Registry

/-!
# Rules for texts

A rule turns a text that fits its template, and for which its guards hold, into a call of a
constructor.  Rules are tried in the order of the document, and the first one that accepts a text
wins.  A guard that cannot be evaluated rejects the text.

A rule is accepted only if its slots have names, are distinct and separated by literals, no brace is
stray, and every name of its target and guards is a slot or a constructor.
-/

namespace TypedData

/-- A rule for texts. -/
structure Rule where
  segments : List Segment
  target : Expr
  /-- The constructor that the target calls, and its type. -/
  ctor : String
  typeName : String
  guards : List Expr
  /-- The position among all rules. -/
  index : Nat
  span : Span

/-- A text that fits a rule. -/
structure RuleMatch where
  rule : Rule
  captures : Captures

namespace Rule

/-! ## From a declaration -/

/-- The segments of a template.  `before` holds, in reverse, those of the pieces before. -/
def segmentsFrom (before : List Segment) : List Piece → Except TemplateProblem (List Segment)
  | [] => .ok before.reverse
  | .text t :: pieces =>
    if t.isEmpty then segmentsFrom before pieces
    else match before with
      | .text previous :: before => segmentsFrom (.text (previous ++ t) :: before) pieces
      | before => segmentsFrom (.text t :: before) pieces
  | .slot name :: pieces =>
    if name.isEmpty then .error .emptySlot
    else match before with
      | .slot _ :: _ => .error (.adjacentSlot name)
      | before =>
        if before.contains (.slot name) then .error (.repeatedSlot name)
        else segmentsFrom (.slot name :: before) pieces
  | .stray brace :: _ => .error (.strayBrace brace)

/-- Checks that every name is a slot or a constructor. -/
def checkNames (registry : Registry) (segments : List Segment) (names : List String) :
    Except TemplateProblem Unit :=
  names.forM fun name =>
    if segments.contains (.slot name) || (registry.constructor? name).isSome then .ok ()
    else .error (.unknownName name)

/-- A problem of a template as a failure at the place of its rule. -/
def atRule {α : Type} (span : Span) : Except TemplateProblem α → Except TypeError α
  | .ok a => .ok a
  | .error problem => .error ⟨.invalidTemplate problem, span⟩

/-- The rule that a declaration makes. -/
def ofDecl (registry : Registry) (index : Nat) (decl : RuleDecl) : Except TypeError Rule := do
  let segments ← atRule decl.span (segmentsFrom [] decl.template.pieces)
  match decl.target with
  | .call targetSpan ctorName _ =>
    match registry.constructor? ctorName with
    | none => throw ⟨.unknownConstructor ctorName, targetSpan⟩
    | some ctor =>
      let names := (decl.target :: decl.guards).flatMap Expr.freeNames
      atRule decl.span (checkNames registry segments names)
      return ⟨segments, decl.target, ctorName, ctor.typeName, decl.guards, index, decl.span⟩
  | _ => throw ⟨.invalidTemplate .targetIsNoCall, decl.span⟩

/-- The rules that declarations make, the first of which has the given position. -/
def ofDeclsFrom (registry : Registry) (index : Nat) :
    List RuleDecl → Except TypeError (List Rule)
  | [] => .ok []
  | decl :: decls => do
    let rule ← ofDecl registry index decl
    return rule :: (← ofDeclsFrom registry (index + 1) decls)

/-- The rules that declarations make. -/
def ofDecls (registry : Registry) (decls : List RuleDecl) : Except TypeError (List Rule) :=
  ofDeclsFrom registry 0 decls

/-! ## Matching -/

/-- The environment in which a rule is evaluated: every slot is a text. -/
def environment (captures : Captures) : Environment :=
  .ofLookup fun name => (captures.lookup name).map Operand.str

/-- Whether a guard holds. -/
def accepts (captures : Captures) (guard : Expr) : Bool :=
  match guard.check (environment captures) with
  | .ok holds => holds
  | .error _ => false

/-- The captures of a text that fits the template and the guards. -/
def match? (rule : Rule) (text : List Char) : Option Captures :=
  (Segment.fitText? rule.segments text).filter fun captures =>
    rule.guards.all (accepts captures)

/-- The first rule that accepts a text. -/
def firstMatch? (rules : List Rule) (text : String) : Option RuleMatch :=
  let input := text.toList
  rules.findSome? fun rule => (rule.match? input).map fun captures => ⟨rule, captures⟩

/-- The first rule for a type that accepts a text. -/
def firstMatchFor? (typeName : String) (rules : List Rule) (text : String) : Option RuleMatch :=
  firstMatch? (rules.filter fun rule => rule.typeName == typeName) text

end Rule

end TypedData
