import TypedData.Building
import TypedData.Document.Canonical
import TypedData.Document.Parser.Item
import TypedData.Token.Scan

/-!
# Loading documents

A text is divided into tokens, parsed and brought into canonical form.  From the declarations in it come
the registry and the rules, and over these the values are built.  The first failure ends the loading.
-/

namespace TypedData

namespace Document

/-- Reads a document as it is written. -/
def read (source : String) : Except Failure Document := do
  let tokens ← (scan source).mapError Failure.token
  ((Parser.document.run (Cursor.ofTokens tokens)).1).mapError Failure.parse

end Document

/-- Reads an expression at the beginning of a text.  What follows it is not looked at. -/
def Expr.read (source : String) : Except Failure Expr := do
  let tokens ← (scan source).mapError Failure.token
  ((Parser.expr.run (Cursor.ofTokens tokens)).1).mapError Failure.parse

/-- Reads a type at the beginning of a text.  What follows it is not looked at. -/
def TypeExpr.read (source : String) : Except Failure TypeExpr := do
  let tokens ← (scan source).mapError Failure.token
  ((Parser.type.run (Cursor.ofTokens tokens)).1).mapError Failure.parse

/-- Reads data at the beginning of a text.  What follows it is not looked at. -/
def Data.read (source : String) : Except Failure Data := do
  let tokens ← (scan source).mapError Failure.token
  ((Parser.data.run (Cursor.ofTokens tokens)).1).mapError Failure.parse

/-- A loaded document: its canonical form, its declarations and rules, and its values. -/
structure Loaded where
  document : Document
  registry : Registry
  rules : List Rule
  bindings : List (String × Value)
  values : List Value

namespace Loaded

/-- Declarations and rules of a document. -/
def declarations (d : Document) : Except Failure (Registry × List Rule) := do
  let registry ← (Registry.ofDecls d.types).mapError Failure.type
  let rules ← (Rule.ofDecls registry d.rules).mapError Failure.type
  return (registry, rules)

/-- Loads a document. -/
def ofDocument (d : Document) : Except Failure Loaded := do
  let (registry, rules) ← declarations d
  let resolution ← d.resolve registry rules
  return ⟨d, registry, rules, resolution.bindings, resolution.values⟩

/-- Loads a text. -/
def load (source : String) : Except Failure Loaded := do ofDocument (← Document.read source).canonical

/-- The value of a binding. -/
def get? (loaded : Loaded) (name : String) : Option Value := loaded.bindings.lookup name

/-- The value of the binding at a position. -/
def root (loaded : Loaded) (binding : Nat) : Option Value := loaded.bindings[binding]?.map Prod.snd

/-- The value itself, or what it leads to if it is a reference. -/
def deref? (loaded : Loaded) (v : Value) : Option Value :=
  (v.follow loaded.root (Value.hopLimit loaded.bindings.length) []).toOption

/-- The environment of conditions over the bindings. -/
def environment (loaded : Loaded) : Environment where
  lookup name := (loaded.get? name).map Operand.ofValue
  follow reference :=
    match loaded.deref? (.ref reference) with
    | some v => .ok (.ofValue v)
    | none => .error (.unavailable reference.name)

end Loaded

end TypedData
