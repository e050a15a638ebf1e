import TypedData.Export.Json
import TypedData.Export.Yaml
import TypedData.Load

/-!
# Exporting documents

A loaded document becomes a plain tree, and that is written as JSON or as YAML.
-/

namespace TypedData

namespace Loaded

/-- The bindings and values of a document as a tree. -/
def tree (loaded : Loaded) : PlainTree := .ofDocument loaded.bindings loaded.values

/-- The bindings and values of a document as JSON. -/
def toJson (loaded : Loaded) : String := loaded.tree.toJson

/-- The bindings and values of a document as YAML. -/
def toYaml (loaded : Loaded) : String := loaded.tree.toYaml

end Loaded

end TypedData
