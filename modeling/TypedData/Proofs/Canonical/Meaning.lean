import TypedData.Proofs.Canonical.Building
import TypedData.Proofs.Canonical.Declarations
import TypedData.Rule

/-!
# The canonical form means the same

Declarations, rules and values all have code of their own for the shorthands of a document, and
`canonical` writes them out.  Both give the same results.
-/

namespace TypedData

namespace Document

/-- The canonical form has the values of the document, or the same failure. -/
theorem resolve_canonical (d : Document) (registry : Registry) (rules : List Rule) :
    d.canonical.resolve registry rules = d.resolve registry rules := by
  unfold resolve
  rw [bindings_canonical, Scene.slotsOf_canonical]
  cases Scene.slotsOf registry [] d.bindings with
  | error e => rfl
  | ok slots =>
    let scene : Scene := ⟨registry, rules, slots, Scene.maxTextDepth⟩
    change ((scene.canonical.buildDocument (d.items.map Item.canonical)).run
      (.initial (slots.map Slot.canonical).length)).1 = _
    rw [scene.buildDocument_canonical, List.length_map]
    rfl

/-- **Writing out the shorthands keeps the meaning of a document.**  From its canonical form come the same
registry and the same rules, and over any registry and rules the same values, or in each case the same
failure at the same place. -/
theorem canonical_means_the_same (d : Document) :
    Registry.ofDecls d.canonical.types = Registry.ofDecls d.types ∧
    (∀ registry, Rule.ofDecls registry d.canonical.rules = Rule.ofDecls registry d.rules) ∧
    ∀ registry rules, d.canonical.resolve registry rules = d.resolve registry rules := by
  refine ⟨?_, fun registry => ?_, fun registry rules => resolve_canonical d registry rules⟩
  · rw [types_canonical, Registry.ofDecls_canonical]
  · rw [rules_canonical]

end Document

end TypedData
