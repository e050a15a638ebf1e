import TypedData.Proofs.Rule.Remembering
import TypedData.Proofs.Rule.Template

/-!
# The captures of a rule

The segments of a rule are literals and slots in turn (`Rule.regular_of_ofDecl`), so a text that can be taken
apart as the template of the rule demands fits it, with the shortest captures there are: those before others first
(`Rule.captures_are_least`).

This is so as long as no two occurrences of a literal behind a slot overlap in the text.  In `aaa` the literal `aa`
occurs at the beginning, where a slot before it would be empty, and once more, where the slot would be filled; the
second occurrence overlaps the first and is passed over (`Rule.overlapping_is_passed_over`).
-/

namespace TypedData

namespace Rule

open Segment (TakesApart Apart delimiters lengths fitText?)

variable {registry : Registry} {index : Nat} {decl : RuleDecl} {rule : Rule}

/-! ## The least captures -/

/-- **A text that can be taken apart as a rule demands fits its template, with the least captures:** no other
captures have smaller lengths in lexicographic order.  This is so if no two occurrences in the text of a literal
behind a slot overlap. -/
theorem captures_are_least (h : ofDecl registry index decl = .ok rule) {text : List Char}
    (hapart : ∀ literal ∈ delimiters rule.segments, Apart literal.toList text) :
    ((∃ captures, TakesApart rule.segments text captures) →
        ∃ captures, fitText? rule.segments text = some captures) ∧
      ∀ captures, fitText? rule.segments text = some captures → TakesApart rule.segments text captures ∧
        ∀ captures', TakesApart rule.segments text captures' →
          captures' = captures ∨ List.Lex (· < ·) (lengths captures) (lengths captures') := by
  have hleast := Segment.isLeast_fit? (regular_of_ofDecl h) hapart false
  rw [← Segment.fitText?_eq] at hleast
  simp only [Segment.takesApart_iff]
  constructor
  · rintro ⟨captures, hfits⟩
    cases hfit : fitText? rule.segments text with
    | some captures' => exact ⟨captures', rfl⟩
    | none =>
      rw [hfit] at hleast
      exact absurd hfits (hleast captures)
  · intro captures hfit
    rw [hfit] at hleast
    exact hleast

/-- A registry that knows one constructor, of which nothing is said. -/
def registryOf (ctor : String) : Registry := ⟨[], [⟨ctor, ctor, [], .zero⟩], []⟩

/-- A rule that takes addresses apart. -/
def address : RuleDecl where
  template := ⟨[.slot "user", .text "@", .slot "host", .text ".org"]⟩
  target := .call .zero "email" [⟨some "user", .name .zero "user"⟩, ⟨some "host", .name .zero "host"⟩]
  guards := []
  span := .zero

/-- The address `x@y.org.org` is taken apart at its `@` and before its last `.org`. -/
theorem captures_are_least_address : ∃ rule, ofDecl (registryOf "email") 0 address = .ok rule ∧
    (∀ literal ∈ delimiters rule.segments, Apart literal.toList "x@y.org.org".toList) ∧
    TakesApart rule.segments "x@y.org.org".toList [("user", "x"), ("host", "y.org")] := by
  have hrule : ofDecl (registryOf "email") 0 address = .ok ⟨[.slot "user", .text "@", .slot "host", .text ".org"],
      address.target, "email", "email", [], 0, .zero⟩ := rfl
  have hapart : ∀ literal ∈ delimiters [.slot "user", .text "@", .slot "host", .text ".org"],
      Apart literal.toList "x@y.org.org".toList := by
    have hunbordered : ∀ literal ∈ ["@", ".org"], Segment.Unbordered literal.toList := by decide
    exact fun literal hliteral => (hunbordered literal hliteral).apart _
  have hfit : fitText? [.slot "user", .text "@", .slot "host", .text ".org"] "x@y.org.org".toList =
      some [("user", "x"), ("host", "y.org")] := by
    rw [Segment.fitText?_eq]
    decide
  exact ⟨_, hrule, hapart, ((captures_are_least hrule hapart).2 _ hfit).1⟩

/-- A rule whose literal overlaps itself. -/
def doubled : RuleDecl where
  template := ⟨[.slot "x", .text "aa"]⟩
  target := .call .zero "t" [⟨some "x", .name .zero "x"⟩]
  guards := []
  span := .zero

/-- A text that can be taken apart need not fit: of two occurrences of a literal that overlap, the second is
passed over. -/
theorem overlapping_is_passed_over : ∃ rule, ofDecl (registryOf "t") 0 doubled = .ok rule ∧
    TakesApart rule.segments "aaa".toList [("x", "a")] ∧ fitText? rule.segments "aaa".toList = none := by
  refine ⟨_, rfl, ⟨[.slot "x", .text "aa"], [], [("x", "a")], rfl, ?_, .inl rfl, rfl⟩, ?_⟩
  · exact .slot "x" (List.cons_ne_nil 'a' []) (.text "aa" .nil)
  · rw [Segment.fitText?_eq]
    rfl

end Rule

end TypedData
