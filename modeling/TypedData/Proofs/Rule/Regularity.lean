import TypedData.Proofs.Rule.Captures

/-!
# The segments of a rule are regular

A template may be in any number of pieces, some of them empty.  Its segments are the pieces in the shortest form: they
spell the same characters and slots (`Segment.symbols`), literals and slots stand in turn, no literal is empty, and
every slot has a name of its own.

A search asks what no regular template has an answer to: where an empty literal occurs, and what follows a slot behind
which another slot stands.  A search with the segments of a rule asks neither.  `Segment.searchWith` is the search with
any other answers (`Segment.searchWith_self`), and with the segments of a rule they make no difference to what it finds
and remembers (`Rule.segments_are_regular`).
-/

namespace TypedData

/-! ## What a template spells -/

/-- A character of a template, or a slot. -/
inductive Symbol where
  | char (c : Char)
  | slot (name : String)
deriving DecidableEq, Repr

/-- The symbols of a piece. -/
def Piece.symbols : Piece → List Symbol
  | text t => t.toList.map .char
  | slot name => [.slot name]
  | stray brace => [.char brace]

namespace Segment

/-- The symbols of a segment. -/
def symbols : Segment → List Symbol
  | text t => t.toList.map .char
  | slot name => [.slot name]

/-! ## Searching with other answers -/

/-- A search that is told by `ends` where a slot can end before a literal, and does `stuck` at a slot behind which
another slot stands. -/
def searchWith (stuck : StateM Search Bool) (ends : String → List Char → StateM Search (List (Nat × List Char)))
    (attempt : Attempt) (inside : Bool) :
    List Segment → (offset : Nat) → (input : List Char) → StateM Search Bool
  | [], offset, input => attempt (0, offset) (return input.isEmpty)
  | .text literal :: more, offset, input =>
    attempt (more.length + 1, offset) do
      if input.isEmpty && inside && areOmissible (.text literal :: more) then
        Search.append (emptyCaptures (.text literal :: more))
        return true
      else
        match strip? literal.toList input with
        | some rest => searchWith stuck ends attempt true more (offset + literal.length) rest
        | none => return false
  | .slot name :: more, offset, input =>
    attempt (more.length + 1, offset) <|
      match more with
      | [] => do
        if input.isEmpty then return false
        Search.append [capture name input]
        return true
      | .slot _ :: _ => stuck
      | .text literal :: _ => do
        let mark := (← get).captures.length
        let found ← ends literal input
        let fitted ← found.anyM fun (stop, rest) => do
          let fitted ← searchWith stuck ends attempt true more (offset + stop) rest
          if fitted then Search.insert mark (capture name (input.take stop))
          return fitted
        if fitted then return true
        if !input.isEmpty && areOmissible more then
          Search.append (capture name input :: emptyCaptures more)
          return true
        return false

/-- The answers are those of `slotEnds`, wherever the literal is not empty. -/
def Tells (ends : String → List Char → StateM Search (List (Nat × List Char))) : Prop :=
  ∀ literal input, literal ≠ "" → ends literal input = pure (slotEnds literal input)

variable {segments : List Segment} {stuck : StateM Search Bool}
  {ends : String → List Char → StateM Search (List (Nat × List Char))}

/-- Regular segments stay regular without the first ones. -/
theorem Regular.drop (h : Regular segments) (count : Nat) : Regular (segments.drop count) where
  alternates := h.alternates.drop count
  nonempty literal hliteral := h.nonempty literal (List.mem_of_mem_drop hliteral)

/-- With the answers of the search itself it is the search. -/
theorem searchWith_self (attempt : Attempt) (inside : Bool) (segments : List Segment) (offset : Nat)
    (input : List Char) :
    searchWith (return false) (fun literal input => return slotEnds literal input)
        attempt inside segments offset input =
      search attempt inside segments offset input := by
  induction segments generalizing inside offset input with
  | nil => rw [searchWith, search]
  | cons segment more ih =>
    have ih := funext fun offset => funext (ih true offset)
    cases segment with
    | text literal =>
      rw [searchWith, search]
      exact ih ▸ rfl
    | slot name =>
      cases more with
      | nil => rw [searchWith, search]
      | cons next more =>
        cases next with
        | slot name' => rw [searchWith, search]
        | text literal =>
          rw [searchWith, search]
          exact ih ▸ rfl

/-- With regular segments it does not matter what the answers to the other questions are. -/
theorem searchWith_of_regular (hregular : Regular segments) (htells : Tells ends) (attempt : Attempt) (inside : Bool)
    (offset : Nat) (input : List Char) :
    searchWith stuck ends attempt inside segments offset input = search attempt inside segments offset input := by
  rw [← searchWith_self]
  induction segments generalizing inside offset input with
  | nil => rw [searchWith, searchWith]
  | cons segment more ih =>
    have ih := funext fun offset => funext (ih hregular.tail true offset)
    cases segment with
    | text literal => rw [searchWith, searchWith, ih]
    | slot name =>
      cases more with
      | nil => rw [searchWith, searchWith]
      | cons next more =>
        cases next with
        | slot name' => exact absurd rfl (List.isChain_cons_cons.1 hregular.alternates).1
        | text literal =>
          have hends := htells literal input (hregular.nonempty literal (.tail _ (.head _)))
          rw [searchWith, searchWith, ih]
          dsimp only
          rw [hends]

end Segment

namespace Rule

open Segment (Regular Search Tells Attempt searchWith searchFrom)

/-! ## What segments are made of -/

section Pieces

variable {before before' segments : List Segment} {piece : Piece} {pieces : List Piece}

namespace Adds

/-- A piece adds what it spells, and nothing else. -/
theorem symbols_eq (h : Adds before piece before') :
    before'.reverse.flatMap Segment.symbols = before.reverse.flatMap Segment.symbols ++ piece.symbols := by
  cases h with
  | empty => exact (List.append_nil _).symm
  | joined =>
    rw [List.reverse_cons, List.reverse_cons, List.flatMap_append, List.flatMap_append, List.append_assoc,
      List.flatMap_singleton, List.flatMap_singleton, Segment.symbols, String.toList_append, List.map_append]
    rfl
  | text | slot =>
    rw [List.reverse_cons, List.flatMap_append, List.flatMap_singleton]
    rfl

/-- A piece that adds segments is no stray brace. -/
theorem ne_stray (h : Adds before piece before') (brace : Char) : piece ≠ .stray brace := by
  cases h <;> rintro ⟨⟩

/-- No slot without a name is added. -/
theorem named (h : Adds before piece before') (hbefore : ∀ name ∈ Segment.slots before, name ≠ "") :
    ∀ name ∈ Segment.slots before', name ≠ "" := by
  cases h with
  | empty | joined | text => exact hbefore
  | slot hname => exact List.forall_mem_cons.2 ⟨hname, hbefore⟩

end Adds

/-- **The segments spell what the pieces spell,** one after another. -/
theorem symbols_of_segmentsFrom (h : segmentsFrom before pieces = .ok segments) :
    segments.flatMap Segment.symbols = before.reverse.flatMap Segment.symbols ++ pieces.flatMap Piece.symbols := by
  induction pieces generalizing before with
  | nil =>
    obtain rfl := Except.ok.inj h
    exact (List.append_nil _).symm
  | cons piece pieces ih =>
    obtain ⟨before', hadds, h⟩ := exists_adds_of_segmentsFrom h
    rw [ih h, hadds.symbols_eq, List.flatMap_cons, List.append_assoc]

/-- No brace is stray in a template that has segments. -/
theorem ne_stray_of_segmentsFrom (h : segmentsFrom before pieces = .ok segments) (brace : Char) :
    .stray brace ∉ pieces := by
  induction pieces generalizing before with
  | nil => exact List.not_mem_nil
  | cons piece pieces ih =>
    obtain ⟨before', hadds, h⟩ := exists_adds_of_segmentsFrom h
    rw [List.mem_cons, not_or]
    exact ⟨(hadds.ne_stray brace).symm, ih h⟩

/-- Every slot of a template that has segments has a name. -/
theorem named_of_segmentsFrom (h : segmentsFrom before pieces = .ok segments)
    (hbefore : ∀ name ∈ Segment.slots before, name ≠ "") : ∀ name ∈ Segment.slots segments, name ≠ "" := by
  induction pieces generalizing before with
  | nil =>
    obtain rfl := Except.ok.inj h
    rw [Segment.slots_reverse]
    exact fun name hname => hbefore name (List.mem_reverse.1 hname)
  | cons piece pieces ih =>
    obtain ⟨before', hadds, h⟩ := exists_adds_of_segmentsFrom h
    exact ih h (hadds.named hbefore)

end Pieces

/-! ## Rules -/

/-- **The segments of a rule are regular.**  Literals and slots stand in turn, no literal is empty, and every slot has
a name, of its own.  They spell what the pieces of the template spell, among which no brace is stray.  So wherever a
search with them starts, in whatever text, and however it remembers failures, it does not matter what it would be told
of an empty literal, nor what it would do at a slot behind which another slot stands. -/
theorem segments_are_regular {registry : Registry} {index : Nat} {decl : RuleDecl} {rule : Rule}
    (h : ofDecl registry index decl = .ok rule) :
    Regular rule.segments ∧ (Segment.slots rule.segments).Nodup ∧ (∀ name ∈ Segment.slots rule.segments, name ≠ "") ∧
      rule.segments.flatMap Segment.symbols = decl.template.pieces.flatMap Piece.symbols ∧
      (∀ brace, .stray brace ∉ decl.template.pieces) ∧
      ∀ (stuck : StateM Search Bool) (ends : String → List Char → StateM Search (List (Nat × List Char))), Tells ends →
        ∀ (attempt : Attempt) (text : List Char) (seg offset : Nat),
          searchWith stuck ends attempt (0 < seg) (rule.segments.drop seg) offset (text.drop offset) =
            searchFrom attempt rule.segments text seg offset := by
  have hsegments := (of_ofDecl h).1
  have hregular := regular_of_ofDecl h
  refine ⟨hregular, nodup_of_segmentsFrom hsegments .nil, named_of_segmentsFrom hsegments (List.forall_mem_nil _),
    symbols_of_segmentsFrom hsegments, ne_stray_of_segmentsFrom hsegments, ?_⟩
  intro stuck ends htells attempt text seg offset
  exact Segment.searchWith_of_regular (hregular.drop seg) htells attempt _ offset _

/-- A rule whose template is in more pieces than it needs. -/
def edge : RuleDecl where
  template := ⟨[.text "", .slot "start", .text "-", .text "", .text ">", .slot "stop"]⟩
  target := .call .zero "edge" [⟨none, .name .zero "start"⟩, ⟨none, .name .zero "stop"⟩]
  guards := []
  span := .zero

/-- A search that leaves a mark where an empty literal is asked for. -/
def marking (literal : String) (input : List Char) : StateM Search (List (Nat × List Char)) := do
  if literal = "" then Search.append [("empty", "")]
  return Segment.slotEnds literal input

/-- The pieces of `edge` are joined to three segments, and a search with them never asks about an empty literal. -/
theorem segments_are_regular_edge : ∃ rule, ofDecl (registryOf "edge") 0 edge = .ok rule ∧
    rule.segments = [.slot "start", .text "->", .slot "stop"] ∧ Tells marking ∧ Regular rule.segments ∧
    ∀ stuck, searchWith stuck marking Segment.remembering (decide (0 < 0)) (rule.segments.drop 0) 0
        ("a->b".toList.drop 0) = searchFrom Segment.remembering rule.segments "a->b".toList 0 0 := by
  have hrule : ofDecl (registryOf "edge") 0 edge = .ok ⟨[.slot "start", .text "->", .slot "stop"], edge.target, "edge",
      "edge", [], 0, .zero⟩ := rfl
  have htells : Tells marking := fun literal input hliteral => by rw [marking, if_neg hliteral]
  obtain ⟨hregular, -, -, -, -, hsearch⟩ := segments_are_regular hrule
  exact ⟨_, hrule, rfl, htells, hregular, fun stuck => hsearch stuck marking htells _ _ 0 0⟩

end Rule

end TypedData
