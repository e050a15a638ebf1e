import TypedData.Proofs.Condition.Operation
import TypedData.Proofs.Lists
import TypedData.Proofs.Number.Integral

/-!
# Equality in conditions

`==` compares two numbers as doubles, and lists item by item.  Inside a list, though, numbers are compared as they
are: an integer is no float there, and different integers are different, be they one double or not.  So there are two
equalities, and two places where they part.

* The order of integers is exact and their equality is not: of two **blurred** integers one is less than the other,
  and they are equal all the same (`Expr.integers_compare`).
* Two lists are equal if their items are, and those of them that are numbers are also **akin**
  (`Expr.lists_equal_iff`).
-/

namespace TypedData

-- A power of naturals is core's, whatever other instance is in scope.
attribute [local instance (high)] instPowNat

namespace Operand

variable {a b : Operand}

/-- Two numbers are akin if both are floats, or they are one integer. -/
def Akin : Operand → Operand → Prop
  | int m, int n => m = n
  | int _, float _ | float _, int _ => False
  | _, _ => True

/-- `a == b` is true. -/
def Equates (a b : Operand) : Prop := BinaryOp.eq.apply a b = .ok (.bool true)

/-- Nothing is equal to something missing, unless it is missing itself. -/
theorem equal_missing (h : a ≠ .missing) : a.equal .missing = false := by
  cases a with
  | missing => exact absurd rfl h
  | _ => rfl

/-- What is not missing equates with something exactly if equality says so. -/
theorem equates_iff (h : a ≠ .missing) : Equates a b ↔ a.equal b = true := by
  by_cases hb : b = .missing
  · subst hb
    rw [Equates, BinaryOp.apply_missing_right, equal_missing h]
    exact iff_of_false (by rintro ⟨⟩) Bool.false_ne_true
  · rw [Equates, BinaryOp.apply_of_present h hb, BinaryOp.applyPresent, Except.ok.injEq, bool.injEq]

/-- Two integers are equal in conditions exactly if they are the same or have the same nearest float. -/
theorem equal_int_iff {m n : Integer} : (int m).equal (int n) = true ↔ m = n ∨ m.Blurred n :=
  Integer.equal_ofInt_iff_same

/-- **In a list only numbers that are akin are equal.** -/
theorem same_iff : a.same b = true ↔ a.equal b = true ∧ Akin a b := by
  cases a with
  | int m =>
    cases b with
    | int n =>
      rw [same, beq_iff_eq, equal_int_iff, Akin]
      exact ⟨fun h => ⟨.inl h, h⟩, And.right⟩
    | float y => exact iff_of_false Bool.false_ne_true And.right
    | _ => exact (and_iff_left True.intro).symm
  | float x =>
    cases b with
    | int n => exact iff_of_false Bool.false_ne_true And.right
    | _ => exact (and_iff_left True.intro).symm
  | _ => exact (and_iff_left True.intro).symm

/-- Lists have the same items exactly if they are the same item by item, and of the same length. -/
theorem sameItems_iff : {as bs : List Operand} →
    (sameItems as bs = true ↔ List.Forall₂ (fun a b => a.same b = true) as bs)
  | [], [] => iff_of_true rfl .nil
  | [], _ :: _ => iff_of_false Bool.false_ne_true (by rintro ⟨⟩)
  | _ :: _, [] => iff_of_false Bool.false_ne_true (by rintro ⟨⟩)
  | a :: as, b :: bs => by
    rw [sameItems, Bool.and_eq_true, List.forall₂_cons, sameItems_iff]

end Operand

namespace Expr

open Operand

variable {env : Environment} {span : Span} {x y l : Expr}

/-- Where both sides have values, `==` says whether they are equal. -/
theorem eval_eq_of_ok {a b : Operand} (hx : x.eval env = .ok a) (hy : y.eval env = .ok b) (ha : a ≠ .missing)
    (hb : b ≠ .missing) : (binary span .eq x y).eval env = .ok (.bool (a.equal b)) := by
  rw [eval_binary_of_ok rfl hx hy, BinaryOp.apply_of_present ha hb]
  rfl

/-- Where both sides have values, `!=` says whether they are not equal. -/
theorem eval_ne_of_ok {a b : Operand} (hx : x.eval env = .ok a) (hy : y.eval env = .ok b) (ha : a ≠ .missing)
    (hb : b ≠ .missing) : (binary span .ne x y).eval env = .ok (.bool !(a.equal b)) := by
  rw [eval_binary_of_ok rfl hx hy, BinaryOp.apply_of_present ha hb]
  rfl

/-- `contains` looks for an item that is equal. -/
theorem eval_contains {items : List Operand} {v : Operand} (hl : l.eval env = .ok (.list items))
    (hy : y.eval env = .ok v) (hv : v ≠ .missing) :
    (call span "contains" ([l, y].map argument)).eval env = .ok (.bool (items.any (·.equal v))) := by
  have hvalues : HaveValues env [l, y] [.list items, v] := .cons ⟨hl, by rintro ⟨⟩⟩ (.cons ⟨hy, hv⟩ .nil)
  rw [eval_call_of_haveValues hvalues]
  rfl

/-! ## Integers -/

/-- An integer is equal to one of a list exactly if it is in the list or has the nearest float of one that is. -/
theorem any_equal_int_iff {ns : List Integer} {b : Integer} :
    (ns.map Operand.int).any (·.equal (.int b)) = true ↔ b ∈ ns ∨ ∃ n ∈ ns, n.Blurred b := by
  rw [List.any_eq_true]
  constructor
  · rintro ⟨v, hv, hequal⟩
    obtain ⟨n, hn, rfl⟩ := List.mem_map.1 hv
    rcases equal_int_iff.1 hequal with rfl | hblurred
    · exact .inl hn
    · exact .inr ⟨n, hn, hblurred⟩
  · rintro (hb | ⟨n, hn, hblurred⟩)
    · exact ⟨.int b, List.mem_map_of_mem hb, equal_int_iff.2 (.inl rfl)⟩
    · exact ⟨.int n, List.mem_map_of_mem hn, equal_int_iff.2 (.inr hblurred)⟩

/-- The order of two integers decides a comparison of them. -/
theorem tellsWhether_order {op : BinaryOp} {holds : Ordering → Bool} {p : Prop} {a b : Integer}
    (hx : x.eval env = .ok (.int a)) (hy : y.eval env = .ok (.int b)) (hlogical : op.isLogical = false)
    (hop : op.apply (.int a) (.int b) = op.onOrder holds (.int a) (.int b))
    (hp : holds (compare a.val b.val) = true ↔ p) : TellsWhether env (binary span op x y) p := by
  refine ⟨_, ?_, hp⟩
  rw [eval_binary_of_ok hlogical hx hy, hop]
  rfl

/-- **The order of integers is exact, and those are equal that are the same or blurred.**  Only integers that reach
`2 ^ 53` are blurred, with others close to them; of all others just one is the case: less, equal or greater. -/
theorem integers_compare {a b : Integer} {ns : List Integer} (hx : x.eval env = .ok (.int a))
    (hy : y.eval env = .ok (.int b)) (hl : l.eval env = .ok (.list (ns.map .int))) (span : Span) :
    TellsWhether env (binary span .eq x y) (a = b ∨ a.Blurred b) ∧
    TellsWhether env (binary span .ne x y) (¬ (a = b ∨ a.Blurred b)) ∧
    TellsWhether env (binary span .lt x y) (a.val < b.val) ∧
    TellsWhether env (binary span .le x y) (a.val ≤ b.val) ∧
    TellsWhether env (binary span .gt x y) (b.val < a.val) ∧
    TellsWhether env (binary span .ge x y) (b.val ≤ a.val) ∧
    TellsWhether env (call span "contains" ([l, y].map argument)) (b ∈ ns ∨ ∃ n ∈ ns, n.Blurred b) ∧
    (a.Blurred b → 2 ^ 53 ≤ a.val.natAbs ∧ 2 ^ 53 ≤ b.val.natAbs ∧
      2 ^ 53 * (a.val - b.val).natAbs ≤ a.val.natAbs + b.val.natAbs) := by
  have ha : Operand.int a ≠ .missing := by rintro ⟨⟩
  have hb : Operand.int b ≠ .missing := by rintro ⟨⟩
  refine ⟨⟨_, eval_eq_of_ok hx hy ha hb, equal_int_iff⟩, ⟨_, eval_ne_of_ok hx hy ha hb, ?_⟩,
    tellsWhether_order hx hy rfl rfl ?_, tellsWhether_order hx hy rfl rfl ?_, tellsWhether_order hx hy rfl rfl ?_,
    tellsWhether_order hx hy rfl rfl ?_, ⟨_, eval_contains hl hy hb, any_equal_int_iff⟩,
    fun h => ⟨h.far.1, h.far.2, h.close⟩⟩
  · rw [Bool.not_eq_true', ← Bool.not_eq_true, equal_int_iff]
  · rw [Ordering.isLT_iff_eq_lt, compare_lt_iff_lt]
  · rw [Ordering.isLE_iff_ne_gt, compare_gt_iff_gt, not_lt]
  · rw [Ordering.isGT_iff_eq_gt, compare_gt_iff_gt]
  · rw [Ordering.isGE_iff_ne_lt, compare_lt_iff_lt, not_lt]

/-- The first integer that is blurred with another one, `2 ^ 53`. -/
def edge : Integer := ⟨0x20000000000000, by decide, by decide⟩

/-- The integer that the first one is blurred with. -/
def pastEdge : Integer := ⟨0x20000000000001, by decide, by decide⟩

/-- `contains([item], part)`. -/
def findIn (item part : Expr) : Expr := call .zero "contains" ([list .zero [item], part].map argument)

/-- The smallest integer that has the nearest float of the one after it. -/
theorem integers_compare_edge :
    ((int .zero edge).eval .bare = .ok (.int edge) ∧ (int .zero pastEdge).eval .bare = .ok (.int pastEdge) ∧
      (list .zero [.int .zero edge]).eval .bare = .ok (.list ([edge].map .int))) ∧
    TellsWhether .bare (binary .zero .eq (.int .zero edge) (.int .zero pastEdge))
      (edge = pastEdge ∨ edge.Blurred pastEdge) ∧
    TellsWhether .bare (binary .zero .ne (.int .zero edge) (.int .zero pastEdge))
      (¬ (edge = pastEdge ∨ edge.Blurred pastEdge)) ∧
    TellsWhether .bare (binary .zero .lt (.int .zero edge) (.int .zero pastEdge)) (edge.val < pastEdge.val) ∧
    TellsWhether .bare (binary .zero .le (.int .zero edge) (.int .zero pastEdge)) (edge.val ≤ pastEdge.val) ∧
    TellsWhether .bare (binary .zero .gt (.int .zero edge) (.int .zero pastEdge)) (pastEdge.val < edge.val) ∧
    TellsWhether .bare (binary .zero .ge (.int .zero edge) (.int .zero pastEdge)) (pastEdge.val ≤ edge.val) ∧
    TellsWhether .bare (findIn (.int .zero edge) (.int .zero pastEdge))
      (pastEdge ∈ [edge] ∨ ∃ n ∈ [edge], n.Blurred pastEdge) ∧
    (edge.Blurred pastEdge → 2 ^ 53 ≤ edge.val.natAbs ∧ 2 ^ 53 ≤ pastEdge.val.natAbs ∧
      2 ^ 53 * (edge.val - pastEdge.val).natAbs ≤ edge.val.natAbs + pastEdge.val.natAbs) :=
  ⟨⟨rfl, rfl, rfl⟩, integers_compare rfl rfl rfl .zero⟩

/-- Of two different integers one is less than the other, and they are equal all the same. -/
theorem neighbours_are_equal :
    edge ≠ pastEdge ∧
      (binary .zero .eq (.int .zero edge) (.int .zero pastEdge)).eval .bare = .ok (.bool true) ∧
      (binary .zero .ne (.int .zero edge) (.int .zero pastEdge)).eval .bare = .ok (.bool false) ∧
      (binary .zero .lt (.int .zero edge) (.int .zero pastEdge)).eval .bare = .ok (.bool true) ∧
      (findIn (.int .zero edge) (.int .zero pastEdge)).eval .bare = .ok (.bool true) := by
  have hblurred : edge.Blurred pastEdge := ⟨by decide, Integer.ofInt_eq_ofInt_iff.2 (by decide +kernel)⟩
  have hequal : (Operand.int edge).equal (.int pastEdge) = true := equal_int_iff.2 (.inr hblurred)
  have hedge : Operand.int edge ≠ .missing := by rintro ⟨⟩
  have hpast : Operand.int pastEdge ≠ .missing := by rintro ⟨⟩
  refine ⟨by decide, ?_, ?_, rfl, ?_⟩
  · rw [eval_eq_of_ok rfl rfl hedge hpast, hequal]
  · rw [eval_ne_of_ok rfl rfl hedge hpast, hequal]
    rfl
  · rw [findIn, eval_contains rfl rfl hpast, List.any_cons, hequal]
    rfl

/-! ## Lists -/

/-- **Lists are equal if their items are equal, and akin where they are numbers.**  So `contains` finds an item that
is equal, which as the only item of a list is equal too if it is akin. -/
theorem lists_equal_iff {z : Expr} {xs ys : List Operand} {v : Operand} (hx : x.eval env = .ok (.list xs))
    (hy : y.eval env = .ok (.list ys)) (hz : z.eval env = .ok v) (hxs : .missing ∉ xs) (hv : v ≠ .missing)
    (span : Span) :
    TellsWhether env (binary span .eq x y)
      (xs.length = ys.length ∧ ∀ i (hi : i < xs.length) (hi' : i < ys.length),
        Equates xs[i] ys[i] ∧ Akin xs[i] ys[i]) ∧
    TellsWhether env (call span "contains" ([x, z].map argument))
      (∃ i, ∃ hi : i < xs.length,
        Equates (.list [xs[i]]) (.list [v]) ∨ Equates xs[i] v ∧ ¬ Akin xs[i] v) := by
  have hpresent : ∀ u ∈ xs, u ≠ .missing := fun u hu h => hxs (h ▸ hu)
  have hlist : ∀ us, Operand.list us ≠ .missing := by rintro us ⟨⟩
  refine ⟨⟨_, eval_eq_of_ok hx hy (hlist xs) (hlist ys), ?_⟩, ⟨_, eval_contains hx hz hv, ?_⟩⟩
  · have hitems : ∀ u ∈ xs, ∀ w, u.same w = true ↔ Equates u w ∧ Akin u w := fun u hu w => by
      rw [same_iff, equates_iff (hpresent u hu)]
    exact sameItems_iff.trans ((forall₂_iff_of_mem hitems).trans List.forall₂_iff_get)
  · have hsingle : ∀ u, Equates (.list [u]) (.list [v]) ↔ u.equal v = true ∧ Akin u v := fun u => by
      rw [equates_iff (hlist [u]), ← same_iff]
      exact sameItems_iff.trans (by rw [List.forall₂_cons, and_iff_left List.Forall₂.nil])
    rw [List.any_eq_true]
    constructor
    · rintro ⟨u, hu, hequal⟩
      obtain ⟨i, hi, rfl⟩ := List.getElem_of_mem hu
      refine ⟨i, hi, ?_⟩
      rw [hsingle, equates_iff (hpresent _ hu)]
      by_cases hakin : Akin xs[i] v
      · exact .inl ⟨hequal, hakin⟩
      · exact .inr ⟨hequal, hakin⟩
    · rintro ⟨i, hi, hfound⟩
      refine ⟨xs[i], List.getElem_mem hi, ?_⟩
      rw [hsingle, equates_iff (hpresent _ (List.getElem_mem hi))] at hfound
      exact hfound.elim And.left And.left

/-- The float `1.0`. -/
def floatOne : Double := .finite false Double.one (by decide +kernel)

/-- The items of the list `[1, ["a"]]`. -/
def intItems : List Operand := [.int .one, .list [.str "a"]]

/-- The items of the list `[1.0, ["a"]]`. -/
def floatItems : List Operand := [.float floatOne, .list [.str "a"]]

/-- A list with one item, and `["a"]`. -/
def withLetter (item : Expr) : Expr := .list .zero [item, .list .zero [.str .zero "a"]]

/-- Two lists that differ in the type of a number only, between other items. -/
theorem lists_equal_iff_mixed :
    ((withLetter (.int .zero .one)).eval .bare = .ok (.list intItems) ∧
      (withLetter (.float .zero floatOne)).eval .bare = .ok (.list floatItems) ∧
      (float .zero floatOne).eval .bare = .ok (.float floatOne) ∧
      .missing ∉ intItems ∧ Operand.float floatOne ≠ .missing) ∧
    TellsWhether .bare (binary .zero .eq (withLetter (.int .zero .one)) (withLetter (.float .zero floatOne)))
      (intItems.length = floatItems.length ∧ ∀ i (hi : i < intItems.length) (hi' : i < floatItems.length),
        Equates (intItems.get ⟨i, hi⟩) (floatItems.get ⟨i, hi'⟩) ∧
          Akin (intItems.get ⟨i, hi⟩) (floatItems.get ⟨i, hi'⟩)) ∧
    TellsWhether .bare (call .zero "contains" ([withLetter (.int .zero .one), .float .zero floatOne].map argument))
      (∃ i, ∃ hi : i < intItems.length, Equates (.list [intItems[i]]) (.list [.float floatOne]) ∨
        Equates intItems[i] (.float floatOne) ∧ ¬ Akin intItems[i] (.float floatOne)) := by
  have hpresent : Operand.missing ∉ intItems := by simp [intItems]
  have hfloat : Operand.float floatOne ≠ .missing := by rintro ⟨⟩
  exact ⟨⟨rfl, rfl, rfl, hpresent, hfloat⟩, lists_equal_iff rfl rfl rfl hpresent hfloat .zero⟩

/-- The numbers `1` and `1.0` are equal, and the lists of them are not; in the list of the one the other is found. -/
theorem equal_items_in_different_lists :
    (binary .zero .eq (.int .zero .one) (.float .zero floatOne)).eval .bare = .ok (.bool true) ∧
      (binary .zero .eq (list .zero [.int .zero .one]) (list .zero [.float .zero floatOne])).eval .bare =
        .ok (.bool false) ∧
      (findIn (.int .zero .one) (.float .zero floatOne)).eval .bare = .ok (.bool true) := by
  have hequal : (Operand.int .one).equal (.float floatOne) = true := by decide +kernel
  have hone : Operand.int .one ≠ .missing := by rintro ⟨⟩
  have hfloat : Operand.float floatOne ≠ .missing := by rintro ⟨⟩
  refine ⟨?_, rfl, ?_⟩
  · rw [eval_eq_of_ok rfl rfl hone hfloat, hequal]
  · rw [findIn, eval_contains rfl rfl hfloat, List.any_cons, hequal]
    rfl

end Expr

end TypedData
