import TypedData.Proofs.Reading.Making

/-!
# How high trees are

The height of a tree is the number of nodes on its longest path from the root.  A parser that has some levels
left makes no tree that is higher than these levels, but for three exceptions:

* a bare name as an argument of a type takes no level, so a type may be one node higher;
* an item after a dash that is a record takes no level, so data may be almost twice as high;
* the operators and fields after an operand take the levels that the operand did not use for operators, but
  it may have used all of them between its own brackets.  So the height of an expression is bounded by
  `Expr.heightWithin`, the sum of all numbers of levels.

Without these a tree is as high as `maxNesting` at most (`Document.height_of_read`).
-/

namespace TypedData

variable {M : Material}

/-! ## Types -/

namespace TypeExpr

mutual

/-- The number of nodes on the longest path from the root. -/
def height : TypeExpr → Nat
  | named _ _ args => heightOfArgs args + 1
  | optional _ inner => inner.height + 1
  | list _ inner => inner.height + 1

/-- The height of the highest argument. -/
def heightOfArgs : List TypeExpr → Nat
  | [] => 0
  | t :: ts => max t.height (heightOfArgs ts)

end

mutual

/-- Whether an argument in the type is a bare name. -/
def hasBareArgument : TypeExpr → Bool
  | named _ _ args => anyBareArgument args
  | optional _ inner => inner.hasBareArgument
  | list _ inner => inner.hasBareArgument

/-- Whether one of the arguments, or an argument in one of them, is a bare name. -/
def anyBareArgument : List TypeExpr → Bool
  | [] => false
  | t :: ts => t.isAtomic || t.hasBareArgument || anyBareArgument ts

end

/-- Arguments are as high as the highest of them. -/
theorem heightOfArgs_le_iff {ts : List TypeExpr} {n : Nat} :
    heightOfArgs ts ≤ n ↔ ∀ t ∈ ts, t.height ≤ n := by
  induction ts with
  | nil => simp [heightOfArgs]
  | cons t ts ih => rw [heightOfArgs, Nat.max_le, ih, List.forall_mem_cons]

/-- No argument is bare in arguments if none of them is, and none has one inside. -/
theorem anyBareArgument_eq_false_iff {ts : List TypeExpr} : anyBareArgument ts = false ↔
    ∀ t ∈ ts, t.isAtomic = false ∧ t.hasBareArgument = false := by
  induction ts with
  | nil => simp [anyBareArgument]
  | cons t ts ih => rw [anyBareArgument, Bool.or_eq_false_iff, Bool.or_eq_false_iff, ih, List.forall_mem_cons]

/-- A type is one node higher than its levels at most. -/
theorem Made.height_le {argument : Bool} {levels : Nat} {t : TypeExpr} (h : t.Made M argument levels) :
    t.height ≤ levels + 1 := by
  induction h with
  | bare => exact Nat.le_add_left 1 _
  | argument _ ih => exact ih
  | grouped _ ih => exact Nat.le_succ_of_le ih
  | named _ _ _ ih => exact Nat.succ_le_succ (heightOfArgs_le_iff.2 ih)
  | optional _ _ ih | list _ _ ih => exact Nat.succ_le_succ ih

/-- A type without bare names as arguments is as high as its levels at most. -/
theorem Made.height_le_levels {argument : Bool} {levels : Nat} {t : TypeExpr} (h : t.Made M argument levels)
    (hbare : t.hasBareArgument = false) (hargument : argument = true → t.isAtomic = false) :
    t.height ≤ levels := by
  induction h with
  | bare => cases hargument rfl
  | argument _ ih => exact ih hbare (by rintro ⟨⟩)
  | grouped _ ih => exact Nat.le_succ_of_le (ih hbare (by rintro ⟨⟩))
  | named _ _ _ ih =>
    have hargs := anyBareArgument_eq_false_iff.1 hbare
    exact Nat.succ_le_succ (heightOfArgs_le_iff.2 fun t ht => ih t ht (hargs t ht).2 fun _ => (hargs t ht).1)
  | optional _ _ ih | list _ _ ih => exact Nat.succ_le_succ (ih hbare (by rintro ⟨⟩))

end TypeExpr

/-! ## Expressions -/

namespace Expr

mutual

/-- The number of nodes on the longest path from the root. -/
def height : Expr → Nat
  | int .. | float .. | str .. | bool .. | null .. | name .. => 1
  | list _ items => heightOfItems items + 1
  | field _ base _ => base.height + 1
  | call _ _ args => heightOfArguments args + 1
  | unary _ _ operand => operand.height + 1
  | binary _ _ lhs rhs => max lhs.height rhs.height + 1

/-- The height of the highest item. -/
def heightOfItems : List Expr → Nat
  | [] => 0
  | e :: es => max e.height (heightOfItems es)

/-- The height of the highest argument. -/
def heightOfArguments : List (Argument Expr) → Nat
  | [] => 0
  | ⟨_, e⟩ :: args => max e.height (heightOfArguments args)

end

mutual

/-- Whether everything that an operator or a field follows is a single node. -/
def isFlat : Expr → Bool
  | int .. | float .. | str .. | bool .. | null .. | name .. => true
  | list _ items => areFlatItems items
  | field _ base _ => base.height == 1
  | call _ _ args => areFlatArguments args
  | unary _ _ operand => operand.isFlat
  | binary _ _ lhs rhs => lhs.height == 1 && rhs.isFlat

/-- Whether all items are flat. -/
def areFlatItems : List Expr → Bool
  | [] => true
  | e :: es => e.isFlat && areFlatItems es

/-- Whether all arguments are flat. -/
def areFlatArguments : List (Argument Expr) → Bool
  | [] => true
  | ⟨_, e⟩ :: args => e.isFlat && areFlatArguments args

end

/-- Items are as high as the highest of them. -/
theorem heightOfItems_le_iff {es : List Expr} {n : Nat} : heightOfItems es ≤ n ↔ ∀ e ∈ es, e.height ≤ n := by
  induction es with
  | nil => simp [heightOfItems]
  | cons e es ih => rw [heightOfItems, Nat.max_le, ih, List.forall_mem_cons]

/-- Arguments are as high as the highest of their values. -/
theorem heightOfArguments_le_iff {args : List (Argument Expr)} {n : Nat} :
    heightOfArguments args ≤ n ↔ ∀ arg ∈ args, arg.value.height ≤ n := by
  induction args with
  | nil => simp [heightOfArguments]
  | cons arg args ih => rw [heightOfArguments, Nat.max_le, ih, List.forall_mem_cons]

/-- Items are flat if each of them is. -/
theorem areFlatItems_iff {es : List Expr} : areFlatItems es = true ↔ ∀ e ∈ es, e.isFlat = true := by
  induction es with
  | nil => simp [areFlatItems]
  | cons e es ih => rw [areFlatItems, Bool.and_eq_true, ih, List.forall_mem_cons]

/-- Arguments are flat if each of their values is. -/
theorem areFlatArguments_iff {args : List (Argument Expr)} :
    areFlatArguments args = true ↔ ∀ arg ∈ args, arg.value.isFlat = true := by
  induction args with
  | nil => simp [areFlatArguments]
  | cons arg args ih => rw [areFlatArguments, Bool.and_eq_true, ih, List.forall_mem_cons]

/-- How high an expression within some levels can be: each level adds the operators that it has room for. -/
def heightWithin : (levels : Nat) → Nat
  | 0 => 0
  | levels + 1 => heightWithin levels + (levels + 1)

/-- More levels allow for more height. -/
theorem heightWithin_mono {m n : Nat} (h : m ≤ n) : heightWithin m ≤ heightWithin n := by
  induction h with
  | refl => exact Nat.le_refl _
  | step _ ih => exact Nat.le_trans ih (Nat.le_add_right _ _)

/-- The height that levels allow for grows by one level more each time. -/
theorem heightWithin_eq (levels : Nat) : heightWithin levels = levels * (levels + 1) / 2 := by
  have htwice : heightWithin levels * 2 = levels * (levels + 1) := by
    induction levels with
    | zero => rfl
    | succ levels ih =>
      rw [heightWithin, Nat.add_mul, ih, Nat.mul_comm levels, ← Nat.mul_add]
  rw [← htwice, Nat.mul_div_cancel _ Nat.two_pos]

/-- There is a level left within those that are allowed for. -/
theorem Made.left_lt {levels left : Nat} {e : Expr} (h : e.Made M levels left) : left < levels := by
  induction h with
  | field _ _ _ ih | less _ ih => exact Nat.lt_of_succ_lt ih
  | binary _ _ _ ih _ => exact Nat.lt_of_succ_lt ih
  | _ => exact Nat.lt_succ_self _

/-- What is left of the levels of an expression could make it so much higher. -/
theorem Made.height_add_left_le {levels left : Nat} {e : Expr} (h : e.Made M levels left) :
    e.height + left ≤ heightWithin levels := by
  induction h with
  | list _ _ ih =>
    have := heightOfItems_le_iff.2 ih
    rw [height, heightWithin]
    omega
  | call _ _ _ _ ih =>
    have := heightOfArguments_le_iff.2 ih
    rw [height, heightWithin]
    omega
  | unary _ _ ih =>
    rw [height, heightWithin]
    omega
  | grouped _ ih =>
    rw [heightWithin]
    omega
  | field _ _ _ ih =>
    rw [height]
    omega
  | @binary levels left _ _ _ _ _ hlhs _ ihl ihr =>
    have hwithin : heightWithin left + (left + 1) ≤ heightWithin levels :=
      heightWithin_mono (Nat.le_of_lt hlhs.left_lt)
    rw [height]
    omega
  | less _ ih => omega
  | _ =>
    rw [height, heightWithin]
    omega

/-- A flat expression is as high as its levels at most. -/
theorem Made.height_le_levels {levels left : Nat} {e : Expr} (h : e.Made M levels left) (hflat : e.isFlat = true) :
    e.height ≤ levels := by
  induction h with
  | list _ _ ih =>
    have hitems := areFlatItems_iff.1 hflat
    exact Nat.succ_le_succ (heightOfItems_le_iff.2 fun e he => ih e he (hitems e he))
  | call _ _ _ _ ih =>
    have hargs := areFlatArguments_iff.1 hflat
    exact Nat.succ_le_succ (heightOfArguments_le_iff.2 fun arg harg => ih arg harg (hargs arg harg))
  | unary _ _ ih => exact Nat.succ_le_succ (ih hflat)
  | grouped _ ih => exact Nat.le_succ_of_le (ih hflat)
  | field _ _ hbase _ =>
    have hheight := beq_iff_eq.1 hflat
    have hleft := hbase.left_lt
    rw [height]
    omega
  | binary _ hlhs _ _ ihr =>
    obtain ⟨hheight, hrhs⟩ := Bool.and_eq_true_iff.1 hflat
    have hheight := beq_iff_eq.1 hheight
    have hleft := hlhs.left_lt
    have := ihr hrhs
    rw [height]
    omega
  | less _ ih => exact ih hflat
  | _ => exact Nat.succ_le_succ (Nat.zero_le _)

end Expr

/-! ## Data -/

namespace Data

mutual

/-- The number of nodes on the longest path from the root. -/
def height : Data → Nat
  | str .. | int .. | float .. | bool .. | null .. | reference .. => 1
  | list _ items | listBlock _ _ items | dashList _ items => heightOfItems items + 1
  | call _ _ args => heightOfArguments args + 1
  | record _ entries | ctorBlock _ _ entries | fieldBlock _ entries | dashRecord _ entries =>
    heightOfEntries entries + 1

/-- The height of the highest item. -/
def heightOfItems : List Data → Nat
  | [] => 0
  | d :: ds => max d.height (heightOfItems ds)

/-- The height of the highest argument. -/
def heightOfArguments : List (Argument Data) → Nat
  | [] => 0
  | ⟨_, d⟩ :: args => max d.height (heightOfArguments args)

/-- The height of the highest value of an entry. -/
def heightOfEntries : List (Entry Data) → Nat
  | [] => 0
  | ⟨_, _, d⟩ :: entries => max d.height (heightOfEntries entries)

end

mutual

/-- Whether an item after a dash is a record. -/
def hasDashRecord : Data → Bool
  | str .. | int .. | float .. | bool .. | null .. | reference .. => false
  | list _ items | listBlock _ _ items | dashList _ items => anyDashRecordInItems items
  | call _ _ args => anyDashRecordInArguments args
  | record _ entries | ctorBlock _ _ entries | fieldBlock _ entries => anyDashRecordInEntries entries
  | dashRecord .. => true

/-- Whether there is such an item in one of the items. -/
def anyDashRecordInItems : List Data → Bool
  | [] => false
  | d :: ds => d.hasDashRecord || anyDashRecordInItems ds

/-- Whether there is such an item in one of the arguments. -/
def anyDashRecordInArguments : List (Argument Data) → Bool
  | [] => false
  | ⟨_, d⟩ :: args => d.hasDashRecord || anyDashRecordInArguments args

/-- Whether there is such an item in the value of one of the entries. -/
def anyDashRecordInEntries : List (Entry Data) → Bool
  | [] => false
  | ⟨_, _, d⟩ :: entries => d.hasDashRecord || anyDashRecordInEntries entries

end

/-- Items are as high as the highest of them. -/
theorem heightOfItems_le_iff {ds : List Data} {n : Nat} : heightOfItems ds ≤ n ↔ ∀ d ∈ ds, d.height ≤ n := by
  induction ds with
  | nil => simp [heightOfItems]
  | cons d ds ih => rw [heightOfItems, Nat.max_le, ih, List.forall_mem_cons]

/-- Arguments are as high as the highest of their values. -/
theorem heightOfArguments_le_iff {args : List (Argument Data)} {n : Nat} :
    heightOfArguments args ≤ n ↔ ∀ arg ∈ args, arg.value.height ≤ n := by
  induction args with
  | nil => simp [heightOfArguments]
  | cons arg args ih => rw [heightOfArguments, Nat.max_le, ih, List.forall_mem_cons]

/-- Entries are as high as the highest of their values. -/
theorem heightOfEntries_le_iff {entries : List (Entry Data)} {n : Nat} :
    heightOfEntries entries ≤ n ↔ ∀ e ∈ entries, e.value.height ≤ n := by
  induction entries with
  | nil => simp [heightOfEntries]
  | cons e entries ih => rw [heightOfEntries, Nat.max_le, ih, List.forall_mem_cons]

/-- No dash record is in items if none is in any of them. -/
theorem anyDashRecordInItems_eq_false_iff {ds : List Data} :
    anyDashRecordInItems ds = false ↔ ∀ d ∈ ds, d.hasDashRecord = false := by
  induction ds with
  | nil => simp [anyDashRecordInItems]
  | cons d ds ih => rw [anyDashRecordInItems, Bool.or_eq_false_iff, ih, List.forall_mem_cons]

/-- No dash record is in arguments if none is in any of their values. -/
theorem anyDashRecordInArguments_eq_false_iff {args : List (Argument Data)} :
    anyDashRecordInArguments args = false ↔ ∀ arg ∈ args, arg.value.hasDashRecord = false := by
  induction args with
  | nil => simp [anyDashRecordInArguments]
  | cons arg args ih => rw [anyDashRecordInArguments, Bool.or_eq_false_iff, ih, List.forall_mem_cons]

/-- No dash record is in entries if none is in any of their values. -/
theorem anyDashRecordInEntries_eq_false_iff {entries : List (Entry Data)} :
    anyDashRecordInEntries entries = false ↔ ∀ e ∈ entries, e.value.hasDashRecord = false := by
  induction entries with
  | nil => simp [anyDashRecordInEntries]
  | cons e entries ih => rw [anyDashRecordInEntries, Bool.or_eq_false_iff, ih, List.forall_mem_cons]

/-- Data is less than twice as high as its levels; only an item after a dash may be that high. -/
theorem Made.height_lt {item : Bool} {levels : Nat} {d : Data} (h : d.Made M item levels) :
    d.height < 2 * levels + item.toNat := by
  induction h with
  | list _ _ ih =>
    have := heightOfItems_le_iff.2 fun d hd => Nat.le_of_lt (ih d hd)
    simp only [height, Bool.toNat_false] at this ⊢
    omega
  | listBlock _ _ _ ih | dashList _ _ ih =>
    have := heightOfItems_le_iff.2 fun d hd => Nat.le_of_lt_succ (ih d hd)
    simp only [height, Bool.toNat_false]
    omega
  | call _ _ _ _ ih =>
    have := heightOfArguments_le_iff.2 fun arg harg => Nat.le_of_lt (ih arg harg)
    simp only [height, Bool.toNat_false] at this ⊢
    omega
  | record _ _ _ ih | ctorBlock _ _ _ _ ih | fieldBlock _ _ _ ih =>
    have := heightOfEntries_le_iff.2 fun e he => Nat.le_of_lt (ih e he)
    simp only [height, Bool.toNat_false] at this ⊢
    omega
  | @dashRecord levels _ entries _ hne _ _ ih =>
    obtain ⟨first, more, rfl⟩ := List.exists_cons_of_ne_nil hne
    have hfirst := ih first List.mem_cons_self
    have := heightOfEntries_le_iff.2 fun e he => Nat.le_sub_one_of_lt (ih e he)
    simp only [height, Bool.toNat_false, Bool.toNat_true] at hfirst this ⊢
    omega
  | item _ ih => exact Nat.lt_succ_of_lt ih
  | _ =>
    simp only [height, Bool.toNat_false]
    omega

/-- Data without such items is as high as its levels at most. -/
theorem Made.height_le_levels {item : Bool} {levels : Nat} {d : Data} (h : d.Made M item levels)
    (hdash : d.hasDashRecord = false) : d.height ≤ levels := by
  induction h with
  | list _ _ ih | listBlock _ _ _ ih | dashList _ _ ih =>
    have hitems := anyDashRecordInItems_eq_false_iff.1 hdash
    exact Nat.succ_le_succ (heightOfItems_le_iff.2 fun d hd => ih d hd (hitems d hd))
  | call _ _ _ _ ih =>
    have hargs := anyDashRecordInArguments_eq_false_iff.1 hdash
    exact Nat.succ_le_succ (heightOfArguments_le_iff.2 fun arg harg => ih arg harg (hargs arg harg))
  | record _ _ _ ih | ctorBlock _ _ _ _ ih | fieldBlock _ _ _ ih =>
    have hentries := anyDashRecordInEntries_eq_false_iff.1 hdash
    exact Nat.succ_le_succ (heightOfEntries_le_iff.2 fun e he => ih e he (hentries e he))
  | dashRecord => cases hdash
  | item _ ih => exact ih hdash
  | _ => exact Nat.succ_le_succ (Nat.zero_le _)

end Data

/-! ## Documents -/

/-- Tokens of any kind, at any places. -/
def Material.any : Material := .ofKinds (fun _ => True) trivial

/-- Whatever is made of any material is made of tokens. -/
theorem lexical_any : Lexical .any := ⟨trivial, trivial, trivial, fun _ _ _ _ => .trivial _⟩

/-- **What the limit on nesting says about trees.**  A type in a document that is read is one node higher than
the limit at most, and as high as it at most if no argument of a type is a bare name.  An expression is as high
as all levels together at most, and as high as the limit if operators and fields follow single nodes only.
Data is less than twice as high as the limit, and as high as it at most if no item after a dash is a record. -/
theorem Document.height_of_read {source : String} {d : Document} (h : read source = .ok d) :
    ∀ item ∈ d.items,
      (∀ t ∈ item.typeExprs, t.height ≤ maxNesting + 1 ∧
        (t.hasBareArgument = false → t.height ≤ maxNesting)) ∧
      (∀ e ∈ item.exprs, e.height ≤ maxNesting * (maxNesting + 1) / 2 ∧
        (e.isFlat = true → e.height ≤ maxNesting)) ∧
      (∀ v ∈ item.data, v.height < 2 * maxNesting ∧
        (v.hasDashRecord = false → v.height ≤ maxNesting)) := by
  have hmade : d.Made .any := (ends_read lexical_any fun _ _ => trivial).yields d h
  intro item hitem
  have hitem := hmade item hitem
  refine ⟨fun t ht => ?_, fun e he => ?_, fun v hv => ?_⟩
  · have ht := hitem.typeExprs ht
    exact ⟨ht.height_le, fun hbare => ht.height_le_levels hbare (by rintro ⟨⟩)⟩
  · have he := hitem.exprs he
    exact ⟨Expr.heightWithin_eq maxNesting ▸ he.height_add_left_le, he.height_le_levels⟩
  · have hv := hitem.data hv
    exact ⟨hv.height_lt, hv.height_le_levels⟩

/-- A text over and over again. -/
def repeated (n : Nat) (text : String) : List Char := (List.replicate n text.toList).flatten

/-- A type with as many words in front of it as there are levels but one, and a bare name as its argument. -/
def highType : List Char :=
  "type t a = t \x7bx: ".toList ++ repeated (maxNesting - 1) "list " ++ "t a\x7d\n".toList

/-- Fields of fields, of which the first half is in parentheses. -/
def highCondition : List Char :=
  "type t = t \x7ba: int\x7d where (a".toList ++ repeated (maxNesting / 2) ".a" ++ [')'] ++
    repeated (maxNesting / 2) ".a" ++ ['\n']

/-- An item after a dash that is a record, with as many lists in it as there are levels but one. -/
def highData : List Char :=
  "t:\n    - a: ".toList ++ repeated (maxNesting - 1) "[" ++ repeated (maxNesting - 1) "]" ++ ['\n']

/-- Reads a document from its characters. -/
def Document.readChars (text : List Char) : Except Failure Document := do
  let tokens ← (scanFrom .initial text).mapError Failure.token
  ((Parser.document.run (Cursor.ofTokens tokens)).1).mapError Failure.parse

/-- Reading a text is reading its characters. -/
theorem Document.read_eq_readChars (source : String) : read source = readChars source.toList := rfl

/-- Characters are read as the text of them is. -/
theorem Document.read_ofList (text : List Char) : read (.ofList text) = readChars text := by
  rw [read_eq_readChars, String.toList_ofList]

/-- A text is read as a document with a tree above the limit if a test says so. -/
theorem Document.exists_above_limit {α : Type} {parts : Item → List α} {height : α → Nat} {text : List Char}
    (h : (readChars text).toOption.any
      (fun d => d.items.any fun item => (parts item).any fun x => decide (maxNesting < height x)) = true) :
    ∃ d, read (.ofList text) = .ok d ∧ ∃ item ∈ d.items, ∃ x ∈ parts item, maxNesting < height x := by
  obtain ⟨d, hread, htest⟩ := exists_ok_of_any h
  obtain ⟨item, hitem, htest⟩ := List.any_eq_true.1 htest
  obtain ⟨x, hx, htest⟩ := List.any_eq_true.1 htest
  exact ⟨d, (read_ofList text).trans hread, item, hitem, x, hx, of_decide_eq_true htest⟩

/-- The bound on types is reached, by one with a bare name as an argument. -/
theorem Document.height_of_read_highType : ∃ d, read (.ofList highType) = .ok d ∧
    ∃ item ∈ d.items, ∃ t ∈ item.typeExprs, t.height = maxNesting + 1 ∧ t.hasBareArgument = true := by
  obtain ⟨d, hread, item, hitem, t, ht, habove⟩ : ∃ d, read (.ofList highType) = .ok d ∧
      ∃ item ∈ d.items, ∃ t ∈ item.typeExprs, maxNesting < t.height := exists_above_limit (by decide +kernel)
  obtain ⟨hle, hbare⟩ := (height_of_read hread item hitem).1 t ht
  refine ⟨d, hread, item, hitem, t, ht, Nat.le_antisymm hle habove, (Bool.not_eq_false _).mp fun hnone => ?_⟩
  exact absurd (hbare hnone) (Nat.not_le_of_lt habove)

/-- The limit on nesting does not bound the height of trees: an argument that is a bare name, an item after a
dash that is a record, and what follows an operand in parentheses make trees that are higher. -/
theorem Document.limit_is_passed :
    (∃ d, read (.ofList highType) = .ok d ∧ ∃ item ∈ d.items, ∃ t ∈ item.typeExprs, maxNesting < t.height) ∧
    (∃ d, read (.ofList highCondition) = .ok d ∧ ∃ item ∈ d.items, ∃ e ∈ item.exprs, maxNesting < e.height) ∧
    (∃ d, read (.ofList highData) = .ok d ∧ ∃ item ∈ d.items, ∃ v ∈ item.data, maxNesting < v.height) := by
  refine ⟨exists_above_limit ?_, exists_above_limit ?_, exists_above_limit ?_⟩
  · decide +kernel
  · decide +kernel
  · decide +kernel

end TypedData
