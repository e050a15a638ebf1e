import TypedData.Proofs.Counting.Basic

/-!
# Counting the levels of data

Data opens a level, and so does a block under a key, which is no data on its own.
-/

namespace TypedData

namespace Parser

/-- A key keeps the groups. -/
theorem keepsGroups_key : KeepsGroups key := by
  refine keepsGroups_kind.bind fun kind => ?_
  cases kind with
  | name | string => exact keepsGroups_advance.bind fun _ => .pure _
  | _ => exact keepsGroups_failExpecting _

/-- A reference keeps the groups. -/
theorem keepsGroups_reference : KeepsGroups reference :=
  (keepsGroups_expect _).bind fun _ => (keepsGroups_expectName _).bind fun _ =>
    (keepsGroups_rounds (keepsGroups_accept _) (keepsGroups_expectName _)).bind fun _ => .pure _

/-- Looking for an entry ahead keeps the groups. -/
theorem keepsGroups_isEntryAhead : KeepsGroups isEntryAhead := by
  refine keepsGroups_kind.bind fun kind => ?_
  cases kind with
  | name | string => exact keepsGroups_isAhead _
  | _ => exact .pure _

end Parser

namespace Counting

/-- A key, a colon and a value. -/
def entry (value : Counting Data) : Counting (Entry Data) := do
  let start ← Parser.start
  let key ← Parser.key
  Parser.expect (.mark .colon)
  let value ← value
  return ⟨key, ← Parser.spanFrom start, value⟩

/-- An argument of a constructor, perhaps with its name. -/
def dataArgument (value : Counting Data) : Counting (Argument Data) := do
  let name ← Parser.acceptLabel
  return ⟨name, ← value⟩

/-- Entries, one a line, up to the end of their block.  Their values are read by `value`. -/
def entryLines (value : Counting Data) : Counting (List (Entry Data)) :=
  rounds Parser.moreLines do
    let entry ← entry value
    Parser.endLine
    return entry

/-- An item after a dash: a record with further entries under it, or data. -/
def dashItem (item value : Counting Data) : Counting Data := do
  let start ← Parser.start
  Parser.expect (.mark .minus)
  if ← Parser.isEntryAhead then
    let first ← entry value
    Parser.endLine
    let more ← if ← Parser.accept .indent then entryLines value else pure []
    return .dashRecord (← Parser.spanFrom start) (first :: more)
  else
    let item ← item
    Parser.endLine
    return item

/-- Items after dashes, one a line, up to the end of their block. -/
def dashItems (item value : Counting Data) : Counting (List Data) :=
  rounds Parser.moreLines (dashItem item value)

/-- A block under a key. -/
def block (item value : Counting Data) : Counting Data := do
  let start ← Parser.start
  Parser.advance
  Parser.expect .indent
  if ← Parser.isAt (.mark .minus) then
    let items ← dashItems item value
    return .dashList (← Parser.spanFrom start) items
  else
    let entries ← entryLines value
    return .fieldBlock (← Parser.spanFrom start) entries

/-- What follows the name of a constructor: arguments, a block, or nothing. -/
def constructorForm (start : Nat) (ctor : String) (item value : Counting Data) : Counting Data := do
  if ← Parser.isAhead (.mark .leftParen) then
    Parser.advance
    Parser.expect (.mark .leftParen)
    let args ← separatedUntil .rightParen (dataArgument item)
    return .call (← Parser.spanFrom start) ctor args
  else if (← Parser.isAhead (.mark .colon)) && (← Parser.isFurtherAhead .newline) then
    Parser.advance
    Parser.advance
    Parser.advance
    Parser.expect .indent
    if ← Parser.isAt (.mark .minus) then
      let items ← dashItems item value
      return .listBlock (← Parser.spanFrom start) ctor items
    else
      let entries ← entryLines value
      return .ctorBlock (← Parser.spanFrom start) ctor entries
  else
    Parser.advance
    return .call (← Parser.spanFrom start) ctor []

/-- Data whose parts are read by `item`, or by `value` after a key on a line of a block. -/
def dataForm (item value : Counting Data) : Counting Data := do
  let start ← Parser.start
  match ← Parser.kind with
  | .string template =>
    Parser.advance
    return .str (← Parser.spanFrom start) template.text
  | .int n =>
    Parser.advance
    return .int (← Parser.spanFrom start) n
  | .float x =>
    Parser.advance
    return .float (← Parser.spanFrom start) x
  | .keyword .true =>
    Parser.advance
    return .bool (← Parser.spanFrom start) true
  | .keyword .false =>
    Parser.advance
    return .bool (← Parser.spanFrom start) false
  | .keyword .null =>
    Parser.advance
    return .null (← Parser.spanFrom start)
  | .mark .leftBracket =>
    Parser.advance
    let items ← separatedUntil .rightBracket item
    return .list (← Parser.spanFrom start) items
  | .mark .leftBrace =>
    Parser.advance
    let entries ← separatedUntil .rightBrace (entry item)
    return .record (← Parser.spanFrom start) entries
  | .mark .bang =>
    let (name, path) ← Parser.reference
    return .reference (← Parser.spanFrom start) name path
  | .name ctor => constructorForm start ctor item value
  | _ => Parser.failExpecting .value

mutual

/-- Data in which no more than `fuel` values stand inside one another. -/
def dataUpTo : (fuel : Nat) → Counting Data
  | 0 => Parser.failExpecting .value
  | fuel + 1 => nested (dataForm (dataUpTo fuel) (valueUpTo fuel))

/-- A value after a key on a line of a block. -/
def valueUpTo : (fuel : Nat) → Counting Data
  | 0 => Parser.failExpecting .value
  | fuel + 1 => do
    if ← Parser.isAt .newline then nested (block (dataUpTo fuel) (valueUpTo fuel))
    else nested (dataForm (dataUpTo fuel) (valueUpTo fuel))

end

/-- Data. -/
def data : Counting Data := dataUpTo (maxNesting + 1)

/-! ## Following the parsers of data -/

variable {depth levels fuel : Nat}

section Values

variable {item value : Counting Data} {item' value' : Parser Data}

/-- Counting the levels of an entry follows the entry, if it does so for its value. -/
theorem follows_entry (hvalue : Follows depth 0 value value') :
    Follows depth 0 (entry value) (Parser.entry value') := by
  refine .lift_bind Parser.keepsGroups_start fun start => .lift_bind Parser.keepsGroups_key fun key => ?_
  refine .lift_bind (Parser.keepsGroups_expect _) fun _ => hvalue.bind fun value => ?_
  exact .spanned _ _

/-- Counting the levels of an argument follows the argument, if it does so for its value. -/
theorem follows_dataArgument (hitem : Follows depth 0 item item') :
    Follows depth 0 (dataArgument item) (Parser.dataArgument item') :=
  .lift_bind Parser.keepsGroups_acceptLabel fun _ => hitem.bind fun _ => .pure _

/-- Counting the levels of lines of entries follows them, if it does so for their values. -/
theorem follows_entryLines (hvalue : Follows depth 0 value value') :
    Follows depth 0 (entryLines value) (Parser.entryLines value') := by
  refine follows_rounds Parser.keepsGroups_moreLines ?_
  exact (follows_entry hvalue).bind fun _ => .lift_bind Parser.keepsGroups_endLine fun _ => .pure _

variable (hitem : Follows depth 0 item item') (hvalue : Follows depth 0 value value')

include hitem hvalue

/-- Counting the levels of an item behind a dash follows the item. -/
theorem follows_dashItem : Follows depth 0 (dashItem item value) (Parser.dashItem item' value') := by
  refine .lift_bind Parser.keepsGroups_start fun start => .lift_bind (Parser.keepsGroups_expect _) fun _ => ?_
  refine .lift_bind Parser.keepsGroups_isEntryAhead fun _ => .ite ?_ ?_
  · refine (follows_entry hvalue).bind fun first => .lift_bind Parser.keepsGroups_endLine fun _ => ?_
    refine .lift_bind (Parser.keepsGroups_accept _) fun _ => .ite ?_ ?_
    · refine (follows_entryLines hvalue).bind fun more => ?_
      exact .spanned _ _
    · exact .lift_bind (.pure []) fun _ => .spanned _ _
  · exact hitem.bind fun _ => .lift_bind Parser.keepsGroups_endLine fun _ => .pure _

/-- Counting the levels of items behind dashes follows the items. -/
theorem follows_dashItems : Follows depth 0 (dashItems item value) (Parser.dashItems item' value') :=
  follows_rounds Parser.keepsGroups_moreLines (follows_dashItem hitem hvalue)

/-- Counting the levels of a block follows the block. -/
theorem follows_block : Follows depth 0 (block item value) (Parser.block item' value') := by
  refine .lift_bind Parser.keepsGroups_start fun start => .lift_bind Parser.keepsGroups_advance fun _ => ?_
  refine .lift_bind (Parser.keepsGroups_expect _) fun _ => .lift_bind (Parser.keepsGroups_isAt _) fun _ => .ite ?_ ?_
  · refine (follows_dashItems hitem hvalue).bind fun items => ?_
    exact .spanned _ _
  · refine (follows_entryLines hvalue).bind fun entries => ?_
    exact .spanned _ _

/-- Counting the levels of what a constructor is applied to follows it. -/
theorem follows_constructorForm (start : Nat) (ctor : String) :
    Follows depth 0 (constructorForm start ctor item value) (Parser.constructorForm start ctor item' value') := by
  refine .lift_bind (Parser.keepsGroups_isAhead _) fun _ => .ite ?_ ?_
  · refine .lift_bind Parser.keepsGroups_advance fun _ => .lift_bind (Parser.keepsGroups_expect _) fun _ => ?_
    refine (follows_separatedUntil _ (follows_dataArgument hitem)).bind fun args => ?_
    exact .spanned _ _
  · refine .lift_bind (Parser.keepsGroups_isAhead _) fun _ => ?_
    refine .lift_bind (Parser.keepsGroups_isFurtherAhead _) fun _ => .ite ?_ ?_
    · refine .lift_bind Parser.keepsGroups_advance fun _ => .lift_bind Parser.keepsGroups_advance fun _ => ?_
      refine .lift_bind Parser.keepsGroups_advance fun _ => .lift_bind (Parser.keepsGroups_expect _) fun _ => ?_
      refine .lift_bind (Parser.keepsGroups_isAt _) fun _ => .ite ?_ ?_
      · refine (follows_dashItems hitem hvalue).bind fun items => ?_
        exact .spanned _ _
      · refine (follows_entryLines hvalue).bind fun entries => ?_
        exact .spanned _ _
    · refine .lift_bind Parser.keepsGroups_advance fun _ => ?_
      exact .spanned _ _

/-- Counting the levels of data in one line follows the data. -/
theorem follows_dataForm : Follows depth 0 (dataForm item value) (Parser.dataForm item' value') := by
  refine .lift_bind Parser.keepsGroups_start fun start => .lift_bind Parser.keepsGroups_kind fun kind => ?_
  cases kind with
  | int | float | string => exact .token start _
  | name ctor => exact follows_constructorForm hitem hvalue start ctor
  | keyword word =>
    cases word with
    | true | false | null => exact .token start _
    | _ => exact .lift (Parser.keepsGroups_failExpecting _)
  | mark mark =>
    cases mark with
    | leftBracket =>
      refine .lift_bind Parser.keepsGroups_advance fun _ => (follows_separatedUntil _ hitem).bind fun items => ?_
      exact .spanned _ _
    | leftBrace =>
      refine .lift_bind Parser.keepsGroups_advance fun _ => ?_
      refine (follows_separatedUntil _ (follows_entry hitem)).bind fun entries => ?_
      exact .spanned _ _
    | bang =>
      refine .lift_bind Parser.keepsGroups_reference fun found => ?_
      exact .spanned _ _
    | _ => exact .lift (Parser.keepsGroups_failExpecting _)
  | _ => exact .lift (Parser.keepsGroups_failExpecting _)

end Values

/-- With the levels that are left at a depth, the counter has run out where they have. -/
theorem follows_dataUpTo_and_valueUpTo (hlevels : depth + levels = maxNesting) (hfuel : levels < fuel) :
    Follows depth 0 (dataUpTo fuel) (Parser.dataWithin levels) ∧
      Follows depth 0 (valueUpTo fuel) (Parser.valueWithin levels) := by
  induction levels generalizing depth fuel with
  | zero =>
    have hdepth : maxNesting ≤ depth := Nat.le_of_eq hlevels.symm
    obtain ⟨fuel, rfl⟩ := Nat.exists_eq_add_one_of_ne_zero (Nat.ne_zero_of_lt hfuel)
    rw [dataUpTo, valueUpTo, Parser.dataWithin, Parser.valueWithin]
    refine ⟨follows_nested_tooDeep hdepth, ?_⟩
    -- whatever the value is, a level is opened
    have hlook : (Parser.isAt .newline >>= fun _ => Parser.failTooDeep) = (Parser.failTooDeep : Parser Data) := rfl
    rw [← hlook]
    refine .lift_bind (Parser.keepsGroups_isAt _) fun found => ?_
    cases found with
    | false => exact follows_nested_tooDeep hdepth
    | true => exact follows_nested_tooDeep hdepth
  | succ levels ih =>
    obtain ⟨fuel, rfl⟩ := Nat.exists_eq_add_one_of_ne_zero (Nat.ne_zero_of_lt hfuel)
    have hdepth : depth < maxNesting := by omega
    have hlevels : depth + 1 + levels = maxNesting := by omega
    obtain ⟨hitem, hvalue⟩ := ih hlevels (Nat.lt_of_succ_lt_succ hfuel)
    rw [dataUpTo, valueUpTo, Parser.dataWithin, Parser.valueWithin]
    have hform := follows_nested hdepth (follows_dataForm hitem hvalue).agrees
    refine ⟨hform, .lift_bind (Parser.keepsGroups_isAt _) fun _ => .ite ?_ hform⟩
    exact follows_nested hdepth (follows_block hitem hvalue).agrees

/-- Counting the levels of data follows the data. -/
theorem follows_data : Follows 0 0 data Parser.data :=
  (follows_dataUpTo_and_valueUpTo (Nat.zero_add _) (Nat.lt_succ_self _)).1

end Counting

end TypedData
