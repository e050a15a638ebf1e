import TypedData.Proofs.Reading.Declarations

/-!
# Documents that are read back

Rules, bindings and values are read from a line each, and what is read from the lines of a document is its canonical
form, at other places (`Document.reads_lines`).
-/

namespace TypedData

open Cursor (At)
open TypedData.Parser

namespace Parser

variable {rest : List TokenKind} {f : Span → Span}

/-! ## Rules, bindings and values -/

/-- Guards are read up to the end of the line, if there are any. -/
theorem reads_guards (hf : ∀ a b, f a = f b) (guards : List Expr) :
    Reads (do if ← accept (.keyword .where) then commaSeparated expr else pure [])
      (At (Glyph.tokens (guardGlyphs guards) ++ .newline :: rest)) (At (.newline :: rest))
      fun guards' => guards'.map (Expr.relocate f) = guards.map fun e => e.reread.relocate f := by
  cases guards with
  | nil =>
    refine (reads_accept_of_ne (by rintro ⟨⟩)).bind_eq ?_
    exact .pure rfl
  | cons e es =>
    have hread : Reads (commaSeparated expr) _ (At (.newline :: rest)) _ :=
      reads_exprs hf (List.cons_ne_nil e es) ⟨by rintro ⟨⟩, by rintro ⟨⟩, rfl⟩ (by rintro ⟨⟩)
    obtain ⟨first, tail, htokens⟩ :=
      Glyph.exists_tokens_eq_cons (Glyph.commas ((e :: es).map Expr.glyphs)) .newline rest
    rw [htokens] at hread
    rw [guardGlyphs, List.isEmpty_cons, if_neg (by decide), Glyph.tokens_space, Glyph.tokens_token, Glyph.tokens_space,
      List.cons_append, htokens]
    refine reads_accept.bind_eq ?_
    exact hread

/-- A rule is read up to the end of its line. -/
theorem reads_ruleDecl (hf : ∀ a b, f a = f b) {rule : RuleDecl}
    (hcall : ∃ span callee args, rule.target = .call span callee args) (rest : List TokenKind) :
    Reads (ruleDecl rule.template) (At (Glyph.tokens rule.glyphs ++ .newline :: rest)) (At (.newline :: rest))
      fun rule' => rule'.relocate f = rule.reread.relocate f := by
  obtain ⟨next, more, htokens, hnext⟩ : ∃ next more,
      Glyph.tokens (guardGlyphs rule.guards) ++ .newline :: rest = next :: more ∧ Delimits next := by
    unfold guardGlyphs
    split <;> exact ⟨_, _, rfl, by rintro ⟨⟩, by rintro ⟨⟩, rfl⟩
  have htarget := (rule.target.reads_glyphs hf).delimited hnext maxNesting more
  obtain ⟨first, tail, hfirst⟩ := Glyph.exists_tokens_eq_cons rule.target.glyphs next more
  rw [hfirst] at htarget
  rw [RuleDecl.glyphs, Glyph.tokens_append, List.append_assoc, htokens, Glyph.tokens_token, Glyph.tokens_space,
    Glyph.tokens_token, Glyph.tokens_space, List.cons_append, List.cons_append, hfirst]
  refine reads_start.bind fun start _ => reads_advance.bind fun _ _ => reads_expect.bind fun _ _ => ?_
  refine reads_kind.bind fun found _ => htarget.bind fun target htarget => ?_
  obtain ⟨span, callee, args, hrule⟩ := hcall
  cases target with
  | call span' callee' args' =>
    rw [← htokens]
    refine (reads_guards hf rule.guards).bind_branches fun guards hguards => ?_
    refine (reads_spanFrom start).bind fun here _ => .pure ?_
    rw [RuleDecl.relocate, RuleDecl.reread, RuleDecl.relocate, htarget, List.map_map, hguards, hf here rule.span]
    rfl
  | _ =>
    rw [hrule] at htarget
    cases htarget

/-- After the name and the type, the value of a binding is read with the sign before it. -/
theorem reads_bindingValue (hf : ∀ a b, f a = f b) (b : Binding) (start : Nat) {type' : Option TypeExpr}
    (htype : type'.map (TypeExpr.relocate f) = b.type.map (TypeExpr.relocate f)) (rest : List TokenKind) :
    Reads (do
        expect (.mark .define)
        let value' ← data
        return ⟨b.name, type', value', ← spanFrom start⟩)
      (At (.mark .define :: (Glyph.tokens b.value.glyphs ++ .newline :: rest))) (At (.newline :: rest))
      fun b' : Binding => b'.relocate f = Binding.relocate f { b with value := b.value.canonical } := by
  have hvalue := (shows_canonical hf b.value).reads maxNesting .newline rest (by rintro ⟨⟩)
  obtain ⟨first, tail, hfirst⟩ := Glyph.exists_tokens_eq_cons b.value.glyphs .newline rest
  rw [hfirst] at hvalue ⊢
  refine reads_expect.bind fun _ _ => hvalue.bind fun value' hvalue =>
    (reads_spanFrom start).bind fun here _ => .pure ?_
  have hvalue : value'.relocate f = b.value.canonical.relocate f := hvalue
  rw [Binding.relocate, Binding.relocate, htype, hvalue, hf here b.span]

/-- A binding is read up to the end of its line. -/
theorem reads_binding (hf : ∀ a b, f a = f b) (b : Binding) (rest : List TokenKind) :
    Reads binding (At (Glyph.tokens b.glyphs ++ .newline :: rest)) (At (.newline :: rest))
      fun b' => b'.relocate f = Binding.relocate f { b with value := b.value.canonical } := by
  obtain ⟨name, type, value, span⟩ := b
  have hdefine : Glyph.tokens (Binding.glyphs ⟨name, type, value, span⟩) ++ .newline :: rest =
      Glyph.tokens (Binding.nameGlyphs ⟨name, type, value, span⟩) ++
        .mark .define :: (Glyph.tokens value.glyphs ++ .newline :: rest) := by
    rw [Binding.glyphs, Glyph.tokens_append, List.append_assoc]
    rfl
  rw [hdefine]
  cases type with
  | none =>
    refine reads_start.bind fun start _ => (reads_expectName _).bind_eq ?_
    refine (reads_accept_of_ne (by rintro ⟨⟩)).bind_eq ?_
    exact Reads.bind_eq (x := none) (.pure rfl) (reads_bindingValue hf _ start rfl rest)
  | some type =>
    have htype := type.reads_glyphs hf maxNesting (.mark .define) (Glyph.tokens value.glyphs ++ .newline :: rest)
      ⟨by rintro name ⟨⟩, by rintro ⟨⟩⟩
    obtain ⟨first, tail, hfirst⟩ :=
      Glyph.exists_tokens_eq_cons type.glyphs (.mark .define) (Glyph.tokens value.glyphs ++ .newline :: rest)
    have hname : Glyph.tokens (Binding.nameGlyphs ⟨name, some type, value, span⟩) ++
        .mark .define :: (Glyph.tokens value.glyphs ++ .newline :: rest) =
          .name name :: .mark .colon :: first :: tail := by
      rw [← hfirst]
      rfl
    rw [hfirst] at htype
    rw [hname]
    refine reads_start.bind fun start _ => (reads_expectName _).bind_eq (reads_accept.bind_eq ?_)
    have hsome := htype.map (f := some) (Q := fun type' => type'.map (TypeExpr.relocate f) = some (type.relocate f))
      fun type' htype => congrArg some htype
    exact hsome.bind fun type' htype => reads_bindingValue hf ⟨name, some type, value, span⟩ start htype rest

/-! ## Items -/

/-- Data is read as a value up to the end of its line. -/
theorem reads_value (hf : ∀ a b, f a = f b) (d : Data) (rest : List TokenKind) :
    Reads item (At (Glyph.tokens d.glyphs ++ .newline :: rest)) (At (.newline :: rest))
      fun item' => item'.relocate f = (Item.value d).canonical.relocate f := by
  have hvalue : Reads (.value <$> data) (At (Glyph.tokens d.glyphs ++ .newline :: rest)) (At (.newline :: rest))
      fun item' : Item => item'.relocate f = (Item.value d).canonical.relocate f :=
    ((shows_canonical hf d).reads maxNesting .newline rest (by rintro ⟨⟩)).map fun d' hd => congrArg Item.value hd
  cases d with
  | str span text =>
    refine reads_kind.bind_eq ?_
    refine (reads_isAhead_of_ne (by rintro ⟨⟩)).bind_eq ?_
    exact hvalue
  | call span ctor | ctorBlock span ctor | listBlock span ctor =>
    refine reads_kind.bind_eq ?_
    refine (reads_isAhead_of_ne (by rintro ⟨⟩)).bind_eq ?_
    refine (reads_isAhead_of_ne (by rintro ⟨⟩)).bind_eq ?_
    exact Reads.glance.bind fun _ _ => hvalue
  | bool span b =>
    refine reads_kind.bind_eq ?_
    cases b <;> exact hvalue
  | _ =>
    refine reads_kind.bind_eq ?_
    exact hvalue

/-- A binding is read as one, whether it has a type or not. -/
theorem reads_bindingItem (hf : ∀ a b, f a = f b) (b : Binding) (rest : List TokenKind) :
    Reads item (At (Glyph.tokens b.glyphs ++ .newline :: rest)) (At (.newline :: rest))
      fun item' => item'.relocate f = (Item.binding b).canonical.relocate f := by
  have hbinding : Reads (.binding <$> binding) (At (Glyph.tokens b.glyphs ++ .newline :: rest)) (At (.newline :: rest))
      fun item' : Item => item'.relocate f = (Item.binding b).canonical.relocate f :=
    (reads_binding hf b rest).map fun b' hb => congrArg Item.binding hb
  obtain ⟨name, type, value, span⟩ := b
  cases type with
  | none =>
    refine reads_kind.bind_eq ?_
    refine reads_isAhead_self.bind_eq ?_
    exact hbinding
  | some type =>
    obtain ⟨kind, kinds, hkinds, hkind⟩ := type.opens_glyphs.exists_tokens
    obtain ⟨more, hmore⟩ : ∃ more, Glyph.tokens (Binding.glyphs ⟨name, some type, value, span⟩) ++ .newline :: rest =
        .name name :: .mark .colon :: kind :: more := by
      rw [Binding.glyphs, Binding.nameGlyphs]
      dsimp only
      rw [Glyph.tokens_append, Glyph.tokens_append, hkinds]
      exact ⟨_, rfl⟩
    rw [hmore] at hbinding ⊢
    refine reads_kind.bind_eq ?_
    refine (reads_isAhead_of_ne (by rintro ⟨⟩)).bind_eq ?_
    refine reads_isAhead_self.bind_eq ?_
    exact (reads_isFurtherAhead_of_ne hkind).bind_eq hbinding

/-- A rule is read as one. -/
theorem reads_ruleItem (hf : ∀ a b, f a = f b) {rule : RuleDecl}
    (hcall : ∃ span callee args, rule.target = .call span callee args) (rest : List TokenKind) :
    Reads item (At (Glyph.tokens rule.glyphs ++ .newline :: rest)) (At (.newline :: rest))
      fun item' => item'.relocate f = (Item.rule rule).canonical.reread.relocate f := by
  refine reads_kind.bind_eq ?_
  refine reads_isAhead_self.bind_eq ?_
  exact (reads_ruleDecl hf hcall rest).map fun rule' hrule => congrArg Item.rule hrule

end Parser

/-! ## Documents -/

namespace Item

/-- Every item starts with a line that is not indented, and with a token that does not go on with the item before. -/
theorem exists_lines (item : Item) : ∃ kind gs more, item.lines = ⟨false, .token kind :: gs⟩ :: more ∧
    kind ≠ .newline ∧ kind ≠ .keyword .where ∧ kind ≠ .eof := by
  cases item with
  | type decl => exact ⟨_, _, _, rfl, by rintro ⟨⟩, by rintro ⟨⟩, by rintro ⟨⟩⟩
  | rule decl => exact ⟨_, _, _, rfl, by rintro ⟨⟩, by rintro ⟨⟩, by rintro ⟨⟩⟩
  | binding b =>
    obtain ⟨name, type, value, span⟩ := b
    cases type <;> exact ⟨_, _, _, rfl, by rintro ⟨⟩, by rintro ⟨⟩, by rintro ⟨⟩⟩
  | value d =>
    cases d with
    | bool span b => cases b <;> exact ⟨_, _, _, rfl, by rintro ⟨⟩, by rintro ⟨⟩, by rintro ⟨⟩⟩
    | _ => exact ⟨_, _, _, rfl, by rintro ⟨⟩, by rintro ⟨⟩, by rintro ⟨⟩⟩

end Item

/-- The tokens of the lines of items. -/
def Item.tokens (items : List Item) : List TokenKind := Line.tokens false (items.flatMap Item.lines)

/-- After an indented line, the block ends before the next item. -/
theorem Item.tokens_after_block (items : List Item) :
    Line.tokens true (items.flatMap Item.lines) = .dedent :: Item.tokens items := by
  cases items with
  | nil => rfl
  | cons item items =>
    obtain ⟨kind, gs, more, hlines, -⟩ := item.exists_lines
    rw [Item.tokens, List.flatMap_cons, hlines]
    rfl

/-- The tokens of a block in a document are those of its lines, and those of the items behind it. -/
theorem tokens_block (items : List Item) (parts : List (CtorDecl ⊕ WhereClause)) :
    Line.tokens true (parts.map (fun part => ⟨true, TypeDecl.lineGlyphs part⟩) ++ items.flatMap Item.lines) =
      Parser.blockTokens (Item.tokens items) parts := by
  induction parts with
  | nil => exact Item.tokens_after_block items
  | cons part parts ih =>
    rw [Parser.blockTokens_cons, ← ih]
    rfl

/-- The tokens of a type are its header and its block, and those of the items behind it. -/
theorem tokens_type {decl : TypeDecl} (hctors : decl.ctors ≠ []) (items : List Item) :
    Item.tokens (.type decl :: items) = Glyph.tokens decl.header ++ .newline :: .indent ::
      Parser.blockTokens (Item.tokens items) decl.block := by
  obtain ⟨part, parts, hblock⟩ : ∃ part parts, decl.block = part :: parts :=
    List.exists_cons_of_ne_nil (List.append_ne_nil_of_left_ne_nil (mt List.map_eq_nil_iff.1 hctors) _)
  rw [← tokens_block, hblock, Item.tokens, List.flatMap_cons, Item.lines, TypeDecl.lines, hblock]
  rfl

/-- The tokens of an item in one line are those of the line, and those of the items behind it. -/
theorem tokens_line {item : Item} {gs : List Glyph} (hlines : item.lines = [⟨false, gs⟩]) (items : List Item) :
    Item.tokens (item :: items) = Glyph.tokens gs ++ .newline :: Item.tokens items := by
  rw [Item.tokens, List.flatMap_cons, hlines]
  rfl

/-- The tokens of items go on with nothing. -/
theorem Item.exists_tokens (items : List Item) : ∃ next rest, Item.tokens items = next :: rest ∧ next ≠ .newline ∧
    next ≠ .keyword .where ∧ (items ≠ [] → next ≠ .eof) := by
  cases items with
  | nil => exact ⟨_, _, rfl, by rintro ⟨⟩, by rintro ⟨⟩, fun h => absurd rfl h⟩
  | cons item items =>
    obtain ⟨kind, gs, more, hlines, hnewline, hwhere, heof⟩ := item.exists_lines
    rw [Item.tokens, List.flatMap_cons, hlines]
    exact ⟨kind, _, rfl, hnewline, hwhere, fun _ => heof⟩

/-- There are no more lines than tokens. -/
theorem Line.length_le_tokens (before : Bool) (lines : List Line) :
    lines.length ≤ (Line.tokens before lines).length := by
  induction lines generalizing before with
  | nil => exact Nat.zero_le _
  | cons line lines ih =>
    have hlines := ih line.indented
    simp only [Line.tokens, List.length_append, List.length_cons]
    omega

/-- There are no more items than tokens. -/
theorem Item.length_le_tokens (items : List Item) : items.length ≤ (Item.tokens items).length := by
  refine Nat.le_trans ?_ (Line.length_le_tokens false _)
  induction items with
  | nil => exact Nat.zero_le _
  | cons item items ih =>
    obtain ⟨kind, gs, more, hlines, -⟩ := item.exists_lines
    rw [List.flatMap_cons, hlines, List.cons_append, List.length_cons, List.length_cons, List.length_append]
    omega

/-- An item is read with the end of its last line. -/
theorem reads_itemLines {f : Span → Span} (hf : ∀ a b, f a = f b) {M : Material} {i : Item} (h : i.Made M)
    (items : List Item) : Reads (do
        let item ← item
        endLine
        return item) (At (Item.tokens (i :: items))) (At (Item.tokens items))
      fun item' => item'.relocate f = i.canonical.reread.relocate f := by
  obtain ⟨next, rest, hitems, hnewline, hwhere, -⟩ := Item.exists_tokens items
  cases i with
  | type decl =>
    have hdecl : decl.Made M := h
    have hclauses : ∀ clause ∈ decl.canonical.clauses, clause.conditions ≠ [] := fun _ hclause =>
      (hdecl.clause hclause).ne_nil
    rw [tokens_type hdecl.ne_nil, hitems]
    have hitem : Reads item
        (At (Glyph.tokens decl.header ++ .newline :: .indent :: blockTokens (next :: rest) decl.block))
        (AtAfter .dedent (next :: rest))
        fun item' => item'.relocate f = (Item.type decl).canonical.reread.relocate f := by
      refine reads_kind.bind_eq ?_
      exact (reads_typeDecl hf hdecl.ne_nil hclauses hnewline hwhere).map fun decl' hdecl => congrArg Item.type hdecl
    exact hitem.bind fun item' hitem => (reads_endLine_of_dedent hnewline).bind fun _ _ => .pure hitem
  | rule rule =>
    have hrule : rule.Made M := h
    rw [tokens_line rfl, hitems]
    exact (reads_ruleItem hf hrule.isCall _).bind fun item' hitem => reads_endLine.bind fun _ _ => .pure hitem
  | binding b =>
    rw [tokens_line rfl, hitems]
    exact (reads_bindingItem hf b _).bind fun item' hitem => reads_endLine.bind fun _ _ => .pure hitem
  | value d =>
    rw [tokens_line rfl, hitems]
    exact (reads_value hf d _).bind fun item' hitem => reads_endLine.bind fun _ _ => .pure hitem

/-- **From the lines of a document its canonical form is read,** at other places.  A sign before a digit in it belongs
to the number then. -/
theorem Document.reads_lines {f : Span → Span} (hf : ∀ a b, f a = f b) {M : Material} {d : Document} (h : d.Made M) :
    Reads document (At (Line.tokens false d.lines)) (At [.eof])
      fun d' => d'.relocate f = d.canonical.reread.relocate f := by
  have hmore : ∀ i items,
      Reads moreItems (At (Item.tokens (i :: items))) (At (Item.tokens (i :: items))) (· = true) := by
    intro i items
    obtain ⟨next, rest, hitems, hnewline, -, heof⟩ := Item.exists_tokens (i :: items)
    rw [hitems]
    refine (reads_skipNewlines hnewline).bind fun _ _ =>
      (reads_isAt_of_ne (heof (List.cons_ne_nil _ _))).bind_eq (.pure rfl)
  have hend : Reads moreItems (At (Item.tokens [])) (At [.eof]) (· = false) := by
    refine (reads_skipNewlines (by rintro ⟨⟩)).bind fun _ _ => reads_isAt_self.bind_eq (.pure rfl)
  have hround : ∀ i items, i :: items <:+ d.items → ∃ A, Reads moreItems (At (Item.tokens (i :: items))) A (· = true) ∧
      Reads (do
        let item ← item
        endLine
        return item) A (At (Item.tokens items)) fun item' => item'.relocate f = i.canonical.reread.relocate f :=
    fun i items hi => ⟨_, hmore i items, reads_itemLines hf (h i (hi.subset List.mem_cons_self)) items⟩
  refine (reads_rounds hround hend (Item.length_le_tokens d.items)).bind fun items hitems => .pure ?_
  rw [Document.relocate, Document.relocate, Document.reread, Document.canonical, map_eq_of_forall₂ hitems, List.map_map,
    List.map_map]
  rfl

end TypedData
