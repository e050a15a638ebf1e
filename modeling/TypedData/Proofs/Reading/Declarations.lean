import TypedData.Document.Parser.Item
import TypedData.Proofs.Reading.Layout
import TypedData.Proofs.Reading.Operands

/-!
# Declarations that are read back

The declaration of a type is read from its first line and the block under it, with a constructor or a clause in each
line of the block (`Parser.reads_typeDecl`).  What is read is the canonical form, at other places: the conditions
directly after a constructor have become clauses.
-/

namespace TypedData

open Cursor (At)

namespace Parser

variable {α : Type} {next : TokenKind} {rest : List TokenKind}

section Commas

variable {X : Type} {item : Parser α} {gs : X → List Glyph} {P : X → α → Prop}

/-- The tokens of items that all have a comma before them, and of what follows. -/
def afterCommas (gs : X → List Glyph) (after : List TokenKind) (xs : List X) : List TokenKind :=
  xs.flatMap (fun x => .mark .comma :: Glyph.tokens (gs x)) ++ after

/-- Behind a part comes a comma before the next one. -/
theorem afterCommas_cons (after : List TokenKind) (x : X) (xs : List X) :
    afterCommas gs after (x :: xs) = .mark .comma :: (Glyph.tokens (gs x) ++ afterCommas gs after xs) := by
  simp [afterCommas]

/-- The first part of several stands before the commas. -/
theorem commas_cons (after : List TokenKind) (x : X) (xs : List X) :
    commas (fun x => Glyph.tokens (gs x)) after (x :: xs) = Glyph.tokens (gs x) ++ afterCommas gs after xs := by
  induction xs generalizing x with
  | nil => rfl
  | cons y xs ih => rw [commas, ih, afterCommas_cons]

/-- Behind a part comes a comma, or what comes behind all of them. -/
theorem exists_afterCommas (gs : X → List Glyph) (next : TokenKind) (rest : List TokenKind) (xs : List X) :
    ∃ next' tail, afterCommas gs (next :: rest) xs = next' :: tail ∧ (next' = .mark .comma ∨ next' = next) := by
  cases xs with
  | nil => exact ⟨_, _, rfl, .inr rfl⟩
  | cons x xs => exact ⟨_, _, rfl, .inl rfl⟩

/-- Items are read that have commas between them, up to what is no comma. -/
theorem reads_commaSeparated {xs : List X} (hne : xs ≠ []) (hnext : next ≠ .mark .comma)
    (hitem : ∀ x ∈ xs, ∀ next' tail, next' = .mark .comma ∨ next' = next →
      Reads item (At (Glyph.tokens (gs x) ++ next' :: tail)) (At (next' :: tail)) (P x)) :
    Reads (commaSeparated item) (At (Glyph.tokens (Glyph.commas (xs.map gs)) ++ next :: rest)) (At (next :: rest))
      (List.Forall₂ P xs) := by
  have hread : ∀ x ∈ xs, ∀ tail, Reads item (At (Glyph.tokens (gs x) ++ afterCommas gs (next :: rest) tail))
      (At (afterCommas gs (next :: rest) tail)) (P x) := by
    intro x hx tail
    obtain ⟨next', more, htail, hnext'⟩ := exists_afterCommas gs next rest tail
    rw [htail]
    exact hitem x hx next' more hnext'
  have hmore : ∀ x tail, Reads (accept (.mark .comma)) (At (afterCommas gs (next :: rest) (x :: tail)))
      (At (Glyph.tokens (gs x) ++ afterCommas gs (next :: rest) tail)) (· = true) := by
    intro x tail
    obtain ⟨next', more, htail, -⟩ := exists_afterCommas gs next rest tail
    obtain ⟨first, others, hothers⟩ := Glyph.exists_tokens_eq_cons (gs x) next' more
    rw [afterCommas_cons, htail, hothers]
    exact reads_accept
  obtain ⟨x, xs, rfl⟩ := List.exists_cons_of_ne_nil hne
  obtain ⟨hx, hxs⟩ := List.forall_mem_cons.1 hread
  have hend : Reads (accept (.mark .comma)) (At (afterCommas gs (next :: rest) [])) (At (next :: rest)) (· = false) :=
    reads_accept_of_ne hnext
  have hlength : xs.length ≤ (afterCommas gs (next :: rest) xs).length := length_le_shown fun y tail _ => by
    rw [afterCommas_cons]
    exact Nat.lt_succ_of_le (List.suffix_append _ _).length_le
  have hrounds := reads_rounds
    (fun y tail htail => ⟨_, hmore y tail, hxs y (htail.subset List.mem_cons_self) tail⟩) hend hlength
  rw [Glyph.tokens_commas, commas_cons]
  exact (hx xs).bind fun y hy => hrounds.bind fun ys hys => .pure (.cons hy hys)

end Commas

/-! ## Clauses -/

/-- Constructors between braces are read. -/
theorem exists_reads_constructorNames (ctors : List String) (next : TokenKind) (rest : List TokenKind) : ∃ first tail,
    Glyph.tokens (constructorGlyphs ctors) ++ next :: rest = first :: tail ∧
      Reads constructorNames (At (first :: tail)) (At (next :: rest)) (· = ctors) := by
  have hstarts : ∀ name ∈ ctors, Starts .rightBrace (Glyph.tokens [.token (.name name)]) := fun name _ =>
    ⟨_, _, rfl, by rintro ⟨⟩, by rintro ⟨⟩⟩
  obtain ⟨first, tail, htokens, hread⟩ := exists_reads_bracketed .brace hstarts
    (fun name _ m tail _ => reads_expectName .constructorName) next rest
  exact ⟨_, _, htokens, reads_accept.bind_eq (hread.mono fun _ => eq_of_forall₂)⟩

/-- A scope is read, if none follows it. -/
theorem reads_scope (s : Scope) (hfor : next ≠ .keyword .for) (hexcept : next ≠ .keyword .except) :
    Reads scope (At (Glyph.tokens s.glyphs ++ next :: rest)) (At (next :: rest)) (· = s) := by
  cases s with
  | all =>
    refine (reads_accept_of_ne hfor).bind_eq ?_
    refine (reads_accept_of_ne hexcept).bind_eq ?_
    exact .pure rfl
  | only ctors =>
    obtain ⟨first, tail, htokens, hctors⟩ := exists_reads_constructorNames ctors next rest
    change Reads _ (At (.keyword .for :: (Glyph.tokens (constructorGlyphs ctors) ++ next :: rest))) _ _
    rw [htokens]
    refine reads_accept.bind_eq ?_
    exact hctors.bind fun names hnames => .pure (congrArg _ hnames)
  | except ctors =>
    obtain ⟨first, tail, htokens, hctors⟩ := exists_reads_constructorNames ctors next rest
    change Reads _ (At (.keyword .except :: (Glyph.tokens (constructorGlyphs ctors) ++ next :: rest))) _ _
    rw [htokens]
    refine (reads_accept_of_ne (by rintro ⟨⟩)).bind_eq ?_
    refine reads_accept.bind_eq ?_
    exact hctors.bind fun names hnames => .pure (congrArg _ hnames)

/-- The scope after the conditions of a clause is read up to the end of the line, if the next line is no scope. -/
theorem reads_scopeAfterClause (s : Scope) (hfor : next ≠ .keyword .for) (hexcept : next ≠ .keyword .except) :
    Reads scopeAfterClause (At (Glyph.tokens s.glyphs ++ .newline :: next :: rest)) (At (.newline :: next :: rest))
      (· = s) := by
  have hscope : Reads scope (At (Glyph.tokens s.glyphs ++ .newline :: next :: rest)) (At (.newline :: next :: rest))
      (· = s) := reads_scope s (by rintro ⟨⟩) (by rintro ⟨⟩)
  cases s with
  | all =>
    refine reads_isAt_self.bind_eq ((reads_isAhead_of_ne hfor).bind_eq ?_)
    exact (reads_isAhead_of_ne hexcept).bind_eq hscope
  | only ctors | except ctors =>
    refine (reads_isAt_of_ne (by rintro ⟨⟩)).bind_eq ?_
    refine Reads.glance.bind fun _ _ => ?_
    exact Reads.glance.bind fun _ _ => hscope

variable {f : Span → Span}

/-- Conditions with commas between them are read. -/
theorem reads_exprs (hf : ∀ a b, f a = f b) {es : List Expr} (hne : es ≠ []) (hnext : Delimits next)
    (hcomma : next ≠ .mark .comma) : Reads (commaSeparated expr)
      (At (Glyph.tokens (Glyph.commas (es.map Expr.glyphs)) ++ next :: rest)) (At (next :: rest))
      fun es' => es'.map (Expr.relocate f) = es.map fun e => e.reread.relocate f := by
  refine (reads_commaSeparated hne hcomma fun e _ next' tail hnext' => ?_).mono fun _ => map_eq_of_forall₂
  refine (e.reads_glyphs hf).delimited ?_ maxNesting tail
  rcases hnext' with rfl | rfl
  · exact delimits_separator .paren (.inl rfl)
  · exact hnext

/-- The conditions of a clause are read from one line. -/
theorem reads_conditions (hf : ∀ a b, f a = f b) {es : List Expr} (hne : es ≠ []) (hnext : Delimits next)
    (hcomma : next ≠ .mark .comma) : Reads conditions
      (At (Glyph.tokens (Glyph.commas (es.map Expr.glyphs)) ++ next :: rest)) (At (next :: rest))
      fun es' => es'.map (Expr.relocate f) = es.map fun e => e.reread.relocate f := by
  have hread : Reads (commaSeparated expr) _ (At (next :: rest)) _ := reads_exprs hf hne hnext hcomma
  obtain ⟨e, es, rfl⟩ := List.exists_cons_of_ne_nil hne
  obtain ⟨first, kinds, hkinds, hfirst⟩ := (e.opens_glyphs.commas (es.map Expr.glyphs)).exists_tokens
  rw [List.map_cons, hkinds] at hread ⊢
  have hblock : Reads isBlockHere (At (first :: kinds ++ next :: rest)) (At (first :: kinds ++ next :: rest))
      (· = false) := by
    refine (reads_isAt_of_ne hfirst).bind_eq ?_
    exact Reads.glance.bind fun _ _ => .pure rfl
  refine hblock.bind_eq ?_
  exact hread

/-- A clause is read up to the end of its line. -/
theorem reads_whereClause (hf : ∀ a b, f a = f b) {clause : WhereClause} (hne : clause.conditions ≠ [])
    (hfor : next ≠ .keyword .for) (hexcept : next ≠ .keyword .except) : Reads (whereClause scopeAfterClause)
      (At (Glyph.tokens clause.glyphs ++ .newline :: next :: rest)) (At (.newline :: next :: rest))
      fun clause' => clause'.relocate f = clause.reread.relocate f := by
  have hscope : Reads scopeAfterClause (At (Glyph.tokens clause.scope.glyphs ++ .newline :: next :: rest)) _ _ :=
    reads_scopeAfterClause clause.scope hfor hexcept
  obtain ⟨first, others, htokens, hfirst, hcomma⟩ : ∃ first others,
      Glyph.tokens clause.scope.glyphs ++ .newline :: next :: rest = first :: others ∧ Delimits first ∧
        first ≠ .mark .comma := by
    cases clause.scope <;> exact ⟨_, _, rfl, ⟨by rintro ⟨⟩, by rintro ⟨⟩, rfl⟩, by rintro ⟨⟩⟩
  have hconditions : Reads conditions _ (At (first :: others)) _ := reads_conditions hf hne hfirst hcomma
  obtain ⟨kind, more, hmore⟩ :=
    Glyph.exists_tokens_eq_cons (Glyph.commas (clause.conditions.map Expr.glyphs)) first others
  rw [htokens] at hscope
  rw [hmore] at hconditions
  rw [WhereClause.glyphs, Glyph.tokens_append, List.append_assoc, htokens, Glyph.tokens_token, Glyph.tokens_space,
    List.cons_append, hmore]
  refine reads_start.bind fun start _ => reads_expect.bind fun _ _ => hconditions.bind fun es hes => ?_
  refine hscope.bind fun s hs => (reads_spanFrom start).bind fun here _ => .pure ?_
  rw [WhereClause.relocate, WhereClause.reread, WhereClause.relocate, List.map_map, hes, hs, hf here clause.span]
  rfl

/-! ## Types -/

/-- A field is read up to the comma or the bracket after it. -/
theorem reads_fieldDecl (hf : ∀ a b, f a = f b) (field : FieldDecl) {m : Mark} (hm : m = .comma ∨ m = .rightBrace)
    (tail : List TokenKind) : Reads fieldDecl (At (Glyph.tokens field.glyphs ++ .mark m :: tail)) (At (.mark m :: tail))
      fun field' => field'.relocate f = field.relocate f := by
  have hends : TypeExpr.Ends (.mark m) := ⟨by rintro name ⟨⟩, by rcases hm with rfl | rfl <;> rintro ⟨⟩⟩
  have hcolon : TokenKind.mark m ≠ .mark .colon := by rcases hm with rfl | rfl <;> rintro ⟨⟩
  refine reads_start.bind fun start _ => ?_
  refine (reads_label field.name (field.type.unlabelled hcolon tail)).bind fun name hname => ?_
  refine (field.type.reads_glyphs hf maxNesting (.mark m) tail hends).bind fun type htype => ?_
  refine (reads_spanFrom start).bind fun here _ => .pure ?_
  rw [FieldDecl.relocate, FieldDecl.relocate, hname, htype, hf here field.span]

/-- A constructor is read up to the end of its line. -/
theorem reads_ctorDecl (hf : ∀ a b, f a = f b) (ctor : CtorDecl) (rest : List TokenKind) :
    Reads ctorDecl (At (Glyph.tokens ctor.glyphs ++ .newline :: rest)) (At (.newline :: rest))
      fun ctor' => ctor'.relocate f = ctor.bare.relocate f := by
  have hstarts : ∀ field ∈ ctor.fields, Starts .rightBrace (Glyph.tokens field.glyphs) := fun field _ =>
    (field.type.opens_glyphs.labelled field.name).starts .brace
  obtain ⟨first, tail, htokens, hread⟩ := exists_reads_bracketed .brace hstarts
    (fun field _ m tail hm => reads_fieldDecl hf field hm tail) .newline rest
  rw [CtorDecl.glyphs, Glyph.tokens_token, Glyph.tokens_space, List.cons_append, htokens]
  refine reads_start.bind fun start _ => (reads_expectName _).bind fun name hname => ?_
  refine reads_expect.bind fun _ _ => hread.bind fun fields hfields => (reads_spanFrom start).bind fun here _ => ?_
  refine (reads_isAt_of_ne (by rintro ⟨⟩)).bind_eq ?_
  refine Reads.bind (P := (· = none)) (.pure rfl) fun inlineWhere hinline => .pure ?_
  subst hname hinline
  rw [CtorDecl.relocate, CtorDecl.relocate, map_eq_of_forall₂ hfields, hf here ctor.bare.span]
  rfl

/-- What a line of the block of a type gives: a constructor, or a clause. -/
def linePart (f : Span → Span) : CtorDecl ⊕ WhereClause → List CtorDecl × List WhereClause
  | .inl ctor => ([ctor.bare.relocate f], [])
  | .inr clause => ([], [clause.reread.relocate f])

/-- The line is read as what stands in it, at other places. -/
def SameLine (f : Span → Span) (part : CtorDecl ⊕ WhereClause) (line : List CtorDecl × List WhereClause) : Prop :=
  (line.1.map (CtorDecl.relocate f), line.2.map (WhereClause.relocate f)) = linePart f part

/-- The end of a line is read where something is in the next one. -/
theorem reads_endLine : Reads endLine (At (.newline :: next :: rest)) (At (next :: rest)) fun _ => True := by
  refine reads_accept.bind_eq ?_
  exact .pure trivial

/-- A line of the block of a type is read with its end. -/
theorem reads_typeLine (hf : ∀ a b, f a = f b) (part : CtorDecl ⊕ WhereClause)
    (hne : ∀ clause, part = .inr clause → clause.conditions ≠ []) (hfor : next ≠ .keyword .for)
    (hexcept : next ≠ .keyword .except) : Reads typeLine
      (At (Glyph.tokens (TypeDecl.lineGlyphs part) ++ .newline :: next :: rest)) (At (next :: rest))
      (SameLine f part) := by
  cases part with
  | inl ctor =>
    have halternatives : Reads alternatives (At (Glyph.tokens ctor.glyphs ++ .newline :: next :: rest))
        (At (.newline :: next :: rest)) (SameLine f (.inl ctor)) := by
      refine (reads_accept_of_ne (by rintro ⟨⟩)).bind fun _ _ => (reads_ctorDecl hf ctor _).bind fun ctor' hctor => ?_
      refine (reads_rounds_nil (reads_accept_of_ne (by rintro ⟨⟩))).bind fun others hothers => ?_
      subst hothers
      refine (reads_isAt_of_ne (by rintro ⟨⟩)).bind_eq ((reads_isAt_of_ne (by rintro ⟨⟩)).bind_eq (.pure ?_))
      rw [SameLine, linePart, ← hctor]
      rfl
    refine (reads_isAt_of_ne (by rintro ⟨⟩)).bind_eq ?_
    exact halternatives.bind fun line hline => reads_endLine.bind fun _ _ => .pure hline
  | inr clause =>
    have hclause : Reads (whereClause scopeAfterClause) _ (At (.newline :: next :: rest)) _ :=
      reads_whereClause hf (hne clause rfl) hfor hexcept
    refine reads_isAt_self.bind_eq ?_
    refine hclause.bind fun clause' hclause => Reads.bind (P := SameLine f (.inr clause)) (.pure ?_) fun line hline =>
      reads_endLine.bind fun _ _ => .pure hline
    rw [SameLine, linePart, ← hclause]
    rfl

/-- The cursor stands before these tokens, and after one of a kind. -/
structure AtAfter (previous : TokenKind) (kinds : List TokenKind) (c : Cursor) : Prop where
  here : c.At kinds
  previous : c.previous.map Token.kind = some previous

/-- Another line of a block follows. -/
theorem reads_moreLines (hdedent : next ≠ .dedent) (heof : next ≠ .eof) :
    Reads moreLines (At (next :: rest)) (At (next :: rest)) (· = true) := by
  refine (reads_accept_of_ne hdedent).bind_eq ?_
  exact (reads_isAt_of_ne heof).bind_eq (.pure rfl)

/-- The mark of the end of a block is passed. -/
theorem reads_moreLines_end :
    Reads moreLines (At (.dedent :: next :: rest)) (AtAfter .dedent (next :: rest)) (· = false) := by
  have haccept : Reads (accept .dedent) (At (.dedent :: next :: rest)) (AtAfter .dedent (next :: rest)) (· = true) := by
    refine reads_isAt_self.bind_eq ?_
    have hadvance : Reads advance (At (.dedent :: next :: rest)) (AtAfter .dedent (next :: rest)) fun _ => True :=
      fun c hc => .inr ⟨(), c.advance, rfl, ⟨(advance_of_at hc).1, (advance_of_at hc).2⟩, trivial⟩
    exact hadvance.bind fun _ _ => .pure rfl
  refine haccept.bind_eq ?_
  exact .pure rfl

/-- After the end of a block a line ends without a mark. -/
theorem reads_endLine_of_dedent (hnext : next ≠ .newline) :
    Reads endLine (AtAfter .dedent (next :: rest)) (At (next :: rest)) fun _ => True := by
  refine (reads_accept_false fun c hc => (kind_of_at hc.here).trans_ne hnext).bind_eq ?_
  refine Reads.bind (P := fun c => AtAfter .dedent (next :: rest) c) (fun c hc => .inr ⟨c, c, rfl, hc.here, hc⟩)
    fun c hc => ?_
  rw [hc.previous]
  exact .pure trivial

/-- The tokens of a block, and of what follows it. -/
def blockTokens (rest : List TokenKind) (parts : List (CtorDecl ⊕ WhereClause)) : List TokenKind :=
  parts.flatMap (fun part => Glyph.tokens (TypeDecl.lineGlyphs part) ++ [.newline]) ++ .dedent :: rest

/-- A line of a block starts with a name or with `where`, and the end of a block is marked. -/
theorem blockTokens_starts (rest : List TokenKind) (parts : List (CtorDecl ⊕ WhereClause)) : ∃ first tail,
    blockTokens rest parts = first :: tail ∧ first ≠ .keyword .for ∧ first ≠ .keyword .except ∧ first ≠ .eof ∧
      (parts ≠ [] → first ≠ .dedent) := by
  cases parts with
  | nil => exact ⟨_, _, rfl, by rintro ⟨⟩, by rintro ⟨⟩, by rintro ⟨⟩, fun h => absurd rfl h⟩
  | cons part parts =>
    cases part <;> exact ⟨_, _, rfl, by rintro ⟨⟩, by rintro ⟨⟩, by rintro ⟨⟩, fun _ => by rintro ⟨⟩⟩

/-- The tokens of a block are those of the first line, and those of the others behind it. -/
theorem blockTokens_cons (rest : List TokenKind) (part : CtorDecl ⊕ WhereClause)
    (parts : List (CtorDecl ⊕ WhereClause)) :
    blockTokens rest (part :: parts) =
      Glyph.tokens (TypeDecl.lineGlyphs part) ++ .newline :: blockTokens rest parts := by
  simp [blockTokens]

/-- The lines of the block of a type are read up to its end. -/
theorem reads_lines (hf : ∀ a b, f a = f b) {parts : List (CtorDecl ⊕ WhereClause)}
    (hne : ∀ part ∈ parts, ∀ clause, part = .inr clause → clause.conditions ≠ []) :
    Reads (rounds moreLines typeLine) (At (blockTokens (next :: rest) parts)) (AtAfter .dedent (next :: rest))
      (List.Forall₂ (SameLine f) parts) := by
  refine reads_rounds (fun part tail htail => ?_) reads_moreLines_end (length_le_shown fun part tail _ => ?_)
  · obtain ⟨first, others, hfirst, -, -, heof, hdedent⟩ := blockTokens_starts (next :: rest) (part :: tail)
    obtain ⟨first', others', hothers, hfor, hexcept, -, -⟩ := blockTokens_starts (next :: rest) tail
    refine ⟨At (blockTokens (next :: rest) (part :: tail)), ?_, ?_⟩
    · rw [hfirst]
      exact reads_moreLines (hdedent (List.cons_ne_nil _ _)) heof
    · rw [blockTokens_cons, hothers]
      exact reads_typeLine hf part (hne part (htail.subset List.mem_cons_self)) hfor hexcept
  · rw [blockTokens_cons]
    exact (List.suffix_append _ (.newline :: blockTokens (next :: rest) tail)).length_le

/-- Lines that are read as they are written hold the constructors and the clauses of the block. -/
theorem flatMap_of_sameLine {parts : List (CtorDecl ⊕ WhereClause)} {lines : List (List CtorDecl × List WhereClause)}
    (h : List.Forall₂ (SameLine f) parts lines) :
    (lines.flatMap Prod.fst).map (CtorDecl.relocate f) = parts.flatMap (fun part => (linePart f part).1) ∧
      (lines.flatMap Prod.snd).map (WhereClause.relocate f) = parts.flatMap fun part => (linePart f part).2 := by
  induction h with
  | nil => exact ⟨rfl, rfl⟩
  | cons hline _ ih =>
    obtain ⟨hctors, hclauses⟩ := Prod.mk.inj hline
    simp only [List.flatMap_cons, List.map_append, hctors, hclauses, ih]
    exact ⟨rfl, rfl⟩

/-- The lines of a block are the constructors and the clauses of what is read for the canonical form. -/
theorem flatMap_block (f : Span → Span) (decl : TypeDecl) :
    (decl.block.flatMap fun part => (linePart f part).1) = decl.canonical.reread.ctors.map (CtorDecl.relocate f) ∧
      (decl.block.flatMap fun part => (linePart f part).2) =
        decl.canonical.reread.clauses.map (WhereClause.relocate f) := by
  have hctors : decl.canonical.reread.ctors = decl.ctors.map CtorDecl.bare := List.map_map
  have hclauses : decl.canonical.reread.clauses = decl.canonical.clauses.map WhereClause.reread := rfl
  have hnone : ∀ {β γ : Type} (xs : List β), (xs.flatMap fun _ => ([] : List γ)) = [] := fun _ =>
    List.flatMap_eq_nil_iff.2 fun _ _ => rfl
  rw [hctors, hclauses, TypeDecl.block, List.flatMap_append, List.flatMap_append, List.flatMap_map, List.flatMap_map,
    List.flatMap_map, List.flatMap_map, List.map_map, List.map_map]
  constructor
  · simp only [linePart, hnone, List.append_nil, ← List.map_eq_flatMap]
    rfl
  · simp only [linePart, hnone, List.nil_append, ← List.map_eq_flatMap]
    rfl

/-- The block of a type is read up to its end. -/
theorem reads_typeLines (hf : ∀ a b, f a = f b) {decl : TypeDecl} (hctors : decl.ctors ≠ [])
    (hclauses : ∀ clause ∈ decl.canonical.clauses, clause.conditions ≠ []) :
    Reads typeLines (At (blockTokens (next :: rest) decl.block)) (AtAfter .dedent (next :: rest))
      fun found => found.1.map (CtorDecl.relocate f) = decl.canonical.reread.ctors.map (CtorDecl.relocate f) ∧
        found.2.map (WhereClause.relocate f) = decl.canonical.reread.clauses.map (WhereClause.relocate f) := by
  have hne : ∀ part ∈ decl.block, ∀ clause, part = .inr clause → clause.conditions ≠ [] := by
    rintro part hpart clause rfl
    exact hclauses clause (by simpa [TypeDecl.block] using hpart)
  refine (reads_lines hf hne).bind fun lines hlines => ?_
  obtain ⟨hfst, hsnd⟩ := flatMap_of_sameLine hlines
  rw [(flatMap_block f decl).1] at hfst
  rw [(flatMap_block f decl).2] at hsnd
  have hsome : (lines.flatMap Prod.fst).isEmpty = false := by
    rw [← List.isEmpty_map (f := CtorDecl.relocate f), hfst, List.isEmpty_map, TypeDecl.reread, List.isEmpty_map,
      List.isEmpty_eq_false_iff]
    exact mt List.map_eq_nil_iff.1 hctors
  dsimp only
  rw [hsome, if_neg (by decide)]
  exact .pure ⟨hfst, hsnd⟩

/-- No clause follows a type after the end of its block. -/
theorem reads_moreClauses_of_dedent (hnewline : next ≠ .newline) (hwhere : next ≠ .keyword .where) :
    Reads moreClauses (AtAfter .dedent (next :: rest)) (AtAfter .dedent (next :: rest)) (· = false) := by
  refine (reads_isAt_false fun c hc => (kind_of_at hc.here).trans_ne hnewline).bind_eq ?_
  refine Reads.glance.bind fun _ _ => ?_
  exact reads_isAt_false fun c hc => (kind_of_at hc.here).trans_ne hwhere

/-- The tokens of the parameters of a type, and of what follows. -/
def paramTokens (rest : List TokenKind) (params : List String) : List TokenKind :=
  params.map .name ++ .mark .equals :: rest

/-- Something follows the parameters of a type. -/
theorem exists_paramTokens (rest : List TokenKind) (params : List String) :
    ∃ kind more, paramTokens rest params = kind :: more :=
  List.exists_cons_of_ne_nil (List.append_ne_nil_of_right_ne_nil _ (List.cons_ne_nil _ _))

/-- The parameters of a type are read up to the sign of equality. -/
theorem reads_params (params : List String) (rest : List TokenKind) :
    Reads (rounds moreParameters (expectName .typeName)) (At (paramTokens rest params)) (At (.mark .equals :: rest))
      (· = params) := by
  have hmore : ∀ name tail, Reads moreParameters (At (paramTokens rest (name :: tail)))
      (At (paramTokens rest (name :: tail))) (· = true) := fun _ _ => reads_kind.bind_eq (.pure rfl)
  have hend : Reads moreParameters (At (paramTokens rest [])) (At (.mark .equals :: rest)) (· = false) :=
    reads_kind.bind_eq (.pure rfl)
  have hname : ∀ name tail, Reads (expectName .typeName) (At (paramTokens rest (name :: tail)))
      (At (paramTokens rest tail)) (· = name) := by
    intro name tail
    obtain ⟨kind, more, htail⟩ := exists_paramTokens rest tail
    change Reads _ (At (.name name :: paramTokens rest tail)) _ _
    rw [htail]
    exact reads_expectName _
  exact (reads_rounds (fun name tail _ => ⟨_, hmore name tail, hname name tail⟩) hend
    (length_le_shown fun name tail _ => Nat.lt_succ_self _)).mono fun _ => eq_of_forall₂

/-- The header of a declaration is the keyword, the name and the parameters. -/
theorem tokens_header (decl : TypeDecl) (after : List TokenKind) : Glyph.tokens decl.header ++ after =
    .keyword .type :: .name decl.name :: paramTokens after decl.params := by
  have hnames : ((decl.name :: decl.params).map fun name => [Glyph.token (.name name)]).flatMap Glyph.tokens =
      (decl.name :: decl.params).map .name := by
    rw [List.flatMap_map]
    exact List.map_eq_flatMap.symm
  rw [TypeDecl.header, Glyph.tokens_token, Glyph.tokens_spaced, List.flatMap_append, hnames, List.cons_append,
    List.append_assoc]
  rfl

/-- **The declaration of a type is read with all its lines,** at other places. -/
theorem reads_typeDecl (hf : ∀ a b, f a = f b) {decl : TypeDecl} (hctors : decl.ctors ≠ [])
    (hclauses : ∀ clause ∈ decl.canonical.clauses, clause.conditions ≠ []) (hnewline : next ≠ .newline)
    (hwhere : next ≠ .keyword .where) : Reads typeDecl
      (At (Glyph.tokens decl.header ++ .newline :: .indent :: blockTokens (next :: rest) decl.block))
        (AtAfter .dedent (next :: rest)) fun decl' => decl'.relocate f = decl.canonical.reread.relocate f := by
  have hparams := reads_params decl.params (.newline :: .indent :: blockTokens (next :: rest) decl.block)
  have hlines : Reads typeLines _ (AtAfter .dedent (next :: rest)) _ := reads_typeLines hf hctors hclauses
  obtain ⟨first, tail, htokens, -⟩ := blockTokens_starts (next :: rest) decl.block
  obtain ⟨kind, more, hmore⟩ := exists_paramTokens (.newline :: .indent :: first :: tail) decl.params
  rw [htokens] at hlines hparams ⊢
  rw [hmore] at hparams
  rw [tokens_header, hmore]
  refine reads_start.bind fun start _ => reads_expect.bind fun _ _ => (reads_expectName _).bind fun name hname => ?_
  refine hparams.bind fun params hparams => reads_expect.bind fun _ _ => ?_
  have hblock : Reads isBlockHere (At (.newline :: .indent :: first :: tail))
      (At (.newline :: .indent :: first :: tail))
      (· = true) :=
    reads_isAt_self.bind_eq (reads_isAhead_self.bind_eq (.pure rfl))
  refine hblock.bind_eq ?_
  rw [if_pos rfl]
  refine reads_advance.bind fun _ _ => reads_advance.bind fun _ _ => hlines.bind fun found hfound => ?_
  obtain ⟨hctors, hclauses⟩ := hfound
  refine Reads.bind (P := (· = (.lines, found))) (.pure rfl) fun made hmade => ?_
  subst hmade
  refine (reads_rounds_nil (reads_moreClauses_of_dedent hnewline hwhere)).bind fun others hothers => ?_
  subst hothers
  refine (reads_spanFrom start).bind fun here _ => .pure ?_
  rw [List.append_nil, TypeDecl.relocate, TypeDecl.relocate, hname, hparams, hctors, hclauses,
    hf here decl.canonical.span]
  rfl

end Parser

end TypedData
