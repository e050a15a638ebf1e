import TypedData.Document.Parser.Expr
import TypedData.Proofs.Reading.Phrase
import TypedData.Proofs.Relocation.Tree

/-!
# Types that are read back

A type is written as a row of tokens (`TypeExpr.glyphs`), with parentheses around those arguments that are not
single names.  The type that is read from the tokens is the same, at other places (`TypeExpr.reads_glyphs`).

The row of a type need not be the one that the printer writes: `TypeExpr.IsRead` relates a row to the type that is
read from it, and holds of a row with parentheses if it holds of the row without them.
-/

namespace TypedData

open Cursor (At)

namespace TypeExpr

/-- What holds of a type whenever it holds of the types in it holds of all types. -/
@[elab_as_elim]
theorem inductionOnParts {P : TypeExpr → Prop} (t : TypeExpr)
    (named : ∀ span name args, (∀ arg ∈ args, P arg) → P (.named span name args))
    (optional : ∀ span inner, P inner → P (.optional span inner))
    (list : ∀ span inner, P inner → P (.list span inner)) : P t :=
  @TypeExpr.rec P (fun args => ∀ arg ∈ args, P arg) named optional list (List.forall_mem_nil _)
    (fun _ _ harg hargs => List.forall_mem_cons.2 ⟨harg, hargs⟩) t

mutual

/-- The row of tokens that a type is written as. -/
def glyphs : TypeExpr → List Glyph
  | named _ name args => .token (.name name) :: Glyph.spaced (glyphsOfArgs args)
  | optional _ inner => .token (.keyword .optional) :: .space :: inner.glyphs
  | list _ inner => .token (.keyword .list) :: .space :: inner.glyphs

/-- The rows of the arguments of a type. -/
def glyphsOfArgs : List TypeExpr → List (List Glyph)
  | [] => []
  | arg :: args => Glyph.enclosed (!arg.isAtomic) arg.glyphs :: glyphsOfArgs args

end

/-- Arguments of a type are written one by one, in parentheses unless they are atomic. -/
theorem glyphsOfArgs_eq_map (args : List TypeExpr) :
    glyphsOfArgs args = args.map fun arg => Glyph.enclosed (!arg.isAtomic) arg.glyphs := by
  induction args with
  | nil => rfl
  | cons arg args ih => rw [glyphsOfArgs, ih, List.map_cons]

/-- Arguments of a type are printed as their glyphs, if each of them is. -/
theorem text_printArgs {args : List TypeExpr} (h : ∀ arg ∈ args, arg.print.toList = Glyph.text arg.glyphs) :
    (printArgs args).toList = Glyph.text (Glyph.spaced (glyphsOfArgs args)) := by
  induction args with
  | nil => rfl
  | cons arg args ih =>
    obtain ⟨harg, hargs⟩ := List.forall_mem_cons.1 h
    rw [printArgs, glyphsOfArgs, Glyph.spaced_cons, Glyph.text_cons, Glyph.text_append, ← ih hargs,
      ← Glyph.text_enclosed _ harg, String.toList_append, String.toList_append, List.append_assoc]
    rfl

/-- A type is written as its row of tokens. -/
theorem text_glyphs (t : TypeExpr) : t.print.toList = Glyph.text t.glyphs := by
  induction t using inductionOnParts with
  | named span name args ih =>
    rw [print, glyphs, String.toList_append, text_printArgs ih, Glyph.text_cons, Glyph.chars, TokenKind.spelling]
  | optional span inner ih | list span inner ih =>
    rw [print, glyphs, String.toList_append, ih]
    rfl

/-- A type starts with no number. -/
theorem unnumbered_glyphs (t : TypeExpr) : Glyph.Unnumbered t.glyphs := by
  cases t <;> exact Glyph.unnumbered_token rfl _

/-- A type starts with a token. -/
theorem opens_glyphs (t : TypeExpr) : Glyph.Opens t.glyphs := by
  cases t <;> exact .token (by rintro ⟨⟩) (by rintro b ⟨⟩) _

/-- The row of a type can be read if its tokens can. -/
theorem row_glyphs (t : TypeExpr) (h : Glyph.Legible t.glyphs) : Glyph.Row t.glyphs := by
  induction t using inductionOnParts with
  | named span name args ih =>
    obtain ⟨hname, hargs⟩ := Glyph.legible_token_iff.1 h
    refine Glyph.Row.spacedAll (.token hname fun _ => rfl) fun part hpart => ?_
    have hlegible := Glyph.legible_spaced_iff.1 hargs part hpart
    rw [glyphsOfArgs_eq_map] at hpart
    obtain ⟨arg, harg, rfl⟩ := List.mem_map.1 hpart
    exact ⟨.enclosed _ (ih arg harg (Glyph.legible_enclosed_iff.1 hlegible)), arg.unnumbered_glyphs.enclosed _⟩
  | optional span inner ih | list span inner ih =>
    obtain ⟨hword, hinner⟩ := Glyph.legible_token_iff.1 h
    exact Glyph.Row.spaced (.token hword fun _ => rfl) (ih hinner) (.inl inner.unnumbered_glyphs)

/-! ## Reading -/

/-- No argument of a type follows. -/
structure Ends (next : TokenKind) : Prop where
  ne_name : ∀ name, next ≠ .name name
  ne_leftParen : next ≠ .mark .leftParen

variable {f : Span → Span}

/-- Lists of types that agree one by one agree up to their places. -/
theorem relocateArgs_of_forall₂ {args args' : List TypeExpr}
    (h : List.Forall₂ (fun arg arg' => arg'.relocate f = arg.relocate f) args args') :
    relocateArgs f args' = relocateArgs f args := by
  induction h with
  | nil => rfl
  | cons harg _ ih => rw [relocateArgs, relocateArgs, harg, ih]

/-- The type is read from the tokens of a row, at other places. -/
def IsRead (f : Span → Span) (gs : List Glyph) (t : TypeExpr) : Prop := ∀ levels next rest, Ends next →
  Parser.Reads (Parser.typeWithin levels) (At (Glyph.tokens gs ++ next :: rest)) (At (next :: rest))
    fun t' => t'.relocate f = t.relocate f

/-- The row is that of an argument: a name, or a type in parentheses. -/
inductive IsArgument (f : Span → Span) : List Glyph → TypeExpr → Prop
  | name (span : Span) (name : String) : IsArgument f [.token (.name name)] (.named span name [])
  | grouped {gs : List Glyph} {t : TypeExpr} :
      IsRead f gs t → Glyph.Opens gs → IsArgument f (Glyph.enclosed true gs) t

/-- A type is read on every level if its form is. -/
theorem reads_typeWithin {A B : Cursor → Prop} {P : TypeExpr → Prop}
    (h : ∀ levels, Parser.Reads (Parser.typeForm (Parser.typeWithin levels)) A B P) (levels : Nat) :
    Parser.Reads (Parser.typeWithin levels) A B P := by
  cases levels with
  | zero => exact .tooDeep
  | succ levels => exact h levels

namespace IsRead

variable {gs : List Glyph} {t : TypeExpr}

/-- A type in parentheses is read like the type. -/
theorem grouped (h : IsRead f gs t) (hopens : Glyph.Opens gs) (levels : Nat) (next : TokenKind)
    (rest : List TokenKind) :
    Parser.Reads (Parser.groupedType (Parser.typeWithin levels))
      (At (.mark .leftParen :: (Glyph.tokens gs ++ .mark .rightParen :: next :: rest))) (At (next :: rest))
      fun t' => t'.relocate f = t.relocate f := by
  have hinner := h levels (.mark .rightParen) (next :: rest) ⟨by rintro name ⟨⟩, by rintro ⟨⟩⟩
  obtain ⟨kind, kinds, hkinds, hkind⟩ := hopens.exists_tokens
  rw [hkinds, List.cons_append] at hinner ⊢
  refine Parser.reads_expect.bind fun _ _ => (Parser.reads_skipNewlines hkind).bind fun _ _ => ?_
  refine hinner.bind fun t' ht => (Parser.reads_skipNewlines (by rintro ⟨⟩)).bind fun _ _ => ?_
  exact Parser.reads_expect.bind fun _ _ => .pure ht

/-- Parentheses around a whole type make no difference. -/
theorem enclosed (h : IsRead f gs t) (hopens : Glyph.Opens gs) (needed : Bool) :
    IsRead f (Glyph.enclosed needed gs) t := by
  cases needed with
  | false => exact h
  | true =>
    intro levels next rest _
    refine reads_typeWithin (fun levels => ?_) levels
    rw [Glyph.tokens_enclosed]
    exact Parser.reads_start.bind fun start _ => Parser.reads_kind.bind_eq (h.grouped hopens levels next rest)

/-- A word before a type makes an optional or a list of it. -/
theorem prefixed (hf : ∀ a b, f a = f b) (span : Span) (h : IsRead f gs t) :
    IsRead f (.token (.keyword .optional) :: .space :: gs) (.optional span t) ∧
      IsRead f (.token (.keyword .list) :: .space :: gs) (.list span t) := by
  constructor
  all_goals
    intro levels next rest hnext
    refine reads_typeWithin (fun levels => ?_) levels
    have hinner := h levels next rest hnext
    obtain ⟨first, others, hothers⟩ := Glyph.exists_tokens_eq_cons gs next rest
    rw [hothers] at hinner
    rw [Glyph.tokens_token, Glyph.tokens_space, List.cons_append, hothers]
    refine Parser.reads_start.bind fun start _ => Parser.reads_kind.bind_eq ?_
    refine Parser.reads_advance.bind fun _ _ => hinner.bind fun inner' hinner => ?_
    refine (Parser.reads_spanFrom start).bind fun here _ => .pure ?_
    rw [relocate, relocate, hinner, hf here span]

end IsRead

/-- An argument starts with a token that no type ends before, and is read as it is written. -/
theorem IsArgument.reads (hf : ∀ a b, f a = f b) {gs : List Glyph} {t : TypeExpr} (h : IsArgument f gs t) (levels : Nat)
    (next : TokenKind) (rest : List TokenKind) : ∃ kind gs', gs = .token kind :: gs' ∧ ¬ Ends kind ∧
      Parser.Reads (Parser.typeArgument (Parser.typeWithin levels))
        (At (Glyph.tokens (.token kind :: gs') ++ next :: rest)) (At (next :: rest))
        fun t' => t'.relocate f = t.relocate f := by
  cases h with
  | name span name =>
    refine ⟨.name name, [], rfl, fun hends => hends.ne_name name rfl, ?_⟩
    refine Parser.reads_kind.bind_eq ?_
    refine Parser.Reads.get.bind fun c _ => Parser.reads_advance.bind fun _ _ => .pure ?_
    rw [relocate, relocate, hf c.current.span span]
  | @grouped gs _ h hopens =>
    refine ⟨_, _, rfl, fun hends => hends.ne_leftParen rfl, ?_⟩
    change Parser.Reads _ (At (Glyph.tokens (Glyph.enclosed true gs) ++ next :: rest)) _ _
    rw [Glyph.tokens_enclosed]
    refine Parser.reads_kind.bind_eq ?_
    exact h.grouped hopens levels next rest

/-- Another argument follows if the next token ends no arguments. -/
theorem reads_moreTypeArguments {kind : TokenKind} (h : ¬ Ends kind) (rest : List TokenKind) :
    Parser.Reads Parser.moreTypeArguments (At (kind :: rest)) (At (kind :: rest)) (· = true) := by
  refine Parser.reads_kind.bind_eq ?_
  split
  · exact .pure rfl
  · exact .pure rfl
  · rename_i hname hparen
    exact absurd ⟨hname, hparen⟩ h

/-- No other argument follows if the next token ends the arguments. -/
theorem reads_moreTypeArguments_of_ends {kind : TokenKind} (h : Ends kind) (rest : List TokenKind) :
    Parser.Reads Parser.moreTypeArguments (At (kind :: rest)) (At (kind :: rest)) (· = false) := by
  refine Parser.reads_kind.bind_eq ?_
  split
  · exact absurd rfl (h.ne_name _)
  · exact absurd rfl h.ne_leftParen
  · exact .pure rfl

/-- The tokens of the rows of arguments, and of what follows. -/
def argTokens (after : List TokenKind) (parts : List (List Glyph × TypeExpr)) : List TokenKind :=
  Glyph.tokens (Glyph.spaced (parts.map Prod.fst)) ++ after

/-- The first of the arguments is read up to the next one. -/
theorem exists_argTokens_eq_cons (hf : ∀ a b, f a = f b) {part : List Glyph × TypeExpr} (h : IsArgument f part.1 part.2)
    (levels : Nat) (next : TokenKind) (rest : List TokenKind) (parts : List (List Glyph × TypeExpr)) :
    ∃ kind more, argTokens (next :: rest) (part :: parts) = kind :: more ∧ ¬ Ends kind ∧
      (argTokens (next :: rest) parts).length ≤ more.length ∧
      Parser.Reads (Parser.typeArgument (Parser.typeWithin levels)) (At (kind :: more))
        (At (argTokens (next :: rest) parts)) fun arg => arg.relocate f = part.2.relocate f := by
  obtain ⟨first, others, hothers⟩ : ∃ first others, argTokens (next :: rest) parts = first :: others :=
    Glyph.exists_tokens_eq_cons _ next rest
  obtain ⟨kind, gs, hgs, hkind, hread⟩ := h.reads hf levels first others
  rw [← hothers] at hread
  refine ⟨kind, Glyph.tokens gs ++ argTokens (next :: rest) parts, ?_, hkind, (List.suffix_append _ _).length_le, hread⟩
  rw [argTokens, List.map_cons, Glyph.spaced_cons, Glyph.tokens_space, Glyph.tokens_append, List.append_assoc, hgs]
  rfl

/-- The arguments of a type are read up to what is not an argument. -/
theorem reads_args (hf : ∀ a b, f a = f b) {parts : List (List Glyph × TypeExpr)}
    (h : ∀ part ∈ parts, IsArgument f part.1 part.2) (levels : Nat) {next : TokenKind} (hnext : Ends next)
    (rest : List TokenKind) :
    Parser.Reads (Parser.rounds Parser.moreTypeArguments (Parser.typeArgument (Parser.typeWithin levels)))
      (At (argTokens (next :: rest) parts)) (At (next :: rest))
      fun args => relocateArgs f args = relocateArgs f (parts.map Prod.snd) := by
  have hend : Parser.Reads Parser.moreTypeArguments (At (argTokens (next :: rest) [])) (At (next :: rest))
    (· = false) :=
    reads_moreTypeArguments_of_ends hnext rest
  have hround := fun part (hpart : part ∈ parts) => exists_argTokens_eq_cons hf (h part hpart) levels next rest
  refine (Parser.reads_rounds (fun part tail htail => ?_) hend (Parser.length_le_shown fun part tail htail => ?_)).mono
    fun args hargs => relocateArgs_of_forall₂ (List.forall₂_map_left_iff.2 hargs)
  · obtain ⟨kind, more, htokens, hkind, -, hread⟩ := hround part (htail.subset List.mem_cons_self) tail
    rw [htokens]
    exact ⟨_, reads_moreTypeArguments hkind more, hread⟩
  · obtain ⟨kind, more, htokens, -, hlength, -⟩ := hround part (htail.subset List.mem_cons_self) tail
    rw [htokens]
    exact Nat.lt_succ_of_le hlength

/-- A name is read with the arguments after it. -/
theorem IsRead.named (hf : ∀ a b, f a = f b) (span : Span) (name : String) {parts : List (List Glyph × TypeExpr)}
    (h : ∀ part ∈ parts, IsArgument f part.1 part.2) :
    IsRead f (.token (.name name) :: Glyph.spaced (parts.map Prod.fst)) (.named span name (parts.map Prod.snd)) := by
  intro levels next rest hnext
  refine reads_typeWithin (fun levels => ?_) levels
  have hargs := reads_args hf h levels hnext rest
  obtain ⟨first, others, hothers⟩ := Glyph.exists_tokens_eq_cons (Glyph.spaced (parts.map Prod.fst)) next rest
  rw [argTokens, hothers] at hargs
  rw [Glyph.tokens_token, List.cons_append, hothers]
  refine Parser.reads_start.bind fun start _ => Parser.reads_kind.bind_eq ?_
  refine Parser.reads_advance.bind fun _ _ => hargs.bind fun args hargs => ?_
  refine (Parser.reads_spanFrom start).bind fun here _ => .pure ?_
  rw [relocate, relocate, hargs, hf here span]

/-- An argument is written as a name, or in parentheses. -/
theorem isArgument_glyphs {t : TypeExpr} (h : IsRead f t.glyphs t) :
    IsArgument f (Glyph.enclosed (!t.isAtomic) t.glyphs) t := by
  cases hatomic : t.isAtomic with
  | true =>
    unfold isAtomic at hatomic
    split at hatomic
    · exact .name ..
    · cases hatomic
  | false => exact .grouped h t.opens_glyphs

/-- **A type is read from the tokens that it is written as,** at other places. -/
theorem reads_glyphs (hf : ∀ a b, f a = f b) (t : TypeExpr) : IsRead f t.glyphs t := by
  induction t using inductionOnParts with
  | named span name args ih =>
    have hargs : ∀ part ∈ args.map fun arg => (Glyph.enclosed (!arg.isAtomic) arg.glyphs, arg),
        IsArgument f part.1 part.2 :=
      List.forall_mem_map.2 fun arg harg => isArgument_glyphs (ih arg harg)
    have hread := IsRead.named hf span name hargs
    rw [glyphs, glyphsOfArgs_eq_map]
    simpa only [List.map_map, Function.comp_def, List.map_id'] using hread
  | optional span inner ih => exact (ih.prefixed hf span).1
  | list span inner ih => exact (ih.prefixed hf span).2

/-- A type is not taken for a label. -/
theorem unlabelled (t : TypeExpr) {next : TokenKind} (hnext : next ≠ .mark .colon) (rest : List TokenKind)
    (name : String)
    (tail : List TokenKind) : Glyph.tokens t.glyphs ++ next :: rest ≠ .name name :: .mark .colon :: tail := by
  cases t with
  | named span n args =>
    cases args with
    | nil =>
      rintro ⟨⟩
      exact hnext rfl
    | cons arg args =>
      cases arg with
      | named span n args => cases args <;> rintro ⟨⟩
      | optional | list => rintro ⟨⟩
  | optional | list => rintro ⟨⟩

end TypeExpr

end TypedData
