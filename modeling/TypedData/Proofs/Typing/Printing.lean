import TypedData.Load
import TypedData.Proofs.Reading.Making
import TypedData.Proofs.Reading.Names
import TypedData.Proofs.Reading.Scanning
import TypedData.Proofs.Reading.Types
import TypedData.Proofs.Relocation.Declarations
import TypedData.Proofs.Typing.Denotation

/-!
# Checked types are read back

A type that was checked is printed in messages.  It is printed with parentheses around every part that is
not a single name, also where the printer of documents leaves them out.  The print is read as the type
written without places (`Ty.written`), which stands for the type itself, so that nothing is lost between a
written type, what it stands for and the print of this (`Ty.print_resolves_back`).

A primitive or a parameter is printed as the name that it was written with, and this name stands for the
same thing again; so does the name of a declared type, as it is printed with as many arguments.
-/

namespace TypedData

open Glyph (Legible)

namespace TypeExpr

/-! ## Types that can be written -/

mutual

/-- Whether every name in the type is one. -/
def isSpellable : TypeExpr → Bool
  | named _ name args => isName name && areSpellable args
  | optional _ inner | list _ inner => inner.isSpellable

/-- Whether every name in the types is one. -/
def areSpellable : List TypeExpr → Bool
  | [] => true
  | t :: ts => t.isSpellable && areSpellable ts

end

/-- Types can be written when each of them can. -/
theorem areSpellable_iff {ts : List TypeExpr} : areSpellable ts = true ↔ ∀ t ∈ ts, t.isSpellable = true := by
  induction ts with
  | nil => simp [areSpellable]
  | cons t ts ih => rw [areSpellable, Bool.and_eq_true, ih, List.forall_mem_cons]

/-- A type that is made of what can be written can be written. -/
theorem Made.isSpellable {argument : Bool} {levels : Nat} {t : TypeExpr} (h : t.Made .spelled argument levels) :
    t.isSpellable = true := by
  induction h with
  | bare _ hname => exact Bool.and_eq_true_iff.2 ⟨hname, rfl⟩
  | argument _ ih | grouped _ ih => exact ih
  | named _ hname _ ih => exact Bool.and_eq_true_iff.2 ⟨hname, areSpellable_iff.2 ih⟩
  | optional _ _ ih | list _ _ ih => exact ih

/-- A type is read from the tokens of a text. -/
theorem read_eq {source : String} {tokens : List Token} (hscan : scan source = .ok tokens) :
    read source = ((Parser.type.outcome (Cursor.ofTokens tokens)).1).mapError Failure.parse := by
  rw [read, hscan]
  rfl

/-- Every type that is read from a text can be written. -/
theorem isSpellable_of_read {source : String} {t : TypeExpr} (hread : read source = .ok t) : t.isSpellable = true := by
  obtain ⟨tokens, hscan, -⟩ := bind_eq_ok_iff.1 hread
  have hscan := mapError_eq_ok_iff.1 hscan
  have hspelled := (ends_scanFrom lexical_spelled .initial source.toList fun _ _ => trivial).yields tokens hscan
  have hmakes := Parser.makes_type _ (Cursor.Of.ofTokens hspelled)
  have hok := mapError_eq_ok_iff.1 ((read_eq hscan).symm.trans hread)
  generalize Parser.type.outcome (Cursor.ofTokens tokens) = result at hmakes hok
  obtain ⟨result, c⟩ := result
  obtain rfl : result = .ok t := hok
  exact hmakes.2.isSpellable

end TypeExpr

namespace Ty

/-! ## The print as a written type -/

mutual

/-- How a type is written, without places. -/
def written : Ty → TypeExpr
  | prim p => .named .zero p.name []
  | param name => .named .zero name []
  | named name args => .named .zero name (writtenArgs args)
  | optional inner => .optional .zero inner.written
  | list inner => .list .zero inner.written

/-- How the arguments of a type are written, without places. -/
def writtenArgs : List Ty → List TypeExpr
  | [] => []
  | arg :: args => arg.written :: writtenArgs args

end

/-- Arguments are written one by one. -/
theorem writtenArgs_eq_map (args : List Ty) : writtenArgs args = args.map written := by
  induction args with
  | nil => rfl
  | cons arg args ih => rw [writtenArgs, ih, List.map_cons]

mutual

/-- The row of tokens that a type is printed as. -/
def glyphs : Ty → List Glyph
  | prim p => [.token (.name p.name)]
  | param name => [.token (.name name)]
  | named name args => .token (.name name) :: Glyph.spaced (glyphsOfArgs args)
  | optional inner => .token (.keyword .optional) :: .space :: Glyph.enclosed (!inner.isAtomic) inner.glyphs
  | list inner => .token (.keyword .list) :: .space :: Glyph.enclosed (!inner.isAtomic) inner.glyphs

/-- The rows of the arguments of a type. -/
def glyphsOfArgs : List Ty → List (List Glyph)
  | [] => []
  | arg :: args => Glyph.enclosed (!arg.isAtomic) arg.glyphs :: glyphsOfArgs args

end

/-- Arguments are printed one by one, in parentheses unless they are atomic. -/
theorem glyphsOfArgs_eq_map (args : List Ty) :
    glyphsOfArgs args = args.map fun arg => Glyph.enclosed (!arg.isAtomic) arg.glyphs := by
  induction args with
  | nil => rfl
  | cons arg args ih => rw [glyphsOfArgs, ih, List.map_cons]

/-- What holds of a type whenever it holds of the types in it holds of all types. -/
@[elab_as_elim]
theorem inductionOnParts {P : Ty → Prop} (t : Ty) (prim : ∀ p, P (.prim p))
    (named : ∀ name args, (∀ arg ∈ args, P arg) → P (.named name args)) (param : ∀ name, P (.param name))
    (optional : ∀ inner, P inner → P (.optional inner)) (list : ∀ inner, P inner → P (.list inner)) : P t :=
  @Ty.rec P (fun args => ∀ arg ∈ args, P arg) prim named param optional list (List.forall_mem_nil _)
    (fun _ _ harg hargs => List.forall_mem_cons.2 ⟨harg, hargs⟩) t

/-- Arguments of a type are printed as their glyphs, if each of them is. -/
theorem text_printArgs {args : List Ty} (h : ∀ arg ∈ args, arg.print.toList = Glyph.text arg.glyphs) :
    (printArgs args).toList = Glyph.text (Glyph.spaced (glyphsOfArgs args)) := by
  induction args with
  | nil => rfl
  | cons arg args ih =>
    obtain ⟨harg, hargs⟩ := List.forall_mem_cons.1 h
    rw [printArgs, glyphsOfArgs, Glyph.spaced_cons, Glyph.text_cons, Glyph.text_append, ← ih hargs,
      ← Glyph.text_enclosed _ harg, String.toList_append, String.toList_append, List.append_assoc]
    rfl

/-- A type is printed as its row of tokens. -/
theorem text_glyphs (t : Ty) : t.print.toList = Glyph.text t.glyphs := by
  induction t using inductionOnParts with
  | prim p => rw [print, glyphs, Glyph.text_cons, Glyph.chars, TokenKind.spelling]; exact (List.append_nil _).symm
  | param name => rw [print, glyphs, Glyph.text_cons, Glyph.chars, TokenKind.spelling]; exact (List.append_nil _).symm
  | named name args ih =>
    rw [print, glyphs, String.toList_append, text_printArgs ih, Glyph.text_cons, Glyph.chars, TokenKind.spelling]
  | optional inner ih | list inner ih =>
    rw [print, glyphs, String.toList_append, Glyph.text_enclosed _ ih]
    rfl

/-- A checked type starts with no number. -/
theorem unnumbered_glyphs (t : Ty) : Glyph.Unnumbered t.glyphs := by
  cases t <;> exact Glyph.unnumbered_token rfl _

/-- A checked type starts with a token. -/
theorem opens_glyphs (t : Ty) : Glyph.Opens t.glyphs := by
  cases t <;> exact .token (by rintro ⟨⟩) (by rintro b ⟨⟩) _

/-- The row of a type can be read if its tokens can. -/
theorem row_glyphs (t : Ty) (h : Legible t.glyphs) : Glyph.Row t.glyphs := by
  induction t using inductionOnParts with
  | prim | param => exact .token (Glyph.legible_token_iff.1 h).1 fun _ => rfl
  | named name args ih =>
    obtain ⟨hname, hargs⟩ := Glyph.legible_token_iff.1 h
    refine Glyph.Row.spacedAll (.token hname fun _ => rfl) fun part hpart => ?_
    have hlegible := Glyph.legible_spaced_iff.1 hargs part hpart
    rw [glyphsOfArgs_eq_map] at hpart
    obtain ⟨arg, harg, rfl⟩ := List.mem_map.1 hpart
    exact ⟨.enclosed _ (ih arg harg (Glyph.legible_enclosed_iff.1 hlegible)), arg.unnumbered_glyphs.enclosed _⟩
  | optional inner ih | list inner ih =>
    obtain ⟨hword, hinner⟩ := Glyph.legible_token_iff.1 h
    have hrow := ih (Glyph.legible_enclosed_iff.1 hinner)
    exact Glyph.Row.spaced (.token hword fun _ => rfl) (.enclosed _ hrow) (.inl (inner.unnumbered_glyphs.enclosed _))

/-! ## Reading the print -/

variable {f : Span → Span}

/-- A part is printed as an argument is written: as a name, or in parentheses. -/
theorem isArgument_glyphs {t : Ty} (h : TypeExpr.IsRead f t.glyphs t.written) :
    TypeExpr.IsArgument f (Glyph.enclosed (!t.isAtomic) t.glyphs) t.written := by
  cases t with
  | prim | param => exact .name ..
  | named name args =>
    cases args with
    | nil => exact .name ..
    | cons arg args => exact .grouped h (opens_glyphs _)
  | optional inner | list inner => exact .grouped h (opens_glyphs _)

/-- A type is read from the tokens that it is printed as. -/
theorem reads_glyphs (hf : ∀ a b, f a = f b) (t : Ty) : TypeExpr.IsRead f t.glyphs t.written := by
  induction t using inductionOnParts with
  | prim | param => exact TypeExpr.IsRead.named hf .zero _ (List.forall_mem_nil _)
  | named name args ih =>
    have hargs : ∀ part ∈ args.map fun arg => (Glyph.enclosed (!arg.isAtomic) arg.glyphs, arg.written),
        TypeExpr.IsArgument f part.1 part.2 :=
      List.forall_mem_map.2 fun arg harg => isArgument_glyphs (ih arg harg)
    have hread := TypeExpr.IsRead.named hf .zero name hargs
    rw [glyphs, written, glyphsOfArgs_eq_map, writtenArgs_eq_map]
    simpa only [List.map_map, Function.comp_def] using hread
  | optional inner ih => exact ((ih.enclosed inner.opens_glyphs _).prefixed hf .zero).1
  | list inner ih => exact ((ih.enclosed inner.opens_glyphs _).prefixed hf .zero).2

end Ty

namespace Registry

variable {r : Registry} {params : List String}

/-! ## What the print stands for -/

/-- A name that means a primitive is the name of the primitive. -/
theorem name_of_typeHead? {name : String} {p : Primitive} (h : r.typeHead? params name = some (.prim p)) :
    p.name = name := by
  unfold typeHead? at h
  split at h
  · cases h
  · split at h
    · rename_i hprim
      cases h
      exact Primitive.ofName?_eq_some_iff.1 hprim
    · obtain ⟨_, -, h⟩ := Option.map_eq_some_iff.1 h
      cases h

mutual

/-- **What a written type stands for is written as itself.** -/
theorem resolveType_written : (e : TypeExpr) → {t : Ty} → r.resolveType params e = .ok t →
    r.resolveType params t.written = .ok t
  | .named span name args, t, h => by
    obtain ⟨head, types, hhead, hlen, hargs, rfl⟩ := resolveType_named_eq_ok_iff.1 h
    cases head with
    | param => exact resolveType_named_eq_ok_iff.2 ⟨.param, [], hhead, rfl, rfl, rfl⟩
    | prim p =>
      obtain rfl := name_of_typeHead? hhead
      exact resolveType_named_eq_ok_iff.2 ⟨.prim p, [], hhead, rfl, rfl, rfl⟩
    | declared arity =>
      obtain ⟨hsame, hwritten⟩ := resolveTypes_written args hargs
      exact resolveType_named_eq_ok_iff.2 ⟨.declared arity, types, hhead, hsame.trans hlen, hwritten, rfl⟩
  | .optional span inner, t, h => by
    obtain ⟨type, htype, h⟩ := bind_eq_ok_iff.1 h
    obtain rfl := Except.ok.inj h
    exact bind_eq_ok_iff.2 ⟨type, resolveType_written inner htype, rfl⟩
  | .list span inner, t, h => by
    obtain ⟨type, htype, h⟩ := bind_eq_ok_iff.1 h
    obtain rfl := Except.ok.inj h
    exact bind_eq_ok_iff.2 ⟨type, resolveType_written inner htype, rfl⟩

/-- Types that are resolved are resolved again when they are written. -/
theorem resolveTypes_written : (es : List TypeExpr) → {ts : List Ty} → r.resolveTypes params es = .ok ts →
    (Ty.writtenArgs ts).length = es.length ∧ r.resolveTypes params (Ty.writtenArgs ts) = .ok ts
  | [], ts, h => by
    obtain rfl := Except.ok.inj h
    exact ⟨rfl, rfl⟩
  | e :: es, ts, h => by
    obtain ⟨t, ht, h⟩ := bind_eq_ok_iff.1 h
    obtain ⟨rest, hrest, h⟩ := bind_eq_ok_iff.1 h
    obtain rfl := Except.ok.inj h
    obtain ⟨hlen, hwritten⟩ := resolveTypes_written es hrest
    exact ⟨congrArg Nat.succ hlen,
      bind_eq_ok_iff.2 ⟨t, resolveType_written e ht, bind_eq_ok_iff.2 ⟨rest, hwritten, rfl⟩⟩⟩

end

mutual

/-- What a type with names stands for is printed with names. -/
theorem legible_of_resolveType : (e : TypeExpr) → {t : Ty} → e.isSpellable = true →
    r.resolveType params e = .ok t → Legible t.glyphs
  | .named span name args, t, hspellable, h => by
    obtain ⟨hname, hspellable⟩ := Bool.and_eq_true_iff.1 hspellable
    obtain ⟨head, types, hhead, -, hargs, rfl⟩ := resolveType_named_eq_ok_iff.1 h
    cases head with
    | param => exact Glyph.legible_token_iff.2 ⟨hname, Glyph.legible_nil⟩
    | prim p =>
      obtain rfl := name_of_typeHead? hhead
      exact Glyph.legible_token_iff.2 ⟨hname, Glyph.legible_nil⟩
    | declared arity =>
      have hlegible := legible_of_resolveTypes args hspellable hargs
      exact Glyph.legible_token_iff.2 ⟨hname, Glyph.legible_spaced_iff.2 hlegible⟩
  | .optional span inner, t, hspellable, h => by
    obtain ⟨type, htype, h⟩ := bind_eq_ok_iff.1 h
    obtain rfl := Except.ok.inj h
    have hlegible := legible_of_resolveType inner hspellable htype
    exact Glyph.legible_token_iff.2 ⟨trivial, Glyph.legible_enclosed_iff.2 hlegible⟩
  | .list span inner, t, hspellable, h => by
    obtain ⟨type, htype, h⟩ := bind_eq_ok_iff.1 h
    obtain rfl := Except.ok.inj h
    have hlegible := legible_of_resolveType inner hspellable htype
    exact Glyph.legible_token_iff.2 ⟨trivial, Glyph.legible_enclosed_iff.2 hlegible⟩

/-- Types that can be written and are resolved are legible when they are printed. -/
theorem legible_of_resolveTypes : (es : List TypeExpr) → {ts : List Ty} → TypeExpr.areSpellable es = true →
    r.resolveTypes params es = .ok ts → ∀ part ∈ Ty.glyphsOfArgs ts, Legible part
  | [], ts, _, h => by
    obtain rfl := Except.ok.inj h
    exact List.forall_mem_nil _
  | e :: es, ts, hspellable, h => by
    obtain ⟨hfirst, hmore⟩ := Bool.and_eq_true_iff.1 hspellable
    obtain ⟨t, ht, h⟩ := bind_eq_ok_iff.1 h
    obtain ⟨rest, hrest, h⟩ := bind_eq_ok_iff.1 h
    obtain rfl := Except.ok.inj h
    have hlegible := legible_of_resolveType e hfirst ht
    exact List.forall_mem_cons.2 ⟨Glyph.legible_enclosed_iff.2 hlegible, legible_of_resolveTypes es hmore hrest⟩

end

/-- Types at other places stand for the same. -/
theorem resolveType_of_relocate {f : Span → Span} {e e' : TypeExpr} {t : Ty} (h : e'.relocate f = e.relocate f)
    (he : r.resolveType params e = .ok t) : r.resolveType params e' = .ok t := by
  have hmoved := resolveType_relocate f r params e'
  rw [h, resolveType_relocate f r params e, he] at hmoved
  obtain ⟨t', ht', rfl⟩ := map_eq_ok_iff.1 hmoved.symm
  exact mapError_eq_ok_iff.1 ht'

end Registry

/-- **Checked types are printed faithfully:** the print of what a written type stands for is read, unless it is nested
too deeply, as a type that stands for the same.  All names in the written type have to be names, as they are in every
type that is read (`TypeExpr.isSpellable_of_read`). -/
theorem Ty.print_resolves_back (r : Registry) (params : List String) {e : TypeExpr} {t : Ty}
    (hspellable : e.isSpellable = true) (h : r.resolveType params e = .ok t) :
    (∃ span, TypeExpr.read t.print = .error (.parse (.tooDeep span))) ∨
      ∃ e', TypeExpr.read t.print = .ok e' ∧ r.resolveType params e' = .ok t := by
  have hrow := t.row_glyphs (Registry.legible_of_resolveType e hspellable h)
  obtain ⟨tokens, hscan, hkinds⟩ := exists_scan_row t.text_glyphs t.opens_glyphs.exists_cons
    (hrow.readable [] Glyph.bounded_nil) (hrow.depth 0)
  have hat := Cursor.at_ofTokens hkinds (List.append_ne_nil_of_right_ne_nil _ (List.cons_ne_nil _ _))
  have hends : TypeExpr.Ends .newline := ⟨by rintro _ ⟨⟩, by rintro ⟨⟩⟩
  have hread := t.reads_glyphs (f := fun _ => Span.zero) (fun _ _ => rfl) maxNesting .newline [.eof] hends
  rcases hread _ hat with ⟨span, c, hdeep⟩ | ⟨e', c, hok, -, he'⟩
  · exact .inl ⟨span, by rw [TypeExpr.read_eq hscan, Parser.type, hdeep]; rfl⟩
  · refine .inr ⟨e', by rw [TypeExpr.read_eq hscan, Parser.type, hok]; rfl, ?_⟩
    exact Registry.resolveType_of_relocate he' (Registry.resolveType_written e h)

/-- A registry with a type of two parameters. -/
def Registry.ofPairs : Registry := ⟨[⟨"pair", ["a", "b"], [], .zero⟩], [], []⟩

/-- A type with parentheses where they are needed, and with some that are not. -/
def nestedType : String := "optional list pair (optional list q) (pair (int) str)"

/-- A nested type with a parameter is printed, read back and resolved to itself. -/
theorem Ty.print_resolves_back_nested : ∃ e t e', TypeExpr.read nestedType = .ok e ∧ e.isSpellable = true ∧
    Registry.ofPairs.resolveType ["q"] e = .ok t ∧
    t.print = "optional (list (pair (optional (list q)) (pair int str)))" ∧
    TypeExpr.read t.print = .ok e' ∧ Registry.ofPairs.resolveType ["q"] e' = .ok t := by
  obtain ⟨e, he, htest⟩ := exists_ok_of_any (show (TypeExpr.read nestedType).toOption.any (fun e =>
    (Registry.ofPairs.resolveType ["q"] e).toOption.any fun t =>
      t.print == "optional (list (pair (optional (list q)) (pair int str)))" &&
        (TypeExpr.read t.print).toOption.isSome) = true by decide +kernel)
  obtain ⟨t, ht, htest⟩ := exists_ok_of_any htest
  obtain ⟨hprint, hshallow⟩ := Bool.and_eq_true_iff.1 htest
  have hspellable := TypeExpr.isSpellable_of_read he
  obtain ⟨span, hdeep⟩ | ⟨e', he', ht'⟩ := Ty.print_resolves_back Registry.ofPairs ["q"] hspellable ht
  · rw [hdeep] at hshallow
    cases hshallow
  · exact ⟨e, t, e', he, hspellable, ht, beq_iff_eq.1 hprint, he', ht'⟩

end TypedData
