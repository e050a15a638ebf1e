import TypedData.Proofs.Reading.Layout
import TypedData.Proofs.Reading.Names

/-!
# Documents that can be written

In a document that is read, names are words, texts are regular, and floats are finite if those of its text are.  So
every token of its lines can be read again (`Item.Made.legible_lines`), but for one kind of keys: the entries of a
block are written as arguments of its constructor, and the name of an argument is no text (`Data.namesArguments`).
-/

namespace TypedData

/-- Whether the token is no float, or one that is finite. -/
def TokenKind.isFinite : TokenKind → Bool
  | float x => x.isFinite
  | _ => true

/-- Whether all floats in the text are finite. -/
def hasFiniteFloats (source : String) : Bool :=
  (scan source).toOption.all fun tokens => tokens.all fun token => token.kind.isFinite

/-- Tokens with a spelling that is read as them. -/
def Material.legible : Material := .ofKinds (fun kind => kind.Spelled ∧ kind.isFinite = true) ⟨trivial, rfl⟩

open Glyph (Legible)
open Material (legible)

variable {levels left : Nat}

/-- Every text can be written as a literal. -/
theorem legible_text (text : String) : Legible [.token (.string (.plain text))] :=
  List.forall_mem_singleton.2 (Piece.regular_plain text)

/-! ## Types -/

/-- A type that is made of what can be written can be written. -/
theorem TypeExpr.Made.legible_glyphs {argument : Bool} {t : TypeExpr} (h : t.Made legible argument levels) :
    Legible t.glyphs := by
  induction h with
  | bare _ hname => exact List.forall_mem_singleton.2 hname.1
  | argument _ ih | grouped _ ih => exact ih
  | named _ hname _ ih =>
    refine Glyph.legible_token_iff.2 ⟨hname.1, Glyph.legible_spaced_iff.2 ?_⟩
    rw [glyphsOfArgs_eq_map]
    exact List.forall_mem_map.2 fun arg harg => Glyph.legible_enclosed_iff.2 (ih arg harg)
  | optional _ _ ih | list _ _ ih => exact Glyph.legible_token_iff.2 ⟨trivial, ih⟩

/-! ## Expressions -/

/-- An expression that is made of what can be written can be written. -/
theorem Expr.Made.legible_glyphs {e : Expr} (h : e.Made legible levels left) : Legible e.glyphs := by
  induction h with
  | int | null => exact List.forall_mem_singleton.2 trivial
  | @bool _ _ b => cases b <;> exact List.forall_mem_singleton.2 trivial
  | float _ hfinite => exact List.forall_mem_singleton.2 hfinite.2
  | str => exact legible_text _
  | name _ hname => exact List.forall_mem_singleton.2 hname.1
  | list _ _ ih =>
    rw [glyphs, glyphsOfItems_eq_map]
    exact Glyph.legible_bracketed_iff.2 (List.forall_mem_map.2 ih)
  | call _ hcallee hlabels _ ih =>
    rw [glyphs, glyphsOfArguments_eq_map]
    refine Glyph.legible_token_iff.2 ⟨hcallee.1,
      Glyph.legible_bracketed_iff.2 (List.forall_mem_map.2 fun arg harg => ?_)⟩
    exact Glyph.legible_labelled_iff.2 ⟨fun name hname => (hlabels arg harg name hname).1, ih arg harg⟩
  | unary _ _ ih => exact legible_unary ih
  | grouped _ ih | less _ ih => exact ih
  | field _ hname _ ih =>
    exact Glyph.legible_append_iff.2 ⟨Glyph.legible_enclosed_iff.2 ih,
      Glyph.legible_token_iff.2 ⟨trivial, List.forall_mem_singleton.2 hname.1⟩⟩
  | @binary _ _ _ op _ _ _ _ _ ihl ihr =>
    exact Glyph.legible_append_iff.2 ⟨Glyph.legible_enclosed_iff.2 ihl,
      Glyph.legible_token_iff.2 ⟨op.legible_kind, Glyph.legible_enclosed_iff.2 ihr⟩⟩

/-! ## Data -/

namespace Data

mutual

/-- Whether the keys in every block of a constructor are names, as those of arguments have to be. -/
def namesArguments : Data → Bool
  | list _ items | dashList _ items | listBlock _ _ items => allNameArgumentsOfItems items
  | call _ _ args => allNameArgumentsOfArguments args
  | record _ entries | fieldBlock _ entries | dashRecord _ entries => allNameArgumentsOfEntries entries
  | ctorBlock _ _ entries => entries.all (isName ·.key) && allNameArgumentsOfEntries entries
  | _ => true

/-- Whether the keys in every block of a constructor in the items are names. -/
def allNameArgumentsOfItems : List Data → Bool
  | [] => true
  | d :: ds => d.namesArguments && allNameArgumentsOfItems ds

/-- Whether the keys in every block of a constructor in the arguments are names. -/
def allNameArgumentsOfArguments : List (Argument Data) → Bool
  | [] => true
  | ⟨_, d⟩ :: args => d.namesArguments && allNameArgumentsOfArguments args

/-- Whether the keys in every block of a constructor in the entries are names. -/
def allNameArgumentsOfEntries : List (Entry Data) → Bool
  | [] => true
  | ⟨_, _, d⟩ :: entries => d.namesArguments && allNameArgumentsOfEntries entries

end

/-- Items that are made of what can be written can be written, if they name their arguments. -/
theorem legible_glyphsOfItems {ds : List Data} (hnames : allNameArgumentsOfItems ds = true)
    (h : ∀ d ∈ ds, d.namesArguments = true → Legible d.glyphs) : ∀ part ∈ glyphsOfItems ds, Legible part := by
  induction ds with
  | nil => exact List.forall_mem_nil _
  | cons d ds ih =>
    obtain ⟨hd, hds⟩ := List.forall_mem_cons.1 h
    obtain ⟨hname, hnames⟩ := Bool.and_eq_true_iff.1 hnames
    exact List.forall_mem_cons.2 ⟨hd hname, ih hnames hds⟩

/-- Arguments that are made of what can be written can be written, if they name their own arguments. -/
theorem legible_glyphsOfArguments {args : List (Argument Data)} (hnames : allNameArgumentsOfArguments args = true)
    (hlabels : ∀ arg ∈ args, legible.Labels arg.name)
    (h : ∀ arg ∈ args, arg.value.namesArguments = true → Legible arg.value.glyphs) :
    ∀ part ∈ glyphsOfArguments args, Legible part := by
  induction args with
  | nil => exact List.forall_mem_nil _
  | cons arg args ih =>
    obtain ⟨hlabel, hlabels⟩ := List.forall_mem_cons.1 hlabels
    obtain ⟨harg, hargs⟩ := List.forall_mem_cons.1 h
    obtain ⟨hname, hnames⟩ := Bool.and_eq_true_iff.1 hnames
    have hmore := ih hnames hlabels hargs
    obtain ⟨label, d⟩ := arg
    cases label with
    | none => exact List.forall_mem_cons.2 ⟨harg hname, hmore⟩
    | some name =>
      have hpart := Glyph.legible_labelled_iff.2 ⟨fun n hn => (hlabel n hn).1, harg hname⟩
      exact List.forall_mem_cons.2 ⟨hpart, hmore⟩

/-- Entries that are made of what can be written can be written, if they name their arguments. -/
theorem legible_glyphsOfEntries {key : String → TokenKind} {entries : List (Entry Data)}
    (hkeys : ∀ e ∈ entries, (key e.key).Legible) (hnames : allNameArgumentsOfEntries entries = true)
    (h : ∀ e ∈ entries, e.value.namesArguments = true → Legible e.value.glyphs) :
    ∀ part ∈ glyphsOfEntries key entries, Legible part := by
  induction entries with
  | nil => exact List.forall_mem_nil _
  | cons e entries ih =>
    obtain ⟨hkey, hkeys⟩ := List.forall_mem_cons.1 hkeys
    obtain ⟨he, hentries⟩ := List.forall_mem_cons.1 h
    obtain ⟨hname, hnames⟩ := Bool.and_eq_true_iff.1 hnames
    have hpart : Legible (labelGlyphs (key e.key) ++ e.value.glyphs) :=
      Glyph.legible_token_iff.2 ⟨hkey, Glyph.legible_token_iff.2 ⟨trivial, he hname⟩⟩
    exact List.forall_mem_cons.2 ⟨hpart, ih hkeys hnames hentries⟩

/-- Data that is made of what can be written can be written, if it names its arguments. -/
theorem Made.legible_glyphs {item : Bool} {d : Data} (h : d.Made legible item levels)
    (hnames : d.namesArguments = true) : Legible d.glyphs := by
  induction h with
  | int | null => exact List.forall_mem_singleton.2 trivial
  | @bool _ _ b => cases b <;> exact List.forall_mem_singleton.2 trivial
  | float _ hfinite => exact List.forall_mem_singleton.2 hfinite.2
  | str => exact legible_text _
  | list _ _ ih | dashList _ _ ih => exact Glyph.legible_bracketed_iff.2 (legible_glyphsOfItems hnames ih)
  | call _ hctor hlabels _ ih =>
    exact Glyph.legible_token_iff.2
      ⟨hctor.1, Glyph.legible_bracketed_iff.2 (legible_glyphsOfArguments hnames hlabels ih)⟩
  | record _ _ _ ih | fieldBlock _ _ _ ih | dashRecord _ _ _ _ ih =>
    exact Glyph.legible_bracketed_iff.2
      (legible_glyphsOfEntries (fun e _ => legible_keyKind e.key) hnames ih)
  | reference _ hname hpath =>
    have hpath := Parser.legible_path fun field hfield => (hpath field hfield).1
    exact Glyph.legible_token_iff.2 ⟨trivial, Glyph.legible_token_iff.2 ⟨hname.1, hpath⟩⟩
  | ctorBlock _ hctor _ _ ih =>
    obtain ⟨hkeys, hnames⟩ := Bool.and_eq_true_iff.1 hnames
    exact Glyph.legible_token_iff.2 ⟨hctor.1, Glyph.legible_bracketed_iff.2
      (legible_glyphsOfEntries (List.all_eq_true.1 hkeys) hnames ih)⟩
  | listBlock _ hctor _ ih =>
    exact Glyph.legible_token_iff.2 ⟨hctor.1, Glyph.legible_bracketed_iff.2
      (List.forall_mem_singleton.2 (Glyph.legible_bracketed_iff.2 (legible_glyphsOfItems hnames ih)))⟩
  | item _ ih => exact ih hnames

end Data

/-! ## Items -/

/-- Names of constructors can be written. -/
theorem legible_constructorGlyphs {ctors : List String} (h : ∀ name ∈ ctors, legible.kind (.name name)) :
    Legible (constructorGlyphs ctors) :=
  Glyph.legible_bracketed_iff.2 (List.forall_mem_map.2 fun name hname => List.forall_mem_singleton.2 (h name hname).1)

/-- Conditions that are made of what can be written can be written. -/
theorem legible_conditions {es : List Expr} (h : ∀ e ∈ es, e.Made legible maxNesting 0) :
    Legible (Glyph.commas (es.map Expr.glyphs)) :=
  Glyph.legible_commas_iff.2 (List.forall_mem_map.2 fun e he => (h e he).legible_glyphs)

/-- A scope can be written if its names can. -/
theorem Scope.legible_glyphs {scope : Scope} (h : ∀ name ∈ scope.names, legible.kind (.name name)) :
    Legible scope.glyphs := by
  cases scope with
  | all => exact Glyph.legible_nil
  | only ctors | except ctors => exact Glyph.legible_token_iff.2 ⟨trivial, legible_constructorGlyphs h⟩

/-- A clause that is made of what can be written can be written. -/
theorem WhereClause.Made.legible_glyphs {clause : WhereClause} (h : clause.Made legible) : Legible clause.glyphs :=
  Glyph.legible_append_iff.2
    ⟨Glyph.legible_token_iff.2 ⟨trivial, legible_conditions h.conditions⟩, Scope.legible_glyphs h.scope⟩

/-- A field that is made of what can be written can be written. -/
theorem FieldDecl.Made.legible_glyphs {field : FieldDecl} (h : field.Made legible) : Legible field.glyphs :=
  Glyph.legible_labelled_iff.2 ⟨fun name hname => (h.name name hname).1, h.type.legible_glyphs⟩

/-- A constructor that is made of what can be written can be written. -/
theorem CtorDecl.Made.legible_glyphs {ctor : CtorDecl} (h : ctor.Made legible) : Legible ctor.glyphs :=
  Glyph.legible_token_iff.2 ⟨h.name.1, Glyph.legible_bracketed_iff.2
    (List.forall_mem_map.2 fun field hfield => (h.fields field hfield).legible_glyphs)⟩

/-- A declaration that is made of what can be written has lines that can be written. -/
theorem TypeDecl.Made.legible_lines {decl : TypeDecl} (h : decl.Made legible) :
    ∀ line ∈ decl.lines, Legible line.glyphs := by
  have hnames : ∀ name ∈ decl.name :: decl.params, Legible [.token (.name name)] :=
    List.forall_mem_cons.2 ⟨List.forall_mem_singleton.2 h.name.1,
      fun name hname => List.forall_mem_singleton.2 (h.params name hname).1⟩
  refine List.forall_mem_cons.2 ⟨Glyph.legible_token_iff.2 ⟨trivial, Glyph.legible_spaced_iff.2 ?_⟩,
    List.forall_mem_map.2 fun part hpart => ?_⟩
  · exact List.forall_mem_append.2
      ⟨List.forall_mem_map.2 hnames, List.forall_mem_singleton.2 (List.forall_mem_singleton.2 trivial)⟩
  · rcases List.mem_append.1 hpart with hpart | hpart
    · obtain ⟨ctor, hctor, rfl⟩ := List.mem_map.1 hpart
      exact (h.ctors ctor hctor).legible_glyphs
    · obtain ⟨clause, hclause, rfl⟩ := List.mem_map.1 hpart
      exact (h.clause hclause).legible_glyphs

/-- A rule that is made of what can be written can be written. -/
theorem RuleDecl.Made.legible_glyphs {rule : RuleDecl} (h : rule.Made legible) : Legible rule.glyphs := by
  refine Glyph.legible_append_iff.2 ⟨Glyph.legible_token_iff.2 ⟨h.template.1,
    Glyph.legible_token_iff.2 ⟨trivial, h.target.legible_glyphs⟩⟩, ?_⟩
  unfold guardGlyphs
  split
  · exact Glyph.legible_nil
  · exact Glyph.legible_token_iff.2 ⟨trivial, legible_conditions h.guards⟩

/-- A binding that is made of what can be written can be written, if its data names its arguments. -/
theorem Binding.Made.legible_glyphs {b : Binding} (h : b.Made legible) (hnames : b.value.namesArguments = true) :
    Legible b.glyphs := by
  refine Glyph.legible_append_iff.2 ⟨?_, Glyph.legible_token_iff.2 ⟨trivial, h.value.legible_glyphs hnames⟩⟩
  unfold nameGlyphs
  split
  · rename_i type htype
    exact Glyph.legible_token_iff.2 ⟨h.name.1, Glyph.legible_token_iff.2 ⟨trivial, (h.type type htype).legible_glyphs⟩⟩
  · exact List.forall_mem_singleton.2 h.name.1

/-- **The tokens of the lines of an item can be read,** if the keys in its blocks of constructors are names. -/
theorem Item.Made.legible_lines {item : Item} (h : item.Made legible)
    (hnames : ∀ d ∈ item.data, d.namesArguments = true) :
    ∀ line ∈ item.lines, Legible line.glyphs := by
  cases item with
  | type decl => exact TypeDecl.Made.legible_lines h
  | rule rule => exact List.forall_mem_singleton.2 (RuleDecl.Made.legible_glyphs h)
  | binding b =>
    exact List.forall_mem_singleton.2 (Binding.Made.legible_glyphs h (hnames b.value (.head _)))
  | value d => exact List.forall_mem_singleton.2 (Data.Made.legible_glyphs h (hnames d (.head _)))

/-! ## Documents -/

/-- A document that is read from a text has only finite floats if the text has. -/
theorem Document.made_legible {source : String} {d : Document} (hread : read source = .ok d)
    (hfinite : hasFiniteFloats source = true) : d.Made legible := by
  obtain ⟨tokens, hscan, hparse⟩ := bind_eq_ok_iff.1 hread
  have hscan := mapError_eq_ok_iff.1 hscan
  have hspelled := (ends_scanFrom lexical_spelled .initial source.toList fun _ _ => trivial).yields tokens hscan
  rw [hasFiniteFloats, hscan] at hfinite
  have htokens : ∀ token ∈ tokens, legible.Holds token := fun token htoken =>
    ⟨⟨(hspelled token htoken).kind, List.all_eq_true.1 hfinite token htoken⟩, trivial, trivial⟩
  exact (ends_parse htokens).yields d (mapError_eq_ok_iff.1 hparse)

end TypedData
