import TypedData.Proofs.Canonical.Printing
import TypedData.Proofs.Reading.Expressions
import TypedData.Proofs.Reading.Material
import TypedData.Proofs.Reading.Types

/-!
# The lines of a document

A document in canonical form is written as lines (`Document.lines`), one an item, but for the declaration of a type:
under its first line, each constructor and each clause has an indented line of its own.  The lines are read as they
are written if their tokens can be read (`Item.readable_lines`).
-/

namespace TypedData

/-- How the names of constructors are written, in a scope. -/
def constructorGlyphs (ctors : List String) : List Glyph :=
  Glyph.bracketed .brace (ctors.map fun name => [.token (.name name)])

/-- The row of tokens that a scope is written as, with the space before it. -/
def Scope.glyphs : Scope → List Glyph
  | all => []
  | only ctors => .space :: .token (.keyword .for) :: .space :: constructorGlyphs ctors
  | except ctors => .space :: .token (.keyword .except) :: .space :: constructorGlyphs ctors

/-- The row of tokens that a clause is written as. -/
def WhereClause.glyphs (clause : WhereClause) : List Glyph :=
  .token (.keyword .where) :: .space :: Glyph.commas (clause.conditions.map Expr.glyphs) ++ clause.scope.glyphs

/-- The row of tokens that a field is written as. -/
def FieldDecl.glyphs (field : FieldDecl) : List Glyph := Glyph.labelled field.name field.type.glyphs

/-- The constructor without the conditions directly after it. -/
def CtorDecl.bare (ctor : CtorDecl) : CtorDecl := { ctor with inlineWhere := none }

/-- The row of tokens that a constructor is written as, without conditions. -/
def CtorDecl.glyphs (ctor : CtorDecl) : List Glyph :=
  .token (.name ctor.name) :: .space :: Glyph.bracketed .brace (ctor.fields.map FieldDecl.glyphs)

namespace TypeDecl

/-- The row of tokens before the constructors of a type. -/
def header (decl : TypeDecl) : List Glyph :=
  .token (.keyword .type) ::
    Glyph.spaced ((decl.name :: decl.params).map (fun name => [.token (.name name)]) ++ [[.token (.mark .equals)]])

/-- What the block of a type holds, one a line: its constructors and its clauses. -/
def block (decl : TypeDecl) : List (CtorDecl ⊕ WhereClause) :=
  decl.ctors.map .inl ++ decl.canonical.clauses.map .inr

/-- The row of tokens of a line of a block. -/
def lineGlyphs : CtorDecl ⊕ WhereClause → List Glyph := Sum.elim CtorDecl.glyphs WhereClause.glyphs

/-- The lines of the declaration of a type. -/
def lines (decl : TypeDecl) : List Line := ⟨false, decl.header⟩ :: decl.block.map fun part => ⟨true, lineGlyphs part⟩

end TypeDecl

/-- The row of tokens that guards are written as, with the space before it. -/
def guardGlyphs (guards : List Expr) : List Glyph :=
  if guards.isEmpty then [] else .space :: .token (.keyword .where) :: .space :: Glyph.commas (guards.map Expr.glyphs)

/-- The row of tokens that a rule is written as. -/
def RuleDecl.glyphs (rule : RuleDecl) : List Glyph :=
  .token (.string rule.template) :: .space :: .token (.mark .arrow) :: .space :: rule.target.glyphs ++
    guardGlyphs rule.guards

/-- The row of tokens of the name of a binding, and of the type after it, if there is one. -/
def Binding.nameGlyphs (b : Binding) : List Glyph :=
  match b.type with
  | some type => labelGlyphs (.name b.name) ++ type.glyphs
  | none => [.token (.name b.name)]

/-- The row of tokens that a binding is written as. -/
def Binding.glyphs (b : Binding) : List Glyph :=
  b.nameGlyphs ++ .space :: .token (.mark .define) :: .space :: b.value.glyphs

/-- The lines that the canonical form of an item is written as. -/
def Item.lines : Item → List Line
  | type decl => decl.lines
  | rule decl => [⟨false, decl.glyphs⟩]
  | binding b => [⟨false, b.glyphs⟩]
  | value d => [⟨false, d.glyphs⟩]

/-- The lines that the canonical form of a document is written as. -/
def Document.lines (d : Document) : List Line := d.items.flatMap Item.lines

/-! ## Texts -/

/-- Names of constructors in braces are written as their glyphs. -/
theorem text_constructorGlyphs (ctors : List String) :
    ("\x7b" ++ commaSeparated ctors ++ "\x7d").toList = Glyph.text (constructorGlyphs ctors) := by
  refine Glyph.text_bracketed .brace ?_
  rw [List.map_map]
  exact List.map_congr_left fun name _ => (List.append_nil name.toList).symm

/-- A scope is printed as its glyphs. -/
theorem Scope.text_glyphs (scope : Scope) : scope.print.toList = Glyph.text scope.glyphs := by
  cases scope with
  | all => rfl
  | only ctors | except ctors =>
    rw [glyphs, Glyph.text_cons, Glyph.text_cons, Glyph.text_cons, ← text_constructorGlyphs, print]
    simp [Glyph.chars, TokenKind.spelling, Keyword.spelling]

/-- Conditions are written with commas between them. -/
theorem text_conditions (es : List Expr) :
    (Expr.printAll es).toList = Glyph.text (Glyph.commas (es.map Expr.glyphs)) :=
  Glyph.text_commaSeparated (Glyph.map_toList_eq fun e _ => e.text_glyphs)

/-- A clause is printed as its glyphs. -/
theorem WhereClause.text_glyphs (clause : WhereClause) : clause.print.toList = Glyph.text clause.glyphs := by
  rw [print, glyphs, Glyph.text_append, String.toList_append, String.toList_append, clause.scope.text_glyphs,
    text_conditions]
  rfl

/-- A field is printed as its glyphs. -/
theorem FieldDecl.text_glyphs (field : FieldDecl) : field.print.toList = Glyph.text field.glyphs :=
  Glyph.text_labelled field.name field.type.text_glyphs

/-- A constructor without its conditions is printed as its glyphs. -/
theorem CtorDecl.text_glyphs (ctor : CtorDecl) : ctor.bare.print.toList = Glyph.text ctor.glyphs := by
  have hfields := Glyph.text_bracketed .brace (Glyph.map_toList_eq fun field (_ : field ∈ ctor.fields) =>
    field.text_glyphs)
  rw [glyphs, Glyph.text_cons, Glyph.text_cons, ← hfields, print]
  simp [bare, Glyph.chars, TokenKind.spelling, Bracket.opening, Bracket.closing, Mark.spelling]

namespace TypeDecl

variable (decl : TypeDecl)

/-- Words with a space between them, after a space. -/
theorem space_intercalate (word : List Char) (words : List (List Char)) :
    ' ' :: [' '].intercalate (word :: words) = (word :: words).flatMap (' ' :: ·) := by
  induction words generalizing word with
  | nil => simp
  | cons next words ih => rw [List.flatMap_cons, ← ih next, List.intercalate_cons_cons, List.append_assoc]; rfl

/-- The header of a declaration is printed as its glyphs. -/
theorem text_header :
    ("type " ++ String.intercalate " " (decl.name :: decl.params) ++ " =").toList = Glyph.text decl.header := by
  have hwords := space_intercalate decl.name.toList (decl.params.map String.toList)
  have hnames : ((decl.name :: decl.params).map fun name => Glyph.text [.token (.name name)]) =
      (decl.name :: decl.params).map String.toList :=
    List.map_congr_left fun name _ => List.append_nil name.toList
  rw [header, Glyph.text_cons, Glyph.text_spaced, List.map_append, List.map_map]
  change _ = _ ++ (((decl.name :: decl.params).map fun name => Glyph.text [.token (.name name)]) ++ _).flatMap _
  rw [hnames, List.flatMap_append, List.map_cons, ← hwords]
  simp [Glyph.chars, TokenKind.spelling, Keyword.spelling, Mark.spelling, String.toList_intercalate]

/-- The lines of a block are written one under another. -/
theorem text_under {X : Type} {print : X → String} {gs : X → List Glyph} (xs : List X)
    (h : ∀ x, (print x).toList = Glyph.text (gs x)) (rest : List Char) :
    (String.join (xs.map (lineStart ++ print ·))).toList ++ '\n' :: rest =
      '\n' :: (Line.text (xs.map fun x => ⟨true, gs x⟩) ++ rest) := by
  induction xs with
  | nil => rfl
  | cons x xs ih =>
    have hjoin : (String.join ((x :: xs).map (lineStart ++ print ·))).toList =
        lineStart.toList ++ (print x).toList ++ (String.join (xs.map (lineStart ++ print ·))).toList := by
      simp [String.toList_join]
    have hstart : lineStart.toList = '\n' :: List.replicate Line.indentation ' ' := rfl
    rw [hjoin, List.append_assoc, ih, h, hstart]
    simp [Line.text, Line.chars]

/-- The canonical form of a declaration is printed as its lines. -/
theorem text_lines : (decl.canonical.print ++ "\n").toList = Line.text decl.lines := by
  have hclauses := text_under decl.canonical.clauses WhereClause.text_glyphs []
  have hctors := text_under decl.ctors CtorDecl.text_glyphs
    (Line.text (decl.canonical.clauses.map fun clause => ⟨true, clause.glyphs⟩) ++ [])
  have hblock : Line.text (decl.block.map fun part => ⟨true, lineGlyphs part⟩) =
      Line.text (decl.ctors.map fun ctor => ⟨true, ctor.glyphs⟩) ++
        Line.text (decl.canonical.clauses.map fun clause => ⟨true, clause.glyphs⟩) := by
    rw [block, List.map_append, List.map_map, List.map_map, Line.text, List.flatMap_append]
    rfl
  have hlines : Line.text decl.lines =
      Glyph.text decl.header ++ '\n' :: Line.text (decl.block.map fun part => ⟨true, lineGlyphs part⟩) := by
    rw [lines, Line.text, List.flatMap_cons, Line.chars, ← Line.text]
    simp
  have hprint : decl.canonical.print = "type " ++ String.intercalate " " (decl.name :: decl.params) ++ " =" ++
      (String.join (decl.ctors.map (lineStart ++ ·.bare.print)) ++
        String.join (decl.canonical.clauses.map (lineStart ++ ·.print))) := by
    rw [print, canonical]
    dsimp only
    rw [List.map_map]
    rfl
  rw [List.append_nil] at hctors hclauses
  rw [hlines, hblock, ← text_header, hprint]
  generalize "type " ++ String.intercalate " " (decl.name :: decl.params) ++ " =" = start
  rw [String.toList_append, String.toList_append, String.toList_append, List.append_assoc, List.append_assoc]
  exact congrArg _ ((congrArg _ hclauses).trans hctors)

end TypeDecl

/-- A rule is printed as its glyphs. -/
theorem RuleDecl.text_glyphs (rule : RuleDecl) : rule.print.toList = Glyph.text rule.glyphs := by
  have hguards : (if rule.guards.isEmpty then "" else " where " ++ Expr.printAll rule.guards).toList =
      Glyph.text (guardGlyphs rule.guards) := by
    unfold guardGlyphs
    split
    · rfl
    · rw [String.toList_append, text_conditions]
      rfl
  rw [print, glyphs, String.toList_append, hguards, String.toList_append, rule.target.text_glyphs]
  simp [Glyph.chars, TokenKind.spelling, Mark.spelling]

/-- Data is printed as its glyphs. -/
theorem Data.text_glyphs (d : Data) : d.print.toList = Glyph.text d.glyphs :=
  (Parser.shows_canonical (f := fun _ => .zero) (fun _ _ => rfl) d).text

/-- A binding is printed as its glyphs. -/
theorem Binding.text_glyphs (b : Binding) : b.print.toList = Glyph.text b.glyphs := by
  obtain ⟨name, type, value, span⟩ := b
  cases type with
  | none =>
    simp [print, glyphs, nameGlyphs, value.text_glyphs, Glyph.chars, TokenKind.spelling, Mark.spelling]
  | some type =>
    simp [print, glyphs, nameGlyphs, value.text_glyphs, type.text_glyphs, labelGlyphs, Glyph.chars,
      TokenKind.spelling, Mark.spelling]

/-- An item in canonical form is written as its lines. -/
theorem Item.text_lines (item : Item) : (item.canonical.print ++ "\n").toList = Line.text item.lines := by
  have hline : ∀ {text : String} {gs : List Glyph}, text.toList = Glyph.text gs →
      (text ++ "\n").toList = Line.text [⟨false, gs⟩] := by
    intro text gs h
    rw [String.toList_append, h]
    exact (List.append_nil _).symm
  cases item with
  | type decl => exact decl.text_lines
  | rule decl => exact hline decl.text_glyphs
  | binding b =>
    have hprint : (binding b).canonical.print = b.print := Item.print_canonical (by rintro decl ⟨⟩)
    rw [hprint]
    exact hline b.text_glyphs
  | value d =>
    have hprint : (value d).canonical.print = d.print := d.print_canonical
    rw [hprint]
    exact hline d.text_glyphs

/-- **A document in canonical form is written as its lines.** -/
theorem Document.text_lines (d : Document) : d.canonical.print.toList = Line.text d.lines := by
  rw [print, canonical, List.map_map, String.toList_join, List.flatMap_map, lines, Line.text, List.flatMap_assoc]
  exact List.flatMap_congr fun item _ => item.text_lines

/-! ## Rows -/

/-- Rows with commas between them, after a word that no value ends with. -/
theorem Glyph.Row.list {kind : TokenKind} {parts : List (List Glyph)} (hkind : kind.Legible)
    (hdepth : ∀ depth, ScanState.depthAfter depth kind = depth) (hends : kind.endsValue = false)
    (hparts : ∀ part ∈ parts, Row part) : Row (.token kind :: .space :: Glyph.commas parts) :=
  (Row.token hkind hdepth).spaced (.commas hparts) (.inr hends)

/-- Names of constructors in braces are a row. -/
theorem row_constructorGlyphs {ctors : List String} (h : Glyph.Legible (constructorGlyphs ctors)) :
    Glyph.Row (constructorGlyphs ctors) := by
  refine .bracketed _ fun part hpart => ?_
  have hlegible := Glyph.legible_bracketed_iff.1 h part hpart
  obtain ⟨name, -, rfl⟩ := List.mem_map.1 hpart
  exact .token (Glyph.legible_token_iff.1 hlegible).1 fun _ => rfl

/-- A scope may be written after any row. -/
theorem Scope.row_append {scope : Scope} {gs : List Glyph} (h : Glyph.Row gs) (hlegible : Glyph.Legible scope.glyphs) :
    Glyph.Row (gs ++ scope.glyphs) := by
  cases scope with
  | all => rwa [glyphs, List.append_nil]
  | only ctors | except ctors =>
    obtain ⟨hword, hctors⟩ := Glyph.legible_token_iff.1 (Glyph.legible_space_iff.1 hlegible)
    have hscope := (Glyph.Row.token hword fun _ => rfl).spaced (row_constructorGlyphs hctors) (.inr rfl)
    exact h.spaced hscope (.inl (Glyph.unnumbered_token rfl _))

/-- Each condition of several is a row. -/
theorem row_conditions {es : List Expr} (hlegible : Glyph.Legible (Glyph.commas (es.map Expr.glyphs))) :
    ∀ part ∈ es.map Expr.glyphs, Glyph.Row part := by
  intro part hpart
  have hpartLegible := Glyph.legible_commas_iff.1 hlegible part hpart
  obtain ⟨e, -, rfl⟩ := List.mem_map.1 hpart
  exact Expr.row_glyphs hpartLegible

/-- A clause is a row. -/
theorem WhereClause.row_glyphs {clause : WhereClause} (hlegible : Glyph.Legible clause.glyphs) :
    Glyph.Row clause.glyphs := by
  obtain ⟨hconditions, hscope⟩ := Glyph.legible_append_iff.1 hlegible
  obtain ⟨hword, hconditions⟩ := Glyph.legible_token_iff.1 hconditions
  exact Scope.row_append (.list hword (fun _ => rfl) rfl (row_conditions hconditions)) hscope

/-- A field is a row. -/
theorem FieldDecl.row_glyphs {field : FieldDecl} (hlegible : Glyph.Legible field.glyphs) : Glyph.Row field.glyphs := by
  obtain ⟨hname, htype⟩ := Glyph.legible_labelled_iff.1 hlegible
  exact .labelledBy _ hname (field.type.row_glyphs htype)

/-- A constructor is a row. -/
theorem CtorDecl.row_glyphs {ctor : CtorDecl} (hlegible : Glyph.Legible ctor.glyphs) : Glyph.Row ctor.glyphs := by
  obtain ⟨hname, hfields⟩ := Glyph.legible_token_iff.1 hlegible
  refine (Glyph.Row.token hname fun _ => rfl).spaced (.bracketed .brace fun part hpart => ?_)
    (.inl (Glyph.unnumbered_token rfl _))
  have hpartLegible := Glyph.legible_bracketed_iff.1 hfields part hpart
  obtain ⟨field, -, rfl⟩ := List.mem_map.1 hpart
  exact field.row_glyphs hpartLegible

/-- The header of a declaration is a row. -/
theorem TypeDecl.row_header {decl : TypeDecl} (hlegible : Glyph.Legible decl.header) : Glyph.Row decl.header := by
  obtain ⟨hword, hparts⟩ := Glyph.legible_token_iff.1 hlegible
  refine Glyph.Row.spacedAll (.token hword fun _ => rfl) fun part hpart => ?_
  have hpartLegible := Glyph.legible_spaced_iff.1 hparts part hpart
  rcases List.mem_append.1 hpart with hpart | hpart
  · obtain ⟨name, -, rfl⟩ := List.mem_map.1 hpart
    exact ⟨.token (Glyph.legible_token_iff.1 hpartLegible).1 fun _ => rfl, Glyph.unnumbered_token rfl _⟩
  · obtain rfl := List.mem_singleton.1 hpart
    exact ⟨.token trivial fun _ => rfl, Glyph.unnumbered_token rfl _⟩

/-- A rule is a row. -/
theorem RuleDecl.row_glyphs {rule : RuleDecl} (hlegible : Glyph.Legible rule.glyphs) : Glyph.Row rule.glyphs := by
  obtain ⟨hhead, hguardGlyphs⟩ := Glyph.legible_append_iff.1 hlegible
  obtain ⟨htemplate, hhead⟩ := Glyph.legible_token_iff.1 hhead
  obtain ⟨harrow, htargetGlyphs⟩ := Glyph.legible_token_iff.1 (Glyph.legible_space_iff.1 hhead)
  have hrow := (Glyph.Row.token htemplate fun _ => rfl).spaced
    ((Glyph.Row.token harrow fun _ => rfl).spaced (Expr.row_glyphs htargetGlyphs) (.inr rfl))
    (.inl (Glyph.unnumbered_token rfl _))
  unfold glyphs guardGlyphs
  unfold guardGlyphs at hguardGlyphs
  split
  · rwa [List.append_nil]
  · rename_i hsome
    rw [if_neg hsome] at hguardGlyphs
    obtain ⟨hword, hconditions⟩ := Glyph.legible_token_iff.1 (Glyph.legible_space_iff.1 hguardGlyphs)
    exact hrow.spaced (.list hword (fun _ => rfl) rfl (row_conditions hconditions))
      (.inl (Glyph.unnumbered_token rfl _))

/-- The name of a binding, with its type, is a row. -/
theorem Binding.row_nameGlyphs {b : Binding} (hlegible : Glyph.Legible b.nameGlyphs) : Glyph.Row b.nameGlyphs := by
  unfold nameGlyphs at hlegible ⊢
  split at hlegible
  · obtain ⟨hname, htype⟩ := Glyph.legible_append_iff.1 hlegible
    exact .labelled (hname _ (.head _)) (fun _ => rfl) (TypeExpr.row_glyphs _ htype)
  · exact .token (Glyph.legible_token_iff.1 hlegible).1 fun _ => rfl

/-- Data is a row. -/
theorem Data.row_glyphs {d : Data} (hlegible : Glyph.Legible d.glyphs) : Glyph.Row d.glyphs :=
  (Parser.shows_canonical (f := fun _ => .zero) (fun _ _ => rfl) d).row hlegible

/-- A binding is a row. -/
theorem Binding.row_glyphs {b : Binding} (hlegible : Glyph.Legible b.glyphs) : Glyph.Row b.glyphs := by
  obtain ⟨hname, hvalue⟩ := Glyph.legible_append_iff.1 hlegible
  obtain ⟨hdefine, hvalue⟩ := Glyph.legible_token_iff.1 (Glyph.legible_space_iff.1 hvalue)
  exact (row_nameGlyphs hname).spaced
    ((Glyph.Row.token hdefine fun _ => rfl).spaced (Data.row_glyphs hvalue) (.inr rfl))
    (.inl (Glyph.unnumbered_token rfl _))

/-- A binding starts with a token. -/
theorem Binding.starts_glyphs (b : Binding) : ∃ kind gs, b.glyphs = .token kind :: gs := by
  unfold glyphs nameGlyphs
  split <;> exact ⟨_, _, rfl⟩

/-- Data starts with a token. -/
theorem Data.starts_glyphs (d : Data) : ∃ kind gs, d.glyphs = .token kind :: gs := by
  obtain ⟨kind, gs, hgs, -⟩ := (Parser.shows_canonical (f := fun _ => .zero) (fun _ _ => rfl) d).starts
  exact ⟨kind, gs, hgs⟩

/-- The clauses of a declaration in canonical form are of the material that the declaration is made of. -/
theorem TypeDecl.Made.clause {M : Material} {decl : TypeDecl} (h : decl.Made M) {clause : WhereClause}
    (hclause : clause ∈ decl.canonical.clauses) : clause.Made M := by
  rcases List.mem_append.1 hclause with hclause | hclause
  · obtain ⟨ctor, hctor, hlifted⟩ := List.mem_filterMap.1 hclause
    obtain ⟨conditions, hinline, rfl⟩ := Option.map_eq_some_iff.1 hlifted
    have hconditions := (h.ctors ctor hctor).inlineWhere conditions hinline
    exact ⟨hconditions.ne_nil, hconditions.conditions, List.forall_mem_singleton.2 (h.ctors ctor hctor).name,
      hconditions.span⟩
  · exact h.clauses clause hclause

/-- A line that is a row is read as it is written. -/
theorem Line.Readable.of_row {line : Line} (h : Glyph.Row line.glyphs)
    (hstarts : ∃ kind gs, line.glyphs = .token kind :: gs) :
    line.Readable where
  glyphs rest := h.readable _ (Glyph.bounded_cons (by decide) rest)
  starts := hstarts
  depth := h.depth 0

/-- **The lines of an item are read as they are written,** if their tokens can be read. -/
theorem Item.readable_lines {item : Item} (hlegible : ∀ line ∈ item.lines, Glyph.Legible line.glyphs) :
    ∀ line ∈ item.lines, line.Readable := by
  cases item with
  | type decl =>
    obtain ⟨hheader, hblock⟩ := List.forall_mem_cons.1 hlegible
    refine List.forall_mem_cons.2 ⟨.of_row (TypeDecl.row_header hheader) ⟨_, _, rfl⟩, fun line hline => ?_⟩
    have hlineLegible := hblock line hline
    obtain ⟨part, -, rfl⟩ := List.mem_map.1 hline
    cases part with
    | inl ctor => exact .of_row (CtorDecl.row_glyphs hlineLegible) ⟨_, _, rfl⟩
    | inr clause => exact .of_row (WhereClause.row_glyphs hlineLegible) ⟨_, _, rfl⟩
  | rule decl =>
    have hline := List.forall_mem_singleton.1 hlegible
    exact List.forall_mem_singleton.2 (.of_row (RuleDecl.row_glyphs hline) ⟨_, _, rfl⟩)
  | binding b =>
    have hline := List.forall_mem_singleton.1 hlegible
    exact List.forall_mem_singleton.2 (.of_row (Binding.row_glyphs hline) b.starts_glyphs)
  | value d =>
    have hline := List.forall_mem_singleton.1 hlegible
    exact List.forall_mem_singleton.2 (.of_row (Data.row_glyphs hline) d.starts_glyphs)

end TypedData
