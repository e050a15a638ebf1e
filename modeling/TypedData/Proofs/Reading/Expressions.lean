import TypedData.Proofs.Reading.Phrase
import TypedData.Proofs.Reading.Signs

/-!
# How expressions are written

An expression is written as a row of tokens (`Expr.glyphs`), with parentheses around those operands that bind less
tightly than their place demands.  A minus before a digit is no token of its own: of `-` before `1.a` the reader makes
the number `-1` and a field of it.  The row is read as it is written (`Expr.row_glyphs`).
-/

namespace TypedData

/-- The token that an operator is written as. -/
def BinaryOp.kind : BinaryOp → TokenKind
  | or => .keyword .or
  | and => .keyword .and
  | eq => .mark .equal
  | ne => .mark .notEqual
  | lt => .mark .less
  | le => .mark .lessEqual
  | gt => .mark .greater
  | ge => .mark .greaterEqual
  | add => .mark .plus
  | sub => .mark .minus
  | mul => .mark .star
  | div => .mark .slash
  | rem => .mark .percent

namespace BinaryOp

variable (op : BinaryOp)

/-- The token for an operator is spelled as its symbol. -/
theorem spelling_kind : op.kind.spelling = op.symbol.toList := by cases op <;> rfl

/-- The token for an operator can be written. -/
theorem legible_kind : op.kind.Legible := by cases op <;> trivial

/-- The token for an operator opens and closes no bracket. -/
theorem depthAfter_kind (depth : Nat) : ScanState.depthAfter depth op.kind = depth := by cases op <;> rfl

/-- The token for an operator is no number. -/
theorem isNumber_kind : op.kind.isNumber = false := by cases op <;> rfl

/-- The token for an operator ends no value. -/
theorem endsValue_kind : op.kind.endsValue = false := by cases op <;> rfl

/-- An operator binds less tightly than a minus. -/
theorem precedence_lt : op.precedence < Expr.negPrecedence := by cases op <;> decide

/-- No operator of two sides binds as tightly as `not`. -/
theorem precedence_ne_not : op.precedence ≠ Expr.notPrecedence := by cases op <;> decide

end BinaryOp

namespace Expr

/-- What holds of an expression whenever it holds of the expressions in it holds of all expressions. -/
@[elab_as_elim]
theorem inductionOnParts {P : Expr → Prop} (e : Expr) (int : ∀ span n, P (.int span n))
    (float : ∀ span x, P (.float span x)) (str : ∀ span text, P (.str span text)) (bool : ∀ span b, P (.bool span b))
    (null : ∀ span, P (.null span)) (name : ∀ span n, P (.name span n))
    (list : ∀ span items, (∀ item ∈ items, P item) → P (.list span items))
    (field : ∀ span base n, P base → P (.field span base n))
    (call : ∀ span callee args, (∀ arg ∈ args, P arg.value) → P (.call span callee args))
    (unary : ∀ span op operand, P operand → P (.unary span op operand))
    (binary : ∀ span op lhs rhs, P lhs → P rhs → P (.binary span op lhs rhs)) : P e :=
  @Expr.rec P (fun items => ∀ item ∈ items, P item) (fun args => ∀ arg ∈ args, P arg.value) (fun arg => P arg.value)
    int float str bool null name list field call unary binary
    (List.forall_mem_nil _) (fun _ _ hitem hitems => List.forall_mem_cons.2 ⟨hitem, hitems⟩)
    (List.forall_mem_nil _) (fun _ _ harg hargs => List.forall_mem_cons.2 ⟨harg, hargs⟩) (fun _ _ hvalue => hvalue) e

/-- The row of tokens that a number or a field of one is written as after a sign. -/
def signedGlyphs : Expr → List Glyph
  | int _ n => [.signed (.int n)]
  | float _ x => [.signed (.float x)]
  | field _ base n => base.signedGlyphs ++ [.token (.mark .dot), .token (.name n)]
  | _ => []

mutual

/-- The row of tokens that an expression is written as. -/
def glyphs : Expr → List Glyph
  | int _ n => [.token (.int n)]
  | float _ x => [.token (.float x)]
  | str _ text => [.token (.string (.plain text))]
  | bool _ b => [.token (.keyword (if b then .true else .false))]
  | null _ => [.token (.keyword .null)]
  | name _ n => [.token (.name n)]
  | list _ items => Glyph.bracketed .square (glyphsOfItems items)
  | field _ base n =>
    Glyph.enclosed (base.precedence < atomPrecedence) base.glyphs ++ [.token (.mark .dot), .token (.name n)]
  | call _ callee args => .token (.name callee) :: Glyph.bracketed .paren (glyphsOfArguments args)
  | unary _ .not operand =>
    .token (.keyword .not) :: .space :: Glyph.enclosed (operand.precedence < notPrecedence) operand.glyphs
  | unary _ .neg operand =>
    if operand.takesSign then operand.signedGlyphs
    else
      .token (.mark .minus) :: Glyph.enclosed (operand.isNumber || operand.precedence < negPrecedence) operand.glyphs
  | binary _ op lhs rhs =>
    Glyph.enclosed (lhs.precedence < op.precedence) lhs.glyphs ++ .space :: .token op.kind :: .space ::
      Glyph.enclosed (rhs.precedence < op.precedence + 1) rhs.glyphs

/-- The rows of the items of a list. -/
def glyphsOfItems : List Expr → List (List Glyph)
  | [] => []
  | e :: es => e.glyphs :: glyphsOfItems es

/-- The rows of the arguments of a call. -/
def glyphsOfArguments : List (Argument Expr) → List (List Glyph)
  | [] => []
  | ⟨label, e⟩ :: args => Glyph.labelled label e.glyphs :: glyphsOfArguments args

end

/-- The glyphs of items are those of each. -/
theorem glyphsOfItems_eq_map (items : List Expr) : glyphsOfItems items = items.map glyphs := by
  induction items with
  | nil => rfl
  | cons e es ih => rw [glyphsOfItems, ih, List.map_cons]

/-- The glyphs of arguments are those of their values, behind their labels. -/
theorem glyphsOfArguments_eq_map (args : List (Argument Expr)) :
    glyphsOfArguments args = args.map fun arg => Glyph.labelled arg.name arg.value.glyphs := by
  induction args with
  | nil => rfl
  | cons arg args ih => rw [glyphsOfArguments, ih, List.map_cons]

/-- Items are printed one by one. -/
theorem printItems_eq_map (items : List Expr) : printItems items = items.map print := by
  induction items with
  | nil => rfl
  | cons e es ih => rw [printItems, ih, List.map_cons]

/-- Arguments are printed one by one, behind their labels. -/
theorem printArguments_eq_map (args : List (Argument Expr)) :
    printArguments args = args.map fun arg => labelled arg.name arg.value.print := by
  induction args with
  | nil => rfl
  | cons arg args ih => rw [printArguments, ih, List.map_cons]

/-- What starts with a digit needs no parentheses. -/
theorem not_precedence_lt {e : Expr} (h : e.startsWithDigit = true) : ¬ e.precedence < atomPrecedence := by
  cases e with
  | int span n =>
    rw [precedence, if_neg (of_decide_eq_false (Bool.not_eq_true' _ ▸ h))]
    exact Nat.lt_irrefl _
  | float span x =>
    rw [precedence, if_neg (by rw [(Bool.not_eq_true' _ ▸ h : x.isNegative = false)]; decide)]
    exact Nat.lt_irrefl _
  | field => exact Nat.lt_irrefl _
  | _ => cases h

/-- A field of what starts with a digit is written without parentheses. -/
theorem glyphs_field (base : Expr) (h : base.startsWithDigit = true) (span : Span) (n : String) :
    (field span base n).glyphs = base.glyphs ++ [.token (.mark .dot), .token (.name n)] := by
  rw [glyphs, decide_eq_false (not_precedence_lt h), Glyph.enclosed, if_neg Bool.false_ne_true]

/-- What takes a sign starts with a digit. -/
theorem startsWithDigit_of_takesSign {e : Expr} (h : e.takesSign = true) : e.startsWithDigit = true :=
  (Bool.and_eq_true_iff.1 h).2

/-- A sign and what starts with a digit are written one after the other. -/
theorem text_signedGlyphs (e : Expr) (h : e.startsWithDigit = true) :
    Glyph.text e.signedGlyphs = '-' :: Glyph.text e.glyphs := by
  induction e using inductionOnParts with
  | int | float => rfl
  | field span base n ih =>
    rw [glyphs_field base h, signedGlyphs, Glyph.text_append, Glyph.text_append, ih h, List.cons_append]
  | _ => cases h

/-- An expression is written as its row of tokens. -/
theorem text_glyphs (e : Expr) : e.print.toList = Glyph.text e.glyphs := by
  induction e using inductionOnParts with
  | int | float | null | name => exact (List.append_nil _).symm
  | str span text =>
    rw [print, glyphs, Glyph.text_cons, Glyph.text_nil, List.append_nil, Glyph.chars, TokenKind.spelling,
      Parser.print_plain]
  | bool span b =>
    rw [print, glyphs]
    cases b <;> rfl
  | list span items ih =>
    rw [print, glyphs, printItems_eq_map, glyphsOfItems_eq_map]
    exact Glyph.text_bracketed .square (Glyph.map_toList_eq ih)
  | call span callee args ih =>
    have hargs := Glyph.text_bracketed .paren (Glyph.map_toList_eq fun arg harg =>
      Glyph.text_labelled arg.name (ih arg harg))
    rw [print, glyphs, printArguments_eq_map, glyphsOfArguments_eq_map, Glyph.text_cons, ← hargs]
    simp [Glyph.chars, TokenKind.spelling, Bracket.opening, Bracket.closing, Mark.spelling]
  | field span base n ih =>
    rw [print, glyphs, String.toList_append, String.toList_append, Glyph.text_enclosed _ ih, Glyph.text_append,
      List.append_assoc]
    simp [Glyph.chars, TokenKind.spelling, Mark.spelling]
  | unary span op operand ih =>
    cases op with
    | not =>
      rw [print, glyphs, String.toList_append, Glyph.text_enclosed _ ih]
      rfl
    | neg =>
      rw [print, glyphs, String.toList_append, Glyph.text_enclosed _ ih]
      split
      · rename_i hsign
        have hdigit := startsWithDigit_of_takesSign hsign
        have hneeded : (operand.isNumber || decide (operand.precedence < negPrecedence)) = false := by
          have hnumber := (Bool.and_eq_true_iff.1 hsign).1
          have hprec := not_precedence_lt hdigit
          exact Bool.or_eq_false_iff.2 ⟨Bool.not_eq_true' _ ▸ hnumber, decide_eq_false fun hlt =>
            hprec (Nat.lt_trans hlt (by decide))⟩
        rw [hneeded, text_signedGlyphs operand hdigit, Glyph.enclosed, if_neg Bool.false_ne_true]
        rfl
      · rfl
  | binary span op lhs rhs ihl ihr =>
    rw [print, glyphs]
    simp [Glyph.text_enclosed _ ihl, Glyph.text_enclosed _ ihr, Glyph.chars, op.spelling_kind]

/-- What starts with a digit does not start with a blank when it has a sign. -/
theorem opens_signedGlyphs {e : Expr} (h : e.startsWithDigit = true) : Glyph.Opens e.signedGlyphs := by
  induction e using inductionOnParts with
  | int | float => exact ⟨_, _, _, rfl, rfl, by rintro ⟨⟩, by rintro b ⟨⟩⟩
  | field span base n ih => exact (ih h).append _
  | _ => cases h

/-- An expression does not start with a blank. -/
theorem opens_glyphs (e : Expr) : Glyph.Opens e.glyphs := by
  induction e using inductionOnParts with
  | field span base n ih => exact (ih.enclosed _).append _
  | binary span op lhs rhs ihl _ => exact (ihl.enclosed _).append _
  | unary span op operand _ =>
    cases op with
    | not => exact .token (by rintro ⟨⟩) (by rintro (_ | _ | _) ⟨⟩) _
    | neg =>
      rw [glyphs]
      split
      · rename_i hsign
        exact opens_signedGlyphs (startsWithDigit_of_takesSign hsign)
      · exact .token (by rintro ⟨⟩) (by rintro (_ | _ | _) ⟨⟩) _
  | list => exact .token (by rintro ⟨⟩) (by rintro (_ | _ | _) ⟨⟩) _
  | _ => exact .token (by rintro ⟨⟩) (by rintro b ⟨⟩) _

/-! ## Rows -/

/-- With a sign a number and its fields can be read if they can be read without one. -/
theorem legible_signedGlyphs {e : Expr} (h : e.startsWithDigit = true) (hlegible : Glyph.Legible e.glyphs) :
    Glyph.Legible e.signedGlyphs := by
  induction e using inductionOnParts with
  | int => exact List.forall_mem_singleton.2 trivial
  | float span x =>
    have hfinite : x.isFinite = true := hlegible _ (.head _)
    refine List.forall_mem_singleton.2 ?_
    cases x with
    | finite => rfl
    | nan | infinite => cases hfinite
  | field span base n ih =>
    rw [glyphs_field base h] at hlegible
    obtain ⟨hbase, hfield⟩ := Glyph.legible_append_iff.1 hlegible
    exact Glyph.legible_append_iff.2 ⟨ih h hbase, hfield⟩
  | _ => cases h

/-- With an operator before it an expression can be read if it can be read without one. -/
theorem legible_unary {span : Span} {op : UnaryOp} {operand : Expr} (h : Glyph.Legible operand.glyphs) :
    Glyph.Legible (unary span op operand).glyphs := by
  cases op with
  | not => exact Glyph.legible_token_iff.2 ⟨trivial, Glyph.legible_enclosed_iff.2 h⟩
  | neg =>
    rw [glyphs]
    split
    · rename_i hsign
      exact legible_signedGlyphs (startsWithDigit_of_takesSign hsign) h
    · exact Glyph.legible_token_iff.2 ⟨trivial, Glyph.legible_enclosed_iff.2 h⟩

/-- A number and its fields are read with the sign before them. -/
theorem row_signedGlyphs {e : Expr} (h : e.startsWithDigit = true) (hlegible : Glyph.Legible e.signedGlyphs) :
    Glyph.Row e.signedGlyphs := by
  induction e using inductionOnParts with
  | int => exact .signed h
  | float span x =>
    have hfinite : x.neg.isFinite = true := hlegible _ (.head _)
    refine .signed (Bool.and_eq_true_iff.2 ⟨?_, h⟩)
    cases x with
    | finite => rfl
    | nan | infinite => cases hfinite
  | field span base n ih =>
    obtain ⟨hbase, hfield⟩ := Glyph.legible_append_iff.1 hlegible
    exact (ih h hbase).field (hfield _ (.tail _ (.head _)))
  | _ => cases h

/-- A number that needs no parentheses starts with a digit. -/
theorem startsWithDigit_of_isNumber {e : Expr} (h : e.isNumber = true) (hprec : ¬ e.precedence < atomPrecedence) :
    e.startsWithDigit = true := by
  cases e with
  | int span n =>
    refine congrArg not (decide_eq_false fun hsign => hprec ?_)
    rw [precedence, if_pos hsign]
    decide
  | float span x =>
    refine congrArg not (Bool.eq_false_iff.2 fun hsign => hprec ?_)
    rw [precedence, if_pos hsign]
    decide
  | _ => cases h

/-- What stands after a sign without parentheses starts with no digit, unless it takes the sign. -/
theorem exists_text_glyphs {e : Expr} (hprec : negPrecedence ≤ e.precedence) (hnumber : e.isNumber = false)
    (hdigit : e.startsWithDigit = false) (hlegible : Glyph.Legible e.glyphs) :
    ∃ c tail, Glyph.text e.glyphs = c :: tail ∧ c.isDigit = false := by
  induction e using inductionOnParts with
  | int | float => cases hnumber
  | str | null | name | list | call => exact (Glyph.unnumbered_token rfl _).exists_text hlegible
  | bool span b => exact (Glyph.unnumbered_token (by cases b <;> rfl) _).exists_text hlegible
  | field span base n ih =>
    by_cases hbase : base.precedence < atomPrecedence
    · rw [glyphs, decide_eq_true hbase] at hlegible ⊢
      exact ((Glyph.unnumbered_token rfl _).append _).exists_text hlegible
    · rw [glyphs, decide_eq_false hbase] at hlegible ⊢
      cases hbaseNumber : base.isNumber with
      | true => exact absurd (startsWithDigit_of_isNumber hbaseNumber hbase) (Bool.eq_false_iff.1 hdigit)
      | false =>
        obtain ⟨c, tail, htext, hc⟩ := ih (Nat.le_trans (by decide) (Nat.le_of_not_lt hbase)) hbaseNumber hdigit
          (Glyph.legible_append_iff.1 hlegible).1
        exact ⟨c, _, by rw [Glyph.text_append, Glyph.enclosed, if_neg Bool.false_ne_true, htext]; rfl, hc⟩
  | unary span op operand _ =>
    cases op with
    | not => exact absurd hprec (by simp [precedence, negPrecedence, notPrecedence])
    | neg =>
      rw [glyphs]
      split
      · rename_i hsign
        exact ⟨'-', _, text_signedGlyphs operand (startsWithDigit_of_takesSign hsign), rfl⟩
      · exact ⟨'-', _, rfl, rfl⟩
  | binary span op lhs rhs _ _ => exact absurd op.precedence_lt (Nat.not_lt_of_le hprec)

/-- **An expression is read as it is written,** if its tokens can be read. -/
theorem row_glyphs {e : Expr} (hlegible : Glyph.Legible e.glyphs) : Glyph.Row e.glyphs := by
  induction e using inductionOnParts with
  | int | float | str | null | name => exact .token (Glyph.legible_token_iff.1 hlegible).1 fun _ => rfl
  | bool span b => exact .token (Glyph.legible_token_iff.1 hlegible).1 fun _ => by cases b <;> rfl
  | list span items ih =>
    rw [glyphs, glyphsOfItems_eq_map] at hlegible ⊢
    refine .bracketed _ fun part hpart => ?_
    have hpartLegible := Glyph.legible_bracketed_iff.1 hlegible part hpart
    obtain ⟨item, hitem, rfl⟩ := List.mem_map.1 hpart
    exact ih item hitem hpartLegible
  | call span callee args ih =>
    rw [glyphs, glyphsOfArguments_eq_map] at hlegible ⊢
    obtain ⟨hcallee, hargs⟩ := Glyph.legible_token_iff.1 hlegible
    refine .call hcallee fun part hpart => ?_
    have hpartLegible := Glyph.legible_bracketed_iff.1 hargs part hpart
    obtain ⟨arg, harg, rfl⟩ := List.mem_map.1 hpart
    obtain ⟨hlabel, hvalue⟩ := Glyph.legible_labelled_iff.1 hpartLegible
    exact .labelledBy _ hlabel (ih arg harg hvalue)
  | field span base n ih =>
    obtain ⟨hbase, hfield⟩ := Glyph.legible_append_iff.1 hlegible
    exact ((ih (Glyph.legible_enclosed_iff.1 hbase)).enclosed _).field (hfield _ (.tail _ (.head _)))
  | unary span op operand ih =>
    cases op with
    | not =>
      obtain ⟨hword, hoperand⟩ := Glyph.legible_token_iff.1 hlegible
      exact Glyph.Row.spaced (.token hword fun _ => rfl) (.enclosed _ (ih (Glyph.legible_enclosed_iff.1 hoperand)))
        (.inr rfl)
    | neg =>
      rw [glyphs] at hlegible ⊢
      split
      · rename_i hsign
        rw [if_pos hsign] at hlegible
        exact row_signedGlyphs (startsWithDigit_of_takesSign hsign) hlegible
      · rename_i hsign
        rw [if_neg hsign] at hlegible
        obtain ⟨-, hoperand⟩ := Glyph.legible_token_iff.1 hlegible
        have hinner := Glyph.legible_enclosed_iff.1 hoperand
        -- behind the minus stands a parenthesis, or nothing that starts with a digit
        refine ((ih hinner).enclosed _).minus ?_
        cases hneeded : operand.isNumber || decide (operand.precedence < negPrecedence) with
        | true =>
          have hopens : Glyph.Unnumbered (Glyph.enclosed true operand.glyphs) := Glyph.unnumbered_token rfl _
          exact hopens.exists_text (Glyph.legible_enclosed_iff.2 hinner)
        | false =>
          obtain ⟨hnumber, hprec⟩ := Bool.or_eq_false_iff.1 hneeded
          rw [takesSign, hnumber] at hsign
          exact exists_text_glyphs (Nat.le_of_not_lt (of_decide_eq_false hprec)) hnumber (Bool.eq_false_iff.2 hsign)
            hinner
  | binary span op lhs rhs ihl ihr =>
    obtain ⟨hlhs, hrest⟩ := Glyph.legible_append_iff.1 hlegible
    obtain ⟨hop, hrhs⟩ := Glyph.legible_token_iff.1 (Glyph.legible_space_iff.1 hrest)
    have hlhs := (ihl (Glyph.legible_enclosed_iff.1 hlhs)).enclosed (lhs.precedence < op.precedence)
    have hrhs := (ihr (Glyph.legible_enclosed_iff.1 hrhs)).enclosed (rhs.precedence < op.precedence + 1)
    have hop := Glyph.Row.token hop op.depthAfter_kind
    exact hlhs.spaced (hop.spaced hrhs (.inr op.endsValue_kind)) (.inl (Glyph.unnumbered_token op.isNumber_kind _))

end Expr

end TypedData
