import TypedData.Document.Precedence
import TypedData.Proofs.Condition.Missing
import TypedData.Rule

/-!
# Signs before digits

The printer writes a minus before a field of a number without parentheses, and the reader takes it for the sign of the
number: from `-(1.a)` it makes `(-1).a`.  What is read where an expression is printed is `Expr.reread`.  This is the
expression itself if no sign stands before a digit in it (`Expr.reread_eq_self`).

A number has no fields, so an expression and what is read for it find the same fault in the same place, wherever they
are evaluated (`Expr.eval_reread`).
-/

namespace TypedData

namespace Expr

/-! ## What starts with a digit -/

/-- Whether the expression is a number without a sign, or a field of one. -/
def startsWithDigit : Expr → Bool
  | int _ n => !(n.val < 0)
  | float _ x => !x.isNegative
  | field _ base _ => base.startsWithDigit
  | _ => false

/-- Whether a sign before the expression would be taken for that of a number which the expression is a field of. -/
def takesSign (e : Expr) : Bool := !e.isNumber && e.startsWithDigit

/-- The expression with a sign at the number that it starts with. -/
def signed : Expr → Expr
  | int span n => int span (n.neg?.getD n)
  | float span x => float span x.neg
  | field span base n => field span base.signed n
  | e => e

mutual

/-- Whether a sign stands before a field of a number somewhere, so that the reader would take it for that of the
number. -/
def signsDigit : Expr → Bool
  | list _ items => anySignsDigitOfItems items
  | field _ base _ => base.signsDigit
  | call _ _ args => anySignsDigitOfArguments args
  | unary _ .not operand => operand.signsDigit
  | unary _ .neg operand => !operand.isNumber && operand.startsWithDigit || operand.signsDigit
  | binary _ _ lhs rhs => lhs.signsDigit || rhs.signsDigit
  | _ => false

/-- Whether a sign stands before a field of a number in one of the items. -/
def anySignsDigitOfItems : List Expr → Bool
  | [] => false
  | e :: es => e.signsDigit || anySignsDigitOfItems es

/-- Whether a sign stands before a field of a number in one of the arguments. -/
def anySignsDigitOfArguments : List (Argument Expr) → Bool
  | [] => false
  | ⟨_, e⟩ :: args => e.signsDigit || anySignsDigitOfArguments args

end

/-! ## What is read for an expression -/

mutual

/-- What is read where the expression is printed: a sign before a field of a number belongs to the number. -/
def reread : Expr → Expr
  | int span n => int span n
  | float span x => float span x
  | str span text => str span text
  | bool span b => bool span b
  | null span => null span
  | name span n => name span n
  | list span items => list span (rereadItems items)
  | field span base n => field span base.reread n
  | call span callee args => call span callee (rereadArguments args)
  | unary span .not operand => unary span .not operand.reread
  | unary span .neg operand => if operand.takesSign then operand.signed else unary span .neg operand.reread
  | binary span op lhs rhs => binary span op lhs.reread rhs.reread

/-- What is read where the items of a list are printed. -/
def rereadItems : List Expr → List Expr
  | [] => []
  | e :: es => e.reread :: rereadItems es

/-- What is read where the arguments of a call are printed. -/
def rereadArguments : List (Argument Expr) → List (Argument Expr)
  | [] => []
  | ⟨label, e⟩ :: args => ⟨label, e.reread⟩ :: rereadArguments args

end

/-- Items are read again one by one. -/
theorem rereadItems_eq_map (es : List Expr) : rereadItems es = es.map reread := by
  induction es with
  | nil => rfl
  | cons e es ih => rw [rereadItems, ih, List.map_cons]

/-- Arguments are read again one by one, each with its name. -/
theorem rereadArguments_eq_map (args : List (Argument Expr)) :
    rereadArguments args = args.map fun arg => ⟨arg.name, arg.value.reread⟩ := by
  induction args with
  | nil => rfl
  | cons arg args ih => rw [rereadArguments, ih, List.map_cons]

mutual

/-- **An expression is read as it is printed,** if no sign stands before a digit in it. -/
theorem reread_eq_self : (e : Expr) → e.signsDigit = false → e.reread = e
  | int .., _ | float .., _ | str .., _ | bool .., _ | null .., _ | name .., _ => rfl
  | list _ items, h => by rw [reread, rereadItems_eq_self items h]
  | field _ base _, h => by rw [reread, reread_eq_self base h]
  | call _ _ args, h => by rw [reread, rereadArguments_eq_self args h]
  | unary _ .not operand, h => by rw [reread, reread_eq_self operand h]
  | unary _ .neg operand, h => by
    obtain ⟨hdigit, h⟩ := Bool.or_eq_false_iff.1 h
    rw [reread, takesSign, hdigit, if_neg Bool.false_ne_true, reread_eq_self operand h]
  | binary _ _ lhs rhs, h => by
    obtain ⟨hlhs, hrhs⟩ := Bool.or_eq_false_iff.1 h
    rw [reread, reread_eq_self lhs hlhs, reread_eq_self rhs hrhs]

/-- Items without a sign before a digit are read again as they are. -/
theorem rereadItems_eq_self : (es : List Expr) → anySignsDigitOfItems es = false → rereadItems es = es
  | [], _ => rfl
  | e :: es, h => by
    obtain ⟨he, hes⟩ := Bool.or_eq_false_iff.1 h
    rw [rereadItems, reread_eq_self e he, rereadItems_eq_self es hes]

/-- Arguments without a sign before a digit are read again as they are. -/
theorem rereadArguments_eq_self : (args : List (Argument Expr)) → anySignsDigitOfArguments args = false →
    rereadArguments args = args
  | [], _ => rfl
  | ⟨_, e⟩ :: args, h => by
    obtain ⟨he, hargs⟩ := Bool.or_eq_false_iff.1 h
    rw [rereadArguments, reread_eq_self e he, rereadArguments_eq_self args hargs]

end

/-! ## Names -/

/-- A sign that moves into a number adds and drops no name. -/
theorem freeNames_signed (e : Expr) : e.signed.freeNames = e.freeNames := by
  induction e using signed.induct with
  | case3 span base n ih => rw [signed, freeNames, freeNames, ih]
  | _ => simp only [signed, freeNames]

mutual

/-- What is read for an expression has the same names in it. -/
theorem freeNames_reread : (e : Expr) → e.reread.freeNames = e.freeNames
  | int .. | float .. | str .. | bool .. | null .. | name .. => rfl
  | list _ items => by rw [reread, freeNames, freeNames, freeNamesOfItems_reread items]
  | field _ base _ => by rw [reread, freeNames, freeNames, freeNames_reread base]
  | call _ _ args => by rw [reread, freeNames, freeNames, freeNamesOfArguments_reread args]
  | unary _ .not operand => by rw [reread, freeNames, freeNames, freeNames_reread operand]
  | unary _ .neg operand => by
    rw [reread]
    split
    · rw [freeNames_signed, freeNames]
    · rw [freeNames, freeNames, freeNames_reread operand]
  | binary _ _ lhs rhs => by rw [reread, freeNames, freeNames, freeNames_reread lhs, freeNames_reread rhs]

/-- Items that are read again have the same free names. -/
theorem freeNamesOfItems_reread : (es : List Expr) → freeNamesOfItems (rereadItems es) = freeNamesOfItems es
  | [] => rfl
  | e :: es => by
    rw [rereadItems, freeNamesOfItems, freeNamesOfItems, freeNames_reread e, freeNamesOfItems_reread es]

/-- Arguments that are read again have the same free names. -/
theorem freeNamesOfArguments_reread : (args : List (Argument Expr)) →
    freeNamesOfArguments (rereadArguments args) = freeNamesOfArguments args
  | [] => rfl
  | ⟨_, e⟩ :: args => by
    rw [rereadArguments, freeNamesOfArguments, freeNamesOfArguments, freeNames_reread e,
      freeNamesOfArguments_reread args]

end

/-! ## Evaluation -/

/-- A field of a number is not there, whether the number has a sign or not. -/
theorem eval_field_signed (env : Environment) : (base : Expr) → base.startsWithDigit = true → ∀ span n, ∃ fault,
    (field span base n).eval env = .error fault ∧ (field span base.signed n).eval env = .error fault
  | int .., _, _, _ | float .., _, _, _ => ⟨_, rfl, rfl⟩
  | field span base n, h, _, _ => by
    obtain ⟨fault, hbase, hsigned⟩ := eval_field_signed env base h span n
    exact ⟨fault, by rw [eval, hbase]; rfl, by rw [signed, eval, hsigned]; rfl⟩
  | str .., h, _, _ | bool .., h, _, _ | null .., h, _, _ | name .., h, _, _ | list .., h, _, _ | call .., h, _, _
  | unary .., h, _, _ | binary .., h, _, _ => by cases h

/-- What takes a sign has no value, with the sign or without. -/
theorem eval_signed (env : Environment) {e : Expr} (h : e.takesSign = true) :
    ∃ fault, e.eval env = .error fault ∧ e.signed.eval env = .error fault := by
  obtain ⟨hnumber, hdigit⟩ := Bool.and_eq_true_iff.1 h
  cases e with
  | int | float => cases hnumber
  | field span base n => exact eval_field_signed env base hdigit span n
  | _ => cases hdigit

/-- What is read for an expression that has a value stands where the expression does. -/
theorem span_reread {env : Environment} {e : Expr} {v : Operand} (h : e.eval env = .ok v) : e.reread.span = e.span := by
  cases e with
  | unary span op operand =>
    cases op with
    | not => rfl
    | neg =>
      rw [reread]
      split
      · rename_i hsign
        obtain ⟨fault, hfault, -⟩ := eval_signed env hsign
        rw [eval, hfault] at h
        cases h
      · rfl
  | _ => rfl

/-- Arguments that are read again have names where they had them. -/
theorem any_named_rereadArguments (args : List (Argument Expr)) :
    (rereadArguments args).any (·.name.isSome) = args.any (·.name.isSome) := by
  rw [rereadArguments_eq_map, List.any_map]
  rfl

mutual

/-- **What is read for an expression has the same value,** or finds the same fault at the same place. -/
theorem eval_reread (env : Environment) : (e : Expr) → e.reread.eval env = e.eval env
  | .int .. | .float .. | .str .. | .bool .. | .null .. | .name .. => rfl
  | .list _ items => by rw [reread, eval, eval, evalItems_reread env items]
  | .field _ base _ => by rw [reread, eval, eval, eval_reread env base]
  | .call _ callee args => by
    rw [reread, eval, eval, any_named_rereadArguments, evalArguments_reread env args]
  | .unary _ .not operand => by rw [reread, eval, eval, eval_reread env operand]
  | .unary _ .neg operand => by
    rw [reread]
    split
    · rename_i h
      obtain ⟨fault, hoperand, hsigned⟩ := eval_signed env h
      rw [hsigned, eval, hoperand]
      rfl
    · rw [eval, eval, eval_reread env operand]
  | .binary _ op lhs rhs => by
    cases op with
    | and | or =>
      rw [reread, eval, eval, eval_reread env lhs, eval_reread env rhs]
      cases hlhs : lhs.eval env with
      | error fault => rfl
      | ok a =>
        rw [span_reread hlhs]
        cases hrhs : rhs.eval env with
        | error fault => rfl
        | ok b => rw [span_reread hrhs]
    | _ => rw [reread, eval, eval, eval_reread env lhs, eval_reread env rhs] <;> rintro ⟨⟩

/-- Items that are read again have the same values. -/
theorem evalItems_reread (env : Environment) : (items : List Expr) →
    evalItems env (rereadItems items) = evalItems env items
  | [] => rfl
  | e :: es => by rw [rereadItems, evalItems, evalItems, eval_reread env e, evalItems_reread env es]

/-- Arguments that are read again have the same values. -/
theorem evalArguments_reread (env : Environment) : (args : List (Argument Expr)) →
    evalArguments env (rereadArguments args) = evalArguments env args
  | [] => rfl
  | ⟨_, e⟩ :: args => by
    rw [rereadArguments, evalArguments, evalArguments, eval_reread env e, evalArguments_reread env args]

end

/-- What is read for a condition holds where the condition does. -/
theorem check_reread (env : Environment) (e : Expr) : e.reread.check env = e.check env := by
  unfold check
  rw [eval_reread]
  cases h : e.eval env with
  | error fault => rfl
  | ok v => rw [span_reread h]

end Expr

/-! ## Documents -/

/-- What is read where the clause is printed. -/
def WhereClause.reread (clause : WhereClause) : WhereClause :=
  { clause with conditions := clause.conditions.map Expr.reread }

/-- What is read where the constructor is printed. -/
def CtorDecl.reread (ctor : CtorDecl) : CtorDecl :=
  { ctor with inlineWhere := ctor.inlineWhere.map WhereClause.reread }

/-- What is read where the declaration is printed. -/
def TypeDecl.reread (decl : TypeDecl) : TypeDecl :=
  { decl with ctors := decl.ctors.map CtorDecl.reread, clauses := decl.clauses.map WhereClause.reread }

/-- What is read where the rule is printed. -/
def RuleDecl.reread (decl : RuleDecl) : RuleDecl :=
  { decl with target := decl.target.reread, guards := decl.guards.map Expr.reread }

/-- What is read where the item is printed. -/
def Item.reread : Item → Item
  | type decl => type decl.reread
  | rule decl => rule decl.reread
  | binding b => binding b
  | value d => value d

/-- What is read where the document is printed. -/
def Document.reread (d : Document) : Document := ⟨d.items.map Item.reread⟩

end TypedData
