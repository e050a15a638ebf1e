import TypedData.Proofs.Condition.Operation

/-!
# Exact arithmetic

An expression of integers, their names, `-`, `+`, `*` and `abs` has an exact value, which may be any integer
(`Expr.Exact`).  Evaluating it gives this value, if the exact values of all its parts are integers of 64 bits, and
otherwise an overflow, at one of the parts whose value is not (`Expr.arithmetic_is_exact`).  So nothing wraps around,
and no detour beyond the bounds comes back: `(m + 1) - 1` overflows where `m` is the greatest integer.
-/

namespace TypedData

namespace Integer

/-- The number is an integer of 64 bits. -/
def Holds (n : Int) : Prop := -0x8000000000000000 ≤ n ∧ n < 0x8000000000000000

/-- A number that holds is the value of an integer. -/
theorem exists_of_holds {n : Int} (h : Holds n) : ∃ a : Integer, a.val = n := ⟨⟨n, h.1, h.2⟩, rfl⟩

/-- A number that does not hold is not the value of an integer. -/
theorem ofInt?_eq_none {n : Int} (h : ¬ Holds n) : ofInt? n = none := by
  rw [ofInt?_eq_none_iff]
  unfold Holds at h
  omega

end Integer

/-- The absolute value of an integer is an overflow if it does not hold. -/
theorem applyFunction_abs (n : Integer) : applyFunction "abs" [.int n] = Operand.ofInteger? n.abs? := rfl

namespace BinaryOp

/-- What an operator means for exact integers, if it gives an integer. -/
def onIntegers? : BinaryOp → Option (Int → Int → Int)
  | add => some (· + ·)
  | sub => some (· - ·)
  | mul => some (· * ·)
  | _ => none

variable {op : BinaryOp} {f : Int → Int → Int}

/-- An operation on integers is not a logical one. -/
theorem isLogical_of_onIntegers? (h : op.onIntegers? = some f) : op.isLogical = false := by
  cases op with
  | add | sub | mul => rfl
  | _ => cases h

/-- Operators on integers are exact, where the result fits. -/
theorem apply_int (h : op.onIntegers? = some f) (a b : Integer) :
    op.apply (.int a) (.int b) = Operand.ofInteger? (Integer.ofInt? (f a.val b.val)) := by
  cases op with
  | add | sub | mul =>
    obtain rfl := Option.some.inj h
    rfl
  | _ => cases h

end BinaryOp

namespace Expr

/-- The expression is the whole, or stands in it. -/
inductive Part (part : Expr) : Expr → Prop
  | self : Part part part
  | item {span : Span} {items : List Expr} {e : Expr} : e ∈ items → Part part e → Part part (.list span items)
  | base {span : Span} {base : Expr} {name : String} : Part part base → Part part (.field span base name)
  | argument {span : Span} {callee : String} {args : List (Argument Expr)} {arg : Argument Expr} :
      arg ∈ args → Part part arg.value → Part part (.call span callee args)
  | operand {span : Span} {op : UnaryOp} {operand : Expr} : Part part operand → Part part (.unary span op operand)
  | left {span : Span} {op : BinaryOp} {lhs rhs : Expr} : Part part lhs → Part part (.binary span op lhs rhs)
  | right {span : Span} {op : BinaryOp} {lhs rhs : Expr} : Part part rhs → Part part (.binary span op lhs rhs)

variable {env : Environment} {e : Expr} {m n : Int}

/-- The exact value of an expression of integers.  A name is bound to an integer, or to a reference to one. -/
inductive Exact (env : Environment) : Expr → Int → Prop
  | literal (span : Span) (n : Integer) : Exact env (.int span n) n.val
  | name {span : Span} {name : String} {n : Integer} :
      env.settle ((env.lookup name).getD .missing) = .ok (.int n) → Exact env (.name span name) n.val
  | neg {span : Span} {e : Expr} {n : Int} : Exact env e n → Exact env (.unary span .neg e) (-n)
  | abs {span : Span} {e : Expr} {n : Int} : Exact env e n → Exact env (.call span "abs" ([e].map argument)) n.natAbs
  | binary {span : Span} {op : BinaryOp} {f : Int → Int → Int} {lhs rhs : Expr} {m n : Int} :
      op.onIntegers? = some f → Exact env lhs m → Exact env rhs n → Exact env (.binary span op lhs rhs) (f m n)

/-- An expression has one exact value. -/
theorem Exact.unique (h : Exact env e m) (h' : Exact env e n) : m = n := by
  induction h generalizing n with
  | literal =>
    cases h'
    rfl
  | name hname =>
    cases h' with
    | name hname' =>
      cases hname.symm.trans hname'
      rfl
  | neg _ ih =>
    cases h' with
    | neg h' => rw [ih h']
  | abs _ ih =>
    cases h' with
    | abs h' => rw [ih h']
  | binary hop _ _ ihl ihr =>
    cases h' with
    | binary hop' hl' hr' =>
      cases hop.symm.trans hop'
      rw [ihl hl', ihr hr']

/-- All parts of the expression have exact values of 64 bits. -/
def AllHold (env : Environment) (e : Expr) : Prop := ∀ part n, Part part e → Exact env part n → Integer.Holds n

/-- What the evaluation of an expression of integers comes to. -/
inductive Outcome (env : Environment) (e : Expr) (n : Int) : Prop
  | value (k : Integer) : k.val = n → e.eval env = .ok (.int k) → AllHold env e → Outcome env e n
  | overflow (part : Expr) (m : Int) : Part part e → Exact env part m → ¬ Integer.Holds m →
      e.eval env = .error ⟨.overflow, part.span⟩ → Outcome env e n

/-- An operation on parts that all fit gives its exact value, if that fits too. -/
theorem Exact.outcome_of_step (h : Exact env e n)
    (heval : e.eval env = locate e.span (Operand.ofInteger? (Integer.ofInt? n)))
    (hparts : ∀ part, Part part e → part = e ∨ ∀ m, Exact env part m → Integer.Holds m) : Outcome env e n := by
  by_cases hn : Integer.Holds n
  · obtain ⟨k, rfl⟩ := Integer.exists_of_holds hn
    refine .value k rfl ?_ fun part m hpart hm => ?_
    · rw [heval, Integer.ofInt?_val]
      rfl
    · rcases hparts part hpart with rfl | hholds
      · exact hm.unique h ▸ hn
      · exact hholds m hm
  · refine .overflow e n .self h hn ?_
    rw [heval, Integer.ofInt?_eq_none hn]
    rfl

/-- **An expression of integers has its exact value, or it overflows.** -/
theorem Exact.outcome (h : Exact env e n) : Outcome env e n := by
  induction h with
  | literal span n =>
    refine (Exact.literal span n).outcome_of_step ?_ ?_
    · rw [Integer.ofInt?_val]
      rfl
    · rintro part ⟨⟩
      exact .inl rfl
  | @name span name n hname =>
    refine (Exact.name hname).outcome_of_step ?_ ?_
    · rw [eval, hname, Integer.ofInt?_val]
      rfl
    · rintro part ⟨⟩
      exact .inl rfl
  | @neg span e n h ih =>
    cases ih with
    | overflow part m hpart hexact hm heval =>
      exact .overflow part m (.operand hpart) hexact hm (eval_unary_of_error heval)
    | value k hk heval hparts =>
      subst hk
      refine (Exact.neg h).outcome_of_step (eval_unary_of_ok heval) ?_
      intro part hpart
      cases hpart with
      | self => exact .inl rfl
      | operand hpart => exact .inr fun m => hparts part m hpart
  | @abs span e n h ih =>
    cases ih with
    | overflow part m hpart hexact hm heval =>
      exact .overflow part m (.argument (.head _) hpart) hexact hm (eval_call_of_error heval)
    | value k hk heval hparts =>
      subst hk
      have hvalues : HaveValues env [e] [.int k] := .cons ⟨heval, by rintro ⟨⟩⟩ .nil
      refine (Exact.abs h).outcome_of_step ?_ ?_
      · rw [eval_call_of_haveValues hvalues, applyFunction_abs]
        rfl
      · intro part hpart
        cases hpart with
        | self => exact .inl rfl
        | argument harg hpart =>
          obtain rfl := List.mem_singleton.1 harg
          exact .inr fun m => hparts part m hpart
  | @binary span op f lhs rhs m n hop hl hr ihl ihr =>
    have hlogical : op.isLogical = false := BinaryOp.isLogical_of_onIntegers? hop
    -- The left side is evaluated first: the overflow of the right one shows only if that one fits.
    cases ihl with
    | overflow part m hpart hexact hm heval =>
      exact .overflow part m (.left hpart) hexact hm (eval_binary_of_left_error hlogical heval)
    | value k hk heval hparts =>
      cases ihr with
      | overflow part m hpart hexact hm heval' =>
        exact .overflow part m (.right hpart) hexact hm (eval_binary_of_right_error hlogical heval heval')
      | value k' hk' heval' hparts' =>
        subst hk hk'
        refine (Exact.binary hop hl hr).outcome_of_step ?_ ?_
        · rw [eval_binary_of_ok hlogical heval heval', BinaryOp.apply_int hop]
          rfl
        · intro part hpart
          cases hpart with
          | self => exact .inl rfl
          | left hpart => exact .inr fun m => hparts part m hpart
          | right hpart => exact .inr fun m => hparts' part m hpart

/-- **Integer arithmetic is exact, or an overflow is reported.**  If the exact values of all parts of an expression
of integers are integers of 64 bits, it is evaluated to its exact value; otherwise the evaluation stops at a part whose
exact value is not. -/
theorem arithmetic_is_exact (h : Exact env e n) :
    (AllHold env e → ∃ k : Integer, k.val = n ∧ e.eval env = .ok (.int k)) ∧
    (¬ AllHold env e → ∃ part m, Part part e ∧ Exact env part m ∧ ¬ Integer.Holds m ∧
      e.eval env = .error ⟨.overflow, part.span⟩) := by
  cases h.outcome with
  | value k hk heval hparts => exact ⟨fun _ => ⟨k, hk, heval⟩, fun hnot => absurd hparts hnot⟩
  | overflow part m hpart hexact hm heval =>
    exact ⟨fun hholds => absurd (hholds part m hpart hexact) hm, fun _ => ⟨part, m, hpart, hexact, hm, heval⟩⟩

/-- The greatest integer. -/
def greatest : Integer := ⟨0x7FFFFFFFFFFFFFFF, by decide, by decide⟩

/-- The expression `(m + 1) - 1` of the greatest integer `m`. -/
def detour : Expr := .binary .zero .sub (.binary .zero .add (.int .zero greatest) (.int .zero .one)) (.int .zero .one)

/-- A sum that overflows in a part of it, though its own value would hold. -/
theorem arithmetic_is_exact_detour :
    (Exact .bare detour (0x7FFFFFFFFFFFFFFF + 1 - 1) ∧ ¬ AllHold .bare detour) ∧
    (AllHold .bare detour → ∃ k : Integer, k.val = 0x7FFFFFFFFFFFFFFF + 1 - 1 ∧ detour.eval .bare = .ok (.int k)) ∧
    (¬ AllHold .bare detour → ∃ part m, Part part detour ∧ Exact .bare part m ∧ ¬ Integer.Holds m ∧
      detour.eval .bare = .error ⟨.overflow, part.span⟩) := by
  have hsum : Exact .bare (.binary .zero .add (.int .zero greatest) (.int .zero .one)) (0x7FFFFFFFFFFFFFFF + 1) :=
    .binary rfl (.literal .zero greatest) (.literal .zero .one)
  have hexact : Exact .bare detour (0x7FFFFFFFFFFFFFFF + 1 - 1) := .binary rfl hsum (.literal .zero .one)
  have hnot : ¬ AllHold .bare detour := fun h => absurd (h _ _ (.left .self) hsum).2 (by decide)
  exact ⟨⟨hexact, hnot⟩, arithmetic_is_exact hexact⟩

end Expr

end TypedData
