import TypedData.Proofs.Condition.Extension
import TypedData.Proofs.Condition.Plain

/-!
# Conditions that do not wait

A condition waits only for a binding that it meets on the way: one that a reference leads to which stands in
the fields of the record, or in a value that such a reference leads to.  No function and no operator makes
a reference or asks for a binding.

So let `S` be a set of references that the fields do not lead out of.  If each of them leads somewhere, no
condition over the fields waits (`Expr.not_waits_check`).
-/

namespace TypedData

/-- The result is there and has a property, or it is a failure that has one. -/
def Results {ε α : Type} (P : α → Prop) (E : ε → Prop) : Except ε α → Prop
  | .ok a => P a
  | .error e => E e

/-- A second step has the results that it has for what the first one gives. -/
theorem Results.bind {ε α β : Type} {P : α → Prop} {Q : β → Prop} {E : ε → Prop} {x : Except ε α}
    {f : α → Except ε β} (h : Results P E x) (hf : ∀ a, P a → Results Q E (f a)) :
    Results Q E (x >>= f) := by
  cases x with
  | error e => exact h
  | ok a => exact hf a h

/-- The problem is not that a binding has no value. -/
def EvalProblem.IsFinal (problem : EvalProblem) : Prop := ∀ name, problem ≠ .unavailable name

/-- A result that is not missing for want of a binding, and that has a property if it is there. -/
abbrev Concludes {α : Type} (P : α → Prop) (x : Except EvalProblem α) : Prop :=
  Results P EvalProblem.IsFinal x

/-- An evaluation that does not wait, and whose result has a property if it is there. -/
abbrev Decides {α : Type} (P : α → Prop) (x : Except EvalFault α) : Prop :=
  Results P (fun fault => fault.problem.IsFinal) x

/-- What concludes decides, wherever it stands. -/
theorem Concludes.locate {α : Type} {P : α → Prop} {x : Except EvalProblem α} (span : Span)
    (h : Concludes P x) : Decides P (TypedData.locate span x) := by
  cases x with
  | error problem => exact h
  | ok a => exact h

/-- What decides does not wait. -/
theorem Decides.not_waits {α : Type} {P : α → Prop} {x : Except EvalFault α} (h : Decides P x) :
    ¬ Waits x := by
  rintro ⟨name, span, rfl⟩
  exact h name rfl

/-! ## Functions and operators -/

/-- The result is not missing for want of a binding. -/
def IsFinal {α : Type} (x : Except EvalProblem α) : Prop := ∀ name, x ≠ .error (.unavailable name)

/-- What yields a property and is final concludes with it. -/
theorem concludes_of_yields {α : Type} {P : α → Prop} {x : Except EvalProblem α} (h : Yields P x)
    (hfinal : IsFinal x) : Concludes P x := by
  cases x with
  | error problem => exact fun name hname => hfinal name (congrArg _ hname)
  | ok a => exact h a rfl

namespace Operand

/-- An integer, or an overflow, is final. -/
theorem final_ofInteger? (n : Option Integer) : IsFinal (ofInteger? n) := by
  intro other
  cases n with
  | none => simp [ofInteger?]
  | some n => simp [ofInteger?]

/-- A conversion to an integer is final. -/
theorem final_toInt (name : String) (v : Operand) : IsFinal (v.toInt name) := by
  intro other
  unfold toInt noConversion
  split <;> (try split) <;> simp

/-- A conversion to a float is final. -/
theorem final_toFloat (name : String) (v : Operand) : IsFinal (v.toFloat name) := by
  intro other
  unfold toFloat noConversion
  split <;> (try split) <;> (try split) <;> simp

/-- A conversion to a truth value is final. -/
theorem final_toBool (name : String) (v : Operand) : IsFinal (v.toBool name) := by
  intro other
  unfold toBool noConversion
  split
  · simp
  · simp
  · dsimp only
    split <;> (try split) <;> simp
  · simp

/-- A length is final. -/
theorem final_length (name : String) (v : Operand) : IsFinal (v.length name) := by
  unfold length
  split
  · exact final_ofInteger? _
  · exact final_ofInteger? _
  · exact final_ofInteger? _
  · simp [IsFinal]

/-- An absolute value is final. -/
theorem final_absolute (name : String) (v : Operand) : IsFinal (v.absolute name) := by
  unfold absolute
  split
  · exact final_ofInteger? _
  · simp [IsFinal]
  · simp [IsFinal]

/-- A text that is made of a text is final. -/
theorem final_mapText (name : String) (f : String → String) (v : Operand) :
    IsFinal (v.mapText name f) := by
  intro other
  unfold mapText
  split <;> simp

/-- The extreme of values is final. -/
theorem final_among (e : Extreme) (name : String) (best : Operand) (args : List Operand) :
    IsFinal (e.among name best args) := by
  induction args generalizing best with
  | nil => simp [Extreme.among, IsFinal]
  | cons v vs ih =>
    rw [Extreme.among]
    split
    · simp [IsFinal]
    · exact ih _

/-- The least or greatest of values is final. -/
theorem final_extreme (e : Extreme) (name : String) (args : List Operand) :
    IsFinal (e.apply name args) := by
  unfold Extreme.apply
  dsimp only
  split
  · simp [IsFinal]
  · split
    · simp [IsFinal]
    · exact final_among e name _ _

/-- A function of one value is final. -/
theorem final_unary (name : String) (v : Operand) : (f : UnaryFunction) → IsFinal (f.apply name v)
  | .int => final_toInt name v
  | .float => final_toFloat name v
  | .str => by simp [UnaryFunction.apply, IsFinal]
  | .bool => final_toBool name v
  | .len => final_length name v
  | .removeWhitespace | .lower | .upper | .trim => final_mapText name _ v
  | .abs => final_absolute name v

/-- A function of two values is final. -/
theorem final_binary (f : BinaryFunction) (name : String) (whole part : Operand) :
    IsFinal (f.apply name whole part) := by
  intro other
  unfold BinaryFunction.apply
  split <;> simp

/-- **No function asks for a binding.** -/
theorem final_applyFunction (name : String) (args : List Operand) :
    IsFinal (applyFunction name args) := by
  have hbinary (f : BinaryFunction) (name : String) : IsFinal (applyBinary f name args) := by
    unfold applyBinary
    split
    · exact final_binary f name _ _
    · simp [IsFinal]
  unfold applyFunction
  split
  · exact final_extreme .least _ args
  · exact final_extreme .greatest _ args
  · exact hbinary _ _
  · exact hbinary _ _
  · exact hbinary _ _
  · unfold applyUnary
    split
    · split
      · exact final_unary _ _ _
      · simp [IsFinal]
    · simp [IsFinal]

/-- An operation on one value is final. -/
theorem final_unaryOp (op : UnaryOp) (v : Operand) : IsFinal (op.apply v) := by
  unfold UnaryOp.apply
  split
  · simp [IsFinal]
  · simp [IsFinal]
  · exact final_ofInteger? _
  · simp [IsFinal]
  · simp [IsFinal]
  · simp [IsFinal]

/-- An operation on two numbers is final. -/
theorem final_onNumbers (op : BinaryOp) (f : Double → Double → Double) (a b : Operand) :
    IsFinal (op.onNumbers f a b) := by
  intro other
  unfold BinaryOp.onNumbers BinaryOp.typeProblem
  split <;> simp

/-- A division is final. -/
theorem final_onDivisor (op : BinaryOp) (f : Double → Double → Double) (a b : Operand) :
    IsFinal (op.onDivisor f a b) := by
  intro other
  unfold BinaryOp.onDivisor BinaryOp.typeProblem
  split <;> (try split) <;> simp

/-- A comparison is final. -/
theorem final_onOrder (op : BinaryOp) (holds : Ordering → Bool) (a b : Operand) :
    IsFinal (op.onOrder holds a b) := by
  intro other
  unfold BinaryOp.onOrder BinaryOp.typeProblem
  split <;> simp

/-- **No operator asks for a binding.** -/
theorem final_binaryOp (op : BinaryOp) (a b : Operand) : IsFinal (op.apply a b) := by
  have hpresent : IsFinal (op.applyPresent a b) := by
    cases op with
    | eq | ne => simp [BinaryOp.applyPresent, IsFinal]
    | lt | le | gt | ge => exact final_onOrder _ _ a b
    | or | and => simp [BinaryOp.applyPresent, BinaryOp.typeProblem, IsFinal]
    | div => exact final_onDivisor _ _ a b
    | add | sub | mul | rem =>
      unfold BinaryOp.applyPresent
      dsimp only
      split
      all_goals first
        | exact final_ofInteger? _
        | exact final_onNumbers _ _ _ _
        | exact final_onDivisor _ _ _ _
        | (split <;> first | exact final_ofInteger? _ | simp [IsFinal])
        | simp [IsFinal]
  unfold BinaryOp.apply
  split
  · simp [IsFinal]
  · simp [IsFinal]
  · exact hpresent

/-! ## References in operands -/

/-- Every reference in the operand is one of these. -/
inductive Within (S : Reference → Prop) : Operand → Prop
  | missing : Within S .missing
  | null : Within S .null
  | bool (b : Bool) : Within S (.bool b)
  | int (n : Integer) : Within S (.int n)
  | float (x : Double) : Within S (.float x)
  | str (text : String) : Within S (.str text)
  | list {items : List Operand} : (∀ v ∈ items, Within S v) → Within S (.list items)
  | record {ctor : Option String} {fields : List (Field Operand)} :
      (∀ f ∈ fields, Within S f.value) → Within S (.record ctor fields)
  | ref {r : Reference} : S r → Within S (.ref r)

variable {S : Reference → Prop}

/-- A plain value is within any set of references, as it has none in it. -/
theorem Plain.within {v : Operand} (h : v.Plain) : v.Within S := by
  induction h with
  | missing => exact .missing
  | null => exact .null
  | bool b => exact .bool b
  | int n => exact .int n
  | float x => exact .float x
  | str text => exact .str text
  | list _ ih => exact .list ih

mutual

/-- An operand has the references of the value that it was made of. -/
theorem within_ofValue : (v : Value) → (∀ r, Value.Part (.ref r) v → S r) → (ofValue v).Within S
  | .null, _ => .null
  | .bool b, _ => .bool b
  | .int n, _ => .int n
  | .float x, _ => .float x
  | .str text, _ => .str text
  | .list items, h => .list (within_ofItems items fun _ hv r hr => h r (.item hv hr))
  | .record _ _ fields, h => .record (within_ofFields fields fun _ hf r hr => h r (.field hf hr))
  | .ref r, h => .ref (h r (.self _))

/-- Items of values are within a set of references if the references in them are in it. -/
theorem within_ofItems : (items : List Value) →
    (∀ v ∈ items, ∀ r, Value.Part (.ref r) v → S r) → ∀ v ∈ ofItems items, v.Within S
  | [], _ => List.forall_mem_nil _
  | v :: vs, h => by
    obtain ⟨hv, hvs⟩ := List.forall_mem_cons.1 h
    exact List.forall_mem_cons.2 ⟨within_ofValue v hv, within_ofItems vs hvs⟩

/-- The values of fields are within a set of references if the references in them are in it. -/
theorem within_ofFields : (fields : List (Field Value)) →
    (∀ f ∈ fields, ∀ r, Value.Part (.ref r) f.value → S r) →
      ∀ f ∈ ofFields fields, f.value.Within S
  | [], _ => List.forall_mem_nil _
  | ⟨name, v⟩ :: fields, h => by
    obtain ⟨hv, hfields⟩ := List.forall_mem_cons.1 h
    exact List.forall_mem_cons.2 ⟨within_ofValue v hv, within_ofFields fields hfields⟩

end

/-- An operator joins lists at most, so it brings no other references in. -/
theorem within_binaryOp (op : BinaryOp) {a b : Operand} (ha : a.Within S) (hb : b.Within S) :
    Yields (Within S) (op.apply a b) := by
  have hplain {x : Except EvalProblem Operand} (hx : PlainResult x) : Yields (Within S) x :=
    fun v hv => (hx v hv).within
  unfold BinaryOp.apply
  split
  · exact .ok .missing
  · exact .ok .missing
  · cases op with
    | eq | ne => exact .ok (.bool _)
    | lt | le | gt | ge => exact hplain (plain_onOrder _ _ _ _)
    | or | and => exact .error _
    | div => exact hplain (plain_onDivisor _ _ _ _)
    | add =>
      unfold BinaryOp.applyPresent
      dsimp only
      split
      · exact hplain (plain_ofInteger? _)
      · exact .ok (.str _)
      · cases ha with
        | list ha =>
          cases hb with
          | list hb => exact .ok (.list (List.forall_mem_append.2 ⟨ha, hb⟩))
      · exact hplain (plain_onNumbers _ _ _ _)
    | sub | mul =>
      unfold BinaryOp.applyPresent
      dsimp only
      split
      · exact hplain (plain_ofInteger? _)
      · exact hplain (plain_onNumbers _ _ _ _)
    | rem =>
      unfold BinaryOp.applyPresent
      dsimp only
      split
      · split
        · exact .error _
        · exact hplain (plain_ofInteger? _)
      · exact hplain (plain_onDivisor _ _ _ _)

end Operand

/-! ## Expressions -/

open Operand (Within)

/-- The names stand for operands with these references, and each of them leads to an operand with these
references, if it leads to a field that is there. -/
structure Environment.Leads (env : Environment) (S : Reference → Prop) : Prop where
  lookup : ∀ name v, env.lookup name = some v → v.Within S
  follow : ∀ r, S r → Concludes (Within S) (env.follow r)

namespace Environment.Leads

variable {env : Environment} {S : Reference → Prop}

/-- A value within references that lead somewhere is settled. -/
theorem settle (h : env.Leads S) {v : Operand} (hv : v.Within S) :
    Concludes (Within S) (env.settle v) := by
  cases hv with
  | null | missing => exact .missing
  | ref hr =>
    have hfollow := h.follow _ hr
    rw [Environment.settle]
    split
    · rename_i problem hproblem
      rwa [hproblem] at hfollow
    · exact .missing
    · rename_i hfound
      rwa [hfound] at hfollow
  | list hitems => exact .list hitems
  | record hfields => exact .record hfields
  | bool b => exact .bool b
  | int n => exact .int n
  | float x => exact .float x
  | str text => exact .str text

/-- A field of a value within references that lead somewhere is found or is missing. -/
theorem fieldOf (h : env.Leads S) (name : String) {v : Operand} (hv : v.Within S) :
    Concludes (Within S) (env.fieldOf name v) := by
  cases hv with
  | null | missing => exact .missing
  | record hfields =>
    rw [Environment.fieldOf]
    refine h.settle ?_
    cases hfound : Field.find? name _ with
    | none => exact .missing
    | some w =>
      obtain ⟨f, hf, rfl⟩ := Option.map_eq_some_iff.1 hfound
      exact hfields f (List.mem_of_find?_eq_some hf)
  | _ => exact fun _ => by rintro ⟨⟩

end Environment.Leads

/-- A side of a logical operation is decided. -/
theorem decides_logicSide (symbol : String) (span : Span) (v : Operand) :
    Decides (fun _ => True) (locate span (logicSide symbol v)) := by
  refine Concludes.locate span ?_
  cases v with
  | bool | missing => trivial
  | _ => exact fun _ => by rintro ⟨⟩

namespace Expr

variable {env : Environment} {S : Reference → Prop}

mutual

/-- **An expression that meets only references which lead somewhere does not wait,** and what it gives has
no others in it. -/
theorem decides_eval (h : env.Leads S) : (e : Expr) → Decides (Within S) (e.eval env)
  | .int _ n => .int n
  | .float _ x => .float x
  | .str _ text => .str text
  | .bool _ b => .bool b
  | .null _ => .null
  | .name span n => by
    simp only [eval]
    refine Concludes.locate span (h.settle ?_)
    cases hn : env.lookup n with
    | none => exact .missing
    | some v => exact h.lookup n v hn
  | .list _ items => by
    simp only [eval]
    refine Results.bind (decides_evalItems h items) fun values hvalues => ?_
    cases values with
    | none => exact .missing
    | some vs => exact .list (hvalues vs rfl)
  | .field span base n => by
    simp only [eval]
    exact Results.bind (decides_eval h base) fun v hv => Concludes.locate span (h.fieldOf n hv)
  | .call span callee args => by
    simp only [eval]
    cases args.any (·.name.isSome) with
    | true => exact fun _ => by rintro ⟨⟩
    | false =>
      refine Results.bind (decides_evalArguments h args) fun values _ => ?_
      cases values with
      | none => exact .missing
      | some vs =>
        refine Concludes.locate span (concludes_of_yields ?_ (Operand.final_applyFunction callee vs))
        exact fun v hv => (Operand.plain_applyFunction callee vs v hv).within
  | .unary span op operand => by
    simp only [eval]
    refine Results.bind (decides_eval h operand) fun v _ => Concludes.locate span ?_
    refine concludes_of_yields (fun w hw => ?_) (Operand.final_unaryOp op v)
    exact (Operand.plain_unaryOp op v w hw).within
  | .binary span op lhs rhs => by
    cases op with
    | and =>
      simp only [eval]
      refine Results.bind (decides_eval h lhs) fun a _ =>
        Results.bind (decides_logicSide _ _ a) fun left _ => ?_
      -- where the left side decides, the right one is not asked
      match left with
      | some false => exact .bool false
      | some true | none =>
        exact Results.bind (decides_eval h rhs) fun b _ =>
          Results.bind (decides_logicSide _ _ b) fun right _ => (plain_logicResult _ right).within
    | or =>
      simp only [eval]
      refine Results.bind (decides_eval h lhs) fun a _ =>
        Results.bind (decides_logicSide _ _ a) fun left _ => ?_
      match left with
      | some true => exact .bool true
      | some false | none =>
        exact Results.bind (decides_eval h rhs) fun b _ =>
          Results.bind (decides_logicSide _ _ b) fun right _ => (plain_logicResult _ right).within
    | _ =>
      simp only [eval]
      refine Results.bind (decides_eval h lhs) fun a ha =>
        Results.bind (decides_eval h rhs) fun b hb => Concludes.locate span ?_
      exact concludes_of_yields (Operand.within_binaryOp _ ha hb) (Operand.final_binaryOp _ a b)

/-- Items are evaluated without waiting, to values within the references. -/
theorem decides_evalItems (h : env.Leads S) : (items : List Expr) →
    Decides (fun values => ∀ vs, values = some vs → ∀ v ∈ vs, v.Within S) (evalItems env items)
  | [] => fun _ hvs => Option.some.inj hvs ▸ List.forall_mem_nil _
  | e :: es => by
    simp only [evalItems]
    refine Results.bind (decides_eval h e) fun v hv => ?_
    cases v with
    | missing =>
      intro vs hvs
      cases hvs
    | _ =>
      refine Results.bind (decides_evalItems h es) fun values hvalues vs hvs => ?_
      obtain ⟨vs, rfl, rfl⟩ := Option.map_eq_some_iff.1 hvs
      exact List.forall_mem_cons.2 ⟨hv, hvalues vs rfl⟩

/-- Arguments are evaluated without waiting. -/
theorem decides_evalArguments (h : env.Leads S) : (args : List (Argument Expr)) →
    Decides (fun _ => True) (evalArguments env args)
  | [] => True.intro
  | ⟨_, e⟩ :: args => by
    simp only [evalArguments]
    refine Results.bind (decides_eval h e) fun v _ => ?_
    cases v with
    | missing => exact True.intro
    | _ => exact Results.bind (decides_evalArguments h args) fun _ _ => True.intro

end

/-- **A condition that meets only references which lead somewhere does not wait.** -/
theorem not_waits_check (h : env.Leads S) (e : Expr) : ¬ Waits (e.check env) := by
  have hcheck : Decides (fun _ => True) (e.check env) := by
    refine Results.bind (decides_eval h e) fun v _ => ?_
    split
    · exact True.intro
    · exact True.intro
    · exact fun _ => by rintro ⟨⟩
  exact hcheck.not_waits

end Expr

/-! ## The conditions on a record -/

/-- What a condition calls by a name is the value of a field. -/
theorem Field.mem_of_calledFrom? {α : Type} {name : String} {v : α} :
    {fields : List (Field α)} → {index : Nat} → calledFrom? name index fields = some v →
      ∃ f ∈ fields, f.value = v
  | [], _, h => by cases h
  | field :: fields, index, h => by
    rw [calledFrom?] at h
    split at h
    · exact ⟨field, .head _, Option.some.inj h⟩
    · obtain ⟨f, hf, hvalue⟩ := mem_of_calledFrom? h
      exact ⟨f, .tail _ hf, hvalue⟩

/-- The conditions on a record meet the references in its fields, and those in what they lead to. -/
theorem recordEnvironment_leads {root : Nat → Option Value} {hops : Nat} {fields : List (Field Value)}
    {S : Reference → Prop} (hfields : ∀ f ∈ fields, ∀ r, Value.Part (.ref r) f.value → S r)
    (hfollow : ∀ r, S r → ∃ base, root r.binding = some base ∧
      (∀ name, base.follow root hops r.path ≠ .error (.unavailable name)) ∧
      ∀ v, base.follow root hops r.path = .ok v → ∀ r', Value.Part (.ref r') v → S r') :
    (recordEnvironment root hops fields).Leads S where
  lookup name v hv := by
    obtain ⟨w, hw, rfl⟩ := Option.map_eq_some_iff.1 hv
    obtain ⟨f, hf, rfl⟩ := Field.mem_of_calledFrom? hw
    exact Operand.within_ofValue f.value (hfields f hf)
  follow r hr := by
    obtain ⟨base, hbase, hnever, hleads⟩ := hfollow r hr
    unfold recordEnvironment
    dsimp only
    rw [hbase]
    dsimp only
    split
    · rename_i v hv
      exact Operand.within_ofValue v (hleads v hv)
    · exact .missing
    · rename_i name hname
      exact absurd hname (hnever name)

/-- **Conditions on a record without references do not depend on bindings.** -/
theorem Expr.check_eq_of_no_references {fields : List (Field Value)}
    (hfields : ∀ f ∈ fields, ∀ r, ¬ Value.Part (.ref r) f.value) (root root' : Nat → Option Value)
    (hops hops' : Nat) (e : Expr) :
    e.check (recordEnvironment root hops fields) = e.check (recordEnvironment root' hops' fields) := by
  let env := recordEnvironment (fun _ => none) 0 fields
  have hleads : env.Leads fun _ => False :=
    recordEnvironment_leads (fun f hf r hr => hfields f hf r hr) fun _ h => h.elim
  have hsame : ∀ root hops, e.check (recordEnvironment root hops fields) = e.check env := by
    intro root hops
    have hextends : env.Extends (recordEnvironment root hops fields) :=
      recordEnvironment_extends (by rintro _ _ ⟨⟩) (Nat.zero_le hops) fields
    exact (e.check_agrees hextends).resolve_left (e.not_waits_check hleads)
  rw [hsame root hops, hsame root' hops']

/-- If no condition on a record waits, checking them comes to an end. -/
theorem checkConstraints_ne_some {env : Environment} {S : Reference → Prop} (h : env.Leads S)
    {ctor : String} {fields : List (Field Value)} {span : Span} {stop : Nat × String} :
    (constraints : List Constraint) → (position : Nat) →
      checkConstraints env ctor fields span position constraints ≠ .ok (some stop)
  | [], _ => by rintro ⟨⟩
  | constraint :: constraints, position => by
    rw [checkConstraints]
    split
    · exact checkConstraints_ne_some h constraints (position + 1)
    · rintro ⟨⟩
    · rename_i name span' hwaits
      exact absurd ⟨name, span', hwaits⟩ (constraint.condition.not_waits_check h)
    · rintro ⟨⟩

end TypedData
