import TypedData.Proofs.Building.Handing
import TypedData.Proofs.Condition.Plain
import TypedData.Proofs.Rule.Matching

/-!
# Rules that hand on something smaller

A rule makes a record of a text, and it may give texts to fields of the record, which are taken apart again where
declared types are expected.  Two conditions on rules, each of which can be computed, keep this from going on
for ever.

* A rule **descends** if the fields that it fills have types of smaller ranks than its own type
  (`Rule.descends`).
* A rule **shortens** if the types of the fields that it fills name no type of a greater rank than its own, and
  each of these fields is filled by a constructor, has a type of a smaller rank and without a parameter, or is
  filled with slots that are shorter than the text (`Rule.shortens`).  So a rule for a recursive type may hand
  on pieces of its text, and a field whose type is a parameter may be filled with one.

What such a rule hands on is for a type of a smaller rank (`Rule.ranksBelow_of_hands`), or is for one of no greater
rank and shorter than the text (`Rule.smaller_of_hands`).
-/

namespace TypedData

/-! ## Ranks of types -/

namespace Ty

/-- Whether texts are taken apart only for declared types of ranks below `n`, where a value of the type is
expected.  A parameter may stand for any type. -/
def ranksBelow (rank : String → Nat) (n : Nat) : Ty → Bool
  | prim _ => true
  | param _ => false
  | named name _ => rank name < n
  | optional inner | list inner => inner.ranksBelow rank n

variable {rank : String → Nat} {n : Nat} {t t' : Ty} {v : Value} {text : String}

/-- A type whose ranks are below a bound stays so, whatever takes the place of its parameters. -/
theorem ranksBelow_substitute (bindings : List (String × Ty)) :
    (t : Ty) → t.ranksBelow rank n = true → (t.substitute bindings).ranksBelow rank n = true
  | prim _, h => by rwa [substitute]
  | param _, h => by cases h
  | named _ _, h => by rwa [substitute, ranksBelow]
  | optional inner, h | list inner, h => by
    rw [substitute]
    exact ranksBelow_substitute bindings inner h

/-- A value hands texts only to types of a rank below the bound. -/
theorem Hands.ranksBelow (h : t.Hands v text t') (ht : t.ranksBelow rank n = true) :
    t'.ranksBelow rank n = true := by
  induction h with
  | text => exact ht
  | optional _ ih | item _ _ ih => exact ih ht

/-- A text that is handed on is taken apart for a declared type. -/
theorem Hands.exists_named (h : t.Hands v text t') : ∃ name args, t' = .named name args := by
  induction h with
  | text name args => exact ⟨name, args, rfl⟩
  | optional _ ih | item _ _ ih => exact ih

mutual

/-- The declared types that a type names. -/
def names : Ty → List String
  | prim _ | param _ => []
  | named name args => name :: namesOfArgs args
  | optional inner | list inner => inner.names

/-- The declared types that types name. -/
def namesOfArgs : List Ty → List String
  | [] => []
  | arg :: args => arg.names ++ namesOfArgs args

end

mutual

/-- Whether a parameter occurs in the type. -/
def hasParameter : Ty → Bool
  | prim _ => false
  | param _ => true
  | named _ args => argsHaveParameter args
  | optional inner | list inner => inner.hasParameter

/-- Whether a parameter occurs in one of the types. -/
def argsHaveParameter : List Ty → Bool
  | [] => false
  | arg :: args => arg.hasParameter || argsHaveParameter args

end

/-- A name in an argument is a name in the arguments. -/
theorem mem_namesOfArgs {name : String} : {args : List Ty} → {arg : Ty} → arg ∈ args → name ∈ arg.names →
    name ∈ namesOfArgs args
  | _ :: _, _, .head _, h => List.mem_append_left _ h
  | _ :: _, _, .tail _ harg, h => List.mem_append_right _ (mem_namesOfArgs harg h)

mutual

/-- What is named after types are put for parameters was named before, or is named by one of these types. -/
theorem mem_names_substitute {name : String} {bindings : List (String × Ty)} :
    (t : Ty) → name ∈ (t.substitute bindings).names →
      name ∈ t.names ∨ t.hasParameter = true ∧ ∃ binding ∈ bindings, name ∈ binding.2.names
  | prim _, h => .inl h
  | param p, h => by
    rw [substitute] at h
    cases hp : bindings.lookup p with
    | none =>
      rw [hp] at h
      cases h
    | some arg =>
      rw [hp] at h
      obtain ⟨before, after, rfl, -⟩ := List.lookup_eq_some_iff.1 hp
      exact .inr ⟨rfl, (p, arg), List.mem_append_right _ (.head _), h⟩
  | named head args, h => by
    rw [substitute, names, List.mem_cons] at h
    rcases h with rfl | h
    · exact .inl (.head _)
    · exact (mem_namesOfArgs_substitute args h).imp_left (.tail _)
  | optional inner, h | list inner, h => by
    rw [substitute] at h
    exact mem_names_substitute inner h

/-- A name in a type after the parameters are replaced was there before, or comes from what takes the place of a
parameter. -/
theorem mem_namesOfArgs_substitute {name : String} {bindings : List (String × Ty)} :
    (args : List Ty) → name ∈ namesOfArgs (substituteArgs bindings args) →
      name ∈ namesOfArgs args ∨
        argsHaveParameter args = true ∧ ∃ binding ∈ bindings, name ∈ binding.2.names
  | [], h => nomatch h
  | arg :: args, h => by
    rw [substituteArgs, namesOfArgs, List.mem_append] at h
    rcases h with h | h
    · rcases mem_names_substitute arg h with h | ⟨hparam, h⟩
      · exact .inl (List.mem_append_left _ h)
      · exact .inr ⟨Bool.or_eq_true_iff.2 (.inl hparam), h⟩
    · rcases mem_namesOfArgs_substitute args h with h | ⟨hparam, h⟩
      · exact .inl (List.mem_append_right _ h)
      · exact .inr ⟨Bool.or_eq_true_iff.2 (.inr hparam), h⟩

end

/-- A text is taken apart for a type that the expected type names. -/
theorem Hands.names_subset (h : t.Hands v text t') : t'.names ⊆ t.names := by
  induction h with
  | text => exact List.Subset.refl _
  | optional _ ih | item _ _ ih => exact ih

/-- Among the types that a type names, those which rules are for have ranks below `n`. -/
def NamesBelow (rules : List Rule) (rank : String → Nat) (n : Nat) (t : Ty) : Prop :=
  ∀ rule ∈ rules, rule.typeName ∈ t.names → rank rule.typeName < n

/-- Names below a bound are below every greater one. -/
theorem NamesBelow.mono {rules : List Rule} {m : Nat} (h : t.NamesBelow rules rank n) (hmn : n ≤ m) :
    t.NamesBelow rules rank m := fun rule hrule hname => Nat.lt_of_lt_of_le (h rule hrule hname) hmn

/-- The arguments of a type have names below the bound of its own. -/
theorem NamesBelow.arguments {rules : List Rule} (h : t.peeled.NamesBelow rules rank n) :
    ∀ arg ∈ t.peeled.arguments, arg.NamesBelow rules rank n := by
  intro arg harg rule hrule hname
  cases hpeeled : t.peeled with
  | named name args =>
    rw [hpeeled] at h harg
    exact h rule hrule (.tail _ (mem_namesOfArgs harg hname))
  | _ =>
    rw [hpeeled] at harg
    cases harg

/-- Optional layers hold no names. -/
theorem names_peeled (t : Ty) : t.peeled.names = t.names := by cases t <;> rfl

end Ty

/-- The texts in the value are captures. -/
def Value.IsCaptured (captures : Captures) (v : Value) : Prop :=
  ∀ text ∈ v.texts, ∃ c ∈ captures, c.2 = text

/-! ## What rules fill -/

/-- Whether the condition holds of the type of every field that is filled by these arguments, and of what
fills it. -/
def Constructor.fills (ctor : Constructor) (P : Ty → Expr → Bool) (args : List (Argument Expr)) : Bool :=
  match ctor.place args with
  | .ok placed => (ctor.fields.zip placed).all fun (field, arg) => arg.all (P field.type)
  | .error _ => true

namespace Expr

mutual

/-- Whether the condition holds of the fields that the constructors fill which are called where an expression is
the target of a rule, and of what fills them. -/
def fills (registry : Registry) (P : Ty → Expr → Bool) : Expr → Bool
  | call _ callee args =>
    (registry.constructor? callee).all (fun ctor => ctor.fills P args) && argumentsFill registry P args
  | _ => true

/-- Whether this is so in all arguments of a call. -/
def argumentsFill (registry : Registry) (P : Ty → Expr → Bool) : List (Argument Expr) → Bool
  | [] => true
  | ⟨_, e⟩ :: args => e.fills registry P && argumentsFill registry P args

end

mutual

/-- Whether the expression is a slot, or a list of slots. -/
def isOfSlots : Expr → Bool
  | name _ _ => true
  | list _ items => areOfSlots items
  | _ => false

/-- Whether all items of a list are slots or lists of slots. -/
def areOfSlots : List Expr → Bool
  | [] => true
  | e :: es => e.isOfSlots && areOfSlots es

end

/-- Whether the expression calls a constructor. -/
def callsConstructor (registry : Registry) : Expr → Bool
  | call _ callee _ => (registry.constructor? callee).isSome
  | _ => false

variable {registry : Registry} {captures : Captures} {P : Ty → Expr → Bool} {e : Expr} {t t' : Ty}
  {text : String}

/-- What fills a field with each of the arguments does so with any of them. -/
theorem fills_of_mem {args : List (Argument Expr)} (h : argumentsFill registry P args = true) :
    ∀ arg ∈ args, arg.value.fills registry P = true := by
  induction args with
  | nil => exact List.forall_mem_nil _
  | cons arg args ih =>
    obtain ⟨harg, hargs⟩ := Bool.and_eq_true_iff.1 h
    exact List.forall_mem_cons.2 ⟨harg, ih hargs⟩

/-- What is placed at a field satisfies the condition, with the type that is declared for the field. -/
theorem exists_field_of_fills {span : Span} {callee : String} {args : List (Argument Expr)}
    (hfills : (call span callee args).fills registry P = true) {ctor : Constructor}
    (hctor : registry.constructor? callee = some ctor) {placed : List (Option Expr)}
    (hplaced : ctor.place args = .ok placed) {typeArgs : List Ty} {type : Ty}
    (hmem : (type, some e) ∈ (registry.fieldTypes ctor typeArgs).zip placed) :
    e.fills registry P = true ∧ ∃ declared bindings, P declared e = true ∧
      type = declared.substitute bindings ∧ ∀ binding ∈ bindings, binding.2 ∈ typeArgs := by
  obtain ⟨hcall, hargs⟩ := Bool.and_eq_true_iff.1 hfills
  rw [hctor, Option.all_some, Constructor.fills, hplaced] at hcall
  obtain ⟨arg, harg, rfl⟩ := mem_of_place hplaced (List.of_mem_zip hmem).2
  refine ⟨fills_of_mem hargs arg harg, ?_⟩
  rw [Registry.fieldTypes, List.zip_map_left] at hmem
  obtain ⟨⟨field, _⟩, hplace, hpair⟩ := List.mem_map.1 hmem
  obtain ⟨rfl, rfl⟩ := Prod.mk.inj hpair
  exact ⟨field.type, _, List.all_eq_true.1 hcall _ hplace, rfl,
    fun binding hbinding => (List.of_mem_zip hbinding).2⟩

/-- A text that a target hands on is taken apart for a declared type. -/
theorem Hands.exists_named (h : e.Hands registry captures t text t') :
    ∃ name args, t' = .named name args := by
  induction h with
  | value _ _ hhands => exact hhands.exists_named
  | argument _ _ _ _ ih => exact ih

/-- The target hands on what its arguments hand on. -/
theorem Hands.ranksBelow {rank : String → Nat} {n : Nat} (h : e.Hands registry captures t text t')
    (hfills : e.fills registry (fun type _ => type.ranksBelow rank n) = true)
    (ht : t.ranksBelow rank n = true) : t'.ranksBelow rank n = true := by
  induction h with
  | value _ _ hhands => exact hhands.ranksBelow ht
  | argument hctor hplaced hmem _ ih =>
    obtain ⟨hfills, declared, bindings, hdeclared, rfl, -⟩ := exists_field_of_fills hfills hctor hplaced hmem
    exact ih hfills (declared.ranksBelow_substitute bindings hdeclared)

mutual

/-- Slots have no other texts than the captures. -/
theorem isCaptured_of_isOfSlots : (e : Expr) → e.isOfSlots = true →
    Yields (fun v => v.toValue.IsCaptured captures) (e.eval (Rule.environment captures))
  | name span slot, _ => by
    simp only [eval, Rule.environment, Environment.ofLookup]
    cases hslot : captures.lookup slot with
    | none => exact .ok (List.forall_mem_nil _)
    | some text =>
      obtain ⟨before, after, rfl, -⟩ := List.lookup_eq_some_iff.1 hslot
      refine .ok (List.forall_mem_singleton.2 ⟨(slot, text), List.mem_append_right _ (.head _), rfl⟩)
  | list span items, h => by
    simp only [eval]
    refine (areCaptured_of_areOfSlots items h).bind fun values hvalues => ?_
    cases values with
    | none => exact .ok (List.forall_mem_nil _)
    | some vs => exact .ok (hvalues vs rfl)
  | int _ _, h | float _ _, h | str _ _, h | bool _ _, h | null _, h | field _ _ _, h | call _ _ _, h
  | unary _ _ _, h | binary _ _ _ _, h => nomatch h

/-- The items of a list of slots are captured texts. -/
theorem areCaptured_of_areOfSlots : (items : List Expr) → areOfSlots items = true →
    Yields (fun values => ∀ vs, values = some vs → (Value.list (Operand.toItems vs)).IsCaptured captures)
      (evalItems (Rule.environment captures) items)
  | [], _ => .ok fun _ hvs => Option.some.inj hvs ▸ List.forall_mem_nil _
  | e :: items, h => by
    obtain ⟨he, hitems⟩ := Bool.and_eq_true_iff.1 h
    simp only [evalItems]
    refine (isCaptured_of_isOfSlots e he).bind fun v hv => ?_
    cases v with
    | missing =>
      refine .ok fun vs hvs => ?_
      cases hvs
    | _ =>
      refine (areCaptured_of_areOfSlots items hitems).bind fun values hvalues => .ok fun vs hvs => ?_
      obtain ⟨vs, rfl, rfl⟩ := Option.map_eq_some_iff.1 hvs
      exact List.forall_mem_append.2 ⟨hv, hvalues vs rfl⟩

end

end Expr

namespace Rule

/-! ## Rules -/

/-- Whether the rule fills only fields whose types have smaller ranks than its own. -/
def descends (registry : Registry) (rank : String → Nat) (rule : Rule) : Bool :=
  rule.target.fills registry fun type _ => type.ranksBelow rank (rank rule.typeName)

/-- Whether the rule may fill a field of this type with this: the type names no type of a greater rank than that of
the rule, and the field is filled by a constructor, or its type has no parameter and names only types of smaller
ranks, or it is filled with slots that are shorter than the text. -/
def mayFill (registry : Registry) (rank : String → Nat) (rule : Rule) (type : Ty) (e : Expr) : Bool :=
  type.names.all (fun name => rank name ≤ rank rule.typeName) &&
    (e.callsConstructor registry ||
      (!type.hasParameter && type.names.all fun name => rank name < rank rule.typeName) ||
      (Segment.sheds rule.segments && e.isOfSlots))

/-- Whether the rule hands on only what is smaller, by the ranks of the types and then the lengths of the texts. -/
def shortens (registry : Registry) (rank : String → Nat) (rule : Rule) : Bool :=
  rule.target.fills registry (rule.mayFill registry rank)

/-- The target of the rule is a call of a constructor. -/
def Calls (registry : Registry) (rule : Rule) : Prop :=
  ∃ span name args ctor, rule.target = .call span name args ∧ registry.constructor? name = some ctor

variable {registry : Registry} {rank : String → Nat} {rule : Rule} {captures : Captures}
  {text : List Char} {handed : String} {t t' : Ty}

/-- The target of a rule that is accepted calls the constructor of the rule. -/
theorem calls_of_ofDecl {index : Nat} {decl : RuleDecl} (h : ofDecl registry index decl = .ok rule) :
    rule.Calls registry := by
  obtain ⟨targetSpan, ctorName, args, ctor, -, htarget, hctor, -, hrule⟩ := exists_of_ofDecl h
  exact ⟨targetSpan, ctorName, args, ctor, (congrArg Rule.target hrule).trans htarget, hctor⟩

/-- Every rule of a document was made of a declaration. -/
theorem exists_ofDecl_of_ofDeclsFrom : {decls : List RuleDecl} → {index : Nat} → {rules : List Rule} →
    ofDeclsFrom registry index decls = .ok rules → ∀ rule ∈ rules, ∃ index decl, ofDecl registry index decl = .ok rule
  | [], _, _, h => by
    obtain rfl := Except.ok.inj h
    exact List.forall_mem_nil _
  | decl :: decls, index, _, h => by
    obtain ⟨rule, hrule, h⟩ := bind_eq_ok_iff.1 h
    obtain ⟨rules, hrules, h⟩ := bind_eq_ok_iff.1 h
    obtain rfl := Except.ok.inj h
    exact List.forall_mem_cons.2 ⟨⟨index, decl, hrule⟩, exists_ofDecl_of_ofDeclsFrom hrules⟩

/-- **What a rule that descends hands on is for types of smaller ranks** than its own. -/
theorem ranksBelow_of_hands (hcalls : rule.Calls registry) (hdescends : rule.descends registry rank = true)
    (h : rule.target.Hands registry captures t handed t') : t'.ranksBelow rank (rank rule.typeName) = true := by
  obtain ⟨callSpan, name, args, ctor, htarget, hctor⟩ := hcalls
  rw [descends, htarget] at hdescends
  rw [htarget] at h
  cases h with
  | value hbuilt =>
    rw [Expr.isBuilt, hctor] at hbuilt
    cases hbuilt
  | argument hctor hplaced hmem h =>
    obtain ⟨hfills, declared, bindings, hdeclared, rfl, -⟩ :=
      Expr.exists_field_of_fills hdescends hctor hplaced hmem
    exact h.ranksBelow hfills (declared.ranksBelow_substitute bindings hdeclared)

variable {rules : List Rule} {n : Nat}

/-- What may fill a field of a type has no name of a higher rank than the rule.  It is a call of a constructor, or the
type of the field has lower ranks only, or it is made of slots of a template that has other characters too. -/
theorem of_mayFill {type : Ty} {e : Expr} (h : rule.mayFill registry rank type e = true) :
    (∀ name ∈ type.names, rank name ≤ rank rule.typeName) ∧
      (e.callsConstructor registry = true ∨
        (type.hasParameter = false ∧ ∀ name ∈ type.names, rank name < rank rule.typeName) ∨
        Segment.sheds rule.segments = true ∧ e.isOfSlots = true) := by
  simpa only [mayFill, Bool.and_eq_true, Bool.or_eq_true, List.all_eq_true, decide_eq_true_eq,
    Bool.not_eq_true', or_assoc] using h

/-- The types that a field names are those in its declaration and those that are put for parameters. -/
theorem namesBelow_of_field {declared : Ty} {bindings : List (String × Ty)} {typeArgs : List Ty}
    (hbindings : ∀ binding ∈ bindings, binding.2 ∈ typeArgs)
    (hdeclared : ∀ name ∈ declared.names, rank name < n)
    (hargs : declared.hasParameter = true → ∀ arg ∈ typeArgs, arg.NamesBelow rules rank n) :
    (declared.substitute bindings).NamesBelow rules rank n := by
  intro rule hrule hname
  rcases declared.mem_names_substitute hname with hname | ⟨hparam, binding, hbinding, hname⟩
  · exact hdeclared _ hname
  · exact hargs hparam binding.2 (hbindings binding hbinding) rule hrule hname

/-- What a part of the target hands on is smaller, if the part calls a constructor, stands where only types of smaller
ranks are named, or is made of slots that are shorter than the text. -/
theorem smaller_of_part (hregular : Segment.Regular rule.segments) (hmatch : rule.match? text = some captures)
    (hn : rank rule.typeName < n) {e : Expr} (h : e.Hands registry captures t handed t')
    (hfills : e.fills registry (rule.mayFill registry rank) = true) (ht : t.NamesBelow rules rank n)
    (he : e.callsConstructor registry = true ∨ t.NamesBelow rules rank (rank rule.typeName) ∨
      Segment.sheds rule.segments = true ∧ e.isOfSlots = true) :
    t'.NamesBelow rules rank (rank rule.typeName) ∨
      t'.NamesBelow rules rank n ∧ handed.length < text.length := by
  induction h with
  | @value e t v handed t' hbuilt heval hhands =>
    have hnames := hhands.names_subset
    rcases he with hcalls | hbelow | ⟨hsheds, hslots⟩
    · cases e with
      | call => exact absurd hcalls (Bool.eq_false_iff.1 hbuilt)
      | _ => cases hcalls
    · exact .inl fun rule hrule hname => hbelow rule hrule (hnames hname)
    · obtain ⟨c, hc, rfl⟩ := Expr.isCaptured_of_isOfSlots e hslots v heval handed hhands.mem_texts
      exact .inr ⟨fun rule hrule hname => ht rule hrule (hnames hname),
        length_lt_of_match? hregular hsheds hmatch c hc⟩
  | @argument span callee args t ctor placed e type handed t' hctor hplaced hmem _ ih =>
    obtain ⟨hfills, declared, bindings, hmay, rfl, hbindings⟩ :=
      Expr.exists_field_of_fills hfills hctor hplaced hmem
    obtain ⟨hle, he⟩ := of_mayFill hmay
    have hargs : ∀ arg ∈ t.peeled.arguments, arg.NamesBelow rules rank n :=
      Ty.NamesBelow.arguments (by rwa [Ty.NamesBelow, Ty.names_peeled])
    refine ih hfills (namesBelow_of_field hbindings (fun name hname => ?_) fun _ => hargs) ?_
    · exact Nat.lt_of_le_of_lt (hle name hname) hn
    · refine he.imp_right (Or.imp_left fun hsmaller => ?_)
      exact namesBelow_of_field hbindings hsmaller.2 fun hparam =>
        absurd hparam (Bool.eq_false_iff.1 hsmaller.1)

/-- **What a rule that shortens hands on is smaller:** it is for a type that names only types of smaller ranks than
that of the rule, or it is shorter than the text, for a type that names none of a greater rank than the type that
is expected. -/
theorem smaller_of_hands (hcalls : rule.Calls registry) (hregular : Segment.Regular rule.segments)
    (hshortens : rule.shortens registry rank = true) (hmatch : rule.match? text = some captures)
    (hn : rank rule.typeName < n) (ht : t.NamesBelow rules rank n)
    (h : rule.target.Hands registry captures t handed t') :
    t'.NamesBelow rules rank (rank rule.typeName) ∨
      t'.NamesBelow rules rank n ∧ handed.length < text.length := by
  refine smaller_of_part hregular hmatch hn h hshortens ht (.inl ?_)
  obtain ⟨callSpan, name, args, ctor, htarget, hctor⟩ := hcalls
  rw [htarget, Expr.callsConstructor, hctor]
  rfl

end Rule

end TypedData
