import TypedData.Building.Fit

/-!
# Building records

A constructor takes arguments by position and by name.  The arguments are first placed: the k-th
argument without a name belongs to the k-th field, one with a name to the field of that name, and no
field takes two.  Then the fields are built in their order; an optional field without an argument is
null.  Last, the conditions on the constructor are checked over its fields.

A condition that reads a binding which is not finished stops the checking, and it and the conditions
after it are left for the end.
-/

namespace TypedData

/-- An argument of a constructor, which is built when the type of its field is known. -/
abbrev BuildArgument := Argument (Ty → Build Value)

namespace Constructor

/-- Places an argument at a field. -/
def placeAt {α : Type} (ctor : Constructor) (index : Nat) (arg : α) (placed : List (Option α)) :
    Except TypeProblem (List (Option α)) :=
  match placed[index]? with
  | some (some _) =>
    .error (.duplicateField ctor.name (fieldLabel index (ctor.fields[index]?.bind FieldSpec.name)))
  | _ => .ok (placed.set index (some arg))

/-- Places arguments at fields.  `next` is the field of the next argument without a name, and `given`
the number of all arguments. -/
def placeFrom {α : Type} (ctor : Constructor) (given next : Nat) (placed : List (Option α)) :
    List (Argument α) → Except TypeProblem (List (Option α))
  | [] => .ok placed
  | ⟨none, arg⟩ :: args =>
    if placed.length ≤ next then .error (.tooManyArguments ctor.name placed.length given)
    else do ctor.placeFrom given (next + 1) (← ctor.placeAt next arg placed) args
  | ⟨some name, arg⟩ :: args =>
    match ctor.fieldIndex? name with
    | none => .error (.unknownField ctor.name name)
    | some index => do ctor.placeFrom given next (← ctor.placeAt index arg placed) args

/-- The argument of each field, where it has one. -/
def place {α : Type} (ctor : Constructor) (args : List (Argument α)) :
    Except TypeProblem (List (Option α)) :=
  ctor.placeFrom args.length 0 (List.replicate ctor.fields.length none) args

end Constructor

/-! ## Conditions over fields -/

/-- The position that a label such as `_2` stands for. -/
def labelledPosition? (name : String) : Option Nat :=
  match name.toList with
  | '_' :: digits =>
    if digits = [] || !digits.all Char.isDigit then none else some (digitsValue digits)
  | _ => none

namespace Field

/-- Whether a condition calls a field, which stands at a position, by a name. -/
def isCalled {α : Type} (index : Nat) (field : Field α) (name : String) : Bool :=
  match field.name with
  | some n => n == name
  | none => labelledPosition? name == some index

/-- The value of the first field that is called by a name.  The first of the fields stands at
`index`. -/
def calledFrom? {α : Type} (name : String) (index : Nat) : List (Field α) → Option α
  | [] => none
  | field :: fields =>
    if field.isCalled index name then some field.value else calledFrom? name (index + 1) fields

end Field

/-- The environment of the conditions on a record: its fields, and the bindings behind them.  A
reference to a field that is not there leads to something missing. -/
def recordEnvironment (root : Nat → Option Value) (hops : Nat) (fields : List (Field Value)) :
    Environment where
  lookup name := (Field.calledFrom? name 0 fields).map Operand.ofValue
  follow reference :=
    match root reference.binding with
    | none => .error (.unavailable reference.name)
    | some base =>
      match base.follow root hops reference.path with
      | .ok v => .ok (.ofValue v)
      | .error (.unknownField _) => .ok .missing
      | .error (.unavailable name) => .error (.unavailable name)

/-- Fields with their labels and their values as they are written. -/
def renderedFields (fields : List (Field Value)) : List (String × String) :=
  fields.mapIdx fun index field => (fieldLabel index field.name, field.value.print)

/-- Checks conditions over the fields of a record.  The first condition has the given position.  The
answer is the position of the first condition that reads an unfinished binding, and its name. -/
def checkConstraints (env : Environment) (ctor : String) (fields : List (Field Value))
    (span : Span) (position : Nat) : List Constraint → Except Failure (Option (Nat × String))
  | [] => .ok none
  | constraint :: constraints =>
    match constraint.condition.check env with
    | .ok true => checkConstraints env ctor fields span (position + 1) constraints
    | .ok false =>
      .error (.constraint ⟨ctor, constraint.condition.print, renderedFields fields, span,
        constraint.condition.span⟩)
    | .error ⟨.unavailable name, _⟩ => .ok (some (position, name))
    | .error fault => .error (.evaluation fault)

namespace Scene

/-- Checks the conditions on a record but for the first `done`. -/
def checkRecord (scene : Scene) (progress : Progress) (ctor : String)
    (fields : List (Field Value)) (done : Nat) (span : Span) :
    Except Failure (Option (Nat × String)) :=
  checkConstraints (recordEnvironment progress.value? scene.hops fields) ctor fields span done
    ((scene.registry.constraintsFor ctor).drop done)

/-! ## Construction -/

/-- The arguments of the type that a constructor builds a record of. -/
def typeArguments (ctor : Constructor) (expected : Ty) (span : Span) : Build (List Ty) :=
  match expected with
  | .named name args =>
    if name = ctor.typeName then return args
    else Build.typeFailure (.constructorMismatch ctor.name name) span
  | .prim .any | .param _ => return []
  | expected => Build.mismatch expected ("constructor " ++ Diagnostic.name ctor.name) span

/-- Builds a field: from its argument, or null where it may be left out. -/
def buildField (ctor : Constructor) (span : Span) (index : Nat) (name : Option String) (type : Ty)
    (arg : Option (Ty → Build Value)) : Build (Field Value) :=
  match arg with
  | some build => return ⟨name, ← build type⟩
  | none =>
    if type.isOptional then return ⟨name, .null⟩
    else Build.typeFailure (.missingField ctor.name (fieldLabel index name)) span

/-- Builds fields in their order.  The first of them stands at `index`. -/
def buildFields (ctor : Constructor) (span : Span) (index : Nat) :
    (names : List (Option String)) → (types : List Ty) →
    (args : List (Option (Ty → Build Value))) → Build (List (Field Value))
  | name :: names, type :: types, arg :: args => do
    let field ← buildField ctor span index name type arg
    return field :: (← buildFields ctor span (index + 1) names types args)
  | _, _, _ => return []

/-- Builds a record by a constructor, where a value of a type is expected. -/
def construct (scene : Scene) (ctorName : String) (args : List BuildArgument) (expected : Ty)
    (span : Span) : Build Value := do
  match scene.registry.constructor? ctorName with
  | none => Build.typeFailure (.unknownConstructor ctorName) span
  | some ctor =>
    let typeArgs ← typeArguments ctor expected span
    match ctor.place args with
    | .error problem => Build.typeFailure problem span
    | .ok placed =>
      let types := scene.registry.fieldTypes ctor typeArgs
      let fields ← buildFields ctor span 0 (ctor.fields.map FieldSpec.name) types placed
      match ← Build.ofExcept (scene.checkRecord (← get) ctor.name fields 0 span) with
      | some (done, _) => modify (·.deferConstraints ⟨ctor.name, fields, done, span⟩)
      | none => pure ()
      return .record (some ctor.typeName) (some ctor.name) fields

end Scene

end TypedData
