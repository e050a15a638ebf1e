import TypedData.Building.Text

/-!
# Building values from data

Data is built where a type is expected.  Null is accepted where the type is optional or open; for all
other data being optional makes no difference.  Records between braces, and the indented notations for
them, take the only constructor of the type that is expected, or one that is named by a single key.
Where any value is accepted they are records without a constructor.

A reference makes the binding that it names be built, but stays a reference.  To a binding that is being
built it may only be used whole, in a place that can hold a record or a list; whether that is the right
type is checked at the end.
-/

namespace TypedData

namespace Scene

/-! ## References -/

/-- Uses a binding that is being built. -/
def useUnfinished (binding : Nat) (name : String) (path : List String) (span : Span)
    (expected : Ty) (whole : Bool) : Build Unit := do
  if whole || expected.isScalar || !path.isEmpty then
    throw (.reference (.selfDependency name span))
  unless expected.isOpen do modify (·.deferCheck ⟨binding, expected, span⟩)

/-- Uses a finished binding. -/
def useFinished (scene : Scene) (value : Value) (name : String) (path : List String)
    (span : Span) (expected : Ty) : Build Unit := do
  match value.follow (← get).value? scene.hops path with
  | .ok target =>
    unless expected.conforms target do Build.mismatch expected target.describe span
  | .error (.unknownField field) => throw (.reference (.unknownField name field span))
  | .error (.unavailable other) => throw (.reference (.selfDependency other span))

/-- Builds a reference.  `force` makes a binding be built; `whole` says that the reference is the
whole value of a binding. -/
def buildReference (scene : Scene) (force : Nat → Build Unit) (name : String)
    (path : List String) (span : Span) (expected : Ty) (whole : Bool) : Build Value := do
  match scene.indexOf? name with
  | none => throw (.reference (.undefined name span))
  | some binding =>
    force binding
    match (← get).states[binding]? with
    | some .inProgress => useUnfinished binding name path span expected.peeled whole
    | some (.resolved value) => scene.useFinished value name path span expected.peeled
    | _ => throw (.reference (.selfDependency name span))
    return .ref ⟨binding, name, path⟩

/-! ## Records -/

/-- The failure that a record may stand for several constructors. -/
def ambiguousRecord (scene : Scene) (typeName : String) (span : Span) : Build Value :=
  let sample := ((scene.registry.constructorsOf typeName).head?.map Constructor.name).getD "ctor"
  Build.typeFailure (.ambiguousConstructor typeName sample) span

/-- Builds a record from entries.  They are given in three readings: as arguments of a constructor, as
a single entry that names the constructor of the record in it, and as fields without one. -/
def buildRecord (scene : Scene) (args : List BuildArgument)
    (tagged : Option (String × List BuildArgument)) (fields : Build (List (Field Value)))
    (expected : Ty) (span : Span) : Build Value :=
  match expected with
  | .named typeName _ =>
    match scene.registry.soleConstructor? typeName with
    | some ctor => scene.construct ctor.name args expected span
    | none =>
      match tagged with
      | some (key, inner) =>
        if (scene.registry.constructor? key).map Constructor.typeName = some typeName then
          scene.construct key inner expected span
        else scene.ambiguousRecord typeName span
      | none => scene.ambiguousRecord typeName span
  | .prim .any | .param _ => return .record none none (← fields)
  | expected => Build.mismatch expected "a record" span

/-- What a record without a constructor is called in messages. -/
def untypedName : String := "\x7b...\x7d"

/-- Builds a list from items, which are built when their type is known. -/
def buildList (items : Ty → Build (List Value)) (expected : Ty) (span : Span) : Build Value :=
  match expected.item? with
  | some type => return .list (← items type)
  | none => Build.mismatch expected "a list" span

/-! ## Data -/

mutual

/-- Builds data where a type is expected. -/
def buildData (scene : Scene) (force : Nat → Build Unit) : Data → Ty → Build Value
  | .null span, expected =>
    if expected.isOptional || expected.isOpen then return .null
    else Build.mismatch expected "null" span
  | .bool span b, expected => expected.required.coerce scene.fitText span (.bool b)
  | .int span n, expected => expected.required.coerce scene.fitText span (.int n)
  | .float span x, expected => expected.required.coerce scene.fitText span (.float x)
  | .str span text, expected => scene.fitText text expected span
  | .list span items, expected | .dashList span items, expected =>
    buildList (buildItems scene force items) expected.required span
  | .call span ctor args, expected =>
    scene.construct ctor (dataArguments scene force args) expected.required span
  | .ctorBlock span ctor entries, expected =>
    scene.construct ctor (entryArguments scene force entries) expected.required span
  | .listBlock span ctor items, expected =>
    scene.construct ctor
      [⟨none, fun type => buildList (buildItems scene force items) type.required span⟩]
      expected.required span
  | .record span entries, expected | .fieldBlock span entries, expected
  | .dashRecord span entries, expected =>
    scene.buildRecord (entryArguments scene force entries) (taggedArguments scene force entries)
      (untypedFields scene force [] entries) expected.required span
  | .reference span name path, expected =>
    scene.buildReference force name path span expected.required false

/-- Builds items of a type. -/
def buildItems (scene : Scene) (force : Nat → Build Unit) : List Data → Ty → Build (List Value)
  | [], _ => return []
  | d :: ds, type => return (← buildData scene force d type) :: (← buildItems scene force ds type)

/-- The arguments of a constructor. -/
def dataArguments (scene : Scene) (force : Nat → Build Unit) :
    List (Argument Data) → List BuildArgument
  | [] => []
  | ⟨name, d⟩ :: args =>
    ⟨name, fun type => buildData scene force d type⟩ :: dataArguments scene force args

/-- Entries as named arguments of a constructor. -/
def entryArguments (scene : Scene) (force : Nat → Build Unit) :
    List (Entry Data) → List BuildArgument
  | [] => []
  | ⟨key, _, d⟩ :: entries =>
    ⟨some key, fun type => buildData scene force d type⟩ :: entryArguments scene force entries

/-- A single entry that holds a record: its key, and the entries of the record as arguments. -/
def taggedArguments (scene : Scene) (force : Nat → Build Unit) :
    List (Entry Data) → Option (String × List BuildArgument)
  | [⟨key, _, d⟩] => (recordArguments scene force d).map (key, ·)
  | _ => none

/-- The entries of a record as arguments. -/
def recordArguments (scene : Scene) (force : Nat → Build Unit) :
    Data → Option (List BuildArgument)
  | .record _ entries | .fieldBlock _ entries | .dashRecord _ entries =>
    some (entryArguments scene force entries)
  | _ => none

/-- Entries as the fields of a record without a constructor.  `seen` holds the keys before. -/
def untypedFields (scene : Scene) (force : Nat → Build Unit) (seen : List String) :
    List (Entry Data) → Build (List (Field Value))
  | [] => return []
  | ⟨key, span, d⟩ :: entries => do
    if seen.contains key then Build.typeFailure (.duplicateField untypedName key) span
    let v ← buildData scene force d .any
    return ⟨some key, v⟩ :: (← untypedFields scene force (key :: seen) entries)

end

end Scene

end TypedData
