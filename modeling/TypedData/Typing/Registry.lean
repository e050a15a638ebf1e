import TypedData.Typing.Error

/-!
# Declarations

A registry holds the types and constructors of a document and the conditions on them.  Types may refer
to one another in any order, so the names are collected before the fields are looked at: first it is
checked that no name is declared twice, then each field, then the constructors that clauses name.
-/

namespace TypedData

/-- A field of a declared constructor. -/
structure FieldSpec where
  name : Option String
  type : Ty
  span : Span

/-- A declared constructor. -/
structure Constructor where
  name : String
  typeName : String
  fields : List FieldSpec
  span : Span

namespace Constructor

/-- The position of the field of a name. -/
def fieldIndex? (ctor : Constructor) (name : String) : Option Nat :=
  ctor.fields.findIdx? fun field => field.name == some name

end Constructor

/-- What a field without a name is called: its position after an underscore. -/
def positionLabel (index : Nat) : String := "_" ++ toString index

/-- What a field is called: its name, or its position. -/
def fieldLabel (index : Nat) (name : Option String) : String := name.getD (positionLabel index)

/-- A declared type; its constructors by name, in the order of the declaration. -/
structure TypeDef where
  name : String
  params : List String
  constructors : List String
  span : Span

/-- A condition on the constructors in a scope, and its position among all conditions. -/
structure Constraint where
  typeName : String
  condition : Expr
  scope : Scope
  index : Nat

/-- All declarations of a document, in its order. -/
structure Registry where
  types : List TypeDef
  constructors : List Constructor
  constraints : List Constraint

namespace Registry

/-- The declared type of a name. -/
def type? (r : Registry) (name : String) : Option TypeDef :=
  r.types.find? fun type => type.name == name

/-- The declared constructor of a name. -/
def constructor? (r : Registry) (name : String) : Option Constructor :=
  r.constructors.find? fun ctor => ctor.name == name

/-- The constructors of a type, in the order of its declaration. -/
def constructorsOf (r : Registry) (typeName : String) : List Constructor :=
  match r.type? typeName with
  | some type => type.constructors.filterMap r.constructor?
  | none => []

/-- The constructor of a type that has only one. -/
def soleConstructor? (r : Registry) (typeName : String) : Option Constructor :=
  match r.constructorsOf typeName with
  | [ctor] => some ctor
  | _ => none

/-- The conditions on a constructor, in the order of the document. -/
def constraintsFor (r : Registry) (ctor : String) : List Constraint :=
  match r.constructor? ctor with
  | some c =>
    r.constraints.filter fun constraint =>
      constraint.typeName == c.typeName && constraint.scope.appliesTo ctor
  | none => []

/-- The types of the fields of a constructor, where its type has the given arguments. -/
def fieldTypes (r : Registry) (ctor : Constructor) (args : List Ty) : List Ty :=
  let params := ((r.type? ctor.typeName).map TypeDef.params).getD []
  ctor.fields.map fun field => field.type.substitute (params.zip args)

/-! ## Types in declarations -/

/-- What a name stands for in a type, and how many arguments it takes. -/
inductive TypeHead where
  | param
  | prim (p : Primitive)
  | declared (arity : Nat)

namespace TypeHead

/-- How many arguments the name takes. -/
def arity : TypeHead → Nat
  | param | prim _ => 0
  | declared arity => arity

/-- The type that the name makes with its arguments. -/
def toTy (name : String) (args : List Ty) : TypeHead → Ty
  | param => .param name
  | prim p => .prim p
  | declared _ => .named name args

end TypeHead

/-- What a name stands for where the given parameters are declared: a parameter goes before a
primitive type, and that before a declared one. -/
def typeHead? (r : Registry) (params : List String) (name : String) : Option TypeHead :=
  if params.contains name then some .param
  else match Primitive.ofName? name with
    | some p => some (.prim p)
    | none => (r.type? name).map fun type => .declared type.params.length

mutual

/-- The type that is written, where the given parameters are declared. -/
def resolveType (r : Registry) (params : List String) : TypeExpr → Except TypeError Ty
  | .optional _ inner => return .optional (← resolveType r params inner)
  | .list _ inner => return .list (← resolveType r params inner)
  | .named span name args =>
    match r.typeHead? params name with
    | none => .error ⟨.unknownType name, span⟩
    | some head =>
      if args.length ≠ head.arity then
        .error ⟨.arityMismatch name head.arity args.length, span⟩
      else do return head.toTy name (← resolveTypes r params args)

/-- The types that are written. -/
def resolveTypes (r : Registry) (params : List String) :
    List TypeExpr → Except TypeError (List Ty)
  | [] => .ok []
  | t :: ts => return (← resolveType r params t) :: (← resolveTypes r params ts)

end

/-! ## Collecting the names -/

/-- Checks that no parameter is declared twice. -/
def checkParameters (span : Span) (seen : List String) : List String → Except TypeError Unit
  | [] => .ok ()
  | param :: params =>
    if seen.contains param then .error ⟨.duplicateName param, span⟩
    else checkParameters span (param :: seen) params

/-- Checks that no constructor is declared twice; the names of all that were seen. -/
def checkConstructors (seen : List String) : List CtorDecl → Except TypeError (List String)
  | [] => .ok seen
  | ctor :: ctors =>
    if seen.contains ctor.name then .error ⟨.duplicateConstructor ctor.name, ctor.span⟩
    else checkConstructors (ctor.name :: seen) ctors

/-- Checks that no name is declared twice. -/
def checkNames (types ctors : List String) : List TypeDecl → Except TypeError Unit
  | [] => .ok ()
  | decl :: decls => do
    if types.contains decl.name then throw ⟨.duplicateName decl.name, decl.span⟩
    checkParameters decl.span [] decl.params
    let ctors ← checkConstructors ctors decl.ctors
    checkNames (decl.name :: types) ctors decls

/-- The type of a declaration. -/
def typeDefOf (decl : TypeDecl) : TypeDef :=
  ⟨decl.name, decl.params, decl.ctors.map CtorDecl.name, decl.span⟩

/-- The constructors of a declaration, without their fields. -/
def bareConstructors (decl : TypeDecl) : List Constructor :=
  decl.ctors.map fun ctor => ⟨ctor.name, decl.name, [], ctor.span⟩

/-- What is known when the names have been collected. -/
def ofNames (decls : List TypeDecl) : Registry :=
  ⟨decls.map typeDefOf, decls.flatMap bareConstructors, []⟩

/-! ## Fields and clauses -/

/-- The fields of a constructor. -/
def fieldsOf (r : Registry) (params : List String) (ctor : String) (seen : List FieldSpec) :
    List FieldDecl → Except TypeError (List FieldSpec)
  | [] => .ok []
  | field :: fields => do
    if field.name.isSome && seen.any (·.name == field.name) then
      throw ⟨.duplicateField ctor (field.name.getD ""), field.span⟩
    let type ← r.resolveType params field.type
    let spec : FieldSpec := ⟨field.name, type, field.span⟩
    return spec :: (← fieldsOf r params ctor (spec :: seen) fields)

/-- A constructor with its fields. -/
def constructorOf (r : Registry) (decl : TypeDecl) (ctor : CtorDecl) :
    Except TypeError Constructor := do
  let fields ← r.fieldsOf decl.params ctor.name [] ctor.fields
  return ⟨ctor.name, decl.name, fields, ctor.span⟩

/-- The clause that the conditions directly after a constructor make. -/
def inlineClause? (ctor : CtorDecl) : Option (WhereClause × Scope) :=
  ctor.inlineWhere.map fun clause => (clause, .only [ctor.name])

/-- The clauses of a declaration with their scopes, those after its constructors first. -/
def clausesOf (decl : TypeDecl) : List (WhereClause × Scope) :=
  decl.ctors.filterMap inlineClause? ++ decl.clauses.map fun clause => (clause, clause.scope)

/-- Checks that a clause names only constructors of its type. -/
def checkScope (r : Registry) (typeName : String) (clause : WhereClause) (scope : Scope) :
    Except TypeError Unit :=
  scope.names.forM fun name =>
    if (r.constructor? name).map Constructor.typeName = some typeName then .ok ()
    else .error ⟨.foreignConstructor typeName name, clause.span⟩

/-- The conditions of a declaration with their scopes. -/
def conditionsOf (r : Registry) (decl : TypeDecl) : Except TypeError (List (Expr × Scope)) := do
  let clauses := clausesOf decl
  clauses.forM fun (clause, scope) => r.checkScope decl.name clause scope
  return clauses.flatMap fun (clause, scope) => clause.conditions.map fun e => (e, scope)

/-- The constructors and conditions of a declaration. -/
def declare (r : Registry) (decl : TypeDecl) :
    Except TypeError (List Constructor × List Constraint) := do
  let ctors ← decl.ctors.mapM (r.constructorOf decl)
  let conditions ← r.conditionsOf decl
  return (ctors, conditions.map fun (e, scope) => ⟨decl.name, e, scope, 0⟩)

/-- Numbers conditions in their order. -/
def numbered (constraints : List Constraint) : List Constraint :=
  constraints.mapIdx fun index constraint => { constraint with index := index }

/-- The registry of declarations. -/
def ofDecls (decls : List TypeDecl) : Except TypeError Registry := do
  checkNames [] [] decls
  let names := ofNames decls
  let parts ← decls.mapM names.declare
  return ⟨names.types, parts.flatMap Prod.fst, numbered (parts.flatMap Prod.snd)⟩

end Registry

end TypedData
