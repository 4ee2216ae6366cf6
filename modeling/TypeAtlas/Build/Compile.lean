/-
  Compiling a shape.

  A shape and the bodies bound for its type are compiled into a call table whose
  members stand in the order of the shape.  Every body must fit its member; a
  strict compilation also wants a body for every member that can be called, and
  a member for every body.

  * `Shape.compileTable` makes the table, or finds the first thing wrong;
  * `Shape.compile` also writes the shape as a blob, before all else.
-/
import TypeAtlas.Blob.Writer
import TypeAtlas.Host.CallTable

namespace TypeAtlas

/-- A compiled type. -/
structure Compiled where
  table : CallTable
  blob : String

/-- How shapes are compiled. -/
structure CompileMode where
  /-- Whether every member that can be called must have a body. -/
  strict : Bool := false
  /-- The lineage that objects are judged by. -/
  lineage : Option Lineage := none

namespace CompileMode

/-- What a missing body comes to. -/
def missing (mode : CompileMode) (type member : String) : Except BuildError Unit :=
  if mode.strict then .error (.missingBody type member) else .ok ()

/-- Refuses a missing body if the member needs one. -/
def require {α : Type} (mode : CompileMode) (type member : String) (needed : Bool)
    (body : Option α) : Except BuildError Unit :=
  if body.isNone && needed then mode.missing type member else .ok ()

/-- Refuses a body that is static where the member is not, or the other way
    round. -/
def checkStatic (type member : String) (declared : Bool) (bound : Option Bool) :
    Except BuildError Unit :=
  match bound with
  | some isStatic =>
    if isStatic = declared then .ok ()
    else .error (.mismatch type member (if declared then .memberStatic else .bodyStatic))
  | none => .ok ()

/-! ## Members -/

def slots (parameters : List String) : List Slot := parameters.map Slot.ofName

def constructor (mode : CompileMode) (shape : Shape) (bindings : Bindings) (ctor : Constructor) :
    Except BuildError TableConstructor := do
  let body := bindings.constructors.find? ctor.signature
  let instantiable := shape.kind == .cls && !shape.modifiers.isAbstract
  mode.require shape.name ctor.signature instantiable body
  return ⟨ctor.signature, slots ctor.parameters, body⟩

def method (mode : CompileMode) (shape : Shape) (bindings : Bindings) (method : Method) :
    Except BuildError TableMethod := do
  let bound := bindings.methods.find? method.signature
  let isStatic := method.modifiers.isStatic
  checkStatic shape.name method.signature isStatic (bound.map BoundMethod.isStatic)
  mode.require shape.name method.signature (!method.modifiers.isAbstract) bound
  return ⟨method.signature, isStatic, slots method.parameters, .ofName method.returns,
    bound.map BoundMethod.body⟩

def field (mode : CompileMode) (shape : Shape) (bindings : Bindings) (field : Field) :
    Except BuildError TableField := do
  let bound := bindings.fields.find? field.name
  let isStatic := field.modifiers.isStatic
  checkStatic shape.name field.name isStatic (bound.map BoundField.isStatic)
  mode.require shape.name field.name true bound
  return ⟨field.name, isStatic, field.modifiers.isFinal, .ofName field.typeName,
    bound.map BoundField.get, bound.bind BoundField.set⟩

/-! ## Leftovers -/

/-- The first body without a member: of a constructor, of a method, of a field. -/
def stray? (shape : Shape) (bindings : Bindings) : Option String :=
  let unused := fun (keys used : List String) => keys.find? fun key => !used.contains key
  ((unused bindings.constructors.keys (shape.constructors.map Constructor.signature)).or
    (unused bindings.methods.keys (shape.methods.map Method.signature))).or
    (unused bindings.fields.keys (shape.fields.map Field.name))

/-- Refuses bodies without members in a strict compilation. -/
def checkStray (mode : CompileMode) (shape : Shape) (bindings : Bindings) :
    Except BuildError Unit :=
  if mode.strict then
    match stray? shape bindings with
    | some member => .error (.mismatch shape.name member .noMember)
    | none => .ok ()
  else .ok ()

/-- What is bound for a kind of type under a name of its own. -/
def special {α : Type} (mode : CompileMode) (shape : Shape) (kind : TypeKind) (member : String)
    (bound : Option α) : Except BuildError (Option α) := do
  if shape.kind == kind then
    mode.require shape.name member true bound
    return bound
  else return none

end CompileMode

/-! ## Types -/

namespace Shape

/-- The call table of a shape. -/
def compileTable (shape : Shape) (mode : CompileMode) (bindings : Bindings) :
    Except BuildError CallTable := do
  if bindings.typeName ≠ shape.name then
    .error (.mismatch shape.name bindings.typeName .otherType)
  let constructors ← shape.constructors.mapM (mode.constructor shape bindings)
  let methods ← shape.methods.mapM (mode.method shape bindings)
  let fields ← shape.fields.mapM (mode.field shape bindings)
  mode.checkStray shape bindings
  let singleton ← mode.special shape .object "INSTANCE" bindings.singleton
  let constants ← mode.special shape .enum "values()" bindings.constants
  return {
    typeName := shape.name
    host := bindings.host
    constructors, methods, fields, singleton, constants
    proxyMethods := shape.proxyMethods.getD []
    lineage := mode.lineage }

/-- The compiled type of a shape. -/
def compile (shape : Shape) (mode : CompileMode) (bindings : Bindings) :
    Except BuildError Compiled := do
  let blob ←
    match shape.toBase64 with
    | .ok text => .ok text
    | .error e => .error (.blob e)
  return ⟨← shape.compileTable mode bindings, blob⟩

end Shape

def Compiled.summary (compiled : Compiled) : String :=
  "GeneratedType \x7b table: " ++ compiled.table.summary ++
    s!", metadata_len: {compiled.blob.utf8ByteSize} \x7d"

end TypeAtlas
