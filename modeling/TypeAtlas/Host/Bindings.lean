/-
  The bodies of members.

  A member is called through a body that the host binds to it.  `Bindings`
  collects the bodies of one type: those of constructors and methods under their
  signatures, those of fields under their names.  A later body takes the place
  of an earlier one.

  * the functions in the namespace `Bindings` bind bodies that work on records of
    one host type; an instance member checks its receiver for that type;
  * `Bindings.ofName` binds nothing and accepts receivers of every type;
  * `Registry` holds the bindings of many types and refuses a second set for one.
-/
import TypeAtlas.Build.Error
import TypeAtlas.Host.Store

namespace TypeAtlas

/-- The body of a constructor. -/
abbrev ConstructorBody := List Native → HostM Value

/-- A bound method. -/
structure BoundMethod where
  /-- Whether it needs no receiver. -/
  isStatic : Bool
  /-- Its body; a static method is called without a receiver. -/
  body : Option ObjectRef → List Native → HostM Native

/-- A bound field. -/
structure BoundField where
  isStatic : Bool
  get : Option ObjectRef → HostM Native
  set : Option (Option ObjectRef → Native → HostM Unit)

/-- The bodies of the members of one type. -/
structure Bindings where
  typeName : String
  /-- The host type of receivers, if it is fixed. -/
  host : Option HostType
  constructors : Table ConstructorBody
  methods : Table BoundMethod
  fields : Table BoundField
  singleton : Option Value
  constants : Option (List Value)

namespace Bindings

/-- No bodies, and receivers of every type. -/
def ofName (typeName : String) : Bindings where
  typeName := typeName
  host := none
  constructors := .empty
  methods := .empty
  fields := .empty
  singleton := none
  constants := none

/-- No bodies yet, and receivers of one host type. -/
def ofHost (typeName : String) (host : HostType) : Bindings :=
  { ofName typeName with host := some host }

/-- The receiver of an instance member. -/
def receiver (member : String) : Option ObjectRef → HostM ObjectRef
  | some ref => pure ref
  | none => throw (.noReceiver member)

/-! ## Constructors and constants -/

/-- Binds a constructor that makes the record of a new object. -/
def withConstructor (bindings : Bindings) (host : HostType) (parameters : List String)
    (body : List Native → Except CallError Record) : Bindings :=
  let key := Name.joinSignature Name.constructorName parameters
  let make : ConstructorBody := fun arguments => do
    let fields ← HostM.ofExcept (body arguments)
    return .object (← HostM.create bindings.typeName (.record host fields))
  { bindings with constructors := bindings.constructors.insert key make }

def withSingleton (bindings : Bindings) (value : Value) : Bindings :=
  { bindings with singleton := some value }

def withConstants (bindings : Bindings) (constants : List Value) : Bindings :=
  { bindings with constants := some constants }

/-! ## Methods -/

def withMethod (bindings : Bindings) (key : String) (method : BoundMethod) : Bindings :=
  { bindings with methods := bindings.methods.insert key method }

/-- Binds a method that reads its receiver. -/
def withReader (bindings : Bindings) (host : HostType) (name : String)
    (parameters : List String) (body : Record → List Native → Except CallError Native) :
    Bindings :=
  let key := Name.joinSignature name parameters
  bindings.withMethod key ⟨false, fun target arguments => do
    let fields ← HostM.read host bindings.typeName (← receiver key target)
    HostM.ofExcept (body fields arguments)⟩

/-- Binds a method that changes its receiver. -/
def withMutator (bindings : Bindings) (host : HostType) (name : String)
    (parameters : List String) (body : List Native → EStateM CallError Record Native) :
    Bindings :=
  let key := Name.joinSignature name parameters
  bindings.withMethod key ⟨false, fun target arguments => do
    HostM.update host bindings.typeName (← receiver key target) (body arguments)⟩

def withStatic (bindings : Bindings) (name : String) (parameters : List String)
    (body : List Native → Except CallError Native) : Bindings :=
  bindings.withMethod (Name.joinSignature name parameters)
    ⟨true, fun _ arguments => HostM.ofExcept (body arguments)⟩

/-! ## Fields -/

def withBoundField (bindings : Bindings) (name : String) (field : BoundField) : Bindings :=
  { bindings with fields := bindings.fields.insert name field }

/-- The reading of an instance field. -/
def getter (bindings : Bindings) (host : HostType) (name : String) (get : Record → Native) :
    Option ObjectRef → HostM Native := fun target => do
  return get (← HostM.read host bindings.typeName (← receiver name target))

/-- Binds an instance field that can be read and written. -/
def withField (bindings : Bindings) (host : HostType) (name : String) (get : Record → Native)
    (set : Native → EStateM CallError Record Unit) : Bindings :=
  bindings.withBoundField name ⟨false, bindings.getter host name get, some fun target value => do
    HostM.update host bindings.typeName (← receiver name target) (set value)⟩

/-- Binds an instance field that can only be read. -/
def withReadOnlyField (bindings : Bindings) (host : HostType) (name : String)
    (get : Record → Native) : Bindings :=
  bindings.withBoundField name ⟨false, bindings.getter host name get, none⟩

/-- Binds a static field, which can only be read. -/
def withStaticField (bindings : Bindings) (name : String) (value : Native) : Bindings :=
  bindings.withBoundField name ⟨true, fun _ => pure value, none⟩

/-! ## Summaries -/

def summary (bindings : Bindings) : String :=
  let constants :=
    match bindings.constants with
    | some values => s!"Some({values.length})"
    | none => "None"
  "HostBindings \x7b type_name: " ++ Text.quoteText bindings.typeName ++
    s!", constructors: {bindings.constructors.size}, methods: {bindings.methods.size}" ++
    s!", fields: {bindings.fields.size}, object_instance: {bindings.singleton.isSome}" ++
    s!", enum_constants: {constants} \x7d"

end Bindings

/-! ## Registries -/

/-- The bindings of many types. -/
structure Registry where
  /-- The bindings by the names of their types. -/
  entries : Table Bindings

namespace Registry

def empty : Registry := ⟨.empty⟩

/-- Adds the bindings of a type. -/
def add (registry : Registry) (bindings : Bindings) : Except BuildError Registry :=
  if registry.entries.contains bindings.typeName then
    .error (.duplicateType bindings.typeName)
  else .ok ⟨registry.entries.insert bindings.typeName bindings⟩

/-- The registry of a list of bindings. -/
def ofList (bindings : List Bindings) : Except BuildError Registry := bindings.foldlM add empty

def find? (registry : Registry) (typeName : String) : Option Bindings :=
  registry.entries.find? typeName

end Registry

end TypeAtlas
