/-
  Calls by index.

  A `CallTable` holds the members of one type in the order of its shape, each
  with the slots of its parameters and the body that is bound to it, if any.  A
  call checks everything that can be checked before the body runs; then the body
  runs once, and its result is checked against the declared type.

  * `Slot.accept` takes a value into a slot, `Slot.produce` takes a result out;
  * with a lineage, an object of a type of the build is accepted by what is
    above that type; objects of other types are left to the body;
  * `CallTable.invoke` and its companions are the calls; what they check first
    is their order of checks.
-/
import TypeAtlas.Build.Lineage
import TypeAtlas.Host.Bindings

namespace TypeAtlas

/-! ## Slots -/

/-- The declared type of a parameter, a field or a result. -/
inductive Slot where
  | primitive (primitive : Primitive)
  | reference (typeName : String)
  deriving DecidableEq, Repr

namespace Slot

def ofName (typeName : String) : Slot :=
  match Primitive.ofName? typeName with
  | some p => .primitive p
  | none => .reference typeName

/-- Whether a value may stand where a reference of a type is expected. -/
def admits (lineage : Option Lineage) (typeName : String) (value : Value) : Bool :=
  match value, lineage with
  | .object ref, some lineage => (lineage.accepts? ref.typeName typeName).getD true
  | value, _ => value.fits typeName

/-- The native of a value that is handed over. -/
def accept (lineage : Option Lineage) (value : Value) : Slot → Except CallError Native
  | primitive p => p.unbox value
  | reference name =>
    if admits lineage name value then .ok (.ref value)
    else .error (.wrongType name value.typeName)

/-- The value of a native that a body returns. -/
def produce (lineage : Option Lineage) (native : Native) : Slot → Except CallError Value
  | primitive .void => .ok .null
  | primitive p =>
    if native.primitive? = some p then .ok native.box
    else .error (.wrongType p.name native.box.typeName)
  | reference name =>
    if admits lineage name native.box then .ok native.box
    else .error (.wrongType name native.box.typeName)

/-- The natives of the arguments of a call. -/
def acceptAll (lineage : Option Lineage) (slots : List Slot) (arguments : List Value) :
    Except CallError (List Native) :=
  (slots.zip arguments).mapM fun pair => pair.1.accept lineage pair.2

end Slot

/-! ## Tables -/

/-- A constructor of a table. -/
structure TableConstructor where
  signature : String
  parameters : List Slot
  body : Option ConstructorBody

/-- A method of a table. -/
structure TableMethod where
  signature : String
  isStatic : Bool
  parameters : List Slot
  returns : Slot
  body : Option (Option ObjectRef → List Native → HostM Native)

/-- A field of a table. -/
structure TableField where
  name : String
  isStatic : Bool
  isFinal : Bool
  slot : Slot
  get : Option (Option ObjectRef → HostM Native)
  set : Option (Option ObjectRef → Native → HostM Unit)

/-- The members of a type with their bodies. -/
structure CallTable where
  typeName : String
  /-- The host type of receivers, if it is fixed. -/
  host : Option HostType
  constructors : List TableConstructor
  methods : List TableMethod
  fields : List TableField
  proxyMethods : List Method
  singleton : Option Value
  constants : Option (List Value)
  lineage : Option Lineage

namespace CallTable

/-- The table of a type without members. -/
def ofName (typeName : String) : CallTable where
  typeName := typeName
  host := none
  constructors := []
  methods := []
  fields := []
  proxyMethods := []
  singleton := none
  constants := none
  lineage := none

/-- The refusal of a member without a body. -/
def unbound (table : CallTable) (member : String) : CallError :=
  .unbound (table.typeName ++ "." ++ member)

/-- The number of members without a body. -/
def unboundCount (table : CallTable) : Nat :=
  (table.constructors.filter fun ctor => ctor.body.isNone).length +
    (table.methods.filter fun method => method.body.isNone).length +
    (table.fields.filter fun field => field.get.isNone).length

/-- The item of a list of members at an index. -/
def member {α : Type} (table : CallTable) (kind : MemberKind) (members : List α) (index : Nat) :
    Except CallError α :=
  match members[index]? with
  | some found => .ok found
  | none => .error (.badIndex kind index table.typeName)

/-- Whether an object holds what receivers of the table must hold. -/
def hostMatches (table : CallTable) (payload : Payload) : Bool :=
  match table.host with
  | some host => payload.host? == some host
  | none => true

/-- The receiver of an instance member. -/
def receiver (table : CallTable) (store : Store) (member : String) (target : Option Value) :
    Except CallError ObjectRef :=
  match target with
  | none | some .null => .error (.noReceiver member)
  | some (.object ref) =>
    if table.hostMatches (store.payload ref) then .ok ref
    else .error (.wrongReceiver table.typeName ref.typeName)
  | some other => .error (.wrongReceiver table.typeName other.typeName)

/-- The receiver that a member's body is called with. -/
def receiver? (table : CallTable) (store : Store) (isStatic : Bool) (member : String)
    (target : Option Value) : Except CallError (Option ObjectRef) :=
  if isStatic then .ok none else some <$> table.receiver store member target

/-- Refuses a call with a wrong number of arguments. -/
def checkArity (signature : String) (slots : List Slot) (arguments : List Value) :
    Except CallError Unit :=
  if slots.length = arguments.length then .ok ()
  else .error (.arity signature slots.length arguments.length)

def bodyOf {α : Type} (table : CallTable) (member : String) : Option α → Except CallError α
  | some body => .ok body
  | none => .error (table.unbound member)

/-! ## Calls -/

/-- A constructor's body and what it is called with. -/
def readyConstructor (table : CallTable) (index : Nat) (arguments : List Value) :
    Except CallError (ConstructorBody × List Native) := do
  let ctor ← table.member .constructor table.constructors index
  checkArity ctor.signature ctor.parameters arguments
  let natives ← Slot.acceptAll table.lineage ctor.parameters arguments
  return (← table.bodyOf ctor.signature ctor.body, natives)

/-- A method, its body and what the body is called with. -/
def readyMethod (table : CallTable) (store : Store) (index : Nat) (target : Option Value)
    (arguments : List Value) :
    Except CallError (Slot × (Option ObjectRef → List Native → HostM Native) ×
      Option ObjectRef × List Native) := do
  let method ← table.member .method table.methods index
  checkArity method.signature method.parameters arguments
  let ref ← table.receiver? store method.isStatic method.signature target
  let natives ← Slot.acceptAll table.lineage method.parameters arguments
  return (method.returns, ← table.bodyOf method.signature method.body, ref, natives)

/-- What reads a field and what it is called with. -/
def readyGet (table : CallTable) (store : Store) (index : Nat) (target : Option Value) :
    Except CallError (Slot × (Option ObjectRef → HostM Native) × Option ObjectRef) := do
  let field ← table.member .field table.fields index
  let ref ← table.receiver? store field.isStatic field.name target
  return (field.slot, ← table.bodyOf field.name field.get, ref)

/-- What writes a field and what it is called with. -/
def readySet (table : CallTable) (store : Store) (index : Nat) (target : Option Value)
    (value : Value) :
    Except CallError ((Option ObjectRef → Native → HostM Unit) × Option ObjectRef × Native) := do
  let field ← table.member .field table.fields index
  if field.isFinal then
    .error (.unsupported (table.typeName ++ "." ++ field.name ++ " is final"))
  let ref ← table.receiver? store field.isStatic field.name target
  let native ← field.slot.accept table.lineage value
  return (← table.bodyOf field.name field.set, ref, native)

def construct (table : CallTable) (index : Nat) (arguments : List Value) : HostM Value := do
  let (body, natives) ← HostM.ofExcept (table.readyConstructor index arguments)
  body natives

def invoke (table : CallTable) (index : Nat) (target : Option Value) (arguments : List Value) :
    HostM Value := do
  let (returns, body, ref, natives) ←
    HostM.ofExcept (table.readyMethod (← get) index target arguments)
  HostM.ofExcept (returns.produce table.lineage (← body ref natives))

def getField (table : CallTable) (index : Nat) (target : Option Value) : HostM Value := do
  let (slot, body, ref) ← HostM.ofExcept (table.readyGet (← get) index target)
  HostM.ofExcept (slot.produce table.lineage (← body ref))

def setField (table : CallTable) (index : Nat) (target : Option Value) (value : Value) :
    HostM Unit := do
  let (body, ref, native) ← HostM.ofExcept (table.readySet (← get) index target value)
  body ref native

/-- The method that a stand-in answers at an index. -/
def proxyMethod (table : CallTable) (index : Nat) : Except CallError Method :=
  table.member .proxyMethod table.proxyMethods index

/-! ## Summaries -/

def summary (table : CallTable) : String :=
  "DispatchTable \x7b type_name: " ++ Text.quoteText table.typeName ++
    s!", constructors: {table.constructors.length}, methods: {table.methods.length}" ++
    s!", fields: {table.fields.length}, proxy_methods: {table.proxyMethods.length} \x7d"

end CallTable

end TypeAtlas
