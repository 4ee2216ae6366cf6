/-
  Calls through handles.

  A compiled type is called through its call table.  A method of an interface
  that is called on a stand-in goes to the stand-in's handler instead: the method
  is looked up among the methods that stand-ins of the interface answer.  All
  other types refuse calls.

  * `Handle.construct`, `Handle.invoke`, `Handle.getField` and `Handle.setField`
    are the calls, `Handle.createProxy` makes a stand-in;
  * `Shape.proxyIndex?` finds the place of a method among those that are
    answered.
-/
import TypeAtlas.Engine.Handle
import TypeAtlas.Host.Proxy

namespace TypeAtlas

/-- A call through a handle. -/
abbrev CallM (α : Type) := EStateM EngineError Store α

namespace CallM

/-- A computation on the objects of the host as part of a call. -/
def ofHost {α : Type} (body : HostM α) : CallM α := body.adaptExcept .call

/-- A result that does not depend on the objects of the host. -/
def ofExcept {α : Type} : Except EngineError α → CallM α
  | .ok a => pure a
  | .error e => throw e

end CallM

/-- The stand-in that a call is for. -/
def Store.proxy? (store : Store) : Option Value → Option ObjectRef
  | some (.object ref) =>
    match store.payload ref with
    | .proxy .. => some ref
    | _ => none
  | _ => none

/-- The place of a method among those that a stand-in answers. -/
def Shape.proxyIndex? (shape : Shape) (method : Method) : Option Nat :=
  (shape.proxyMethods.getD []).findIdx? fun other => other.matches method.name method.parameters

namespace Handle

/-- The refusal of a call that a type does not support. -/
def unsupported (handle : Handle) (what : String) : EngineError :=
  .call (.unsupported (what ++ " on " ++ handle.name))

/-- The refusal of a call on a type that has no call table. -/
def refusal (handle : Handle) (what : String) : EngineError :=
  if handle.isPlaceholder then .unresolved handle.name else handle.unsupported what

/-! ## Members -/

def construct (handle : Handle) (index : Nat) (arguments : List Value) : CallM Value :=
  match handle.compiled? with
  | some c => CallM.ofHost (c.table.construct index arguments)
  | none => throw (handle.refusal "construction")

/-- Calls a method of a stand-in, by the method's index in the type's shape. -/
def invokeProxy (handle : Handle) (ref : ObjectRef) (index : Nat) (arguments : List Value) :
    CallM Value := do
  let shape ← CallM.ofExcept handle.shape
  match shape.methods[index]? with
  | some method =>
    match shape.proxyIndex? method with
    | some place => CallM.ofHost (Proxy.invoke ref place arguments)
    | none => throw (.call (.unsupported (method.signature ++ " is not proxied")))
  | none => throw (.call (.badIndex .method index handle.name))

def invoke (handle : Handle) (index : Nat) (target : Option Value) (arguments : List Value) :
    CallM Value := do
  match handle.compiled? with
  | some c =>
    match (← get).proxy? target with
    | some ref => handle.invokeProxy ref index arguments
    | none => CallM.ofHost (c.table.invoke index target arguments)
  | none => throw (handle.refusal "method invocation")

def getField (handle : Handle) (index : Nat) (target : Option Value) : CallM Value :=
  match handle.compiled? with
  | some c => CallM.ofHost (c.table.getField index target)
  | none => throw (handle.refusal "field access")

def setField (handle : Handle) (index : Nat) (target : Option Value) (value : Value) :
    CallM Unit :=
  match handle.compiled? with
  | some c => CallM.ofHost (c.table.setField index target value)
  | none => throw (handle.refusal "field access")

/-! ## Instances -/

/-- The only instance of a type. -/
def singleton? (handle : Handle) : Option Value := handle.compiled?.bind fun c => c.table.singleton

def constants? (handle : Handle) : Option (List Value) :=
  handle.compiled?.bind fun c => c.table.constants

def createProxy (handle : Handle) (handler : Handler) : CallM Value := do
  match handle.compiled? with
  | some c =>
    let shape ← CallM.ofExcept handle.shape
    if shape.kind == .interface && shape.proxyMethods.isSome then
      CallM.ofHost (Proxy.create c.table.typeName c.table.proxyMethods handler)
    else throw (handle.unsupported "proxy creation")
  | none => throw (handle.unsupported "proxy creation")

end Handle

end TypeAtlas
