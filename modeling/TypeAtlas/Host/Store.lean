/-
  The objects of the host.

  Objects live in a store and are known by references.  An object holds a record
  of one of the host's types, a stand-in for an interface with the handler that
  answers for it, or something foreign.

  * `HostM` is a computation on a store that may fail; a failure keeps what was
    stored before it;
  * `HostM.create` makes an object, `HostM.read` and `HostM.update` work on the
    record of one if it is of the expected host type;
  * a store also keeps the calls that were handed to handlers, in order.
-/
import TypeAtlas.Host.Value
import TypeAtlas.Shape.Basic
import TypeAtlas.Table

namespace TypeAtlas

/-- One of the host's own types. -/
structure HostType where
  id : Nat
  deriving DecidableEq, Repr

/-- The contents of an object of the host's own types. -/
abbrev Record := Table Native

/-- What answers for a stand-in: it is given the stand-in, the method and the
    arguments. -/
abbrev Handler := Value → Method → List Value → Except CallError Value

/-- What an object holds. -/
inductive Payload where
  | record (host : HostType) (fields : Record)
  /-- A stand-in for an interface: its name, the methods that are answered, and
      what answers them. -/
  | proxy (interface : String) (methods : List Method) (handler : Handler)
  | foreign

instance : Inhabited Payload := ⟨.foreign⟩

/-- The host type of what an object holds. -/
def Payload.host? : Payload → Option HostType
  | record host _ => some host
  | proxy .. | foreign => none

/-- A call that was handed to a handler. -/
structure HandledCall where
  proxy : Value
  method : Method
  arguments : List Value

/-- The objects of the host. -/
structure Store where
  /-- What the objects hold, by identity. -/
  objects : Array Payload
  /-- The calls that were handed to handlers, in order. -/
  handled : List HandledCall

namespace Store

def empty : Store := ⟨#[], []⟩

instance : Inhabited Store := ⟨empty⟩

/-- What an object holds; a reference that leads nowhere is foreign. -/
def payload (store : Store) (ref : ObjectRef) : Payload :=
  (store.objects[ref.id]?).getD .foreign

/-- The store with an object that holds something else. -/
def put (store : Store) (ref : ObjectRef) (payload : Payload) : Store :=
  { store with objects := store.objects.setIfInBounds ref.id payload }

end Store

/-- A computation on the objects of the host. -/
abbrev HostM (α : Type) := EStateM CallError Store α

namespace HostM

/-- A result that does not depend on the objects. -/
def ofExcept {α : Type} : Except CallError α → HostM α
  | .ok a => pure a
  | .error e => throw e

def create (typeName : String) (payload : Payload) : HostM ObjectRef := fun store =>
  .ok ⟨store.objects.size, typeName⟩ { store with objects := store.objects.push payload }

/-- The record of an object if it is of the given host type. -/
def read (host : HostType) (expected : String) (ref : ObjectRef) : HostM Record := do
  match (← get).payload ref with
  | .record found fields =>
    if found = host then pure fields else throw (.wrongReceiver expected ref.typeName)
  | _ => throw (.wrongReceiver expected ref.typeName)

/-- Runs a computation on the record of an object.  What it stored is kept even
    if it fails. -/
def update {α : Type} (host : HostType) (expected : String) (ref : ObjectRef)
    (body : EStateM CallError Record α) : HostM α := do
  match body (← read host expected ref) with
  | .ok a fields =>
    modify fun store => store.put ref (.record host fields)
    pure a
  | .error e fields =>
    modify fun store => store.put ref (.record host fields)
    throw e

end HostM

end TypeAtlas
