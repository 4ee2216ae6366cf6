/-
  Stand-ins for interfaces.

  A stand-in is an object that answers the methods of an interface through a
  handler.  It knows the methods by their index in the interface's own list.

  * `Proxy.create` makes a stand-in;
  * `Proxy.invoke` checks the index and the number of arguments before the
    handler is called; the store remembers every call of a handler.
-/
import TypeAtlas.Host.Store

namespace TypeAtlas.Proxy

/-- The name of the type of stand-ins for an interface. -/
def typeName (interface : String) : String := interface ++ "$Proxy"

def create (interface : String) (methods : List Method) (handler : Handler) : HostM Value :=
  Value.object <$> HostM.create (typeName interface) (.proxy interface methods handler)

/-- Hands a call to a handler. -/
def handle (handler : Handler) (proxy : Value) (method : Method) (arguments : List Value) :
    HostM Value := do
  modify fun store => { store with handled := store.handled ++ [⟨proxy, method, arguments⟩] }
  HostM.ofExcept (handler proxy method arguments)

/-- Calls the method at an index of a stand-in. -/
def invoke (ref : ObjectRef) (index : Nat) (arguments : List Value) : HostM Value := do
  match (← get).payload ref with
  | .proxy interface methods handler =>
    match methods[index]? with
    | some method =>
      if method.parameters.length = arguments.length then
        handle handler (.object ref) method arguments
      else
        throw (.arity method.signature method.parameters.length arguments.length)
    | none => throw (.badIndex .proxyMethod index interface)
  | _ => throw (.wrongReceiver "proxy" ref.typeName)

end TypeAtlas.Proxy
