/-
  Why a call fails.

  A call addresses a member by its index, hands over a receiver and arguments,
  and may be refused before the member's body runs, by the body, or for what the
  body returns.  `CallError` holds the causes, `CallError.message` their wording.
-/
import TypeAtlas.Name.Primitive

namespace TypeAtlas

/-- The kinds of members that calls address. -/
inductive MemberKind where
  | constructor
  | method
  | field
  | proxyMethod
  deriving DecidableEq, Repr

/-- The wording of a kind of member. -/
def MemberKind.text : MemberKind → String
  | constructor => "constructor"
  | method => "method"
  | field => "field"
  | proxyMethod => "proxy method"

/-- Why a call fails. -/
inductive CallError where
  /-- No member has the index. -/
  | badIndex (kind : MemberKind) (index : Nat) (type : String)
  /-- The number of arguments is wrong. -/
  | arity (member : String) (expected found : Nat)
  /-- A member of instances is called without one. -/
  | noReceiver (member : String)
  /-- The receiver is no instance of the type. -/
  | wrongReceiver (expected found : String)
  /-- An argument or a result has the wrong type. -/
  | wrongType (expected found : String)
  /-- Nothing is given where a primitive is expected. -/
  | nullPrimitive (primitive : Primitive)
  /-- The member has no body. -/
  | unbound (member : String)
  /-- The type does not support the call. -/
  | unsupported (what : String)
  /-- The body failed. -/
  | failed (text : String)
  deriving DecidableEq, Repr

def CallError.message : CallError → String
  | badIndex kind index type => s!"Invalid {kind.text} index {index} for {type}"
  | arity member expected found => s!"{member} expects {expected} arguments, got {found}"
  | noReceiver member => s!"{member} requires a receiver"
  | wrongReceiver expected found => s!"Receiver of type {found} is not a {expected}"
  | wrongType expected found => s!"Type mismatch: expected {expected}, got {found}"
  | nullPrimitive primitive => s!"Cannot unbox null into {primitive.name}"
  | unbound member => s!"No implementation bound for {member}"
  | unsupported what => s!"Unsupported operation: {what}"
  | failed text => text

end TypeAtlas
