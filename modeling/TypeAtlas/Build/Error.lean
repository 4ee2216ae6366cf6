/-
  Why a build fails.

  `BuildError` holds the causes, `BuildError.message` their wording.  A
  `Mismatch` is the reason why a host body does not fit a member.
-/
import TypeAtlas.Blob.Error

namespace TypeAtlas

/-- Why a host body does not fit. -/
inductive Mismatch where
  /-- The bodies are for another type. -/
  | otherType
  /-- The member is static and the body needs a receiver. -/
  | memberStatic
  /-- The body is static and the member needs a receiver. -/
  | bodyStatic
  /-- No public member has this signature. -/
  | noMember
  deriving DecidableEq, Repr

def Mismatch.text : Mismatch → String
  | otherType => "bindings registered for another type"
  | memberStatic => "member is static but the binding is not"
  | bodyStatic => "binding is static but the member is not"
  | noMember => "no public member with this signature"

/-- Why a build fails. -/
inductive BuildError where
  | blob (error : BlobError)
  /-- A member has no body although every member needs one. -/
  | missingBody (type member : String)
  | mismatch (type member : String) (reason : Mismatch)
  | duplicateType (name : String)
  | unknownType (name : String)
  | unknownDirective (text : String)
  deriving DecidableEq, Repr

def BuildError.message : BuildError → String
  | blob error => s!"Metadata error: {error.message}"
  | missingBody type member => s!"No binding for {member} of {type}"
  | mismatch type member reason =>
    s!"Binding {member} of {type} does not match: {reason.text}"
  | duplicateType name => s!"Duplicate type: {name}"
  | unknownType name => s!"Unknown type: {name}"
  | unknownDirective text => s!"Unknown inclusion directive: {text}"

end TypeAtlas
