/-
  Why a lookup or a call through a handle fails.

  `EngineError` holds the causes, `EngineError.message` their wording.
-/
import TypeAtlas.Blob.Error
import TypeAtlas.Host.Error

namespace TypeAtlas

/-- Why a lookup or a call through a handle fails. -/
inductive EngineError where
  | unknown (name : String)
  /-- The name is asked for while it is being resolved. -/
  | cycle (name : String)
  | noProviders
  | unresolved (name : String)
  /-- The blob of a compiled type cannot be read. -/
  | blob (error : BlobError)
  | call (error : CallError)
  | provider (text : String)
  deriving DecidableEq, Repr

def EngineError.message : EngineError → String
  | unknown name => s!"Type lookup failed: {name}"
  | cycle name => s!"Circular dependency detected while resolving {name}"
  | noProviders => "No descriptor providers configured"
  | unresolved name => s!"Type {name} is unresolved"
  | blob error => s!"Metadata error: {error.message}"
  | call error => s!"Invocation error: {error.message}"
  | provider text => s!"Provider error: {text}"

end TypeAtlas
