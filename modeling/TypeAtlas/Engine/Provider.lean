/-
  Providers.

  A provider answers which handle belongs to a name.  While it looks for the
  answer it may ask the engine for other names, make handles, look at shapes and
  forget everything that is remembered; an `Inquiry` is the tree of all that it
  may do, depending on the answers that it gets.

  * `Inquiry.require` and its companions are the ways to ask for a name: a name
    that nobody knows is an error, a placeholder, or no answer;
  * `Provider.wellKnown` answers for primitives and arrays;
  * `Provider.ofDirectory` answers for the compiled types of a directory.
-/
import TypeAtlas.Build.Assembly
import TypeAtlas.Engine.Handle
import TypeAtlas.Name.Array

namespace TypeAtlas

/-- What the engine answers: a handle, nothing, or an error. -/
abbrev Answer := Except EngineError (Option Handle)

/-- What a provider does for one name. -/
inductive Inquiry where
  | done (answer : Answer)
  | ask (name : String) (next : Answer → Inquiry)
  | make (kind : HandleKind) (next : Handle → Inquiry)
  | look (handle : Handle) (next : Inquiry)
  | clear (next : Inquiry)

namespace Inquiry

def fail (e : EngineError) : Inquiry := done (.error e)

/-- The provider does not know the name. -/
def unknown : Inquiry := done (.ok none)

/-- The provider answers with a handle of its own. -/
def answer (kind : HandleKind) : Inquiry := make kind fun handle => done (.ok (some handle))

/-- Asks for a name that must be known. -/
def require (name : String) (next : Handle → Inquiry) : Inquiry :=
  ask name fun
    | .ok (some handle) => next handle
    | .ok none => fail (.unknown name)
    | .error e => fail e

/-- Asks for a name; a placeholder stands for a name that nobody knows. -/
def requireOrPlaceholder (name : String) (next : Handle → Inquiry) : Inquiry :=
  ask name fun
    | .ok (some handle) => next handle
    | .ok none => make (.placeholder name) next
    | .error e => fail e

/-- Asks for a name without which the provider has no answer. -/
def requireOrUnknown (name : String) (next : Handle → Inquiry) : Inquiry :=
  ask name fun
    | .ok (some handle) => next handle
    | .ok none => unknown
    | .error e => fail e

end Inquiry

/-- A source of handles. -/
structure Provider where
  priority : Int
  label : String
  /-- What it does for a name.  The number of consultations before this one is
      all that it may know of the past. -/
  inquire : (turn : Nat) → (name : String) → Inquiry

namespace Provider

def wellKnown : Provider where
  priority := wellKnownPriority
  label := "well-known"
  inquire _ name :=
    match Primitive.ofName? name with
    | some p => .answer (.primitive p)
    | none =>
      match Name.component? name with
      | some component =>
        .requireOrPlaceholder component fun handle => .look handle (.answer (.array name handle))
      | none => .unknown

/-- Answers for the compiled types of a directory. -/
def ofDirectory (directory : Directory Compiled) : Provider where
  priority := directory.priority
  label := "portrait_runtime::compiled::CompiledProvider"
  inquire _ name :=
    match directory.find? name with
    | some c => .answer (.compiled c)
    | none => .unknown

end Provider

/-! ## Providers that follow a plan

An engine takes any provider.  Those that follow a plan are given by data, for examples and for
engines whose providers are read from an input; no build makes one. -/

/-- What a planned provider does for one name. -/
structure Plan where
  /-- Whether it makes the engine forget everything first. -/
  clears : Bool
  /-- The names that must be known. -/
  requires : List String
  /-- The names for which a placeholder will do. -/
  requiresOrPlaceholder : List String
  /-- The names without which it has no answer. -/
  requiresOrUnknown : List String
  /-- The text with which it fails. -/
  failure : Option String
  /-- The shape that it answers with. -/
  shape : Shape

namespace Plan

/-- Asks for names one after another. -/
def askAll (ask : String → (Handle → Inquiry) → Inquiry) (names : List String)
    (next : Inquiry) : Inquiry :=
  names.foldr (fun name next => ask name fun _ => next) next

def inquiry (plan : Plan) : Inquiry :=
  let last :=
    match plan.failure with
    | some text => .fail (.provider text)
    | none => .answer (.described plan.shape)
  let asking :=
    askAll .require plan.requires
      (askAll .requireOrPlaceholder plan.requiresOrPlaceholder
        (askAll .requireOrUnknown plan.requiresOrUnknown last))
  if plan.clears then .clear asking else asking

end Plan

/-- Follows the plan that a name has. -/
def Provider.planned (priority : Int) (label : String) (plan? : String → Option Plan) :
    Provider where
  priority := priority
  label := label
  inquire _ name :=
    match plan? name with
    | some plan => plan.inquiry
    | none => .unknown

end TypeAtlas
