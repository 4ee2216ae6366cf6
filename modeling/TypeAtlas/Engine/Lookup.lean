/-
  Looking names up.

  An engine consults its providers for a name from the highest priority down and
  remembers the first handle that it gets.  A provider may ask for other names
  meanwhile; a name that is asked for while it is being resolved is a cycle.

  * `Engine.load` resolves a name; its first argument bounds how deep providers
    may ask, and without an answer in that depth the computation has none;
  * `Engine.find?`, `Engine.find` and `Engine.findOrPlaceholder` say what becomes
    of a name that nobody knows;
  * what a provider stored before it failed is kept, but never the mark of the
    name itself.
-/
import TypeAtlas.Engine.Memo
import TypeAtlas.Engine.Provider
import TypeAtlas.Text.Quoted

namespace TypeAtlas

/-- A computation of an engine: it may fail, and it may have no answer in the
    depth that it was given. -/
abbrev LookupM (α : Type) := ExceptT EngineError (StateT Memo Option) α

/-- An engine. -/
structure Engine where
  /-- The providers with their numbers in the order given, highest priority
      first. -/
  providers : List (Nat × Provider)

namespace LookupM

def exhausted {α : Type} : LookupM α := ExceptT.mk (fun _ => none)

/-- The outcome of a computation as a value. -/
def outcome {α : Type} (body : LookupM α) : LookupM (Except EngineError α) :=
  ExceptT.mk (Except.ok <$> body.run)

/-- A result that does not depend on what is remembered. -/
def ofExcept {α : Type} : Except EngineError α → LookupM α
  | .ok a => pure a
  | .error e => throw e

def make (kind : HandleKind) : LookupM Handle := do
  let (handle, memo) := (← get).make kind
  set memo
  return handle

def shape (handle : Handle) : LookupM Shape := do
  modify fun (memo : Memo) => memo.look handle
  ofExcept handle.shape

end LookupM

/-! ## Inquiries -/

/-- Does what a provider does for a name; `ask` answers for other names. -/
def Inquiry.run (ask : String → LookupM (Option Handle)) : Inquiry → LookupM (Option Handle)
  | .done answer => LookupM.ofExcept answer
  | .ask name next => do
    let answer ← (ask name).outcome
    (next answer).run ask
  | .make kind next => do
    let handle ← LookupM.make kind
    (next handle).run ask
  | .look handle next => do
    modify fun (memo : Memo) => memo.look handle
    next.run ask
  | .clear next => do
    modify fun (memo : Memo) => memo.clear
    next.run ask

namespace Engine

/-! ## Resolving -/

/-- The engine of a list of providers. -/
def ofProviders (providers : List Provider) : Engine where
  providers := (providers.zipIdx.map fun entry => (entry.2, entry.1)).mergeSort
    fun a b => b.2.priority ≤ a.2.priority

/-- The first handle that a provider answers with. -/
def consult (ask : String → LookupM (Option Handle)) (name : String) :
    List (Nat × Provider) → LookupM (Option Handle)
  | [] => pure none
  | (number, provider) :: rest => do
    let turn := (← get).turn
    modify fun (memo : Memo) => memo.consult number name
    match ← (provider.inquire turn name).run ask with
    | some handle => return some handle
    | none => consult ask name rest

/-- The thread of lookups that do not run beside others. -/
def onlyThread : Nat := 0

/-- Resolves a name that is open. -/
def resolve (engine : Engine) (ask : String → LookupM (Option Handle)) (name : String) :
    LookupM (Option Handle) := do
  modify fun (memo : Memo) => memo.begin onlyThread name
  let answer ← (consult ask name engine.providers).outcome
  modify fun (memo : Memo) => memo.settle onlyThread name answer
  LookupM.ofExcept answer

/-- The handle of a name, resolved if it is open. -/
def load (engine : Engine) : Nat → String → LookupM (Option Handle)
  | 0, _ => LookupM.exhausted
  | depth + 1, name => do
    if engine.providers.isEmpty then throw .noProviders
    match (← get).slot? name with
    | some (.resolved handle) => return some handle
    | some (.loading _) => throw (.cycle name)
    | none => engine.resolve (engine.load depth) name

/-! ## Lookups -/

/-- The handle of a name, if somebody knows it. -/
def find? (engine : Engine) (depth : Nat) (name : String) : LookupM (Option Handle) :=
  engine.load depth name

/-- The handle of a name that somebody must know. -/
def find (engine : Engine) (depth : Nat) (name : String) : LookupM Handle := do
  match ← engine.load depth name with
  | some handle => return handle
  | none => throw (.unknown name)

/-- The handle of a name; a placeholder if nobody knows it. -/
def findOrPlaceholder (engine : Engine) (depth : Nat) (name : String) : LookupM Handle := do
  match ← engine.load depth name with
  | some handle => return handle
  | none => LookupM.make (.placeholder name)

/-! ## Supertypes -/

/-- The handle of the superclass of a type. -/
def superclass? (engine : Engine) (depth : Nat) (handle : Handle) : LookupM (Option Handle) := do
  match (← LookupM.shape handle).superclass with
  | some name => return some (← engine.findOrPlaceholder depth name)
  | none => return none

/-- The handles of the interfaces of a type. -/
def interfaces (engine : Engine) (depth : Nat) (handle : Handle) : LookupM (List Handle) := do
  (← LookupM.shape handle).interfaces.mapM (engine.findOrPlaceholder depth)

/-- Whether a walk over supertypes meets a name.  `visited` holds the names whose
    supertypes were taken up, the second list the names that wait, last first;
    the first argument bounds the steps. -/
def meets (engine : Engine) (depth : Nat) (ancestor : String) :
    Nat → List String → List String → LookupM Bool
  | 0, _, _ => LookupM.exhausted
  | _ + 1, _, [] => return false
  | steps + 1, visited, name :: waiting => do
    if name = ancestor then return true
    if visited.contains name then meets engine depth ancestor steps visited waiting
    else
      let parent ← engine.findOrPlaceholder depth name
      if parent.isPlaceholder then meets engine depth ancestor steps (name :: visited) waiting
      else
        let shape ← LookupM.shape parent
        meets engine depth ancestor steps (name :: visited) (shape.supertypes.reverse ++ waiting)

/-- Whether a type is properly below a name. -/
def isBelow (engine : Engine) (depth : Nat) (handle : Handle) (ancestor : String) :
    LookupM Bool := do
  let shape ← LookupM.shape handle
  engine.meets depth ancestor depth [shape.name] shape.supertypes.reverse

/-- Whether values of `other` may stand where the type of `handle` is expected. -/
def accepts (engine : Engine) (depth : Nat) (handle other : Handle) : LookupM Bool :=
  if handle.name = other.name then return true
  else if handle.isPrimitive || other.isPrimitive then return false
  else if handle.name = Name.object then return true
  else engine.isBelow depth other handle.name

/-! ## Summaries -/

/-- An engine in summaries, with the number of names that are resolved. -/
def summary (engine : Engine) (memo : Memo) : String :=
  let providers := engine.providers.map fun entry =>
    "(" ++ Text.quoteText entry.2.label ++ s!", {entry.2.priority})"
  "Portrait \x7b providers: " ++ Text.listing "[" "]" providers ++
    s!", cached: {memo.resolvedCount} \x7d"

end Engine

end TypeAtlas
