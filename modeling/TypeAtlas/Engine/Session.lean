/-
  An engine in use.

  A session is an engine with what it remembers and the objects of the host.
  Lookups change what is remembered, calls change the objects; a call that reads
  the shape of a compiled type is remembered as a look at it.

  * `SessionM` is a computation on a session; it may fail, and it may have no
    answer in the depth that lookups are given.
-/
import TypeAtlas.Engine.Call
import TypeAtlas.Engine.Lookup

namespace TypeAtlas

/-- An engine in use. -/
structure Session where
  engine : Engine
  memo : Memo
  store : Store

/-- A computation on a session. -/
abbrev SessionM (α : Type) := ExceptT EngineError (StateT Session Option) α

namespace SessionM

/-- A lookup, as a computation on the session. -/
def ofLookup {α : Type} (body : Engine → LookupM α) : SessionM α :=
  ExceptT.mk fun session => do
    let (answer, memo) ← (body session.engine).run.run session.memo
    return (answer, { session with memo := memo })

/-- A call, as a computation on the session. -/
def ofCall {α : Type} (body : CallM α) : SessionM α :=
  ExceptT.mk fun session =>
    match body session.store with
    | .ok a store => some (.ok a, { session with store := store })
    | .error e store => some (.error e, { session with store := store })

/-- Looks at the shape of a handle, whether it can be read or not. -/
def look (handle : Handle) : SessionM Unit :=
  modify fun (session : Session) => { session with memo := session.memo.look handle }

def shape (handle : Handle) : SessionM Shape := ofLookup fun _ => LookupM.shape handle

def invoke (handle : Handle) (index : Nat) (target : Option Value) (arguments : List Value) :
    SessionM Value := do
  if ((← get).store.proxy? target).isSome then look handle
  ofCall (handle.invoke index target arguments)

def createProxy (handle : Handle) (handler : Handler) : SessionM Value := do
  look handle
  ofCall (handle.createProxy handler)

/-- Runs a computation; a failure keeps the changes that were made before. -/
def runOn {α : Type} (body : SessionM α) (session : Session) :
    Option (Except EngineError α × Session) :=
  body.run.run session

end SessionM

/-- A compiled type in summaries of its handle. -/
def Session.summaryOf? (session : Session) (handle : Handle) : Option String :=
  handle.compiled?.map fun c =>
    "StaticDescriptor \x7b type_name: " ++ Text.quoteText c.table.typeName ++
      s!", decoded: {session.memo.seen.contains handle.id} \x7d"

end TypeAtlas
