/-
  What an engine remembers.

  A memo has a slot for every name that is being resolved or has been resolved;
  all other names are open.  It also deals out the identities of handles, and
  knows which shapes were looked at and which providers were consulted.

  * `Memo.begin`, `Memo.settle` and `Memo.release` are the changes of one slot,
    `Memo.clear` opens all of them;
  * a mark belongs to a thread: only its owner settles or releases it.
-/
import TypeAtlas.Engine.Handle
import TypeAtlas.Table

namespace TypeAtlas

/-- The state of a name. -/
inductive MemoSlot where
  | loading (owner : Nat)
  | resolved (handle : Handle)

/-- What an engine remembers. -/
structure Memo where
  /-- The states of names. -/
  slots : Table MemoSlot
  /-- The identity of the next handle. -/
  nextId : Nat
  /-- The identities of the handles of compiled types whose shapes were looked at. -/
  seen : List Nat
  /-- How often providers were consulted, all together. -/
  turn : Nat
  /-- The consulted providers, by number, with the names; last first. -/
  consulted : List (Nat × String)

namespace Memo

def empty : Memo := ⟨.empty, 0, [], 0, []⟩

instance : Inhabited Memo := ⟨empty⟩

def slot? (memo : Memo) (name : String) : Option MemoSlot := memo.slots.find? name

/-- The handle of a resolved name. -/
def resolved? (memo : Memo) (name : String) : Option Handle :=
  match memo.slot? name with
  | some (.resolved handle) => some handle
  | _ => none

def isResolved (memo : Memo) (name : String) : Bool := (memo.resolved? name).isSome

def resolvedCount (memo : Memo) : Nat :=
  (memo.slots.values.filter fun slot =>
    match slot with
    | .resolved _ => true
    | .loading _ => false).length

/-! ## Changes -/

/-- Marks a name as being resolved. -/
def begin (memo : Memo) (owner : Nat) (name : String) : Memo :=
  { memo with slots := memo.slots.insert name (.loading owner) }

/-- Opens a name that a thread marked. -/
def release (memo : Memo) (owner : Nat) (name : String) : Memo :=
  match memo.slot? name with
  | some (.loading other) =>
    if other = owner then { memo with slots := memo.slots.erase name } else memo
  | _ => memo

/-- Ends the resolution of a name: a handle is remembered, all else opens the
    name. -/
def settle (memo : Memo) (owner : Nat) (name : String) (answer : Except EngineError (Option Handle)) :
    Memo :=
  match answer with
  | .ok (some handle) => { memo with slots := memo.slots.insert name (.resolved handle) }
  | _ => memo.release owner name

def clear (memo : Memo) : Memo := { memo with slots := .empty }

def make (memo : Memo) (kind : HandleKind) : Handle × Memo :=
  (.mk memo.nextId kind, { memo with nextId := memo.nextId + 1 })

/-- Remembers that the shape of a compiled type was looked at, if it can be
    read. -/
def look (memo : Memo) (handle : Handle) : Memo :=
  match handle.compiled? with
  | some c =>
    match Handle.shapeOfBlob c.blob with
    | .ok _ => { memo with seen := handle.id :: memo.seen }
    | .error _ => memo
  | none => memo

/-- Remembers that a provider is consulted. -/
def consult (memo : Memo) (number : Nat) (name : String) : Memo :=
  { memo with turn := memo.turn + 1, consulted := (number, name) :: memo.consulted }

/-- How often a provider was consulted, for any name. -/
def timesConsulted (memo : Memo) (number : Nat) : Nat :=
  (memo.consulted.filter fun entry => entry.1 == number).length

end Memo

end TypeAtlas
