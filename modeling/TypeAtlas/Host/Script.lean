/-
  A small language for bodies.

  A script computes a value from the arguments of a call and the record of the
  receiver, which it may read, or read and change, or not have at all.  A body may
  be any function, and nothing else in the library is about scripts: they give
  bodies by data where bindings are read from an input.

  * `Script.eval` evaluates a script from left to right; what it stored before a
    failure is kept;
  * `Script.newRecord` makes the record of a new object, field by field.
-/
import TypeAtlas.Host.Store

namespace TypeAtlas

/-- The ways in which a body takes a value out of a native. -/
inductive Extraction where
  | bool
  | int
  | long
  | double
  | ref
  | text
  deriving DecidableEq, Repr

/-- The value that is taken out, as a native again. -/
def Extraction.apply (native : Native) : Extraction → Except CallError Native
  | bool => .boolean <$> native.asBool
  | int => .int <$> native.asInt
  | long => .long <$> native.asLong
  | double => .double <$> native.asDouble
  | ref => .ref <$> native.asRef
  | text => (fun s => .ref (.text s)) <$> native.asText

/-- A script. -/
inductive Script where
  | const (native : Native)
  | arg (i : Nat)
  | get (field : String)
  /-- Stores a value in a field of the receiver. -/
  | set (field : String) (value : Script)
  | extract (how : Extraction) (value : Script)
  | add (left right : Script)
  | concat (parts : List Script)
  | seq (steps : List Script)
  | fail (text : String)
  deriving Inhabited

/-- What a body may do with the record of the receiver. -/
inductive Access where
  | none
  | read
  | write
  deriving DecidableEq, Repr

namespace Script

/-- A computation on the record of the receiver. -/
abbrev RecordM (α : Type) := EStateM CallError Record α

/-- A result that does not depend on the record. -/
def ofExcept {α : Type} : Except CallError α → RecordM α
  | .ok a => pure a
  | .error e => throw e

mutual

def eval (access : Access) (arguments : List Native) : Script → RecordM Native
  | const native => pure native
  | arg i =>
    match arguments[i]? with
    | some native => pure native
    | none => throw (.failed "no such argument")
  | get field => do
    if access = .none then throw (.failed "no receiver")
    match (← EStateM.get).find? field with
    | some native => pure native
    | none => throw (.failed s!"no field {field}")
  | set field value => do
    let native ← eval access arguments value
    if access = .write then
      modify fun (fields : Record) => fields.insert field native
      pure native
    else throw (.failed "receiver is not mutable")
  | extract how value => do ofExcept (how.apply (← eval access arguments value))
  | add left right => do
    let a ← ofExcept (← eval access arguments left).asInt
    let b ← ofExcept (← eval access arguments right).asInt
    return .int (a + b)
  | concat parts => do return .ref (.text (← evalTexts access arguments "" parts))
  | seq steps => evalLast access arguments .void steps
  | fail text => throw (.failed text)

/-- The texts of scripts one after another, behind `done`. -/
def evalTexts (access : Access) (arguments : List Native) (done : String) :
    List Script → RecordM String
  | [] => pure done
  | part :: rest => do
    let s ← ofExcept (← eval access arguments part).asText
    evalTexts access arguments (done ++ s) rest

/-- The value of the last script, or `last` if there is none. -/
def evalLast (access : Access) (arguments : List Native) (last : Native) :
    List Script → RecordM Native
  | [] => pure last
  | step :: rest => do
    let native ← eval access arguments step
    evalLast access arguments native rest

end

/-- The value of a script on a record that it cannot change. -/
def evalOn (access : Access) (fields : Record) (arguments : List Native) (script : Script) :
    Except CallError Native :=
  match eval access arguments script fields with
  | .ok native _ => .ok native
  | .error e _ => .error e

/-- The record whose fields are the values of scripts without a receiver, in
    order. -/
def newRecord (fields : List (String × Script)) (arguments : List Native) :
    Except CallError Record :=
  fields.foldlM (fun record entry => do
    return record.insert entry.1 (← entry.2.evalOn .none .empty arguments)) .empty

end Script

end TypeAtlas
