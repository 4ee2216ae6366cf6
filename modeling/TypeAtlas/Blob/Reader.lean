/-
  Reading a blob.

  The readers follow the writers part by part.  A reader may be guarded: then it
  compares every count with the bytes that are left and refuses at once a list
  that cannot be there, since each item takes at least one byte.

  * `Shape.ofBytes` reads a blob with guards and refuses bytes behind it;
  * `readShape` reads the part of a blob behind its pool, with or without guards;
  * values and generic types are read with the number of levels that may still
    be entered, like they are written.
-/
import TypeAtlas.Blob.Writer

namespace TypeAtlas

open TypeAtlas.Wire

namespace Blob

/-- What the readers of a blob's parts share. -/
structure Source where
  pool : PoolTable
  /-- Whether counts are compared with the bytes that are left. -/
  guarded : Bool

namespace Source

/-! ## Counts and references -/

def ref (source : Source) : Read String := source.pool.readRef

def byte : Read UInt8 := ofScan Scan.byte

/-- A count of the given width. -/
def count (source : Source) (part : Part) (width : Width) : Read Nat := do
  let n ← ofScan (Scan.number width)
  let remaining := (← get).remaining
  if source.guarded && remaining < n then refuse (.count part n remaining)
  return n

/-- A count behind the byte that names its width. -/
def size (source : Source) (part : Part) : Read Nat := do
  let selector ← byte
  if 3 < selector.toNat then refuse (.width selector part)
  source.count part (.ofSelector selector.toNat)

def list {α : Type} (source : Source) (part : Part) (read : Read α) : Read (List α) := do
  times read (← source.size part) []

/-- A list behind a count of the given width. -/
def counted {α : Type} (source : Source) (part : Part) (width : Width) (read : Read α) :
    Read (List α) := do
  times read (← source.count part width) []

/-! ## Values -/

/-- A value that may be nested `room` levels deep. -/
def value (source : Source) : Nat → Read AnnotationValue
  | 0 => throw .tooDeep
  | room + 1 => do
    let tag ← byte
    match tag.toNat with
    | 0 => return .null
    | 1 => .text <$> source.ref
    | 2 => do
      let bit ← byte
      match bit.toNat with
      | 0 => return .flag false
      | 1 => return .flag true
      | _ => refuse (.boolean bit)
    | 3 => .int <$> ofScan Scan.int32
    | 4 => .long <$> ofScan Scan.int64
    | 5 => .float <$> ofScan Scan.float32
    | 6 => .double <$> ofScan Scan.float64
    | 7 => .list <$> source.counted .values .one (source.value room)
    | 8 => .list <$> source.counted .values .two (source.value room)
    | 9 => .list <$> source.counted .values .three (source.value room)
    | 10 => .list <$> source.counted .values .four (source.value room)
    | 11 => .other <$> source.ref
    | _ => refuse (.valueTag tag)

/-! ## Generic types -/

/-- A part that may be absent, as a byte tells; any byte but zero and one is
    refused as `mistake` says. -/
def option {α : Type} (mistake : UInt8 → Misformed) (read : Read α) : Read (Option α) := do
  let presence ← byte
  match presence.toNat with
  | 0 => return none
  | 1 => some <$> read
  | _ => refuse (mistake presence)

/-- A generic type that may be nested `room` levels deep. -/
def type (source : Source) : Nat → Read TypeExpr
  | 0 => throw .tooDeep
  | room + 1 => do
    let tag ← byte
    match tag.toNat with
    | 0 => .named <$> source.ref
    | 1 => do
      let raw ← source.ref
      let owner ← option .ownerPresence (source.type room)
      return .applied raw owner (← source.list .typeArguments (source.type room))
    | 2 => do
      let name ← source.ref
      return .typeVar name (← source.list .typeArguments (source.type room))
    | 3 => do
      let upper ← source.list .typeArguments (source.type room)
      return .wildcard upper (← source.list .typeArguments (source.type room))
    | 4 => .array <$> source.type room
    | _ => refuse (.typeTag tag)

/-! ## Annotations -/

def property (source : Source) : Read (String × AnnotationValue) := do
  let name ← source.ref
  return (name, ← source.value nestingLimit)

/-- An annotation; a property that is given again keeps its place and takes the
    later value. -/
def note (source : Source) : Read Annotation := do
  let typeName ← source.ref
  let simpleName ← source.ref
  let qualifiedName ← option .namePresence source.ref
  let properties ← source.list .properties source.property
  return ⟨typeName, simpleName, qualifiedName, .ofList properties⟩

def annotations (source : Source) : Read (List Annotation) :=
  source.list .annotations source.note

/-- The annotations of the parameters of a member. -/
def parameterAnnotations (source : Source) : Read (List (List Annotation)) :=
  source.list .parameterAnnotations source.annotations

/-! ## Members -/

/-- Whether a bit of a byte is set. -/
def bit (byte : UInt8) (i : Nat) : Bool := byte.toNat.testBit i

def memberModifiers : Read MemberModifiers := do
  let flags ← byte
  if 8 ≤ flags.toNat then refuse (.memberFlags flags)
  return ⟨bit flags 0, bit flags 1, bit flags 2⟩

def constructor (source : Source) : Read Constructor := do
  let declaring ← source.ref
  let modifiers ← memberModifiers
  let parameters ← source.list .parameters source.ref
  let annotations ← source.annotations
  return ⟨declaring, parameters, modifiers, annotations, ← source.parameterAnnotations⟩

def method (source : Source) : Read Method := do
  let name ← source.ref
  let declaring ← source.ref
  let returns ← source.ref
  let modifiers ← memberModifiers
  let parameters ← source.list .parameters source.ref
  let annotations ← source.annotations
  let parameterAnnotations ← source.parameterAnnotations
  return ⟨name, declaring, parameters, returns, modifiers, annotations, parameterAnnotations,
    ← source.type nestingLimit⟩

def field (source : Source) : Read Field := do
  let name ← source.ref
  let declaring ← source.ref
  let typeName ← source.ref
  let modifiers ← memberModifiers
  return ⟨name, declaring, typeName, modifiers, ← source.annotations⟩

/-! ## The shape -/

/-- The kind that two bits stand for. -/
def kindOf (bits : Nat) : TypeKind :=
  match bits % 4 with
  | 0 => .cls
  | 1 => .interface
  | 2 => .enum
  | _ => .object

/-- The methods that a stand-in answers. -/
def proxyMethods (source : Source) : Read (Option (List Method)) := do
  let presence ← byte
  match presence.toNat with
  | 0 => return none
  | 1 => some <$> source.counted .proxyMethods .one source.method
  | 2 => some <$> source.counted .proxyMethods .two source.method
  | 3 => some <$> source.counted .proxyMethods .three source.method
  | 4 => some <$> source.counted .proxyMethods .four source.method
  | _ => refuse (.proxyPresence presence)

/-- The superclass, if the flags say that there is one. -/
def superclass (source : Source) (present : Bool) : Read (Option String) :=
  if present then some <$> source.ref else return none

def shape (source : Source) : Read Shape := do
  let simpleName ← source.ref
  let name ← source.ref
  let flags ← byte
  if bit flags 7 then refuse (.typeFlags flags)
  let layout ← byte
  let widthAt (i : Nat) : Width := .ofSelector (layout.toNat >>> (2 * i))
  let superclass ← source.superclass (bit flags 6)
  let interfaces ← source.counted .interfaces (widthAt 0) source.ref
  let annotations ← source.annotations
  let constructors ← source.counted .constructors (widthAt 1) source.constructor
  let methods ← source.counted .methods (widthAt 2) source.method
  let fields ← source.counted .fields (widthAt 3) source.field
  let proxyMethods ← source.proxyMethods
  let shape : Shape := {
    simpleName, name
    kind := kindOf flags.toNat
    modifiers := ⟨bit flags 2, bit flags 3, bit flags 4, bit flags 5⟩
    superclass, interfaces, annotations, constructors, methods, fields, proxyMethods }
  match shape.check with
  | .ok _ => return shape
  | .error fault => refuse (.faulty fault)

end Source

/-- A whole blob: the mark, the version, the pool, the shape, and nothing else. -/
def readBlob (guarded : Bool) : Read Shape := do
  let found ← ofScan (Scan.take mark.length)
  if found ≠ mark then throw (.mark found)
  let version ← Source.byte
  if version.toNat ≠ Blob.version then throw (.version version)
  let pool ← PoolTable.read guarded
  let shape ← Source.shape ⟨pool, guarded⟩
  let remaining := (← get).remaining
  if remaining ≠ 0 then refuse (.trailing remaining)
  return shape

/-- What a reader makes of a list of bytes. -/
def Read.run {α : Type} (read : Read α) (bytes : List UInt8) : Except BlobError α :=
  match read (.start bytes) with
  | .ok a _ => .ok a
  | .error e _ => .error e

end Blob

def Shape.ofBytes (bytes : List UInt8) : Except BlobError Shape :=
  Blob.Read.run (Blob.readBlob true) bytes

/-- The shape of a blob in Base64. -/
def Shape.ofBase64 (text : String) : Except BlobError Shape :=
  match Text.Base64.decode text with
  | .ok bytes => Shape.ofBytes bytes
  | .error fault => .error (.base64 fault)

end TypeAtlas
