/-
  Why a blob cannot be written or read.

  A blob is the written form of a shape.  `BlobError` holds the causes of a
  refusal, `BlobError.message` their wording.

  * `Misformed` lists what can be wrong with the structure of a blob;
  * `Unwritable` lists what keeps a shape from being written, a broken rule of
    shapes first of all.
-/
import TypeAtlas.Blob.Format
import TypeAtlas.Shape.Basic
import TypeAtlas.Text.Base64
import TypeAtlas.Text.Quoted
import TypeAtlas.Wire.Cursor

namespace TypeAtlas.Blob

open TypeAtlas.Text (hexPadded)

/-- The lists in a blob that carry a count. -/
inductive Part where
  | interfaces
  | constructors
  | methods
  | fields
  | proxyMethods
  | parameters
  | annotations
  | parameterAnnotations
  | properties
  | values
  | typeArguments
  deriving DecidableEq, Repr

/-- The wording for one item of a part. -/
def Part.text : Part → String
  | interfaces => "interface"
  | constructors => "constructor"
  | methods => "method"
  | fields => "field"
  | proxyMethods => "proxy method"
  | parameters => "parameter"
  | annotations => "annotation"
  | parameterAnnotations => "parameter annotation"
  | properties => "annotation property"
  | values => "annotation list"
  | typeArguments => "generic argument"

/-- Why a shape cannot be written. -/
inductive Unwritable where
  /-- The shape breaks a rule. -/
  | faulty (fault : ShapeFault)
  /-- A list is too long for a count. -/
  | tooMany (count : Nat)
  /-- There are too many texts for a count. -/
  | tooManyTexts
  /-- A text is too long for a length. -/
  | tooLong
  /-- A text is missing from the pool. -/
  | notPooled (text : String)
  deriving DecidableEq, Repr

/-- The wording of an obstacle to writing. -/
def Unwritable.message : Unwritable → String
  | faulty fault => fault.message
  | tooMany n => s!"collection of {n} items"
  | tooManyTexts => "string pool too large"
  | tooLong => "string longer than u32::MAX bytes"
  | notPooled text => s!"string '{text}' missing from pool"

/-- What is wrong with the structure of a blob. -/
inductive Misformed where
  /-- The unused bits of the pool's header are set. -/
  | poolHeader (header : UInt8)
  /-- The pool counts more texts than the bytes left can hold. -/
  | poolCount (count remaining : Nat)
  /-- A list counts more items than bytes are left. -/
  | count (part : Part) (count remaining : Nat)
  /-- No width has this selector. -/
  | width (selector : UInt8) (part : Part)
  /-- The unused flag of a type is set. -/
  | typeFlags (flags : UInt8)
  /-- An unused flag of a member is set. -/
  | memberFlags (flags : UInt8)
  /-- The presence of proxy methods is neither denied nor given with a width. -/
  | proxyPresence (byte : UInt8)
  /-- The presence of a qualified name is neither denied nor given. -/
  | namePresence (byte : UInt8)
  /-- The presence of an owner is neither denied nor given. -/
  | ownerPresence (byte : UInt8)
  /-- A truth value is neither zero nor one. -/
  | boolean (byte : UInt8)
  /-- No value has this tag. -/
  | valueTag (tag : UInt8)
  /-- No generic type has this tag. -/
  | typeTag (tag : UInt8)
  /-- The shape breaks a rule. -/
  | faulty (fault : ShapeFault)
  /-- Bytes follow the shape. -/
  | trailing (count : Nat)
  deriving DecidableEq, Repr

/-- The wording of a structural mistake. -/
def Misformed.message : Misformed → String
  | poolHeader header =>
    s!"reserved string pool header bits set: 0x{hexPadded 2 header.toNat}"
  | poolCount n remaining =>
    s!"string pool declares {n} entries but only {remaining} bytes remain"
  | count part n remaining => s!"{part.text} count {n} exceeds remaining {remaining} bytes"
  | width selector part => s!"invalid width selector {selector.toNat} for {part.text}"
  | typeFlags flags => s!"reserved type flag bits set: 0x{hexPadded 2 flags.toNat}"
  | memberFlags flags => s!"reserved member flag bits set: 0x{hexPadded 2 flags.toNat}"
  | proxyPresence byte => s!"invalid proxy presence byte {byte.toNat}"
  | namePresence byte => s!"invalid qualified-name presence byte {byte.toNat}"
  | ownerPresence byte => s!"invalid owner presence byte {byte.toNat}"
  | boolean byte => s!"invalid boolean byte {byte.toNat}"
  | valueTag tag => s!"unknown annotation value tag {tag.toNat}"
  | typeTag tag => s!"unknown generic signature tag {tag.toNat}"
  | faulty fault => s!"Invalid descriptor: {fault.message}"
  | trailing n => s!"{n} trailing bytes after descriptor"

end TypeAtlas.Blob

namespace TypeAtlas

/-- Why a blob cannot be written or read. -/
inductive BlobError where
  | scan (error : Wire.ScanError)
  /-- The blob starts with other bytes than the mark of the format. -/
  | mark (found : List UInt8)
  | version (found : UInt8)
  | misformed (mistake : Blob.Misformed)
  | tooDeep
  | badReference (index size : Nat)
  | unwritable (cause : Blob.Unwritable)
  | base64 (fault : Text.Base64.Fault)
  deriving DecidableEq, Repr

def BlobError.message : BlobError → String
  | scan error => s!"Decode error: {error.message}"
  | mark found =>
    let bytes := Text.listing "[" "]" (found.map fun b => toString b.toNat)
    s!"Invalid magic number: expected PMAD, got {bytes}"
  | version found =>
    s!"Metadata version mismatch: expected {Blob.version}, found {found.toNat}"
  | misformed mistake => s!"Malformed metadata: {mistake.message}"
  | tooDeep => s!"Metadata nesting exceeds depth {Blob.nestingLimit}"
  | badReference index size => s!"String index {index} out of range (pool size {size})"
  | unwritable cause => s!"Invalid descriptor: {cause.message}"
  | base64 fault => s!"Invalid Base64 metadata: {fault.message}"

end TypeAtlas
