/-
  The constants of the blob format.

  A blob is the mark, the version, a pool of texts and a shape.  Values and
  generic types start with a tag; a list value has one tag per width of its
  count.
-/
import TypeAtlas.Wire.Bytes

namespace TypeAtlas.Blob

/-- The mark at the start of a blob, `PMAD`. -/
def mark : List UInt8 := [0x50, 0x4D, 0x41, 0x44]

def version : Nat := 4

/-- The deepest nesting of generic types and of values. -/
def nestingLimit : Nat := 64

/-- The number that a count, a length or a reference may not reach. -/
def countLimit : Nat := Wire.capacity 4

/-- The tags of values: none, text, truth value, the four numbers, a list with a
    count of each width, and a value kept as text. -/
def valueTags : List Nat := List.range 12

/-- The tags of generic types: a name, an applied class, a variable, a wildcard
    and an array. -/
def typeTags : List Nat := List.range 5

end TypeAtlas.Blob
