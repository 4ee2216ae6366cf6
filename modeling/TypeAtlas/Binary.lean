/-
  Floating-point numbers by their bits.

  A number of the binary formats of 32 and 64 bits is kept as the word that
  encodes it, so that every bit survives storing and copying, those of a
  not-a-number included.

  * `isNaN` reads the exponent and the fraction;
  * `numEq` compares as numbers: a not-a-number differs from everything, itself
    included, and the two zeros are equal.
-/

namespace TypeAtlas

/-- A floating-point number of 32 bits. -/
structure Binary32 where
  /-- Sign, eight bits of exponent, 23 bits of fraction. -/
  bits : UInt32
  deriving DecidableEq, Repr

/-- A floating-point number of 64 bits. -/
structure Binary64 where
  /-- Sign, eleven bits of exponent, 52 bits of fraction. -/
  bits : UInt64
  deriving DecidableEq, Repr

namespace Binary32

/-- Whether the number is not a number. -/
def isNaN (x : Binary32) : Bool := 0x7F800000 < x.bits.toNat % 0x80000000

/-- Whether the number is one of the two zeros. -/
def isZero (x : Binary32) : Bool := x.bits.toNat % 0x80000000 == 0

def numEq (x y : Binary32) : Bool :=
  !x.isNaN && !y.isNaN && (x == y || (x.isZero && y.isZero))

end Binary32

namespace Binary64

/-- Whether the number is not a number. -/
def isNaN (x : Binary64) : Bool := 0x7FF0000000000000 < x.bits.toNat % 0x8000000000000000

/-- Whether the number is one of the two zeros. -/
def isZero (x : Binary64) : Bool := x.bits.toNat % 0x8000000000000000 == 0

def numEq (x y : Binary64) : Bool :=
  !x.isNaN && !y.isNaN && (x == y || (x.isZero && y.isZero))

end Binary64

end TypeAtlas
