/-
  The hash of a name.

  Names are hashed by FNV-1a over their UTF-8 bytes, in words of 32 bits: from
  a fixed start value, each byte is added by exclusive or and the word is
  multiplied by a fixed prime.  The result depends on the bytes alone.
-/

namespace TypeAtlas.Name

/-- The start value of the hash. -/
def hashBasis : UInt32 := 0x811c9dc5

def hashPrime : UInt32 := 0x01000193

def hashStep (word : UInt32) (byte : UInt8) : UInt32 := (word ^^^ byte.toUInt32) * hashPrime

def hash (name : String) : UInt32 := name.toUTF8.data.toList.foldl hashStep hashBasis

example : hash "Alpha" = 0x0348724b := by decide +kernel

end TypeAtlas.Name
