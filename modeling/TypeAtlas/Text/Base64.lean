/-
  Base64 with padding.

  Three bytes are written as four characters of the alphabet `A`–`Z`, `a`–`z`,
  `0`–`9`, `+`, `/`; a last group of one or two bytes is filled up with `=`.
  Reading goes block by block: a block of four characters may end in one or two
  `=`, also before the end of the text, so written texts may be joined.

  * `encode` writes bytes, `decode` reads the bytes of a text;
  * a `Fault` is the first reason to refuse a text, with the offset of the byte
    that shows it; a wrong length comes before any fault inside a block.
-/

namespace TypeAtlas.Text.Base64

/-- The reasons to refuse a text. -/
inductive Reason where
  /-- The length is no multiple of four. -/
  | length
  /-- A byte outside the alphabet, or padding inside a block. -/
  | symbol
  /-- The bits that no byte uses are not zero. -/
  | trailing
  /-- More than two padding characters end a block. -/
  | padding
  deriving DecidableEq, Repr

/-- A refused text: the reason and the offset that shows it. -/
structure Fault where
  position : Nat
  reason : Reason
  deriving DecidableEq, Repr

def Reason.text : Reason → String
  | .length => "invalid length"
  | .symbol => "invalid symbol"
  | .trailing => "non-zero trailing bits"
  | .padding => "invalid padding length"

def Fault.message (fault : Fault) : String :=
  s!"{fault.reason.text} at {fault.position}"

/-! ## Digits -/

/-- The character of a six-bit digit. -/
def digit (n : Nat) : Char :=
  if n < 26 then Char.ofNat (65 + n)
  else if n < 52 then Char.ofNat (97 + (n - 26))
  else if n < 62 then Char.ofNat (48 + (n - 52))
  else if n = 62 then '+'
  else '/'

/-- The six-bit digit that a byte stands for. -/
def digit? (b : UInt8) : Option Nat :=
  let n := b.toNat
  if 65 ≤ n ∧ n ≤ 90 then some (n - 65)
  else if 97 ≤ n ∧ n ≤ 122 then some (n - 97 + 26)
  else if 48 ≤ n ∧ n ≤ 57 then some (n - 48 + 52)
  else if n = 43 then some 62
  else if n = 47 then some 63
  else none

def pad : UInt8 := 61

/-! ## Writing -/

/-- The characters for a list of bytes. -/
def encodeChars : List UInt8 → List Char
  | a :: b :: c :: rest =>
    let n := a.toNat * 65536 + b.toNat * 256 + c.toNat
    digit (n / 262144) :: digit (n / 4096 % 64) :: digit (n / 64 % 64) :: digit (n % 64) ::
      encodeChars rest
  | [a, b] =>
    let n := a.toNat * 1024 + b.toNat * 4
    [digit (n / 4096), digit (n / 64 % 64), digit (n % 64), '=']
  | [a] =>
    let n := a.toNat * 16
    [digit (n / 64), digit (n % 64), '=', '=']
  | [] => []

/-- The written form of a list of bytes. -/
def encode (bytes : List UInt8) : String := String.ofList (encodeChars bytes)

/-! ## Reading -/

/-- The digits of the characters of a block up to its padding, the first of
    them at `offset`. -/
def readDigits (offset : Nat) : List UInt8 → Except Fault (List Nat)
  | [] => .ok []
  | b :: rest =>
    match digit? b with
    | none => .error ⟨offset, .symbol⟩
    | some d => (readDigits (offset + 1) rest).map (d :: ·)

/-- The bytes of a block from its digits; `offset` is where the block starts. -/
def joinDigits (offset : Nat) : List Nat → Except Fault (List UInt8)
  | [a, b] =>
    if b % 16 = 0 then .ok [UInt8.ofNat ((a * 64 + b) / 16)]
    else .error ⟨offset + 1, .trailing⟩
  | [a, b, c] =>
    let n := a * 4096 + b * 64 + c
    if c % 4 = 0 then .ok [UInt8.ofNat (n / 1024), UInt8.ofNat (n / 4)]
    else .error ⟨offset + 2, .trailing⟩
  | [a, b, c, d] =>
    let n := a * 262144 + b * 4096 + c * 64 + d
    .ok [UInt8.ofNat (n / 65536), UInt8.ofNat (n / 256), UInt8.ofNat n]
  | digits => .error ⟨offset + digits.length, .padding⟩

/-- The block without the padding at its end. -/
def stripPadding (block : List UInt8) : List UInt8 :=
  (block.reverse.dropWhile (· == pad)).reverse

/-- The bytes of one block of four characters that starts at `offset`. -/
def decodeBlock (offset : Nat) (block : List UInt8) : Except Fault (List UInt8) :=
  let body := stripPadding block
  if body.length < 2 then .error ⟨offset + body.length, .padding⟩
  else do joinDigits offset (← readDigits offset body)

/-- The bytes of the blocks of a text, the first of them at `offset`; `done`
    holds the bytes of the blocks before it, last first. -/
def decodeBlocks (offset : Nat) (done : List UInt8) :
    List UInt8 → Except Fault (List UInt8)
  | a :: b :: c :: d :: rest => do
    let bytes ← decodeBlock offset [a, b, c, d]
    decodeBlocks (offset + 4) (bytes.reverse ++ done) rest
  | _ => .ok done.reverse

/-- The bytes that a text stands for. -/
def decode (text : String) : Except Fault (List UInt8) :=
  let bytes := text.toUTF8.data.toList
  if bytes.length % 4 = 0 then decodeBlocks 0 [] bytes
  else .error ⟨bytes.length - bytes.length % 4, .length⟩

end TypeAtlas.Text.Base64
