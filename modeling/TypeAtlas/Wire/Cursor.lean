/-
  Reading bytes.

  A `Cursor` is a position in a list of bytes with the bytes that follow it.  A
  `Scan` reads from it and moves it; a read that finds too few bytes leaves it
  where it is.  A text is read in two parts, its bytes first, so a text of
  invalid bytes is refused behind them.

  * `take k` yields exactly `k` bytes or `ScanError.endOfInput`;
  * `number width`, `int32`, `int64`, `float32`, `float64` and `text` are made
    from it;
  * `take_append`: what is read is the front of the bytes, and what follows is
    untouched.
-/
import TypeAtlas.Binary
import TypeAtlas.Wire.Bytes
import TypeAtlas.Wire.Width

namespace TypeAtlas.Wire

/-! ## Cursors -/

/-- A position among bytes and the bytes that follow it. -/
structure Cursor where
  position : Nat
  rest : List UInt8
  remaining : Nat
  remaining_eq : remaining = rest.length

namespace Cursor

/-- The cursor at the start of a list of bytes. -/
def start (bytes : List UInt8) : Cursor := ⟨0, bytes, bytes.length, rfl⟩

/-- The cursor at `position` in front of `rest`. -/
def at_ (position : Nat) (rest : List UInt8) : Cursor := ⟨position, rest, rest.length, rfl⟩

/-- The cursor `k` bytes further on. -/
def advance (cursor : Cursor) (k : Nat) : Cursor where
  position := cursor.position + k
  rest := cursor.rest.drop k
  remaining := cursor.remaining - k
  remaining_eq := by rw [List.length_drop, cursor.remaining_eq]

@[ext] theorem ext {c d : Cursor} (hp : c.position = d.position) (hr : c.rest = d.rest) :
    c = d := by
  obtain ⟨p, r, n, hn⟩ := c
  obtain ⟨p', r', n', hn'⟩ := d
  simp only at hp hr
  subst hp hr hn hn'
  rfl

end Cursor

/-- Why a read failed. -/
inductive ScanError where
  /-- Fewer bytes are left than asked for; the offset of the read. -/
  | endOfInput (offset : Nat)
  /-- The bytes are not UTF-8; the offset of the text. -/
  | invalidText (offset : Nat)
  deriving DecidableEq, Repr

/-- The wording of a failed read. -/
def ScanError.message : ScanError → String
  | endOfInput offset => s!"Unexpected end of metadata at offset {offset}"
  | invalidText offset => s!"Invalid UTF-8 string at offset {offset}"

/-- A computation that reads and moves a cursor; a failure keeps the cursor. -/
abbrev Scan (α : Type) := EStateM ScanError Cursor α

namespace Scan

/-! ## Reads -/

def take (k : Nat) : Scan (List UInt8) := fun cursor =>
  if k ≤ cursor.remaining then .ok (cursor.rest.take k) (cursor.advance k)
  else .error (.endOfInput cursor.position) cursor

/-- The number in the next `k` bytes. -/
def nat (k : Nat) : Scan Nat := ofBytes <$> take k

def byte : Scan UInt8 := UInt8.ofNat <$> nat 1

/-- A number of the given width. -/
def number (width : Width) : Scan Nat := nat width.size

/-- A signed integer of four bytes. -/
def int32 : Scan Int32 := (fun n => (UInt32.ofNat n).toInt32) <$> nat 4

/-- A signed integer of eight bytes. -/
def int64 : Scan Int64 := (fun n => (UInt64.ofNat n).toInt64) <$> nat 8

/-- A floating-point number of four bytes. -/
def float32 : Scan Binary32 := (fun n => ⟨UInt32.ofNat n⟩) <$> nat 4

/-- A floating-point number of eight bytes. -/
def float64 : Scan Binary64 := (fun n => ⟨UInt64.ofNat n⟩) <$> nat 8

def text (k : Nat) : Scan String := do
  let offset := (← get).position
  match bytesText? (← take k) with
  | some s => pure s
  | none => throw (.invalidText offset)

theorem take_append (position : Nat) (bytes rest : List UInt8) :
    take bytes.length (.at_ position (bytes ++ rest)) =
      .ok bytes (.at_ (position + bytes.length) rest) := by
  simp only [take, Cursor.at_, List.length_append]
  rw [if_pos (Nat.le_add_right _ _)]
  congr 1
  · simp
  · apply Cursor.ext <;> simp [Cursor.advance]

end Scan

/-! ## Writes -/

/-- A number in the given width; what does not fit is dropped. -/
def putNumber (width : Width) (n : Nat) : List UInt8 := toBytes width.size n

/-- A signed integer in four bytes. -/
def putInt32 (n : Int32) : List UInt8 := toBytes 4 n.toUInt32.toNat

/-- A signed integer in eight bytes. -/
def putInt64 (n : Int64) : List UInt8 := toBytes 8 n.toUInt64.toNat

/-- A floating-point number in four bytes. -/
def putFloat32 (x : Binary32) : List UInt8 := toBytes 4 x.bits.toNat

/-- A floating-point number in eight bytes. -/
def putFloat64 (x : Binary64) : List UInt8 := toBytes 8 x.bits.toNat

/-- A truth value in one byte. -/
def putBool (b : Bool) : List UInt8 := [if b then 1 else 0]

end TypeAtlas.Wire
