/-
  Reads one after another.

  A reader is asked for one item after another, and a caller may go on behind a read that
  failed.  Wherever that leaves the cursor, it is a place among the bytes.

  * `Reading`: the reads there are, each with the number of its bytes (`Reading.size`) and
    with what their value is (`Reading.IsValue`);
  * `Reading.scan_eq`: all of them take their bytes first and make a value of them then;
  * `Reading.within_after`: the place after any number of reads, failed ones among them;
  * `Reading.scan_after`: what a read comes to there.  One that finds too few bytes leaves
    the cursor where it is, a text of bytes that are not UTF-8 is refused behind them.
-/
import Mathlib.Data.Nat.Digits.Defs
import TypeAtlas.Wire.Cursor

namespace TypeAtlas.Wire

/-! ## Values of bytes -/

/-- The number with the given digits, least significant first. -/
def littleEndian (bytes : List UInt8) : Nat := Nat.ofDigits 256 (bytes.map UInt8.toNat)

theorem ofBytes_eq_littleEndian (bytes : List UInt8) : ofBytes bytes = littleEndian bytes := by
  induction bytes with
  | nil => rfl
  | cons b rest ih =>
    rw [ofBytes, ih, littleEndian, littleEndian, List.map_cons, Nat.ofDigits_cons]

theorem littleEndian_lt (bytes : List UInt8) : littleEndian bytes < capacity bytes.length :=
  ofBytes_eq_littleEndian bytes ▸ ofBytes_lt bytes

/-! ## Places among bytes -/

namespace Cursor

variable {buffer : List UInt8} {cursor : Cursor}

/-- The cursor stands among the bytes, in front of those that follow. -/
structure Within (buffer : List UInt8) (cursor : Cursor) : Prop where
  position_le : cursor.position ≤ buffer.length
  rest_eq : cursor.rest = buffer.drop cursor.position

namespace Within

theorem start (buffer : List UInt8) : Within buffer (.start buffer) := ⟨Nat.zero_le _, rfl⟩

theorem advance {k : Nat} (h : cursor.Within buffer) (hroom : k ≤ cursor.remaining) :
    (cursor.advance k).Within buffer := by
  rw [cursor.remaining_eq, h.rest_eq, List.length_drop] at hroom
  have hle := h.position_le
  refine ⟨?_, ?_⟩
  · simp only [Cursor.advance]
    omega
  · simp only [Cursor.advance, h.rest_eq, List.drop_drop]

end Within

end Cursor

/-! ## Kinds of reads -/

/-- A read of one item. -/
inductive Reading where
  | byte
  | int32
  | int64
  | float32
  | float64
  /-- So many bytes as they are. -/
  | slice (k : Nat)
  /-- A text of so many bytes. -/
  | text (k : Nat)
  | number (width : Width)
  deriving DecidableEq, Repr

namespace Reading

/-- The type of what a read yields. -/
def Value : Reading → Type
  | byte => UInt8
  | int32 => Int32
  | int64 => Int64
  | float32 => Binary32
  | float64 => Binary64
  | slice _ => List UInt8
  | text _ => String
  | number _ => Nat

def scan : (read : Reading) → Scan read.Value
  | byte => Scan.byte
  | int32 => Scan.int32
  | int64 => Scan.int64
  | float32 => Scan.float32
  | float64 => Scan.float64
  | slice k => Scan.take k
  | text k => Scan.text k
  | number width => Scan.number width

/-- How many bytes a read covers. -/
def size : Reading → Nat
  | byte => 1
  | int32 | float32 => 4
  | int64 | float64 => 8
  | slice k | text k => k
  | number width => width.size

/-- The value of a list of bytes: signed numbers are in two's complement, of floating-point
    numbers these are the bits, texts are in UTF-8. -/
def IsValue : (read : Reading) → List UInt8 → read.Value → Prop
  | byte, bytes, (b : UInt8) => b.toNat = littleEndian bytes
  | int32, bytes, (n : Int32) => n.toInt = Int.bmod (littleEndian bytes) (2 ^ 32)
  | int64, bytes, (n : Int64) => n.toInt = Int.bmod (littleEndian bytes) (2 ^ 64)
  | float32, bytes, (x : Binary32) => x.bits.toNat = littleEndian bytes
  | float64, bytes, (x : Binary64) => x.bits.toNat = littleEndian bytes
  | slice _, bytes, (taken : List UInt8) => taken = bytes
  | text _, bytes, (s : String) => textBytes s = bytes
  | number _, bytes, (n : Nat) => n = littleEndian bytes

/-- What a read makes of its bytes. -/
def value? : (read : Reading) → List UInt8 → Option read.Value
  | byte, bytes => some (UInt8.ofNat (ofBytes bytes))
  | int32, bytes => some (UInt32.ofNat (ofBytes bytes)).toInt32
  | int64, bytes => some (UInt64.ofNat (ofBytes bytes)).toInt64
  | float32, bytes => some ⟨UInt32.ofNat (ofBytes bytes)⟩
  | float64, bytes => some ⟨UInt64.ofNat (ofBytes bytes)⟩
  | slice _, bytes => some bytes
  | text _, bytes => bytesText? bytes
  | number _, bytes => some (ofBytes bytes)

variable {read : Reading} {buffer bytes : List UInt8} {cursor : Cursor}

/-! ## One read -/

theorem map_nat_run {α : Type} (k : Nat) (f : Nat → α) (cursor : Cursor) :
    (f <$> Scan.nat k) cursor =
      if k ≤ cursor.remaining then .ok (f (ofBytes (cursor.rest.take k))) (cursor.advance k)
      else .error (.endOfInput cursor.position) cursor := by
  show EStateM.map f (EStateM.map ofBytes (Scan.take k)) cursor = _
  rw [EStateM.map, EStateM.map, Scan.take]
  by_cases hroom : k ≤ cursor.remaining
  · rw [if_pos hroom, if_pos hroom]
  · rw [if_neg hroom, if_neg hroom]

/-- **A read takes its bytes first and makes a value of them then**: if there are too few it takes
    none, but bytes without a value are taken. -/
theorem scan_eq (read : Reading) (cursor : Cursor) :
    read.scan cursor =
      if read.size ≤ cursor.remaining then
        match read.value? (cursor.rest.take read.size) with
        | some v => .ok v (cursor.advance read.size)
        | none => .error (.invalidText cursor.position) (cursor.advance read.size)
      else .error (.endOfInput cursor.position) cursor := by
  cases read with
  | byte => exact map_nat_run 1 _ cursor
  | int32 => exact map_nat_run 4 _ cursor
  | int64 => exact map_nat_run 8 _ cursor
  | float32 => exact map_nat_run 4 _ cursor
  | float64 => exact map_nat_run 8 _ cursor
  | slice k => rfl
  | number width =>
    have hnumber := map_nat_run width.size id cursor
    rwa [id_map] at hnumber
  | text k =>
    show EStateM.bind (Scan.take k) _ cursor = _
    rw [EStateM.bind, Scan.take, size, value?]
    by_cases hroom : k ≤ cursor.remaining
    · rw [if_pos hroom, if_pos hroom]
      cases hs : bytesText? (cursor.rest.take k) with
      | none => simp only [hs]; rfl
      | some s => simp only [hs]; rfl
    · rw [if_neg hroom, if_neg hroom]
      rfl

/-- What is made of the right number of bytes is their value. -/
theorem isValue_of_value? {v : read.Value} (hlength : bytes.length = read.size)
    (h : read.value? bytes = some v) : read.IsValue bytes v := by
  have hlt := littleEndian_lt bytes
  rw [hlength] at hlt
  cases read with
  | byte =>
    cases h
    show (UInt8.ofNat (ofBytes bytes)).toNat = littleEndian bytes
    rw [ofBytes_eq_littleEndian, UInt8.toNat_ofNat']
    exact Nat.mod_eq_of_lt hlt
  | int32 =>
    cases h
    show (BitVec.ofNat 32 (ofBytes bytes)).toInt = _
    rw [BitVec.toInt_ofNat', ofBytes_eq_littleEndian]
  | int64 =>
    cases h
    show (BitVec.ofNat 64 (ofBytes bytes)).toInt = _
    rw [BitVec.toInt_ofNat', ofBytes_eq_littleEndian]
  | float32 =>
    cases h
    show (UInt32.ofNat (ofBytes bytes)).toNat = littleEndian bytes
    rw [ofBytes_eq_littleEndian, UInt32.toNat_ofNat']
    exact Nat.mod_eq_of_lt hlt
  | float64 =>
    cases h
    show (UInt64.ofNat (ofBytes bytes)).toNat = littleEndian bytes
    rw [ofBytes_eq_littleEndian, UInt64.toNat_ofNat']
    exact Nat.mod_eq_of_lt hlt
  | slice k => cases h; rfl
  | text k => exact (bytesText?_eq_some_iff.1 h).symm
  | number width => cases h; exact ofBytes_eq_littleEndian bytes

/-- Only a text can be refused for its bytes, and not for having none. -/
theorem not_isValue_of_value? (h : read.value? bytes = none) :
    bytes ≠ [] ∧ ∀ v, ¬ read.IsValue bytes v := by
  cases read with
  | text k =>
    have hnone : ∀ s, textBytes s ≠ bytes := by
      rintro s rfl
      exact Option.some_ne_none _ ((bytesText?_textBytes s).symm.trans h)
    exact ⟨fun hnil => hnone "" (hnil ▸ rfl), hnone⟩
  | byte | int32 | int64 | float32 | float64 | slice | number => cases h

/-! ## Reads one after another -/

/-- The place where a read leaves the cursor, also if it fails. -/
def next (read : Reading) (cursor : Cursor) : Cursor :=
  match read.scan cursor with
  | .ok _ next => next
  | .error _ next => next

/-- The place behind reads one after another. -/
def after (reads : List Reading) (cursor : Cursor) : Cursor :=
  reads.foldl (fun cursor read => read.next cursor) cursor

theorem within_next (h : cursor.Within buffer) : (read.next cursor).Within buffer := by
  rw [next, scan_eq]
  by_cases hroom : read.size ≤ cursor.remaining
  · rw [if_pos hroom]
    cases read.value? (cursor.rest.take read.size) with
    | none => exact h.advance hroom
    | some v => exact h.advance hroom
  · rw [if_neg hroom]
    exact h

theorem within_after (reads : List Reading) (h : cursor.Within buffer) :
    (after reads cursor).Within buffer := by
  induction reads generalizing cursor with
  | nil => exact h
  | cons read rest ih => exact ih (within_next h)

/-- **What a read comes to behind any number of other reads.**  The place is one among the bytes.
    A read that succeeds covers its bytes, yields their value and stops behind them; one that fails
    names the place where it started.  It stays there if there are too few bytes, but a text of
    bytes that are not UTF-8 leaves the cursor behind them. -/
theorem scan_after (buffer : List UInt8) (earlier : List Reading) (read : Reading) :
    let cursor := after earlier (.start buffer)
    let covered := (buffer.drop cursor.position).take read.size
    cursor.position ≤ buffer.length ∧
    match read.scan cursor with
    | .ok v next =>
      covered.length = read.size ∧ read.IsValue covered v ∧
        next.position = cursor.position + read.size
    | .error (.endOfInput offset) next =>
      covered.length < read.size ∧ offset = cursor.position ∧ next.position = cursor.position
    | .error (.invalidText offset) next =>
      covered.length = read.size ∧ (∀ v, ¬ read.IsValue covered v) ∧
        offset = cursor.position ∧ next.position = cursor.position + read.size ∧
        next.position ≠ cursor.position := by
  intro cursor covered
  have hwithin : cursor.Within buffer := within_after earlier (.start buffer)
  have hcovered : cursor.rest.take read.size = covered := by rw [hwithin.rest_eq]
  refine ⟨hwithin.position_le, ?_⟩
  rw [scan_eq, cursor.remaining_eq, hcovered]
  by_cases hroom : read.size ≤ cursor.rest.length
  · have hlength : covered.length = read.size := by
      rw [← hcovered, List.length_take_of_le hroom]
    rw [if_pos hroom]
    cases hv : read.value? covered with
    | some v => exact ⟨hlength, isValue_of_value? hlength hv, rfl⟩
    | none =>
      obtain ⟨hne, hnone⟩ := not_isValue_of_value? hv
      have hsize : 0 < read.size := hlength ▸ List.length_pos_iff.2 hne
      exact ⟨hlength, hnone, rfl, rfl, Nat.ne_of_gt (Nat.lt_add_of_pos_right hsize)⟩
  · rw [if_neg hroom]
    refine ⟨?_, rfl, rfl⟩
    rw [← hcovered, List.length_take]
    omega

/-- A read behind a text that was refused, with too few bytes for a number. -/
theorem scan_after_refused :
    (after [text 1] (.start [0xC3, 0xA9])).position = 1 ∧
      ∃ next, int32.scan (after [text 1] (.start [0xC3, 0xA9])) = .error (.endOfInput 1) next ∧
        next.position = 1 := by
  have hlast := scan_after [0xC3, 0xA9] [text 1] int32
  exact ⟨rfl, _, rfl, hlast.2.2.2⟩

/-- **A text of bytes that are not UTF-8 is refused at its start, but its bytes are taken.** -/
theorem scan_invalid : ∃ next, (text 2).scan (.start [0xFF, 0xFE]) = .error (.invalidText 0) next ∧
    (Cursor.start [0xFF, 0xFE]).position = 0 ∧ next.position = 2 :=
  ⟨_, rfl, rfl, rfl⟩

end Reading

end TypeAtlas.Wire
