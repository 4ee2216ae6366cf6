/-
  Numbers as bytes.

  A number is written in a given count of bytes, least significant first.

  * `toBytes k n` has `k` bytes and drops what does not fit (`length_toBytes`);
  * `ofBytes` reads them back: `ofBytes_toBytes` up to the digits that were
    dropped, `toBytes_ofBytes` exactly;
  * `textBytes` is the UTF-8 encoding of a text, `bytesText?` its inverse
    (`bytesText?_eq_some_iff`).
-/

namespace TypeAtlas.Wire

/-- How many numbers there are of `k` bytes. -/
def capacity : Nat → Nat
  | 0 => 1
  | k + 1 => 256 * capacity k

/-- The lowest `k` bytes of a number, least significant first. -/
def toBytes : Nat → Nat → List UInt8
  | 0, _ => []
  | k + 1, n => UInt8.ofNat n :: toBytes k (n / 256)

/-- The number of a list of bytes, least significant first. -/
def ofBytes : List UInt8 → Nat
  | [] => 0
  | b :: rest => b.toNat + 256 * ofBytes rest

@[simp] theorem length_toBytes (k n : Nat) : (toBytes k n).length = k := by
  induction k generalizing n with
  | zero => rfl
  | succ k ih => simp [toBytes, ih]

theorem ofBytes_toBytes (k n : Nat) : ofBytes (toBytes k n) = n % capacity k := by
  induction k generalizing n with
  | zero => simp [toBytes, ofBytes, capacity, Nat.mod_one]
  | succ k ih =>
    simp only [toBytes, ofBytes, ih, UInt8.toNat_ofNat']
    rw [capacity, Nat.mod_mul]

theorem toBytes_ofBytes (bytes : List UInt8) :
    toBytes bytes.length (ofBytes bytes) = bytes := by
  induction bytes with
  | nil => rfl
  | cons b rest ih =>
    have hb : b.toNat < 256 := b.toNat_lt
    have hd : (b.toNat + 256 * ofBytes rest) / 256 = ofBytes rest := by omega
    simp only [List.length_cons, toBytes, ofBytes, hd, ih]
    congr 1
    apply UInt8.toNat_inj.1
    simp only [UInt8.toNat_ofNat']
    omega

theorem ofBytes_lt (bytes : List UInt8) : ofBytes bytes < capacity bytes.length := by
  induction bytes with
  | nil => simp [ofBytes, capacity]
  | cons b rest ih =>
    have hb : b.toNat < 256 := b.toNat_lt
    simp only [ofBytes, List.length_cons, capacity]
    omega

/-! ## Texts -/

/-- The UTF-8 encoding of a text. -/
def textBytes (s : String) : List UInt8 := s.toUTF8.data.toList

/-- The text that a list of bytes encodes in UTF-8. -/
def bytesText? (bytes : List UInt8) : Option String := String.fromUTF8? ⟨bytes.toArray⟩

theorem bytesText?_eq_some_iff {bytes : List UInt8} {s : String} :
    bytesText? bytes = some s ↔ bytes = textBytes s := by
  unfold bytesText? textBytes String.fromUTF8?
  constructor
  · intro h
    split at h
    · simp only [Option.some.injEq] at h
      subst h
      rfl
    · simp at h
  · rintro rfl
    have hv : (⟨s.toUTF8.data.toList.toArray⟩ : ByteArray) = s.toByteArray := rfl
    have : (⟨s.toUTF8.data.toList.toArray⟩ : ByteArray).IsValidUTF8 := hv ▸ s.isValidUTF8
    rw [dif_pos this]
    rfl

theorem bytesText?_textBytes (s : String) : bytesText? (textBytes s) = some s :=
  bytesText?_eq_some_iff.2 rfl

end TypeAtlas.Wire
