/-
  Reading what was written.

  `Reads read bytes a` says that `read`, started in front of `bytes`, yields `a`
  and stops right behind them, whatever stands before and after.

  * `Reads.between` says so of a cursor inside a buffer;
  * `Reads.bind` joins two such reads, `Reads.remaining` lets the second depend
    on how many bytes are left, which are at least those that it reads;
  * `Reads.number`, `Reads.int32`, …, `Reads.text` undo the writers of numbers
    and texts; a number must fit the width that it is written in.
-/
import TypeAtlas.Wire.Cursor

namespace TypeAtlas.Wire

/-- `read` takes exactly `bytes`, wherever they stand, and makes `a` of them. -/
def Reads {ε α : Type} (read : EStateM ε Cursor α) (bytes : List UInt8) (a : α) : Prop :=
  ∀ (position : Nat) (rest : List UInt8),
    read (.at_ position (bytes ++ rest)) = .ok a (.at_ (position + bytes.length) rest)

@[simp] theorem length_textBytes (s : String) : (textBytes s).length = s.utf8ByteSize := by
  simp [textBytes, String.toUTF8]

@[simp] theorem length_putNumber (width : Width) (n : Nat) :
    (putNumber width n).length = width.size := by
  simp [putNumber]

namespace Reads

variable {ε ε' α β : Type} {xs ys : List UInt8} {a : α} {b : β}

/-! ## Chains of reads -/

theorem of_eq {read : EStateM ε Cursor α} (h : Reads read xs a) (e : xs = ys) :
    Reads read ys a := e ▸ h

protected theorem pure (a : α) : Reads (pure a : EStateM ε Cursor α) [] a :=
  fun _ _ => rfl

/-- A chain goes on right behind what its first read took. -/
theorem bind_at {m : EStateM ε Cursor α} (hm : Reads m xs a) (f : α → EStateM ε Cursor β)
    (position : Nat) (rest : List UInt8) :
    (m >>= f) (.at_ position (xs ++ rest)) = f a (.at_ (position + xs.length) rest) := by
  show EStateM.bind m f _ = _
  rw [EStateM.bind, hm position rest]

protected theorem bind {m : EStateM ε Cursor α} {f : α → EStateM ε Cursor β}
    (hm : Reads m xs a) (hf : Reads (f a) ys b) : Reads (m >>= f) (xs ++ ys) b := by
  intro position rest
  rw [List.append_assoc, hm.bind_at, hf, List.length_append, Nat.add_assoc]

/-- A read of one byte at the front. -/
protected theorem cons {m : EStateM ε Cursor α} {f : α → EStateM ε Cursor β} {x : UInt8}
    (hm : Reads m [x] a) (hf : Reads (f a) ys b) : Reads (m >>= f) (x :: ys) b := hm.bind hf

protected theorem map {m : EStateM ε Cursor α} {f : α → β} (hm : Reads m xs a)
    (hf : f a = b) : Reads (f <$> m) xs b := by
  intro position rest
  show EStateM.map f m _ = _
  rw [EStateM.map, hm position rest, ← hf]

/-- The last read of a chain in front of what takes no bytes. -/
theorem ending {m : EStateM ε Cursor α} {f : α → EStateM ε Cursor β} (hm : Reads m xs a)
    (hf : Reads (f a) [] b) : Reads (m >>= f) xs b :=
  (hm.bind hf).of_eq (List.append_nil xs)

/-- The last read of a chain, and what the chain makes of it. -/
theorem last {m : EStateM ε Cursor α} {f : α → β} (hm : Reads m xs a) :
    Reads (m >>= fun x => pure (f x)) xs (f a) :=
  hm.ending (Reads.pure (f a))

/-- A check that is passed. -/
theorem passing {c : Prop} [Decidable c] {refusal : EStateM ε Cursor Unit}
    {k : Unit → EStateM ε Cursor α} (hc : ¬ c) (h : Reads (k ()) xs a) :
    Reads (if c then refusal >>= k else k ()) xs a := by
  rwa [if_neg hc]

/-- A read may depend on the cursor, in front of which are no fewer bytes than it reads. -/
theorem remaining {k : Cursor → EStateM ε Cursor α}
    (h : ∀ cursor, xs.length ≤ cursor.remaining → Reads (k cursor) xs a) :
    Reads (get >>= k) xs a := by
  intro position rest
  refine h _ ?_ position rest
  simp [Cursor.at_]

/-- A read somewhere in a list of bytes. -/
theorem between {read : EStateM ε Cursor α} (h : Reads read xs a) (front back : List UInt8) :
    read ((Cursor.start (front ++ xs ++ back)).advance front.length) =
      .ok a ((Cursor.start (front ++ xs ++ back)).advance (front.length + xs.length)) := by
  have hplace : (Cursor.start (front ++ xs ++ back)).advance front.length =
      .at_ front.length (xs ++ back) := by
    apply Cursor.ext <;> simp [Cursor.start, Cursor.advance, Cursor.at_]
  have hend : (Cursor.start (front ++ xs ++ back)).advance (front.length + xs.length) =
      .at_ (front.length + xs.length) back := by
    apply Cursor.ext <;> simp [Cursor.start, Cursor.advance, Cursor.at_, ← List.drop_drop]
  rw [hplace, hend, h front.length back]

protected theorem adapt {read : EStateM ε Cursor α} (h : Reads read xs a) (f : ε → ε') :
    Reads (read.adaptExcept f) xs a := by
  intro position rest
  rw [EStateM.adaptExcept, h position rest]

/-! ## Numbers -/

theorem take (bytes : List UInt8) : Reads (Scan.take bytes.length) bytes bytes :=
  fun position rest => Scan.take_append position bytes rest

theorem nat {k n : Nat} (h : n < capacity k) : Reads (Scan.nat k) (toBytes k n) n := by
  have hread := take (toBytes k n)
  rw [length_toBytes] at hread
  exact hread.map (by rw [ofBytes_toBytes, Nat.mod_eq_of_lt h])

theorem byte (b : UInt8) : Reads Scan.byte [b] b :=
  ((nat (k := 1) b.toNat_lt).map (by simp)).of_eq (by simp [toBytes])

theorem number {width : Width} {n : Nat} (h : n < capacity width.size) :
    Reads (Scan.number width) (putNumber width n) n := nat h

theorem int32 (n : Int32) : Reads Scan.int32 (putInt32 n) n :=
  (nat (k := 4) n.toUInt32.toNat_lt).map (by simp)

theorem int64 (n : Int64) : Reads Scan.int64 (putInt64 n) n :=
  (nat (k := 8) n.toUInt64.toNat_lt).map (by simp)

theorem float32 (x : Binary32) : Reads Scan.float32 (putFloat32 x) x :=
  (nat (k := 4) x.bits.toNat_lt).map (by simp)

theorem float64 (x : Binary64) : Reads Scan.float64 (putFloat64 x) x :=
  (nat (k := 8) x.bits.toNat_lt).map (by simp)

/-! ## Texts -/

theorem text (s : String) : Reads (Scan.text s.utf8ByteSize) (textBytes s) s := by
  have hread := take (textBytes s)
  rw [length_textBytes] at hread
  intro position rest
  show EStateM.bind (Scan.take s.utf8ByteSize) _ _ = _
  rw [EStateM.bind, hread position rest]
  simp only [bytesText?_textBytes]
  rfl

end Reads

end TypeAtlas.Wire
