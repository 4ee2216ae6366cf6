/-
  Base64, written and read back.

  * `decodeBlock_digits`: a block of digits, filled up with padding, is read as
    the bytes that the digits join to;
  * `decode_encode`: what is written of a list of bytes is read as these bytes.
-/
import TypeAtlas.Text.Base64

namespace TypeAtlas.Text.Base64

/-! ## Digits -/

/-- The byte of a digit's character. -/
def digitByte (n : Nat) : UInt8 := UInt8.ofNat (digit n).toNat

/-- A digit is written as one byte, which is not the padding and is read back. -/
theorem digit_spec : ∀ n : Fin 64, String.utf8EncodeChar (digit n) = [digitByte n] ∧
    digit? (digitByte n) = some n.val ∧ digitByte n ≠ pad := by
  decide +kernel

theorem utf8EncodeChar_digit {n : Nat} (h : n < 64) :
    String.utf8EncodeChar (digit n) = [digitByte n] := (digit_spec ⟨n, h⟩).1

theorem digit?_digitByte {n : Nat} (h : n < 64) : digit? (digitByte n) = some n :=
  (digit_spec ⟨n, h⟩).2.1

theorem digitByte_ne_pad {n : Nat} (h : n < 64) : digitByte n ≠ pad :=
  (digit_spec ⟨n, h⟩).2.2

theorem utf8EncodeChar_pad : String.utf8EncodeChar '=' = [pad] := by decide +kernel

/-! ## Blocks -/

theorem readDigits_map {digits : List Nat} (h : ∀ n ∈ digits, n < 64) (offset : Nat) :
    readDigits offset (digits.map digitByte) = .ok digits := by
  induction digits generalizing offset with
  | nil => rfl
  | cons n rest ih =>
    obtain ⟨hn, hrest⟩ := List.forall_mem_cons.1 h
    rw [List.map_cons, readDigits, digit?_digitByte hn]
    simp only [ih hrest, Except.map]

/-- Padding is taken off behind digits, and only there. -/
theorem stripPadding_digits {digits : List Nat} (h : ∀ n ∈ digits, n < 64) (k : Nat) :
    stripPadding (digits.map digitByte ++ List.replicate k pad) = digits.map digitByte := by
  have hkeep : (digits.map digitByte).reverse.dropWhile (· == pad) =
      (digits.map digitByte).reverse := by
    cases hcase : (digits.map digitByte).reverse with
    | nil => rfl
    | cons b rest =>
      have hb : b ∈ digits.map digitByte := by
        rw [← List.mem_reverse, hcase]
        exact List.mem_cons_self
      obtain ⟨n, hn, rfl⟩ := List.mem_map.1 hb
      exact List.dropWhile_cons_of_neg (by simpa using digitByte_ne_pad (h n hn))
  rw [stripPadding, List.reverse_append, List.reverse_replicate, List.dropWhile_append_of_pos]
  · rw [hkeep, List.reverse_reverse]
  · intro b hb
    simp [List.eq_of_mem_replicate hb]

theorem decodeBlock_digits {digits : List Nat} (h : ∀ n ∈ digits, n < 64)
    (hlength : 2 ≤ digits.length) (offset k : Nat) :
    decodeBlock offset (digits.map digitByte ++ List.replicate k pad) =
      joinDigits offset digits := by
  have hbody : ¬ (digits.map digitByte).length < 2 := by
    rw [List.length_map]
    omega
  simp only [decodeBlock, stripPadding_digits h, readDigits_map h, if_neg hbody]
  rfl

/-! ## Groups of bytes -/

/-- Four digits for three bytes. -/
theorem joinDigits_three (a b c : UInt8) (offset : Nat) :
    let n := a.toNat * 65536 + b.toNat * 256 + c.toNat
    joinDigits offset [n / 262144, n / 4096 % 64, n / 64 % 64, n % 64] = .ok [a, b, c] := by
  intro n
  have hb := b.toNat_lt
  have hc := c.toNat_lt
  have hn : n / 262144 * 262144 + n / 4096 % 64 * 4096 + n / 64 % 64 * 64 + n % 64 = n := by
    omega
  have hhigh : n / 65536 = a.toNat := by omega
  have hmiddle : UInt8.ofNat (n / 256) = b := by
    rw [← UInt8.toNat_inj, UInt8.toNat_ofNat']
    omega
  have hlow : UInt8.ofNat n = c := by
    rw [← UInt8.toNat_inj, UInt8.toNat_ofNat']
    omega
  simp only [joinDigits, hn, hhigh, hmiddle, hlow, UInt8.ofNat_toNat]

/-- Three digits for two bytes; the last two bits are zero. -/
theorem joinDigits_two (a b : UInt8) (offset : Nat) :
    let n := a.toNat * 1024 + b.toNat * 4
    joinDigits offset [n / 4096, n / 64 % 64, n % 64] = .ok [a, b] := by
  intro n
  have hb := b.toNat_lt
  have hn : n / 4096 * 4096 + n / 64 % 64 * 64 + n % 64 = n := by omega
  have hzero : n % 64 % 4 = 0 := by omega
  have hhigh : n / 1024 = a.toNat := by omega
  have hlow : UInt8.ofNat (n / 4) = b := by
    rw [← UInt8.toNat_inj, UInt8.toNat_ofNat']
    omega
  simp only [joinDigits, hn, hhigh, hlow, if_pos hzero, UInt8.ofNat_toNat]

/-- Two digits for one byte; the last four bits are zero. -/
theorem joinDigits_one (a : UInt8) (offset : Nat) :
    let n := a.toNat * 16
    joinDigits offset [n / 64, n % 64] = .ok [a] := by
  intro n
  have hn : n / 64 * 64 + n % 64 = n := by omega
  have hzero : n % 64 % 16 = 0 := by omega
  have hhigh : n / 16 = a.toNat := by omega
  simp only [joinDigits, hn, hhigh, if_pos hzero, UInt8.ofNat_toNat]

/-! ## Texts -/

theorem toUTF8_ofList (cs : List Char) :
    (String.ofList cs).toUTF8.data.toList = cs.flatMap String.utf8EncodeChar := by
  simp [String.toUTF8, List.utf8Encode]

/-- Digits, the padding behind them and what follows, as bytes. -/
theorem flatMap_group {digits : List Nat} (h : ∀ n ∈ digits, n < 64) (k : Nat) (cs : List Char) :
    (digits.map digit ++ List.replicate k '=' ++ cs).flatMap String.utf8EncodeChar =
      digits.map digitByte ++ List.replicate k pad ++ cs.flatMap String.utf8EncodeChar := by
  have hdigits : (digits.map digit).flatMap String.utf8EncodeChar = digits.map digitByte := by
    induction digits with
    | nil => rfl
    | cons n rest ih =>
      obtain ⟨hn, hrest⟩ := List.forall_mem_cons.1 h
      rw [List.map_cons, List.flatMap_cons, utf8EncodeChar_digit hn, ih hrest]
      rfl
  have hpad : (List.replicate k '=').flatMap String.utf8EncodeChar = List.replicate k pad := by
    induction k with
    | zero => rfl
    | succ k ih =>
      rw [List.replicate_succ, List.flatMap_cons, utf8EncodeChar_pad, ih]
      rfl
  rw [List.flatMap_append, List.flatMap_append, hdigits, hpad]

/-- A block of digits and padding is read as the bytes that the digits join to, and
    reading goes on behind it. -/
theorem decodeBlocks_group {digits : List Nat} (h : ∀ n ∈ digits, n < 64) {k : Nat}
    (hlength : 2 ≤ digits.length) (hblock : digits.length + k = 4) {offset : Nat}
    {bytes : List UInt8} (hjoin : joinDigits offset digits = .ok bytes) (cs : List Char)
    (hcs : (cs.flatMap String.utf8EncodeChar).length % 4 = 0) (done : List UInt8) :
    let text := (digits.map digit ++ List.replicate k '=' ++ cs).flatMap String.utf8EncodeChar
    text.length % 4 = 0 ∧ decodeBlocks offset done text =
      decodeBlocks (offset + 4) (bytes.reverse ++ done) (cs.flatMap String.utf8EncodeChar) := by
  have hread := decodeBlock_digits h hlength offset k
  have hfour : (digits.map digitByte ++ List.replicate k pad).length = 4 := by simpa using hblock
  simp only [flatMap_group h]
  generalize digits.map digitByte ++ List.replicate k pad = block at hread hfour
  match block, hfour with
  | [x, y, z, w], _ =>
    refine ⟨?_, ?_⟩
    · simp only [List.length_append, List.length_cons, List.length_nil]
      omega
    · simp only [List.cons_append, List.nil_append, decodeBlocks, hread, hjoin]
      rfl

/-- What is written comes in blocks of four, and its blocks are read as the bytes. -/
theorem decodeBlocks_encodeChars (bytes : List UInt8) (offset : Nat) (done : List UInt8) :
    let text := (encodeChars bytes).flatMap String.utf8EncodeChar
    text.length % 4 = 0 ∧ decodeBlocks offset done text = .ok (done.reverse ++ bytes) := by
  induction bytes using encodeChars.induct generalizing offset done with
  | case1 a b c rest ih =>
    have ha := a.toNat_lt
    have hb := b.toNat_lt
    have hc := c.toNat_lt
    have hjoin := joinDigits_three a b c offset
    obtain ⟨hcs, hrest⟩ := ih (offset + 4) ([a, b, c].reverse ++ done)
    simp only [encodeChars]
    generalize hn : a.toNat * 65536 + b.toNat * 256 + c.toNat = n at hjoin
    have hdigits : ∀ d ∈ [n / 262144, n / 4096 % 64, n / 64 % 64, n % 64], d < 64 := by
      simp only [List.forall_mem_cons, List.not_mem_nil, false_implies, implies_true, and_true]
      omega
    obtain ⟨hlength, hread⟩ := decodeBlocks_group hdigits (k := 0) (by simp) rfl hjoin _ hcs done
    refine ⟨hlength, hread.trans (hrest.trans ?_)⟩
    simp
  | case2 a b =>
    have ha := a.toNat_lt
    have hb := b.toNat_lt
    have hjoin := joinDigits_two a b offset
    simp only [encodeChars]
    generalize hn : a.toNat * 1024 + b.toNat * 4 = n at hjoin
    have hdigits : ∀ d ∈ [n / 4096, n / 64 % 64, n % 64], d < 64 := by
      simp only [List.forall_mem_cons, List.not_mem_nil, false_implies, implies_true, and_true]
      omega
    obtain ⟨hlength, hread⟩ :=
      decodeBlocks_group hdigits (k := 1) (by simp) rfl hjoin [] rfl done
    refine ⟨hlength, hread.trans ?_⟩
    simp [decodeBlocks]
  | case3 a =>
    have ha := a.toNat_lt
    have hjoin := joinDigits_one a offset
    simp only [encodeChars]
    generalize hn : a.toNat * 16 = n at hjoin
    have hdigits : ∀ d ∈ [n / 64, n % 64], d < 64 := by
      simp only [List.forall_mem_cons, List.not_mem_nil, false_implies, implies_true, and_true]
      omega
    obtain ⟨hlength, hread⟩ :=
      decodeBlocks_group hdigits (k := 2) (by simp) rfl hjoin [] rfl done
    refine ⟨hlength, hread.trans ?_⟩
    simp [decodeBlocks]
  | case4 => exact ⟨rfl, by simp [encodeChars, decodeBlocks]⟩

/-- **What is written of bytes is read as these bytes.** -/
theorem decode_encode (bytes : List UInt8) : decode (encode bytes) = .ok bytes := by
  obtain ⟨hlength, hblocks⟩ := decodeBlocks_encodeChars bytes 0 []
  simp only [decode, encode, toUTF8_ofList, if_pos hlength, hblocks]
  rfl

end TypeAtlas.Text.Base64
