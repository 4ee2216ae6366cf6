/-
  How many bytes a read takes.

  A read that succeeds leaves as many bytes as were left before, less those that it
  took.

  * `remaining_of_take`, `remaining_of_number`, …: what each read of a number or a
    text takes, and the bound of what it yields;
  * `check_run_eq_ok`, `room_run`: a check in the middle of a chain that succeeds
    was passed.
-/
import TypeAtlas.Proofs.Wire.Persists
import TypeAtlas.Proofs.Wire.Reads

namespace TypeAtlas.Wire

variable {ε σ α β : Type}

/-! ## Steps of a computation -/

theorem pure_run_eq_ok {state next : σ} {a b : α} :
    (pure a : EStateM ε σ α) state = .ok b next ↔ a = b ∧ state = next := by
  show EStateM.Result.ok a state = .ok b next ↔ _
  rw [EStateM.Result.ok.injEq]

theorem check_run_eq_ok {c : Prop} [Decidable c] {e : ε} {k : Unit → EStateM ε σ α}
    {state next : σ} {a : α} :
    (if c then throw e >>= k else k ()) state = .ok a next ↔ ¬ c ∧ k () state = .ok a next := by
  by_cases hc : c
  · rw [if_pos hc]
    constructor
    · rintro ⟨⟩
    · exact fun h => absurd hc h.1
  · rw [if_neg hc]
    exact ⟨fun h => ⟨hc, h⟩, fun h => h.2⟩

/-- A check of the bytes that are left, in a chain that succeeds. -/
theorem room_run {guarded : Bool} {needed : Nat} (refusal : Nat → ε)
    {k : Unit → EStateM ε Cursor α} {cursor next : Cursor} {a : α}
    (h : (get >>= fun cursor : Cursor =>
      if guarded && cursor.remaining < needed then throw (refusal cursor.remaining) >>= k
      else k ()) cursor = .ok a next) : k () cursor = .ok a next := by
  obtain ⟨_, _, ⟨⟩, h⟩ := bind_run_eq_ok.1 h
  exact (check_run_eq_ok.1 h).2

/-! ## Numbers and texts -/

variable {cursor next : Cursor}

theorem remaining_of_take {k : Nat} {bytes : List UInt8}
    (h : Scan.take k cursor = .ok bytes next) :
    k + next.remaining = cursor.remaining ∧ bytes.length = k := by
  unfold Scan.take at h
  split at h
  · next hroom =>
    cases h
    rw [cursor.remaining_eq] at hroom
    refine ⟨?_, List.length_take_of_le hroom⟩
    simp only [Cursor.advance, cursor.remaining_eq]
    omega
  · cases h

theorem remaining_of_nat {k n : Nat} (h : Scan.nat k cursor = .ok n next) :
    k + next.remaining = cursor.remaining ∧ n < capacity k := by
  obtain ⟨bytes, hbytes, rfl⟩ := map_run_eq_ok.1 h
  obtain ⟨hremaining, rfl⟩ := remaining_of_take hbytes
  exact ⟨hremaining, ofBytes_lt bytes⟩

theorem remaining_of_byte {b : UInt8} (h : Scan.byte cursor = .ok b next) :
    1 + next.remaining = cursor.remaining := by
  obtain ⟨n, hn, -⟩ := map_run_eq_ok.1 h
  exact (remaining_of_nat hn).1

theorem remaining_of_number {width : Width} {n : Nat}
    (h : Scan.number width cursor = .ok n next) :
    width.size + next.remaining = cursor.remaining ∧ n < capacity width.size :=
  remaining_of_nat h

/-- A value that is made of a number takes the bytes of the number. -/
theorem remaining_of_map_nat {k : Nat} {f : Nat → α} {a : α}
    (h : (f <$> Scan.nat k) cursor = .ok a next) : k + next.remaining = cursor.remaining := by
  obtain ⟨n, hn, -⟩ := map_run_eq_ok.1 h
  exact (remaining_of_nat hn).1

/-- A text is as long as the bytes that it is made of. -/
theorem remaining_of_text {k : Nat} {s : String} (h : Scan.text k cursor = .ok s next) :
    k + next.remaining = cursor.remaining ∧ s.utf8ByteSize = k := by
  unfold Scan.text at h
  obtain ⟨_, _, ⟨⟩, h⟩ := bind_run_eq_ok.1 h
  obtain ⟨bytes, middle, hbytes, h⟩ := bind_run_eq_ok.1 h
  obtain ⟨hremaining, hlength⟩ := remaining_of_take hbytes
  cases hs : bytesText? bytes with
  | none =>
    simp only [hs] at h
    cases h
  | some found =>
    simp only [hs] at h
    cases h
    rw [bytesText?_eq_some_iff.1 hs, length_textBytes] at hlength
    exact ⟨hremaining, hlength⟩

end TypeAtlas.Wire
