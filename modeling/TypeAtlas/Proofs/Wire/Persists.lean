/-
  Reading with more bytes behind.

  `Persists read` says that `read` does not depend on what stands behind the bytes
  that it takes: where it succeeds, it yields the same and stops at the same place
  when more bytes follow.  A failure may well turn into a success.

  * `Persists.bind`, `Persists.ite`: chains and branches of such reads;
  * `Persists.room`: a check that enough bytes are left is passed again when more
    are left;
  * `Persists.take` and the reads of numbers and texts that are made from it.
-/
import TypeAtlas.Wire.Cursor

namespace TypeAtlas.Wire

/-- The cursor with more bytes behind those that follow it. -/
def Cursor.widen (cursor : Cursor) (more : List UInt8) : Cursor :=
  .at_ cursor.position (cursor.rest ++ more)

/-- A success of `read` is the same when more bytes follow. -/
def Persists {ε α : Type} (read : EStateM ε Cursor α) : Prop :=
  ∀ ⦃cursor next : Cursor⦄ ⦃a : α⦄, read cursor = .ok a next →
    ∀ more, read (cursor.widen more) = .ok a (next.widen more)

@[simp] theorem Cursor.remaining_widen (cursor : Cursor) (more : List UInt8) :
    (cursor.widen more).remaining = cursor.remaining + more.length := by
  simp [widen, at_, cursor.remaining_eq]

/-! ## Steps of a computation -/

section

variable {ε σ α β : Type} {state next : σ} {b : β}

/-- A chain succeeds if and only if both of its steps do. -/
theorem bind_run_eq_ok {m : EStateM ε σ α} {f : α → EStateM ε σ β} :
    (m >>= f) state = .ok b next ↔
      ∃ a middle, m state = .ok a middle ∧ f a middle = .ok b next := by
  show EStateM.bind m f state = _ ↔ _
  rw [EStateM.bind]
  cases m state with
  | error e middle => simp
  | ok a middle =>
    constructor
    · exact fun h => ⟨a, middle, rfl, h⟩
    · rintro ⟨_, _, ⟨⟩, h⟩
      exact h

theorem map_run_eq_ok {m : EStateM ε σ α} {f : α → β} :
    (f <$> m) state = .ok b next ↔ ∃ a, m state = .ok a next ∧ f a = b := by
  show EStateM.map f m state = _ ↔ _
  rw [EStateM.map]
  cases m state with
  | error e middle => simp
  | ok a middle =>
    constructor
    · rintro ⟨⟩
      exact ⟨a, rfl, rfl⟩
    · rintro ⟨_, ⟨⟩, rfl⟩
      rfl

theorem adaptExcept_run_eq_ok {ε' : Type} {m : EStateM ε σ β} {f : ε → ε'} :
    m.adaptExcept f state = .ok b next ↔ m state = .ok b next := by
  rw [EStateM.adaptExcept]
  cases m state <;> simp

end

namespace Persists

variable {ε ε' α β : Type}

/-! ## Chains and branches -/

protected theorem pure (a : α) : Persists (pure a : EStateM ε Cursor α) := by
  rintro cursor next b ⟨⟩ more
  rfl

protected theorem throw (e : ε) : Persists (throw e : EStateM ε Cursor α) := by
  rintro cursor next a ⟨⟩

protected theorem bind {m : EStateM ε Cursor α} {f : α → EStateM ε Cursor β}
    (hm : Persists m) (hf : ∀ a, Persists (f a)) : Persists (m >>= f) := by
  intro cursor next b h more
  obtain ⟨a, middle, hfirst, hsecond⟩ := bind_run_eq_ok.1 h
  exact bind_run_eq_ok.2 ⟨a, middle.widen more, hm hfirst more, hf a hsecond more⟩

protected theorem map {m : EStateM ε Cursor α} (f : α → β) (hm : Persists m) :
    Persists (f <$> m) := by
  intro cursor next b h more
  obtain ⟨a, hrun, rfl⟩ := map_run_eq_ok.1 h
  exact map_run_eq_ok.2 ⟨a, hm hrun more, rfl⟩

protected theorem adapt {m : EStateM ε Cursor α} (hm : Persists m) (f : ε → ε') :
    Persists (m.adaptExcept f) := by
  intro cursor next a h more
  exact adaptExcept_run_eq_ok.2 (hm (adaptExcept_run_eq_ok.1 h) more)

protected theorem ite {c : Prop} [Decidable c] {m n : EStateM ε Cursor α} (hm : Persists m)
    (hn : Persists n) : Persists (if c then m else n) := by
  split
  · exact hm
  · exact hn

/-- A check whose refusal goes nowhere. -/
theorem check {c : Prop} [Decidable c] (e : ε) {k : Unit → EStateM ε Cursor α}
    (hk : Persists (k ())) :
    Persists (if c then throw e >>= k else k ()) :=
  .ite (fun _ _ _ h => by cases h) hk

/-- A check that the bytes that are left suffice; what goes on behind it does not look at
    their number. -/
theorem room {guarded : Bool} {needed : Nat} (refusal : Nat → ε)
    {k : Unit → EStateM ε Cursor α} (hk : Persists (k ())) :
    Persists (get >>= fun cursor : Cursor =>
      if guarded && cursor.remaining < needed then throw (refusal cursor.remaining) >>= k
      else k ()) := by
  intro cursor next a h more
  obtain ⟨_, _, ⟨⟩, hrest⟩ := bind_run_eq_ok.1 h
  refine bind_run_eq_ok.2 ⟨cursor.widen more, cursor.widen more, rfl, ?_⟩
  by_cases hshort : (guarded && decide (cursor.remaining < needed)) = true
  · rw [if_pos hshort] at hrest
    cases hrest
  · rw [if_neg hshort] at hrest
    rw [if_neg]
    · exact hk hrest more
    · simp only [Bool.and_eq_true, decide_eq_true_eq, Cursor.remaining_widen, not_and] at hshort ⊢
      intro hguarded
      have := hshort hguarded
      omega

/-! ## Numbers and texts -/

protected theorem take (k : Nat) : Persists (Scan.take k) := by
  intro cursor next bytes h more
  unfold Scan.take at h ⊢
  split at h
  · next hroom =>
    cases h
    rw [if_pos (by rw [Cursor.remaining_widen]; omega)]
    rw [cursor.remaining_eq] at hroom
    congr 1
    · simp [Cursor.widen, Cursor.at_, List.take_append_of_le_length hroom]
    · apply Cursor.ext
      · rfl
      · simp [Cursor.widen, Cursor.at_, Cursor.advance, List.drop_append_of_le_length hroom]
  · cases h

protected theorem nat (k : Nat) : Persists (Scan.nat k) := (Persists.take k).map _

protected theorem byte : Persists Scan.byte := (Persists.nat 1).map _

protected theorem number (width : Width) : Persists (Scan.number width) := .nat width.size

protected theorem int32 : Persists Scan.int32 := (Persists.nat 4).map _

protected theorem int64 : Persists Scan.int64 := (Persists.nat 8).map _

protected theorem float32 : Persists Scan.float32 := (Persists.nat 4).map _

protected theorem float64 : Persists Scan.float64 := (Persists.nat 8).map _

/-- Only the refusal of a text looks at the position, and that does not change. -/
protected theorem text (k : Nat) : Persists (Scan.text k) := by
  intro cursor next s h more
  unfold Scan.text at h ⊢
  obtain ⟨_, _, ⟨⟩, hread⟩ := bind_run_eq_ok.1 h
  refine bind_run_eq_ok.2 ⟨cursor.widen more, cursor.widen more, rfl, ?_⟩
  refine Persists.bind (.take k) (fun bytes => ?_) hread more
  cases bytesText? bytes with
  | some s => exact .pure s
  | none => exact .throw _

end Persists

end TypeAtlas.Wire
