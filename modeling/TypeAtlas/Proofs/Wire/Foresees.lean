/-
  Reads that refuse early.

  A guarded read compares what it is told with the bytes that are left, and refuses at
  once what the plain read would come to refuse.  `Foresees early k guarded plain` says
  that both succeed with the same, behind at least `k` bytes, or both fail; if not in the
  same way, then the guarded read fails as `early` says, not behind the place where the
  plain read fails.

  * `Foresees.bind`, `Foresees.head`, `Foresees.check`: chains and checks of such reads;
  * `Foresees.room`: a check that enough bytes are left refuses only what cannot be read,
    if what is read behind it takes that many bytes;
  * `Foresees.take` and the reads of numbers and texts that are made from it.
-/
import TypeAtlas.Wire.Cursor

namespace TypeAtlas.Wire

/-! ## Places among bytes -/

/-- A cursor among the same bytes, at least `k` bytes further on. -/
structure Cursor.Ahead (k : Nat) (cursor next : Cursor) : Prop where
  position_le : cursor.position + k ≤ next.position
  /-- The end is where it was. -/
  end_eq : next.position + next.remaining = cursor.position + cursor.remaining

namespace Cursor.Ahead

variable {j k : Nat} {cursor middle next : Cursor}

theorem refl (cursor : Cursor) : cursor.Ahead 0 cursor := ⟨Nat.le_refl _, rfl⟩

theorem trans (h : cursor.Ahead j middle) (h' : middle.Ahead k next) :
    cursor.Ahead (j + k) next := by
  obtain ⟨hplace, hend⟩ := h
  obtain ⟨hplace', hend'⟩ := h'
  exact ⟨by omega, hend'.trans hend⟩

theorem mono (h : cursor.Ahead k next) (hle : j ≤ k) : cursor.Ahead j next :=
  ⟨Nat.le_trans (Nat.add_le_add_left hle _) h.position_le, h.end_eq⟩

/-- No more bytes are taken than were left. -/
theorem le_remaining (h : cursor.Ahead k next) : k ≤ cursor.remaining := by
  obtain ⟨hplace, hend⟩ := h
  omega

theorem advance (hroom : k ≤ cursor.remaining) : cursor.Ahead k (cursor.advance k) := by
  refine ⟨Nat.le_refl _, ?_⟩
  simp only [Cursor.advance]
  omega

end Cursor.Ahead

/-! ## Two reads -/

section

variable {ε α : Type} (early : ε → Prop)

/-- What a guarded and a plain read come to. -/
inductive Foreseen (k : Nat) (cursor : Cursor) :
    EStateM.Result ε Cursor α → EStateM.Result ε Cursor α → Prop where
  | ok {a : α} {next : Cursor} (h : cursor.Ahead k next) :
    Foreseen k cursor (.ok a next) (.ok a next)
  | error {e : ε} {next : Cursor} (he : ¬ early e) (h : cursor.Ahead 0 next) :
    Foreseen k cursor (.error e next) (.error e next)
  /-- The guarded read knows of the failure before. -/
  | early {e e' : ε} {next next' : Cursor} (he : early e) (he' : ¬ early e')
    (h : cursor.Ahead 0 next) (h' : next.Ahead 0 next') :
    Foreseen k cursor (.error e next) (.error e' next')

/-- The guarded read only fails where the plain read does, maybe earlier; both take at least `k`
    bytes if they succeed. -/
def Foresees (k : Nat) (guarded plain : EStateM ε Cursor α) : Prop :=
  ∀ cursor, Foreseen early k cursor (guarded cursor) (plain cursor)

end

variable {ε ε' α β : Type} {early : ε → Prop} {j k : Nat}

/-- What comes behind the first `j` bytes. -/
theorem Foreseen.after {cursor middle : Cursor} {guarded plain : EStateM.Result ε Cursor α}
    (h : Foreseen early k middle guarded plain) (hahead : cursor.Ahead j middle) :
    Foreseen early (j + k) cursor guarded plain := by
  have hzero := hahead.mono (Nat.zero_le j)
  cases h with
  | ok h => exact .ok (hahead.trans h)
  | error he h => exact .error he (hzero.trans h)
  | early he he' h h' => exact .early he he' (hzero.trans h) h'

namespace Foresees

/-! ## Chains -/

protected theorem pure (a : α) : Foresees early 0 (pure a) (pure a) :=
  fun cursor => .ok (.refl cursor)

protected theorem throw {e : ε} (he : ¬ early e) :
    Foresees early k (throw e : EStateM ε Cursor α) (throw e) :=
  fun cursor => .error he (.refl cursor)

protected theorem get : Foresees early 0 (get : EStateM ε Cursor Cursor) get :=
  fun cursor => .ok (.refl cursor)

section

variable {guarded plain : EStateM ε Cursor α}

theorem mono (h : Foresees early k guarded plain) (hle : j ≤ k) :
    Foresees early j guarded plain := by
  intro cursor
  have hcursor := h cursor
  generalize guarded cursor = result, plain cursor = result' at hcursor ⊢
  cases hcursor with
  | ok h => exact .ok (h.mono hle)
  | error he h => exact .error he h
  | early he he' h h' => exact .early he he' h h'

protected theorem bind {next next' : α → EStateM ε Cursor β}
    (h : Foresees early j guarded plain) (hnext : ∀ a, Foresees early k (next a) (next' a)) :
    Foresees early (j + k) (guarded >>= next) (plain >>= next') := by
  intro cursor
  show Foreseen early (j + k) cursor (EStateM.bind guarded next cursor)
    (EStateM.bind plain next' cursor)
  have hcursor := h cursor
  unfold EStateM.bind
  generalize guarded cursor = result, plain cursor = result' at hcursor ⊢
  cases hcursor with
  | @ok a middle h => exact (hnext a middle).after h
  | error he h => exact .error he h
  | early he he' h h' => exact .early he he' h h'

theorem weak (h : Foresees early k guarded plain) : Foresees early 0 guarded plain :=
  h.mono (Nat.zero_le k)

/-- A chain takes at least what its first step takes. -/
theorem head {next next' : α → EStateM ε Cursor β} (h : Foresees early k guarded plain)
    (hnext : ∀ a, Foresees early 0 (next a) (next' a)) :
    Foresees early k (guarded >>= next) (plain >>= next') :=
  h.bind hnext

theorem andThen {next next' : α → EStateM ε Cursor β} (h : Foresees early k guarded plain)
    (hnext : ∀ a, Foresees early 0 (next a) (next' a)) :
    Foresees early 0 (guarded >>= next) (plain >>= next') :=
  (h.head hnext).weak

protected theorem map (f : α → β) (h : Foresees early k guarded plain) :
    Foresees early k (f <$> guarded) (f <$> plain) := by
  rw [map_eq_pure_bind, map_eq_pure_bind]
  exact h.head fun a => .pure (f a)

/-- Errors may be renamed if those that are early stay so, and no others become so. -/
protected theorem adapt (h : Foresees early k guarded plain) {early' : ε' → Prop} (f : ε → ε')
    (hf : ∀ e, early' (f e) ↔ early e) :
    Foresees early' k (guarded.adaptExcept f) (plain.adaptExcept f) := by
  intro cursor
  have hcursor := h cursor
  unfold EStateM.adaptExcept
  generalize guarded cursor = result, plain cursor = result' at hcursor ⊢
  cases hcursor with
  | ok h => exact .ok h
  | error he h => exact .error (mt (hf _).1 he) h
  | early he he' h h' => exact .early ((hf _).2 he) (mt (hf _).1 he') h h'

end

/-! ## Checks -/

section

variable {next next' : Unit → EStateM ε Cursor α}

protected theorem throw_bind {e : ε} (he : ¬ early e) {first first' : β → EStateM ε Cursor α} :
    Foresees early k (throw e >>= first) (throw e >>= first') :=
  fun cursor => .error he (.refl cursor)

/-- A check that both make. -/
theorem check {c : Prop} [Decidable c] {e : ε} (he : ¬ early e)
    (h : Foresees early k (next ()) (next' ())) :
    Foresees early k (if c then throw e >>= next else next ())
      (if c then throw e >>= next' else next' ()) := by
  by_cases hc : c
  · rw [if_pos hc, if_pos hc]
    exact .throw_bind he
  · rw [if_neg hc, if_neg hc]
    exact h

/-- **A check that enough bytes are left refuses only what cannot be read**, if what is read
    behind it takes at least the bytes that the check asks for. -/
theorem room {needed : Nat} (refusal : Nat → ε) (he : ∀ remaining, early (refusal remaining))
    (h : Foresees early needed (next ()) (next' ())) :
    Foresees early needed
      (get >>= fun cursor : Cursor =>
        if true && cursor.remaining < needed then throw (refusal cursor.remaining) >>= next
        else next ())
      (get >>= fun cursor : Cursor =>
        if false && cursor.remaining < needed then throw (refusal cursor.remaining) >>= next'
        else next' ()) := by
  intro cursor
  show Foreseen early needed cursor
    ((if true && cursor.remaining < needed then throw (refusal cursor.remaining) >>= next
      else next ()) cursor) (next' () cursor)
  by_cases hshort : cursor.remaining < needed
  · rw [if_pos (by simpa using hshort)]
    show Foreseen early needed cursor (.error (refusal cursor.remaining) cursor) (next' () cursor)
    have hcursor := h cursor
    generalize next () cursor = result, next' () cursor = result' at hcursor ⊢
    -- the plain read fails, since it would take more bytes than are left
    cases hcursor with
    | ok h => exact absurd h.le_remaining (Nat.not_le_of_lt hshort)
    | error he' h => exact .early (he _) he' (.refl cursor) h
    | early _ he' h h' => exact .early (he _) he' (.refl cursor) (h.trans h')
  · rw [if_neg (by simpa using hshort)]
    exact h cursor

end

/-- A check of the bytes that are left which hands on a value. -/
theorem room_bind {needed : Nat} (refusal : Nat → ε) (he : ∀ remaining, early (refusal remaining))
    {b : β} {next next' : β → EStateM ε Cursor α} (h : Foresees early needed (next b) (next' b)) :
    Foresees early needed
      ((get >>= fun cursor : Cursor =>
        if true && cursor.remaining < needed then
          throw (refusal cursor.remaining) >>= fun _ : Unit => pure b
        else pure b) >>= next)
      ((get >>= fun cursor : Cursor =>
        if false && cursor.remaining < needed then
          throw (refusal cursor.remaining) >>= fun _ : Unit => pure b
        else pure b) >>= next') := by
  have hinside : ∀ (guarded : Bool) (next : β → EStateM ε Cursor α),
      ((get >>= fun cursor : Cursor =>
        if guarded && cursor.remaining < needed then
          throw (refusal cursor.remaining) >>= fun _ : Unit => pure b
        else pure b) >>= next) =
      get >>= fun cursor : Cursor =>
        if guarded && cursor.remaining < needed then
          throw (refusal cursor.remaining) >>= fun _ : Unit => next b
        else next b := by
    intro guarded next
    rw [bind_assoc]
    congr 1
    funext cursor
    split <;> rfl
  rw [hinside, hinside]
  exact .room refusal he h

/-! ## Numbers and texts

These look at nothing but the bytes that they take, so none of their refusals is early. -/

protected theorem take (k : Nat) : Foresees (fun _ => False) k (Scan.take k) (Scan.take k) := by
  intro cursor
  unfold Scan.take
  split
  · next hroom => exact .ok (.advance hroom)
  · exact .error not_false (.refl cursor)

protected theorem nat (k : Nat) : Foresees (fun _ => False) k (Scan.nat k) (Scan.nat k) :=
  (Foresees.take k).map _

protected theorem byte : Foresees (fun _ => False) 1 Scan.byte Scan.byte := (Foresees.nat 1).map _

protected theorem number (width : Width) :
    Foresees (fun _ => False) width.size (Scan.number width) (Scan.number width) :=
  .nat width.size

protected theorem int32 : Foresees (fun _ => False) 4 Scan.int32 Scan.int32 :=
  (Foresees.nat 4).map _

protected theorem int64 : Foresees (fun _ => False) 8 Scan.int64 Scan.int64 :=
  (Foresees.nat 8).map _

protected theorem float32 : Foresees (fun _ => False) 4 Scan.float32 Scan.float32 :=
  (Foresees.nat 4).map _

protected theorem float64 : Foresees (fun _ => False) 8 Scan.float64 Scan.float64 :=
  (Foresees.nat 8).map _

/-- A text can be empty. -/
protected theorem text (k : Nat) : Foresees (fun _ => False) 0 (Scan.text k) (Scan.text k) := by
  refine Foresees.get.head fun _ => (Foresees.take k).andThen fun bytes => ?_
  cases bytesText? bytes with
  | some s => exact .pure s
  | none => exact .throw not_false

end Foresees

end TypeAtlas.Wire
