/-
  What lookups do to the memo.

  * `LookupM.Ends` says what holds after a computation if it has an answer, and
    what must be the case if it has none; its laws take a computation apart;
  * the other laws here say which slots the changes of a memo touch.
-/
import TypeAtlas.Engine.Lookup

namespace TypeAtlas

/-! ## Computations -/

namespace LookupM

variable {α β : Type}

/-- After the computation `post` holds of its outcome and the memo; if it has no answer,
    `stuck` holds. -/
def Ends (body : LookupM α) (memo : Memo) (stuck : Prop)
    (post : Except EngineError α → Memo → Prop) : Prop :=
  match body.run.run memo with
  | none => stuck
  | some (outcome, memo') => post outcome memo'

variable {memo : Memo} {stuck stuck' : Prop}

theorem Ends.imp {body : LookupM α} {post post' : Except EngineError α → Memo → Prop}
    (h : body.Ends memo stuck post) (hstuck : stuck → stuck')
    (hpost : ∀ outcome memo', post outcome memo' → post' outcome memo') :
    body.Ends memo stuck' post' := by
  unfold Ends at h ⊢
  split
  next hrun =>
    rw [hrun] at h
    exact hstuck h
  next hrun =>
    rw [hrun] at h
    exact hpost _ _ h

theorem Ends.of_eq_none {body : LookupM α} {post : Except EngineError α → Memo → Prop}
    (h : body.Ends memo stuck post) (hrun : body.run.run memo = none) : stuck := by
  unfold Ends at h
  rwa [hrun] at h

theorem Ends.of_eq_some {body : LookupM α} {post : Except EngineError α → Memo → Prop}
    {outcome : Except EngineError α} {memo' : Memo} (h : body.Ends memo stuck post)
    (hrun : body.run.run memo = some (outcome, memo')) : post outcome memo' := by
  unfold Ends at h
  rwa [hrun] at h

variable {post : Except EngineError α → Memo → Prop}

/-- What a computation comes to is what its run gives. -/
theorem Ends.with_run {body : LookupM α} (h : body.Ends memo stuck post) :
    body.Ends memo stuck fun outcome memo' =>
      body.run.run memo = some (outcome, memo') ∧ post outcome memo' := by
  unfold Ends at h ⊢
  split
  next hrun =>
    rw [hrun] at h
    exact h
  next hrun =>
    rw [hrun] at h
    exact ⟨hrun, h⟩

theorem Ends.exists_run {body : LookupM α} (h : body.Ends memo stuck post) (hstuck : ¬ stuck) :
    ∃ outcome memo', body.run.run memo = some (outcome, memo') ∧ post outcome memo' := by
  cases hrun : body.run.run memo with
  | none => exact absurd (h.of_eq_none hrun) hstuck
  | some result => exact ⟨result.1, result.2, rfl, h.of_eq_some hrun⟩

@[simp] theorem ends_pure {a : α} : (pure a : LookupM α).Ends memo stuck post ↔ post (.ok a) memo :=
  Iff.rfl

@[simp] theorem ends_throw {e : EngineError} :
    (throw e : LookupM α).Ends memo stuck post ↔ post (.error e) memo := Iff.rfl

@[simp] theorem ends_exhausted : (exhausted : LookupM α).Ends memo stuck post ↔ stuck := Iff.rfl

@[simp] theorem ends_ofExcept {outcome : Except EngineError α} :
    (ofExcept outcome).Ends memo stuck post ↔ post outcome memo := by
  cases outcome <;> exact Iff.rfl

@[simp] theorem ends_get {post : Except EngineError Memo → Memo → Prop} :
    (get : LookupM Memo).Ends memo stuck post ↔ post (.ok memo) memo := Iff.rfl

@[simp] theorem ends_modify {f : Memo → Memo} {post : Except EngineError PUnit → Memo → Prop} :
    (modify f : LookupM PUnit).Ends memo stuck post ↔ post (.ok ⟨⟩) (f memo) := Iff.rfl

@[simp] theorem ends_make {kind : HandleKind} {post : Except EngineError Handle → Memo → Prop} :
    (make kind).Ends memo stuck post ↔ post (.ok (memo.make kind).1) (memo.make kind).2 := Iff.rfl

theorem ends_bind {body : LookupM β} {next : β → LookupM α} :
    (body >>= next).Ends memo stuck post ↔
      body.Ends memo stuck fun outcome memo' =>
        match outcome with
        | .ok b => (next b).Ends memo' stuck post
        | .error e => post (.error e) memo' := by
  have hrun : (body >>= next).run.run memo =
      (body.run.run memo).bind fun result =>
        match result.1 with
        | .ok b => (next b).run.run result.2
        | .error e => some (.error e, result.2) := by
    simp only [ExceptT.run_bind, StateT.run_bind, Option.bind_eq_bind]
    congr 1
    funext result
    rcases result with ⟨_ | _, _⟩ <;> rfl
  unfold Ends
  rw [hrun]
  rcases body.run.run memo with _ | ⟨_ | _, _⟩ <;> rfl

@[simp] theorem ends_outcome {body : LookupM α}
    {post : Except EngineError (Except EngineError α) → Memo → Prop} :
    body.outcome.Ends memo stuck post ↔
      body.Ends memo stuck fun outcome memo' => post (.ok outcome) memo' := by
  have hrun : body.outcome.run.run memo =
      (body.run.run memo).map fun result => (.ok result.1, result.2) := by
    simp only [outcome, ExceptT.run_mk, StateT.run_map, Option.map_eq_map]
  unfold Ends
  rw [hrun]
  rcases body.run.run memo with _ | _ <;> rfl

end LookupM

/-- What a lookup comes to: a remembered handle, a cycle, or the answer of the providers, who
    are consulted while the name is marked. -/
theorem Engine.ends_load {engine : Engine} {depth : Nat} {name : String} {memo : Memo}
    {stuck : Prop} {post : Answer → Memo → Prop} :
    (engine.load (depth + 1) name).Ends memo stuck post ↔
      if engine.providers.isEmpty then post (.error .noProviders) memo
      else match memo.slot? name with
        | some (.resolved handle) => post (.ok (some handle)) memo
        | some (.loading _) => post (.error (.cycle name)) memo
        | none =>
          (Engine.consult (engine.load depth) name engine.providers).Ends
            (memo.begin Engine.onlyThread name) stuck fun answer memo' =>
              post answer (memo'.settle Engine.onlyThread name answer) := by
  rw [Engine.load]
  split
  · simp only [LookupM.ends_bind, LookupM.ends_throw]
  · simp only [LookupM.ends_bind, LookupM.ends_get]
    rcases memo.slot? name with _ | _ | _
    · simp only [Engine.resolve, LookupM.ends_bind, LookupM.ends_modify, LookupM.ends_outcome,
        LookupM.ends_ofExcept]
    · simp only [LookupM.ends_throw]
    · simp only [LookupM.ends_pure]

/-! ## Slots -/

namespace Memo

variable (memo : Memo) (owner : Nat) (name other : String)

@[simp] theorem slot?_empty : Memo.empty.slot? name = none := rfl

theorem slot?_begin :
    (memo.begin owner name).slot? other =
      if other = name then some (.loading owner) else memo.slot? other := by
  simp only [slot?, begin, Table.find?_insert]

@[simp] theorem slot?_clear : memo.clear.slot? name = none := rfl

@[simp] theorem slot?_make (kind : HandleKind) : (memo.make kind).2.slot? name = memo.slot? name :=
  rfl

@[simp] theorem slot?_look (handle : Handle) : (memo.look handle).slot? name = memo.slot? name := by
  simp only [look]
  split
  · split <;> rfl
  · rfl

@[simp] theorem slot?_consult (number : Nat) : (memo.consult number other).slot? name = memo.slot? name :=
  rfl

variable {memo owner name}

theorem slot?_release (h : memo.slot? name = some (.loading owner)) :
    (memo.release owner name).slot? other = if other = name then none else memo.slot? other := by
  simp only [release, h, if_true]
  simp only [slot?, Table.find?_erase]

/-- Nobody but its owner releases a mark. -/
theorem release_of_ne (h : memo.slot? name ≠ some (.loading owner)) :
    memo.release owner name = memo := by
  unfold release
  split
  next marker hslot =>
    refine if_neg fun howner => h ?_
    rw [hslot, howner]
  next => rfl

/-- Whoever marked a name and settles it leaves its handle, if there is one, and no mark. -/
theorem slot?_settle (h : memo.slot? name = some (.loading owner)) (answer : Answer) :
    (memo.settle owner name answer).slot? other =
      if other = name then
        match answer with
        | .ok (some handle) => some (.resolved handle)
        | _ => none
      else memo.slot? other := by
  rcases answer with e | _ | handle
  · exact slot?_release other h
  · exact slot?_release other h
  · simp only [slot?, settle, Table.find?_insert]

/-- The slots of other names are left alone. -/
theorem slot?_settle_of_ne (h : other ≠ name) (answer : Answer) :
    (memo.settle owner name answer).slot? other = memo.slot? other := by
  have hrelease : (memo.release owner name).slot? other = memo.slot? other := by
    by_cases hmark : memo.slot? name = some (.loading owner)
    · rw [slot?_release other hmark, if_neg h]
    · rw [release_of_ne hmark]
  rcases answer with e | _ | handle
  · exact hrelease
  · exact hrelease
  · simp only [slot?, settle, Table.find?_insert, if_neg h]

variable (memo owner name)

/-- What a settled name comes to: a handle is remembered whatever the name held before; without
    a handle the own mark is taken back, and anything else stays. -/
theorem settle_cases (answer : Answer) :
    (∃ handle, answer = .ok (some handle) ∧
        (memo.settle owner name answer).slot? name = some (.resolved handle)) ∨
      (memo.slot? name = some (.loading owner) ∧ (memo.settle owner name answer).slot? name = none) ∨
      memo.slot? name ≠ some (.loading owner) ∧ memo.settle owner name answer = memo := by
  have hrelease : memo.slot? name = some (.loading owner) ∧ (memo.release owner name).slot? name = none ∨
      memo.slot? name ≠ some (.loading owner) ∧ memo.release owner name = memo := by
    by_cases hmark : memo.slot? name = some (.loading owner)
    · exact Or.inl ⟨hmark, by rw [slot?_release name hmark, if_pos rfl]⟩
    · exact Or.inr ⟨hmark, release_of_ne hmark⟩
  rcases answer with e | _ | handle
  · exact Or.inr hrelease
  · exact Or.inr hrelease
  · exact Or.inl ⟨handle, rfl, by simp only [slot?, settle, Table.find?_insert, if_true]⟩

end Memo

end TypeAtlas
