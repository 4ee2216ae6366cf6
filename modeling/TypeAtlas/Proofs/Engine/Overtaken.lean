/-
  Marks and their owners.

  A mark says which thread is resolving a name, but the engine may be made to forget it.  The
  thread then goes on with a resolution that is overtaken: another may mark the name again.
  Whoever releases a name looks whether the mark is its own; whoever settles it with a handle
  does not, so an overtaken resolution replaces the mark of another.

  * `Crew.Keeping`: steps in which nothing is forgotten;
  * `Crew.Moves.mark_cases` says what becomes of a mark in one step;
  * `Memo.Sole` is the invariant of a name that was not overtaken: only one resolution of it
    is under way, and that one owns the mark;
  * `Crew.marks_belong`: if nobody was resolving the name when everything was forgotten, its mark
    belongs to its owner, and its calls return one handle;
  * `Crew.mark_overtaken`: otherwise neither need be the case.
-/
import TypeAtlas.Proofs.Engine.Ownership

namespace TypeAtlas

namespace Crew

/-! ## Runs in which nothing is forgotten -/

/-- The next step of the thread of number `i` makes the engine forget everything. -/
def forgets (crew : Crew) (i : Nat) : Bool := crew.threads[i]?.any Thread.forgets

/-- A step unless it makes the engine forget. -/
def stepKeeping (engine : Engine) (crew : Crew) (i : Nat) : Option Crew :=
  if crew.forgets i then none else crew.step engine i

/-- The states that steps lead to as long as nothing is forgotten. -/
inductive Keeping (engine : Engine) (start : Crew) : Crew → Prop
  | refl : Keeping engine start start
  | step {crew next : Crew} (i : Nat) : Keeping engine start crew →
      crew.stepKeeping engine i = some next → Keeping engine start next

namespace Keeping

variable {engine : Engine} {start crew later : Crew}

theorem trans (h : Keeping engine start crew) (h' : Keeping engine crew later) :
    Keeping engine start later := by
  induction h' with
  | refl => exact h
  | step i _ hstep ih => exact .step i ih hstep

/-- Steps of threads in a given order lead to a state if none of them forgets. -/
theorem of_foldlM {order : List Nat}
    (h : order.foldlM (stepKeeping engine) start = some crew) : Keeping engine start crew := by
  induction order generalizing start with
  | nil =>
    cases h
    exact .refl
  | cons i order ih =>
    rw [List.foldlM_cons] at h
    obtain ⟨next, hstep, hrest⟩ := Option.bind_eq_some_iff.1 h
    exact (Keeping.step i .refl hstep).trans (ih hrest)

end Keeping

section

variable {engine : Engine} {crew next : Crew} {i : Nat}

theorem forgets_eq {thread : Thread} (hthread : crew.threads[i]? = some thread) :
    crew.forgets i = thread.forgets := by
  rw [forgets, hthread, Option.any_some]

/-- What a step does that forgets nothing. -/
theorem changes_of_stepKeeping (hstep : crew.stepKeeping engine i = some next) :
    ∃ thread woken thread', crew.threads[i]? = some thread ∧
      Moves engine i crew.memo crew.edges thread next.memo next.edges woken thread' ∧
      next.threads = moved crew.threads i woken thread' ∧
      Changes i crew.memo thread.opened next.memo thread'.opened := by
  unfold stepKeeping at hstep
  split at hstep
  next => cases hstep
  next hkeeps =>
    obtain ⟨thread, hthread, woken, thread', hmoves, hthreads⟩ := does_of_step hstep
    refine ⟨thread, woken, thread', hthread, hmoves, hthreads, ?_⟩
    exact hmoves.changes.resolve_right fun hclear => hkeeps ((forgets_eq hthread).trans hclear.2.2)

end

/-! ## What becomes of a mark -/

/-- The thread of number `i` is about to settle a name. -/
def Settles (crew : Crew) (i : Nat) (name : String) (answer : Answer) : Prop :=
  ∃ thread, crew.threads[i]? = some thread ∧ thread.phase = .settle name answer

/-- A mark stays unless everything is forgotten or its name is settled: by its owner, or with
    a handle that takes its place. -/
theorem Moves.mark_cases {engine : Engine} {i owner : Nat} {memo memo' : Memo}
    {edges edges' : List (Nat × WaitEdge)} {woken : Bool} {thread thread' : Thread} {name : String}
    (h : Moves engine i memo edges thread memo' edges' woken thread')
    (hslot : memo.slot? name = some (.loading owner)) :
    memo'.slot? name = some (.loading owner) ∨ thread.forgets = true ∨
      ∃ answer, thread.phase = .settle name answer ∧
        (i = owner ∨ ∃ handle, answer = .ok (some handle) ∧
          memo'.slot? name = some (.resolved handle)) := by
  cases h with
  | takeClear | forget => exact Or.inr (Or.inl rfl)
  | @begin _ _ _ begun _ hopen =>
    refine Or.inl ?_
    rw [Memo.slot?_begin, if_neg, hslot]
    rintro rfl
    rw [hopen] at hslot
    cases hslot
  | @settle _ _ _ settled answer =>
    by_cases hname : name = settled
    · subst hname
      rcases memo.settle_cases i name answer with
        ⟨handle, hanswer, hhandle⟩ | ⟨hown, -⟩ | ⟨-, hsame⟩
      · exact Or.inr (Or.inr ⟨answer, rfl, Or.inr ⟨handle, hanswer, hhandle⟩⟩)
      · cases hown.symm.trans hslot
        exact Or.inr (Or.inr ⟨answer, rfl, Or.inl rfl⟩)
      · exact Or.inl (hsame.symm ▸ hslot)
    · exact Or.inl ((Memo.slot?_settle_of_ne name hname answer).trans hslot)
  | consult => exact Or.inl ((memo.slot?_consult name _ _).trans hslot)
  | make => exact Or.inl ((memo.slot?_make name _).trans hslot)
  | inspect => exact Or.inl ((memo.slot?_look name _).trans hslot)
  | finish => exact Or.inl ((slot?_finish memo _ _ name).trans hslot)
  | take | refuse | hit | reenter | meet | closeRing | sleep | again | exhaust | pass | conclude
  | ask | announce | announceClear | finishClear | resume | drop => exact Or.inl hslot

end Crew

/-! ## Names that were not overtaken -/

/-- If a name is among those that a thread is resolving, it is there once, and its mark is that
    of the thread. -/
structure Memo.Sole (memo : Memo) (i : Nat) (name : String) (opened : List String) : Prop where
  slot : name ∈ opened → memo.slot? name = some (.loading i)
  once : opened.count name ≤ 1

/-- A name whose slot holds something else is not among them. -/
theorem Memo.Sole.not_mem {memo : Memo} {i : Nat} {name : String} {opened : List String}
    {slot : MemoSlot} (h : memo.Sole i name opened) (hslot : memo.slot? name = some slot)
    (hne : slot ≠ .loading i) : name ∉ opened := by
  intro hmem
  have hmark := h.slot hmem
  rw [hslot, Option.some.injEq] at hmark
  exact hne hmark

namespace Crew

namespace Changes

variable {i j : Nat} {memo memo' : Memo} {opened opened' : List String} {name : String}

theorem sole (h : Changes i memo opened memo' opened') (hsole : memo.Sole i name opened) :
    memo'.Sole i name opened' := by
  obtain ⟨hslot, honce⟩ := hsole
  cases h with
  | keep hkept => exact ⟨fun hmem => (hkept name).trans (hslot hmem), honce⟩
  | @begin _ begun hopen =>
    by_cases hname : name = begun
    · subst hname
      have hnew : name ∉ opened := by
        intro hmem
        have hmark := hslot hmem
        rw [hopen] at hmark
        cases hmark
      have hcount : opened.count name = 0 := List.count_eq_zero.2 hnew
      refine ⟨fun _ => by rw [Memo.slot?_begin, if_pos rfl], ?_⟩
      rw [List.count_cons_self]
      omega
    · refine ⟨fun hmem => ?_, ?_⟩
      · rw [Memo.slot?_begin, if_neg hname]
        exact hslot (List.mem_of_ne_of_mem hname hmem)
      · rwa [List.count_cons_of_ne (Ne.symm hname)]
  | @settle _ settled answer =>
    by_cases hname : name = settled
    · -- the resolution that ends was the only one of the name
      subst hname
      rw [List.count_cons_self] at honce
      have hgone : name ∉ opened' := List.count_eq_zero.1 (by omega)
      exact ⟨fun hmem => absurd hmem hgone, by omega⟩
    · rw [List.count_cons_of_ne (Ne.symm hname)] at honce
      refine ⟨fun hmem => ?_, honce⟩
      rw [Memo.slot?_settle_of_ne name hname answer]
      exact hslot (List.mem_cons_of_mem _ hmem)

theorem sole_of_ne {others : List String} (h : Changes i memo opened memo' opened')
    (hsole : memo.Sole i name opened) (hne : j ≠ i) (hothers : memo.Sole j name others) :
    memo'.Sole j name others := by
  refine ⟨fun hmem => ?_, hothers.once⟩
  have hslot := hothers.slot hmem
  refine h.slot?_of_not_mem hslot (hsole.not_mem hslot fun heq => hne ?_)
  cases heq
  rfl

end Changes

variable {engine : Engine} {crew next later : Crew} {i j : Nat} {name : String}

theorem sole_of_not_resolves (hnobody : ∀ i, ¬ crew.Resolves i name) :
    Each (fun memo i thread => memo.Sole i name thread.opened) crew := by
  intro i thread hthread
  have hnone : name ∉ thread.opened := fun hmem => hnobody i ⟨thread, hthread, hmem⟩
  exact ⟨fun hmem => absurd hmem hnone, by rw [List.count_eq_zero.2 hnone]; exact Nat.zero_le 1⟩

theorem sole_step (h : Each (fun memo i thread => memo.Sole i name thread.opened) crew)
    (hstep : crew.stepKeeping engine i = some next) :
    Each (fun memo i thread => memo.Sole i name thread.opened) next := by
  obtain ⟨thread, woken, thread', hthread, -, hthreads, hchanges⟩ := changes_of_stepKeeping hstep
  refine h.of_moved hthreads (Array.getElem?_eq_some_iff.1 hthread).1 (fun j other hother => ?_)
    (hchanges.sole (h i thread hthread))
    fun j other hne => hchanges.sole_of_ne (h i thread hthread) hne
  rwa [opened_wake]

/-- A remembered handle stays remembered. -/
theorem resolved_step (h : Each (fun memo i thread => memo.Sole i name thread.opened) crew)
    (hstep : crew.stepKeeping engine i = some next) {handle : Handle}
    (hslot : crew.memo.slot? name = some (.resolved handle)) :
    next.memo.slot? name = some (.resolved handle) := by
  obtain ⟨thread, _, _, hthread, -, -, hchanges⟩ := changes_of_stepKeeping hstep
  exact hchanges.slot?_of_not_mem hslot ((h i thread hthread).not_mem hslot nofun)

theorem Keeping.sole (hlater : Keeping engine crew later)
    (h : Each (fun memo i thread => memo.Sole i name thread.opened) crew) :
    Each (fun memo i thread => memo.Sole i name thread.opened) later := by
  induction hlater with
  | refl => exact h
  | step i _ hstep ih => exact sole_step ih hstep

theorem Keeping.resolved (hlater : Keeping engine crew later)
    (h : Each (fun memo i thread => memo.Sole i name thread.opened) crew) {handle : Handle}
    (hslot : crew.memo.slot? name = some (.resolved handle)) :
    later.memo.slot? name = some (.resolved handle) := by
  induction hlater with
  | refl => exact hslot
  | step i hmiddle hstep ih => exact resolved_step (hmiddle.sole h) hstep ih

/-! ## Calls -/

/-- What the thread of number `i` has settled a name with and has yet to return is remembered. -/
def Announced (crew : Crew) (i : Nat) (name : String) : Prop :=
  ∀ thread handle, crew.threads[i]? = some thread →
    thread.phase = .announce name (.ok (some handle)) →
      crew.memo.slot? name = some (.resolved handle)

/-- Whoever comes to announce a handle has just settled its name with it. -/
theorem Moves.slot?_of_announce {memo memo' : Memo} {edges edges' : List (Nat × WaitEdge)}
    {woken : Bool} {thread thread' : Thread} {handle : Handle}
    (h : Moves engine i memo edges thread memo' edges' woken thread')
    (hphase : thread'.phase = .announce name (.ok (some handle))) :
    memo'.slot? name = some (.resolved handle) := by
  cases h with
  | settle =>
    cases hphase
    simp only [Memo.slot?, Memo.settle, Table.find?_insert, if_true]
  | takeClear | take | refuse | hit | reenter | meet | begin | closeRing | sleep | again | exhaust
  | consult | pass | conclude | ask | make | inspect | forget | announce | announceClear
  | finishClear | resume | finish | drop => cases hphase

theorem announced_step (h : Each (fun memo i thread => memo.Sole i name thread.opened) crew)
    (hstep : crew.stepKeeping engine j = some next)
    (hannounced : crew.Announced i name) : next.Announced i name := by
  intro thread handle hthread hphase
  obtain ⟨mover, woken, mover', hmover, hmoves, hthreads, -⟩ := changes_of_stepKeeping hstep
  rw [hthreads] at hthread
  by_cases hij : i = j
  · subst hij
    rw [getElem?_moved_self (Array.getElem?_eq_some_iff.1 hmover).1] at hthread
    cases hthread
    exact hmoves.slot?_of_announce hphase
  · obtain ⟨before, hbefore, rfl⟩ := (getElem?_moved_eq_some_iff hij).1 hthread
    refine resolved_step h hstep (hannounced before handle hbefore ?_)
    split at hphase
    · obtain heq | ⟨_, _, _, heq⟩ := wake_cases before
      · rwa [heq] at hphase
      · rw [heq] at hphase
        cases hphase
    · exact hphase

theorem Keeping.announced (hlater : Keeping engine crew later)
    (h : Each (fun memo i thread => memo.Sole i name thread.opened) crew)
    (hannounced : crew.Announced i name) : later.Announced i name := by
  induction hlater with
  | refl => exact hannounced
  | step i hmiddle hstep ih => exact announced_step (hmiddle.sole h) hstep ih

/-- A call for a name that the thread of number `i` makes returns a handle in a state: the call
    looks at the name no earlier than in another, and nothing is forgotten in between. -/
structure ReturnsSince (engine : Engine) (crew : Crew) (i : Nat) (name : String) (handle : Handle)
    (done : Crew) : Prop where
  begun : ∃ begun thread, Keeping engine crew begun ∧ begun.threads[i]? = some thread ∧
    thread.phase = .look name ∧ Keeping engine begun done
  returns : ∃ before next after, done.threads[i]? = some before ∧ before.phase.name? = some name ∧
    done.step engine i = some next ∧ next.threads[i]? = some after ∧
    after.phase = .deliver (.ok (some handle))

theorem ReturnsSince.resolved {handle : Handle} {done : Crew}
    (hreturns : ReturnsSince engine crew i name handle done)
    (h : Each (fun memo i thread => memo.Sole i name thread.opened) crew) :
    done.memo.slot? name = some (.resolved handle) := by
  obtain ⟨⟨begun, looking, hbegun, hlooking, hlook, hdone⟩,
    before, next, after, hbefore, hname, hstep, hafter, hphase⟩ := hreturns
  obtain ⟨thread, hthread, woken, thread', hmoves, hthreads⟩ := does_of_step hstep
  cases hthread.symm.trans hbefore
  rw [hthreads, getElem?_moved_self (Array.getElem?_eq_some_iff.1 hthread).1] at hafter
  cases hafter
  rcases hmoves.found_cases hname hphase with hslot | hannounce
  · exact hslot
  · refine hdone.announced (hbegun.sole h) (fun other handle hother hearlier => ?_) _ handle hthread
      hannounce
    cases hother.symm.trans hlooking
    cases hlook.symm.trans hearlier

theorem mark_cases_of_step {owner : Nat} (hstep : crew.step engine i = some next)
    (hslot : crew.memo.slot? name = some (.loading owner)) :
    next.memo.slot? name = some (.loading owner) ∨ crew.forgets i = true ∨
      ∃ answer, crew.Settles i name answer ∧ (i = owner ∨ ∃ handle, answer = .ok (some handle) ∧
        next.memo.slot? name = some (.resolved handle)) := by
  obtain ⟨thread, hthread, woken, thread', hmoves, -⟩ := does_of_step hstep
  rcases hmoves.mark_cases hslot with hstays | hforgets | ⟨answer, hphase, hwho⟩
  · exact Or.inl hstays
  · exact Or.inr (Or.inl ((forgets_eq hthread).trans hforgets))
  · exact Or.inr (Or.inr ⟨answer, ⟨thread, hthread, hphase⟩, hwho⟩)

/-- Whoever settles a name that was not overtaken owns the mark. -/
theorem Settles.eq_owner {answer : Answer} {owner : Nat} (hsettles : crew.Settles i name answer)
    (h : Each (fun memo i thread => memo.Sole i name thread.opened) crew)
    (hslot : crew.memo.slot? name = some (.loading owner)) : i = owner := by
  obtain ⟨thread, hthread, hphase⟩ := hsettles
  have hname : name ∈ thread.opened := by
    rw [Thread.opened, hphase]
    exact List.mem_cons_self
  cases ((h i thread hthread).slot hname).symm.trans hslot
  rfl

/-- **A mark belongs to its owner unless it is overtaken.**  In every step, what takes the place
    of a mark that neither its owner nor the engine itself took away is the handle with which
    another settles the name.  That does not happen to a name that nobody was resolving when
    everything was forgotten for the last time, and all calls for it since then that return a
    handle return the same. -/
theorem marks_belong (engine : Engine) :
    (∀ (crew next : Crew) (i : Nat) (name : String) (owner : Nat),
      crew.step engine i = some next → crew.memo.slot? name = some (.loading owner) →
        next.memo.slot? name = some (.loading owner) ∨ crew.forgets i = true ∨
          ∃ answer, crew.Settles i name answer ∧ (i = owner ∨ ∃ handle, answer = .ok (some handle) ∧
            next.memo.slot? name = some (.resolved handle))) ∧
      ∀ (crew : Crew) (name : String), (∀ i, ¬ crew.Resolves i name) →
        (∀ later next i owner, Keeping engine crew later → later.step engine i = some next →
          later.memo.slot? name = some (.loading owner) →
            next.memo.slot? name = some (.loading owner) ∨ later.forgets i = true ∨
              i = owner ∧ ∃ answer, later.Settles i name answer) ∧
          ∀ i j handle handle' done done', ReturnsSince engine crew i name handle done →
            ReturnsSince engine crew j name handle' done' → Keeping engine done done' →
              handle = handle' := by
  refine ⟨fun _ _ _ _ _ => mark_cases_of_step, fun crew name hnobody => ?_⟩
  have hsole := sole_of_not_resolves hnobody
  refine ⟨fun later next i owner hlater hstep hslot => ?_,
    fun i j handle handle' done done' hreturns hreturns' hdone => ?_⟩
  · rcases mark_cases_of_step hstep hslot with hstays | hforgets | ⟨answer, hsettles, -⟩
    · exact Or.inl hstays
    · exact Or.inr (Or.inl hforgets)
    · exact Or.inr (Or.inr ⟨hsettles.eq_owner (hlater.sole hsole) hslot, answer, hsettles⟩)
  · have hslot := hreturns.resolved hsole
    obtain ⟨⟨begun, _, hbegun, -, -, hafter⟩, -⟩ := hreturns
    have hkept := hdone.resolved ((hbegun.trans hafter).sole hsole) hslot
    cases (hreturns'.resolved hsole).symm.trans hkept
    rfl

/-- A thread that announces a handle of a name that it looked at returns it. -/
theorem ReturnsSince.of_announce {begun done : Crew} {looking announcing : Thread} {handle : Handle}
    (hbegun : Keeping engine crew begun) (hlooking : begun.threads[i]? = some looking)
    (hlook : looking.phase = .look name) (hdone : Keeping engine begun done)
    (hannouncing : done.threads[i]? = some announcing)
    (hphase : announcing.phase = .announce name (.ok (some handle))) :
    ReturnsSince engine crew i name handle done := by
  obtain ⟨next, after, hstep, hafter, hdeliver⟩ := exists_step_of_announce hannouncing hphase
  exact ⟨⟨begun, looking, hbegun, hlooking, hlook, hdone⟩, announcing, next, after, hannouncing,
    by rw [hphase, Phase.name?], hstep, hafter, hdeliver⟩

/-- A thread that looks at a name whose handle is remembered returns it. -/
theorem ReturnsSince.of_hit {done : Crew} {looking : Thread} {handle : Handle}
    (hproviders : engine.providers.isEmpty = false) (hdone : Keeping engine crew done)
    (hlooking : done.threads[i]? = some looking) (hlook : looking.phase = .look name)
    (hslot : done.memo.slot? name = some (.resolved handle)) :
    ReturnsSince engine crew i name handle done := by
  have hstep : done.step engine i = some (done.go i looking (.deliver (.ok (some handle)))) := by
    simp only [step, hlooking, hlook, stepLook, hproviders, hslot, Bool.false_eq_true, if_false]
  refine ⟨⟨done, looking, hdone, hlooking, hlook, .refl⟩, looking, _,
    { looking with phase := .deliver (.ok (some handle)) }, hlooking, by rw [hlook, Phase.name?],
    hstep, ?_, rfl⟩
  exact Array.getElem?_setIfInBounds_self_of_lt (Array.getElem?_eq_some_iff.1 hlooking).1

theorem not_resolves_of_all
    (h : (crew.threads.toList.all fun thread => !thread.opened.contains name) = true) (i : Nat) :
    ¬ crew.Resolves i name := by
  rintro ⟨thread, hthread, hname⟩
  have hmem : thread ∈ crew.threads.toList := Array.mem_toList_iff.2 (Array.mem_of_getElem? hthread)
  have hnone := List.all_eq_true.1 h thread hmem
  rw [List.contains_iff_mem.2 hname] at hnone
  cases hnone

/-- After a thread made the engine forget, two others ask for a primitive: the one that resolves
    it and the one that finds it remembered return the same handle. -/
theorem marks_belong_cleared :
    ∃ crew done handle handle', Reachable ⟨[(0, .wellKnown)]⟩
        (ofRequests [[.clear], [.find "int"], [.find "int"]]) crew ∧
      ReturnsSince ⟨[(0, .wellKnown)]⟩ crew 1 "int" handle done ∧
      ReturnsSince ⟨[(0, .wellKnown)]⟩ crew 2 "int" handle' done ∧ handle = handle' := by
  obtain ⟨crew, begun, done, looking, announcing, late, handle, handle', hcrew, hnobody, hbegun,
    hlooking, hlook, hdone, hannouncing, hannounce, hlate, hlatelook, hslot⟩ :
      ∃ crew begun done looking announcing late handle handle',
        [0].foldlM (fun (crew : Crew) i => crew.step ⟨[(0, .wellKnown)]⟩ i)
            (ofRequests [[.clear], [.find "int"], [.find "int"]]) = some crew ∧
          (crew.threads.toList.all fun thread => !thread.opened.contains "int") = true ∧
          [1].foldlM (stepKeeping ⟨[(0, .wellKnown)]⟩) crew = some begun ∧
          begun.threads[1]? = some looking ∧ looking.phase = .look "int" ∧
          [1, 1, 1, 1, 1, 2].foldlM (stepKeeping ⟨[(0, .wellKnown)]⟩) begun = some done ∧
          done.threads[1]? = some announcing ∧
          announcing.phase = .announce "int" (.ok (some handle)) ∧
          done.threads[2]? = some late ∧ late.phase = .look "int" ∧
          done.memo.slot? "int" = some (.resolved handle') :=
    ⟨_, _, _, _, _, _, _, _, rfl, rfl, rfl, rfl, rfl, rfl, rfl, rfl, rfl, rfl, rfl⟩
  obtain ⟨-, hbelongs⟩ := marks_belong ⟨[(0, .wellKnown)]⟩
  obtain ⟨-, hsame⟩ := hbelongs crew "int" (not_resolves_of_all hnobody)
  have hreturns := ReturnsSince.of_announce (.of_foldlM hbegun) hlooking hlook (.of_foldlM hdone)
    hannouncing hannounce
  have hreturns' := ReturnsSince.of_hit rfl ((Keeping.of_foldlM hbegun).trans (.of_foldlM hdone))
    hlate hlatelook hslot
  exact ⟨crew, done, handle, handle', .of_foldlM hcrew, hreturns, hreturns',
    hsame 1 2 handle handle' done done hreturns hreturns' .refl⟩

/-- A thread is about to settle a primitive when another makes the engine forget.  A third marks
    the primitive again; the first replaces its mark; and of two calls since then, that of the
    third thread and one that finds what is remembered, each returns a handle of its own. -/
theorem mark_overtaken :
    ∃ cleared crew next found done handle handle', Reachable ⟨[(0, .wellKnown)]⟩
        (ofRequests [[.find "int"], [.clear], [.find "int"], [.find "int"]]) cleared ∧
      (∀ name, cleared.memo.slot? name = none) ∧ Keeping ⟨[(0, .wellKnown)]⟩ cleared crew ∧
      (crew.memo.slot? "int" = some (.loading 2) ∧
        crew.stepKeeping ⟨[(0, .wellKnown)]⟩ 0 = some next ∧
        next.memo.slot? "int" = some (.resolved handle)) ∧
      ReturnsSince ⟨[(0, .wellKnown)]⟩ cleared 3 "int" handle found ∧
      ReturnsSince ⟨[(0, .wellKnown)]⟩ cleared 2 "int" handle' done ∧
      Keeping ⟨[(0, .wellKnown)]⟩ found done ∧ handle ≠ handle' := by
  obtain ⟨cleared, begun, crew, next, found, done, looking, announcing, late, handle, handle',
    hcleared, hopen, hbegun, hlooking, hlook, hcrew, hmark, hnext, hslot, hfound, hlate, hlatelook,
    hfoundslot, hdone, hannouncing, hannounce, hid, hid'⟩ :
      ∃ cleared begun crew next found done looking announcing late handle handle',
        [0, 0, 0, 0, 0, 1].foldlM (fun (crew : Crew) i => crew.step ⟨[(0, .wellKnown)]⟩ i)
            (ofRequests [[.find "int"], [.clear], [.find "int"], [.find "int"]]) = some cleared ∧
          (∀ name, cleared.memo.slot? name = none) ∧
          [2].foldlM (stepKeeping ⟨[(0, .wellKnown)]⟩) cleared = some begun ∧
          begun.threads[2]? = some looking ∧ looking.phase = .look "int" ∧
          [2].foldlM (stepKeeping ⟨[(0, .wellKnown)]⟩) begun = some crew ∧
          crew.memo.slot? "int" = some (.loading 2) ∧
          crew.stepKeeping ⟨[(0, .wellKnown)]⟩ 0 = some next ∧
          next.memo.slot? "int" = some (.resolved handle) ∧
          [3].foldlM (stepKeeping ⟨[(0, .wellKnown)]⟩) next = some found ∧
          found.threads[3]? = some late ∧ late.phase = .look "int" ∧
          found.memo.slot? "int" = some (.resolved handle) ∧
          [2, 2, 2, 2].foldlM (stepKeeping ⟨[(0, .wellKnown)]⟩) found = some done ∧
          done.threads[2]? = some announcing ∧
          announcing.phase = .announce "int" (.ok (some handle')) ∧ handle.id = 0 ∧
          handle'.id = 1 :=
    ⟨_, _, _, _, _, _, _, _, _, _, _, rfl, fun _ => rfl, rfl, rfl, rfl, rfl, rfl, rfl, rfl, rfl,
      rfl, rfl, rfl, rfl, rfl, rfl, rfl, rfl⟩
  have hne : handle ≠ handle' := by
    rintro rfl
    cases hid.symm.trans hid'
  have hwait := Keeping.of_foldlM hbegun
  have hmarked := hwait.trans (.of_foldlM hcrew)
  have hlookup := (Keeping.step 0 (.of_foldlM hcrew) hnext).trans (.of_foldlM hfound)
  exact ⟨cleared, crew, next, found, done, handle, handle', .of_foldlM hcleared, hopen, hmarked,
    ⟨hmark, hnext, hslot⟩, .of_hit rfl (hwait.trans hlookup) hlate hlatelook hfoundslot,
    .of_announce hwait hlooking hlook (hlookup.trans (.of_foldlM hdone)) hannouncing hannounce,
    .of_foldlM hdone, hne⟩

end Crew

end TypeAtlas
