/-
  Threads that resolve the same names.

  As long as nothing is forgotten, a name is resolved by one thread at a time, and once
  somebody found its handle, nobody gets another.

  * `Memo.Marked`: the names that a thread is resolving carry its mark;
    `Crew.Changes.marked` and `Crew.Changes.slot?_of_not_mem` say that a step keeps
    this, for its own thread and for the others;
  * `Thread.Answered`: the handles that a thread came to are those that are remembered;
  * `Thread.Sound` has both, and `Crew.sound_of_reachable` is the induction over the
    steps of all threads;
  * `Crew.Returns` are the handles that the calls for a name return, nested calls
    included, and `Crew.resolved_once` is what holds of them.
-/
import TypeAtlas.Proofs.Engine.Moves

namespace TypeAtlas

/-! ## Marks -/

/-- Each of the names carries the mark of a thread, and none of them occurs twice. -/
structure Memo.Marked (memo : Memo) (i : Nat) (opened : List String) : Prop where
  slot : ∀ name ∈ opened, memo.slot? name = some (.loading i)
  nodup : opened.Nodup

/-- A name whose slot holds something else is none of them. -/
theorem Memo.Marked.not_mem {memo : Memo} {i : Nat} {opened : List String} {name : String}
    {slot : MemoSlot} (h : memo.Marked i opened) (hslot : memo.slot? name = some slot)
    (hne : slot ≠ .loading i) : name ∉ opened := by
  intro hmem
  have hmark := h.slot name hmem
  rw [hslot, Option.some.injEq] at hmark
  exact hne hmark

namespace Crew.Changes

variable {i j : Nat} {memo memo' : Memo} {opened opened' : List String}

/-- A step leaves a slot alone that is not open and whose name its thread does not resolve. -/
theorem slot?_of_not_mem (h : Changes i memo opened memo' opened') {name : String}
    {slot : MemoSlot} (hslot : memo.slot? name = some slot) (hname : name ∉ opened) :
    memo'.slot? name = some slot := by
  cases h with
  | keep hkept => rw [hkept, hslot]
  | @begin _ begun hopen =>
    have hne : name ≠ begun := by
      rintro rfl
      rw [hopen] at hslot
      cases hslot
    rw [Memo.slot?_begin, if_neg hne, hslot]
  | settle answer => rw [Memo.slot?_settle_of_ne _ (List.ne_of_not_mem_cons hname), hslot]

/-- A thread's own marks: it marks what is open, and it settles what it marked last. -/
theorem marked (h : Changes i memo opened memo' opened') (hmarked : memo.Marked i opened) :
    memo'.Marked i opened' := by
  obtain ⟨hslot, hnodup⟩ := hmarked
  cases h with
  | keep hkept => exact ⟨fun name hname => (hkept name).trans (hslot name hname), hnodup⟩
  | @begin _ begun hopen =>
    have hnew : begun ∉ opened := by
      intro hmem
      have hmark := hslot begun hmem
      rw [hopen] at hmark
      cases hmark
    refine ⟨fun name hname => ?_, List.nodup_cons.2 ⟨hnew, hnodup⟩⟩
    rw [Memo.slot?_begin]
    split
    next => rfl
    next hne => exact hslot name (List.mem_of_ne_of_mem hne hname)
  | @settle _ settled answer =>
    obtain ⟨hnew, hrest⟩ := List.nodup_cons.1 hnodup
    refine ⟨fun name hname => ?_, hrest⟩
    have hne : name ≠ settled := fun heq => hnew (heq ▸ hname)
    rw [Memo.slot?_settle_of_ne _ hne]
    exact hslot name (List.mem_cons_of_mem _ hname)

/-- The marks of another thread. -/
theorem marked_of_ne (h : Changes i memo opened memo' opened') (hmarked : memo.Marked i opened)
    {others : List String} (hne : j ≠ i) (hothers : memo.Marked j others) :
    memo'.Marked j others := by
  refine ⟨fun name hname => ?_, hothers.nodup⟩
  have hslot := hothers.slot name hname
  refine h.slot?_of_not_mem hslot (hmarked.not_mem hslot fun heq => hne ?_)
  cases heq
  rfl

/-- A handle that is remembered stays. -/
theorem resolved (h : Changes i memo opened memo' opened') (hmarked : memo.Marked i opened)
    {name : String} {handle : Handle} (hslot : memo.slot? name = some (.resolved handle)) :
    memo'.slot? name = some (.resolved handle) :=
  h.slot?_of_not_mem hslot (hmarked.not_mem hslot nofun)

end Crew.Changes

/-! ## Answers -/

/-- The name that a thread looks up for the request that it is serving. -/
def Thread.served? (thread : Thread) : Option String := thread.pending.head?.bind Request.name?

/-- Of the names that a thread is busy with, the outermost is that of its request. -/
def Thread.Rooted (thread : Thread) : Prop :=
  ∀ name, thread.chain.getLast? = some name → thread.served? = some name

/-- The handle that a thread has come to and is about to hand over. -/
def Phase.found? : Phase → Option Handle
  | announce _ (.ok (some handle)) | deliver (.ok (some handle)) => some handle
  | _ => none

/-- The handles that the requests of a thread were answered with are remembered, unless nobody
    knew the name and a placeholder was made. -/
def Thread.Recorded (memo : Memo) (thread : Thread) : Prop :=
  ∀ request handle name, (request, .ok (some handle)) ∈ thread.finished →
    request.name? = some name → memo.slot? name = some (.resolved handle) ∨
      request = .findOrPlaceholder name ∧ handle.kind = .placeholder name

/-- The handles that a thread came to are those that are remembered. -/
structure Thread.Answered (memo : Memo) (thread : Thread) : Prop where
  rooted : thread.Rooted
  /-- What it settled last. -/
  announced : ∀ name handle, thread.phase = .announce name (.ok (some handle)) →
    memo.slot? name = some (.resolved handle)
  /-- What its request is about to be answered with. -/
  delivered : ∀ handle, thread.phase = .deliver (.ok (some handle)) → thread.stack = [] →
    ∃ name, thread.served? = some name ∧ memo.slot? name = some (.resolved handle)
  recorded : thread.Recorded memo

namespace Thread.Answered

variable {memo memo' : Memo} {thread : Thread}

/-- A thread that is about to hand no handle over. -/
theorem of_found?_eq_none (hrooted : thread.Rooted) (hnone : thread.phase.found? = none)
    (hrecorded : thread.Recorded memo) : thread.Answered memo where
  rooted := hrooted
  announced name handle hphase := by
    rw [hphase] at hnone
    cases hnone
  delivered handle hphase := by
    rw [hphase] at hnone
    cases hnone
  recorded := hrecorded

theorem mono (h : thread.Answered memo)
    (hresolved : ∀ name handle, memo.slot? name = some (.resolved handle) →
      memo'.slot? name = some (.resolved handle)) : thread.Answered memo' where
  rooted := h.rooted
  announced name handle hphase := hresolved name handle (h.announced name handle hphase)
  delivered handle hphase hstack := by
    obtain ⟨name, hserved, hslot⟩ := h.delivered handle hphase hstack
    exact ⟨name, hserved, hresolved name handle hslot⟩
  recorded request handle name hmem hname :=
    (h.recorded request handle name hmem hname).imp_left (hresolved name handle)

theorem wake (h : thread.Answered memo) : (Crew.wake thread).Answered memo := by
  obtain heq | ⟨name, owner, hphase, heq⟩ := Crew.wake_cases thread
  · rw [heq]
    exact h
  · have hrooted : (Crew.wake thread).Rooted := by
      intro name hlast
      rw [Crew.chain_wake] at hlast
      rw [Thread.served?, Crew.pending_wake]
      exact h.rooted name hlast
    rw [heq] at hrooted ⊢
    exact .of_found?_eq_none hrooted rfl h.recorded

end Thread.Answered

namespace Crew

/-- A request is answered with the handle that was found for its name, or with a placeholder. -/
theorem finish_eq_some {memo : Memo} {answer : Answer} {request : Request} {handle : Handle}
    (h : (finish memo answer request).1 = .ok (some handle)) :
    answer = .ok (some handle) ∨
      ∃ name, request = .findOrPlaceholder name ∧ handle.kind = .placeholder name := by
  cases request with
  | find? _ => exact Or.inl h
  | clear => exact Or.inl h
  | find _ =>
    rcases answer with e | _ | found
    · cases h
    · cases h
    · exact Or.inl h
  | findOrPlaceholder name =>
    rcases answer with e | _ | found
    · cases h
    · cases h
      exact Or.inr ⟨name, rfl, rfl⟩
    · exact Or.inl h

namespace Moves

variable {engine : Engine} {i : Nat} {memo memo' : Memo} {edges edges' : List (Nat × WaitEdge)}
  {woken : Bool} {thread thread' : Thread}

theorem rooted (h : Moves engine i memo edges thread memo' edges' woken thread')
    (hrooted : thread.Rooted) : thread'.Rooted := by
  intro last hlast
  -- Where a name comes or goes at the front, the outermost is another only if nothing waits.
  cases h with
  | @take request pending stack finished name hname =>
    cases stack with
    | nil =>
      cases hlast
      exact hname
    | cons frame stack => exact hrooted last hlast
  | ask => exact hrooted last hlast
  | @refuse _ stack | @hit _ stack | @reenter _ stack | @closeRing _ stack | @announce _ stack =>
    cases stack with
    | nil => cases hlast
    | cons frame stack => exact hrooted last hlast
  | finish => cases hlast
  | drop => cases hlast
  | takeClear | meet | begin | sleep | again | exhaust | consult | pass | conclude | make
  | inspect | forget | settle | announceClear | finishClear | resume => exact hrooted last hlast

/-- The handles that a thread comes to are those that are remembered. -/
theorem answered (h : Moves engine i memo edges thread memo' edges' woken thread')
    (hresolved : ∀ name handle, memo.slot? name = some (.resolved handle) →
      memo'.slot? name = some (.resolved handle))
    (hanswered : thread.Answered memo) : thread'.Answered memo' := by
  have hrooted := h.rooted hanswered.rooted
  have hmono := hanswered.mono hresolved
  cases h with
  -- With nothing waiting, the name at hand is the outermost, so it is that of the request.
  | @hit _ stack _ name handle _ hslot =>
    refine ⟨hrooted, fun _ _ => Phase.noConfusion, ?_, hmono.recorded⟩
    rintro _ ⟨⟩ rfl
    exact ⟨name, hanswered.rooted name rfl, hslot⟩
  | @announce _ stack _ name answer =>
    refine ⟨hrooted, fun _ _ => Phase.noConfusion, ?_, hmono.recorded⟩
    rintro handle ⟨⟩ rfl
    exact ⟨name, hanswered.rooted name rfl, hanswered.announced name handle rfl⟩
  | settle =>
    refine ⟨hrooted, ?_, fun _ => Phase.noConfusion, hmono.recorded⟩
    rintro name handle ⟨⟩
    simp only [Memo.slot?, Memo.settle, Table.find?_insert, if_true]
  | @finish request pending finished answer =>
    refine .of_found?_eq_none hrooted rfl fun answered handle name hmem hname => ?_
    rcases List.mem_cons.1 hmem with heq | hmem
    · obtain ⟨rfl, hanswer⟩ := Prod.mk.inj heq
      rcases finish_eq_some hanswer.symm with rfl | ⟨other, rfl, hkind⟩
      · obtain ⟨served, hserved, hslot⟩ := hmono.delivered handle rfl rfl
        cases hserved.symm.trans hname
        exact Or.inl hslot
      · cases hname
        exact Or.inr ⟨rfl, hkind⟩
    · exact hmono.recorded answered handle name hmem hname
  | takeClear | take | refuse | reenter | meet | begin | closeRing | sleep | again | exhaust
  | consult | pass | conclude | ask | make | inspect | forget | announceClear | finishClear
  | resume | drop => exact .of_found?_eq_none hrooted rfl hmono.recorded

end Moves

end Crew

/-! ## Runs in which nothing is forgotten -/

/-- A thread that forgets nothing, whose marks stand and whose handles are remembered. -/
structure Thread.Sound (memo : Memo) (i : Nat) (thread : Thread) : Prop where
  keeps : thread.Keeps
  marked : memo.Marked i thread.opened
  answered : thread.Answered memo

namespace Crew

theorem sound_wake (memo : Memo) (i : Nat) (thread : Thread) (h : thread.Sound memo i) :
    (wake thread).Sound memo i where
  keeps := keeps_wake h.keeps
  marked := by
    rw [opened_wake]
    exact h.marked
  answered := h.answered.wake

theorem sound_ofRequests {requests : List Request} (h : Request.clear ∉ requests) (i : Nat) :
    (Thread.ofRequests requests).Sound .empty i where
  keeps := ⟨h, trivial, nofun⟩
  marked := ⟨nofun, .nil⟩
  answered := .of_found?_eq_none nofun rfl nofun

variable {engine : Engine} {crew later start : Crew}

/-- Every move keeps the thread that moves sound, and all others. -/
theorem Moves.sound (hengine : ∀ entry ∈ engine.providers, entry.2.Keeps) {i : Nat}
    {memo memo' : Memo} {edges edges' : List (Nat × WaitEdge)} {woken : Bool}
    {thread thread' : Thread}
    (h : Moves engine i memo edges thread memo' edges' woken thread')
    (hsound : thread.Sound memo i) :
    thread'.Sound memo' i ∧
      ∀ j (other : Thread), j ≠ i → other.Sound memo j → other.Sound memo' j := by
  have hchanges : Changes i memo thread.opened memo' thread'.opened :=
    h.changes.resolve_right fun hclear => hsound.keeps.not_forgets hclear.2.2
  have hresolved : ∀ name handle, memo.slot? name = some (.resolved handle) →
      memo'.slot? name = some (.resolved handle) := fun _ _ => hchanges.resolved hsound.marked
  constructor
  · exact ⟨h.keeps hengine hsound.keeps, hchanges.marked hsound.marked,
      h.answered hresolved hsound.answered⟩
  · intro j other hne hother
    exact ⟨hother.keeps, hchanges.marked_of_ne hsound.marked hne hother.marked,
      hother.answered.mono hresolved⟩

/-- Every thread is sound in every state that steps lead to from a state where it is. -/
theorem sound_of_reachable (hengine : ∀ entry ∈ engine.providers, entry.2.Keeps)
    (hstart : Each Thread.Sound start)
    (hcrew : Reachable engine start crew) : Each Thread.Sound crew :=
  hstart.of_reachable sound_wake (fun _ _ _ _ _ _ _ _ hmoves => hmoves.sound hengine) hcrew

/-- A handle that is remembered is remembered in every later state. -/
theorem resolved_of_reachable (hengine : ∀ entry ∈ engine.providers, entry.2.Keeps)
    (hcrew : Each Thread.Sound crew)
    (hlater : Reachable engine crew later) {name : String} {handle : Handle}
    (hslot : crew.memo.slot? name = some (.resolved handle)) :
    later.memo.slot? name = some (.resolved handle) := by
  induction hlater with
  | refl => exact hslot
  | @step middle last i hmiddle hstep ih =>
    obtain ⟨thread, hthread, _, _, hmoves, _⟩ := does_of_step hstep
    have hsound := sound_of_reachable hengine hcrew hmiddle i thread hthread
    have hchanges := hmoves.changes.resolve_right fun hclear => hsound.keeps.not_forgets hclear.2.2
    exact hchanges.resolved hsound.marked ih

/-! ## Calls -/

/-- A thread is resolving a name: its providers are consulted, and the name is yet to be
    settled. -/
def Resolves (crew : Crew) (i : Nat) (name : String) : Prop :=
  ∃ thread, crew.threads[i]? = some thread ∧ name ∈ thread.opened

theorem Resolves.marked {i : Nat} {name : String} (h : crew.Resolves i name)
    (hcrew : Each Thread.Sound crew) : crew.memo.slot? name = some (.loading i) := by
  obtain ⟨thread, hthread, hname⟩ := h
  exact (hcrew i thread hthread).marked.slot name hname

/-- A call for a name that a thread makes returns a handle that the engine has from a
    provider. -/
inductive Returns (engine : Engine) (crew : Crew) (i : Nat) (name : String) (handle : Handle) :
    Prop where
  /-- The thread is busy with the name, and after its next step it hands the handle to what
      asked for the name: a provider or the request. -/
  | call {before after : Thread} {next : Crew} (hbefore : crew.threads[i]? = some before)
    (hname : before.phase.name? = some name) (hstep : crew.step engine i = some next)
    (hafter : next.threads[i]? = some after) (hphase : after.phase = .deliver (.ok (some handle)))
  /-- The thread has finished a request for the name with the handle, which is no placeholder
      made for the request. -/
  | request {thread : Thread} {request : Request} (hthread : crew.threads[i]? = some thread)
    (hfinished : (request, .ok (some handle)) ∈ thread.finished)
    (hname : request.name? = some name)
    (hmade : request = .findOrPlaceholder name → handle.kind ≠ .placeholder name)

/-- Whoever settled a name with an answer returns it next. -/
theorem exists_step_of_announce {i : Nat} {thread : Thread} {name : String} {answer : Answer}
    (hthread : crew.threads[i]? = some thread) (hphase : thread.phase = .announce name answer) :
    ∃ next after, crew.step engine i = some next ∧ next.threads[i]? = some after ∧
      after.phase = .deliver answer := by
  obtain ⟨pending, stack, phase, finished⟩ := thread
  cases hphase
  have hstep : crew.step engine i =
      some (crew.stepAnnounce i ⟨pending, stack, .announce name answer, finished⟩ name answer) := by
    rw [step, hthread]
  have hafter : (moved crew.threads i true ⟨pending, stack, .deliver answer, finished⟩)[i]? =
      some ⟨pending, stack, .deliver answer, finished⟩ :=
    getElem?_moved_self (Array.getElem?_eq_some_iff.1 hthread).1
  exact ⟨_, _, hstep, hafter, rfl⟩

theorem Returns.of_announce {i : Nat} {thread : Thread} {name : String} {handle : Handle}
    (hthread : crew.threads[i]? = some thread)
    (hphase : thread.phase = .announce name (.ok (some handle))) :
    crew.Returns engine i name handle := by
  obtain ⟨next, after, hstep, hafter, hdeliver⟩ := exists_step_of_announce hthread hphase
  exact .call hthread (by rw [hphase, Phase.name?]) hstep hafter hdeliver

/-- What a call returns is remembered. -/
theorem Returns.resolved {i : Nat} {name : String} {handle : Handle}
    (h : crew.Returns engine i name handle)
    (hcrew : Each Thread.Sound crew) :
    crew.memo.slot? name = some (.resolved handle) := by
  cases h with
  | @call before after next hbefore hname hstep hafter hphase =>
    obtain ⟨thread, hthread, woken, thread', hmoves, hthreads⟩ := does_of_step hstep
    cases hthread.symm.trans hbefore
    rw [hthreads, getElem?_moved_self (Array.getElem?_eq_some_iff.1 hthread).1] at hafter
    cases hafter
    rcases hmoves.found_cases hname hphase with hslot | hannounce
    · exact hslot
    · exact (hcrew i _ hthread).answered.announced name handle hannounce
  | @request thread _ hthread hfinished hname hmade =>
    have hrecorded := (hcrew i thread hthread).answered.recorded _ _ _ hfinished hname
    rcases hrecorded with hslot | ⟨rfl, hkind⟩
    · exact hslot
    · exact absurd hkind (hmade rfl)

/-- **A name is resolved by one thread at a time, and to one handle**, whatever the order in
    which threads take their steps, as long as no request and no provider makes the engine
    forget.  A handle that is remembered stays, and nobody resolves its name again; all calls for
    a name that return a handle from a provider return the same. -/
theorem resolved_once {requests : List (List Request)}
    (hrequests : ∀ calls ∈ requests, Request.clear ∉ calls)
    (hengine : ∀ entry ∈ engine.providers, entry.2.Keeps)
    (hcrew : Reachable engine (ofRequests requests) crew) (hlater : Reachable engine crew later) :
    (∀ i j name, crew.Resolves i name → crew.Resolves j name → i = j) ∧
      (∀ (i : Nat) (thread : Thread), crew.threads[i]? = some thread → thread.opened.Nodup) ∧
      (∀ name handle, crew.memo.slot? name = some (.resolved handle) →
        later.memo.slot? name = some (.resolved handle) ∧ ∀ i, ¬ later.Resolves i name) ∧
      ∀ i j name handle handle', crew.Returns engine i name handle →
        later.Returns engine j name handle' → handle = handle' := by
  have hstart := Each.ofRequests fun i calls hcalls => sound_ofRequests (hrequests calls hcalls) i
  have hsound := sound_of_reachable hengine hstart hcrew
  have hsound' := sound_of_reachable hengine hsound hlater
  refine ⟨fun i j name hfirst hsecond => ?_, fun i thread hthread =>
    (hsound i thread hthread).marked.nodup, fun name handle hslot => ?_,
    fun i j name handle handle' hreturns hreturns' => ?_⟩
  · have hmark := hfirst.marked hsound
    rw [hsecond.marked hsound] at hmark
    cases hmark
    rfl
  · have hkept := resolved_of_reachable hengine hsound hlater hslot
    refine ⟨hkept, fun i hresolves => ?_⟩
    rw [hresolves.marked hsound'] at hkept
    cases hkept
  · have hkept := resolved_of_reachable hengine hsound hlater (hreturns.resolved hsound)
    rw [hreturns'.resolved hsound'] at hkept
    cases hkept
    rfl

/-! ## An array and its component -/

end Crew

theorem Provider.keeps_wellKnown : Provider.wellKnown.Keeps := by
  intro turn name
  simp only [wellKnown]
  split
  next => exact .answer _
  next =>
    split
    next component _ =>
      refine .ask fun found => ?_
      rcases found with e | _ | handle
      · exact .done _
      · exact .make fun _ => .look (.answer _)
      · exact .look (.answer _)
    next => exact .unknown

namespace Crew

/-- One thread asks for an array, another for its component: the second gets the handle that
    the first settled for the array, before the first has woken anybody. -/
theorem resolved_once_component :
    ∃ crew later handle,
      Reachable ⟨[(0, .wellKnown)]⟩ (ofRequests [[.find "int[]"], [.find? "int"]]) crew ∧
        Reachable ⟨[(0, .wellKnown)]⟩ crew later ∧
        crew.Resolves 0 "int[]" ∧ (∀ j, crew.Resolves j "int[]" → 0 = j) ∧
        crew.Returns ⟨[(0, .wellKnown)]⟩ 0 "int" handle ∧
        later.Returns ⟨[(0, .wellKnown)]⟩ 1 "int" handle ∧
        ∀ handle', later.Returns ⟨[(0, .wellKnown)]⟩ 1 "int" handle' → handle = handle' := by
  obtain ⟨crew, later, first, second, hcrew, hlater, hthread, hphase, hopened, hthread',
      hfinished⟩ : ∃ crew later first second,
      [0, 0, 0, 0, 0, 0, 0, 0, 0].foldlM (fun (crew : Crew) i => crew.step ⟨[(0, .wellKnown)]⟩ i)
          (ofRequests [[.find "int[]"], [.find? "int"]]) = some crew ∧
        [1, 1, 1].foldlM (fun (crew : Crew) i => crew.step ⟨[(0, .wellKnown)]⟩ i) crew =
          some later ∧
        crew.threads[0]? = some first ∧
        first.phase = .announce "int" (.ok (some (.mk 0 (.primitive .int)))) ∧
        first.opened = ["int[]"] ∧
        later.threads[1]? = some second ∧
        second.finished = [(.find? "int", .ok (some (.mk 0 (.primitive .int))))] :=
    ⟨_, _, _, _, rfl, rfl, rfl, rfl, rfl, rfl, rfl⟩
  have hresolves : crew.Resolves 0 "int[]" := ⟨first, hthread, hopened ▸ List.mem_cons_self⟩
  have hreturns : crew.Returns ⟨[(0, .wellKnown)]⟩ 0 "int" (.mk 0 (.primitive .int)) :=
    .of_announce hthread hphase
  have hmem : (Request.find? "int", .ok (some (.mk 0 (.primitive .int)))) ∈ second.finished := by
    rw [hfinished]
    exact List.mem_cons_self
  have hreturns' : later.Returns ⟨[(0, .wellKnown)]⟩ 1 "int" (.mk 0 (.primitive .int)) :=
    .request hthread' hmem rfl nofun
  obtain ⟨honce, -, -, hsame⟩ := resolved_once (by decide)
    (List.forall_mem_singleton.2 Provider.keeps_wellKnown) (.of_foldlM hcrew) (.of_foldlM hlater)
  exact ⟨crew, later, _, .of_foldlM hcrew, .of_foldlM hlater, hresolves,
    fun j => honce 0 j "int[]" hresolves, hreturns, hreturns',
    fun handle' => hsame 0 1 "int" _ handle' hreturns⟩

end Crew

end TypeAtlas
