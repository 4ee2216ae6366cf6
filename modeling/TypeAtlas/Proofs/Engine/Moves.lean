/-
  The steps of threads.

  A step of a thread changes the thread, the memo and the edges; the other threads
  stay as they are, or those that sleep are woken.

  * `Crew.Moves` lists what a thread can do, with one case for each kind of step, and
    `Crew.does_of_step` says that it does nothing else;
  * `Crew.Each` holds of a crew if a property holds of each of its threads;
    `Crew.Each.of_reachable` is the induction over the steps of all threads;
  * `Thread.Keeps`: a thread that never makes the engine forget; `Thread.forgets`: one whose
    next step does;
  * `Thread.opened` are the names that a thread is resolving, and `Crew.Changes` says
    what a move of such a thread does to them and to the slots.
-/
import TypeAtlas.Engine.Threads
import TypeAtlas.Proofs.Engine.Marks

namespace TypeAtlas

/-! ## What threads have in hand -/

namespace Phase

/-- The name that a thread is busy with. -/
def name? : Phase → Option String
  | look name | check name _ | asleep name _ | consult name _ | inquire name _ _
  | settle name _ | announce name _ | announceClear name _ _ => some name
  | idle | finishClear | deliver _ => none

/-- The name that a thread is busy with, if it has marked it and has yet to settle it. -/
def opened? : Phase → Option String
  | consult name _ | inquire name _ _ | settle name _ | announceClear name _ _ => some name
  | idle | look _ | check _ _ | asleep _ _ | announce _ _ | finishClear | deliver _ => none

end Phase

namespace Thread

/-- The names that a thread is busy with, innermost first: each was asked for in the
    resolution of the next. -/
def chain (thread : Thread) : List String :=
  thread.phase.name?.toList ++ thread.stack.map Frame.name

/-- The names that a thread is resolving, innermost first. -/
def opened (thread : Thread) : List String :=
  thread.phase.opened?.toList ++ thread.stack.map Frame.name

end Thread

namespace Crew

/-! ## Waking -/

theorem wake_cases (thread : Thread) :
    wake thread = thread ∨ ∃ name owner, thread.phase = .asleep name owner ∧
      wake thread = { thread with phase := .check name owner } := by
  unfold wake
  split
  next name owner hphase => exact Or.inr ⟨name, owner, hphase, rfl⟩
  next => exact Or.inl rfl

@[simp] theorem pending_wake (thread : Thread) : (wake thread).pending = thread.pending := by
  obtain h | ⟨name, owner, -, h⟩ := wake_cases thread <;> rw [h]

@[simp] theorem chain_wake (thread : Thread) : (wake thread).chain = thread.chain := by
  obtain h | ⟨name, owner, hphase, h⟩ := wake_cases thread
  · rw [h]
  · simp only [h, Thread.chain, hphase, Phase.name?]

@[simp] theorem opened_wake (thread : Thread) : (wake thread).opened = thread.opened := by
  obtain h | ⟨name, owner, hphase, h⟩ := wake_cases thread
  · rw [h]
  · simp only [h, Thread.opened, hphase, Phase.opened?]

/-! ## What a thread can do -/

/-- What the thread of number `i` can do: from the memo, the edges and the thread to what
    becomes of them, and whether the threads that sleep are woken. -/
inductive Moves (engine : Engine) (i : Nat) (memo : Memo) (edges : List (Nat × WaitEdge)) :
    Thread → Memo → List (Nat × WaitEdge) → (woken : Bool) → Thread → Prop where
  /-- It takes up a request to forget everything. -/
  | takeClear {pending stack finished} :
    Moves engine i memo edges ⟨.clear :: pending, stack, .idle, finished⟩
      memo.clear edges false ⟨.clear :: pending, stack, .finishClear, finished⟩
  /-- It takes up a request for a name. -/
  | take {request pending stack finished name} (hname : request.name? = some name) :
    Moves engine i memo edges ⟨request :: pending, stack, .idle, finished⟩
      memo edges false ⟨request :: pending, stack, .look name, finished⟩
  /-- There is nobody to consult. -/
  | refuse {pending stack finished name} (hproviders : engine.providers.isEmpty = true) :
    Moves engine i memo edges ⟨pending, stack, .look name, finished⟩
      memo edges false ⟨pending, stack, .deliver (.error .noProviders), finished⟩
  /-- The handle of the name is remembered. -/
  | hit {pending stack finished name handle} (hproviders : engine.providers.isEmpty = false)
    (hslot : memo.slot? name = some (.resolved handle)) :
    Moves engine i memo edges ⟨pending, stack, .look name, finished⟩
      memo edges false ⟨pending, stack, .deliver (.ok (some handle)), finished⟩
  /-- The name carries its own mark. -/
  | reenter {pending stack finished name} (hproviders : engine.providers.isEmpty = false)
    (hslot : memo.slot? name = some (.loading i)) :
    Moves engine i memo edges ⟨pending, stack, .look name, finished⟩
      memo edges false ⟨pending, stack, .deliver (.error (.cycle name)), finished⟩
  /-- The name carries the mark of another. -/
  | meet {pending stack finished name owner} (hproviders : engine.providers.isEmpty = false)
    (hslot : memo.slot? name = some (.loading owner)) (howner : owner ≠ i) :
    Moves engine i memo edges ⟨pending, stack, .look name, finished⟩
      memo edges false ⟨pending, stack, .check name owner, finished⟩
  /-- It marks an open name. -/
  | begin {pending stack finished name} (hproviders : engine.providers.isEmpty = false)
    (hslot : memo.slot? name = none) :
    Moves engine i memo edges ⟨pending, stack, .look name, finished⟩
      (memo.begin i name) edges false ⟨pending, stack, .consult name engine.providers, finished⟩
  /-- The owner of the mark waits for it, through others or at once. -/
  | closeRing {pending stack finished name owner} (hmark : isMarkedBy memo name owner = true)
    (hring : leadsTo edges i (edges.length + 1) owner = true) :
    Moves engine i memo edges ⟨pending, stack, .check name owner, finished⟩
      memo (dropEdge edges i) false ⟨pending, stack, .deliver (.error (.cycle name)), finished⟩
  /-- It falls asleep. -/
  | sleep {pending stack finished name owner} (hmark : isMarkedBy memo name owner = true)
    (hring : leadsTo edges i (edges.length + 1) owner = false) :
    Moves engine i memo edges ⟨pending, stack, .check name owner, finished⟩
      memo ((i, ⟨owner, name⟩) :: dropEdge edges i) false
      ⟨pending, stack, .asleep name owner, finished⟩
  /-- The mark is gone, and it looks again. -/
  | again {pending stack finished name owner} (hmark : isMarkedBy memo name owner = false) :
    Moves engine i memo edges ⟨pending, stack, .check name owner, finished⟩
      memo (dropEdge edges i) false ⟨pending, stack, .look name, finished⟩
  /-- No provider knows the name. -/
  | exhaust {pending stack finished name} :
    Moves engine i memo edges ⟨pending, stack, .consult name [], finished⟩
      memo edges false ⟨pending, stack, .settle name (.ok none), finished⟩
  /-- It turns to the next provider. -/
  | consult {pending stack finished name number provider rest} :
    Moves engine i memo edges ⟨pending, stack, .consult name ((number, provider) :: rest), finished⟩
      (memo.consult number name) edges false
      ⟨pending, stack, .inquire name rest (provider.inquire memo.turn name), finished⟩
  /-- The provider does not know the name. -/
  | pass {pending stack finished name rest} :
    Moves engine i memo edges ⟨pending, stack, .inquire name rest (.done (.ok none)), finished⟩
      memo edges false ⟨pending, stack, .consult name rest, finished⟩
  /-- The provider answers or fails. -/
  | conclude {pending stack finished name rest answer} (hanswer : answer ≠ .ok none) :
    Moves engine i memo edges ⟨pending, stack, .inquire name rest (.done answer), finished⟩
      memo edges false ⟨pending, stack, .settle name answer, finished⟩
  /-- The provider asks for another name. -/
  | ask {pending stack finished name rest other next} :
    Moves engine i memo edges ⟨pending, stack, .inquire name rest (.ask other next), finished⟩
      memo edges false ⟨pending, ⟨name, rest, next⟩ :: stack, .look other, finished⟩
  /-- The provider makes a handle. -/
  | make {pending stack finished name rest kind next} :
    Moves engine i memo edges ⟨pending, stack, .inquire name rest (.make kind next), finished⟩
      (memo.make kind).2 edges false
      ⟨pending, stack, .inquire name rest (next (memo.make kind).1), finished⟩
  /-- The provider looks at a shape. -/
  | inspect {pending stack finished name rest handle next} :
    Moves engine i memo edges ⟨pending, stack, .inquire name rest (.look handle next), finished⟩
      (memo.look handle) edges false ⟨pending, stack, .inquire name rest next, finished⟩
  /-- The provider makes the engine forget everything. -/
  | forget {pending stack finished name rest next} :
    Moves engine i memo edges ⟨pending, stack, .inquire name rest (.clear next), finished⟩
      memo.clear edges false ⟨pending, stack, .announceClear name rest next, finished⟩
  /-- It settles the name. -/
  | settle {pending stack finished name answer} :
    Moves engine i memo edges ⟨pending, stack, .settle name answer, finished⟩
      (memo.settle i name answer) edges false ⟨pending, stack, .announce name answer, finished⟩
  /-- It wakes the others after it settled the name. -/
  | announce {pending stack finished name answer} :
    Moves engine i memo edges ⟨pending, stack, .announce name answer, finished⟩
      memo (edges.filter fun entry => entry.2 != ⟨i, name⟩) true
      ⟨pending, stack, .deliver answer, finished⟩
  /-- It wakes the others after its provider made the engine forget. -/
  | announceClear {pending stack finished name rest next} :
    Moves engine i memo edges ⟨pending, stack, .announceClear name rest next, finished⟩
      memo [] true ⟨pending, stack, .inquire name rest next, finished⟩
  /-- It wakes the others after it made the engine forget. -/
  | finishClear {pending stack finished} :
    Moves engine i memo edges ⟨pending, stack, .finishClear, finished⟩
      memo [] true ⟨pending, stack, .deliver (.ok none), finished⟩
  /-- A provider goes on with the answer that it asked for. -/
  | resume {pending frame stack finished answer} :
    Moves engine i memo edges ⟨pending, frame :: stack, .deliver answer, finished⟩
      memo edges false
      ⟨pending, stack, .inquire frame.name frame.rest (frame.next answer), finished⟩
  /-- A request is finished. -/
  | finish {request pending finished answer} :
    Moves engine i memo edges ⟨request :: pending, [], .deliver answer, finished⟩
      (finish memo answer request).2 edges false
      ⟨pending, [], .idle, (request, (finish memo answer request).1) :: finished⟩
  /-- There is no request that the answer belongs to. -/
  | drop {finished answer} :
    Moves engine i memo edges ⟨[], [], .deliver answer, finished⟩
      memo edges false ⟨[], [], .idle, finished⟩

/-- The threads after a step of one of them, which became `thread'`. -/
def moved (threads : Array Thread) (i : Nat) (woken : Bool) (thread' : Thread) : Array Thread :=
  (if woken then threads.map wake else threads).setIfInBounds i thread'

section

variable {threads : Array Thread} {i j : Nat} {woken : Bool} {thread' : Thread}

theorem getElem?_moved_self (h : i < threads.size) :
    (moved threads i woken thread')[i]? = some thread' := by
  have hsize : i < (if woken then threads.map wake else threads).size := by
    split <;> simpa using h
  rw [moved, Array.getElem?_setIfInBounds_self_of_lt hsize]

theorem getElem?_moved_of_ne (h : j ≠ i) :
    (moved threads i woken thread')[j]? =
      if woken then threads[j]?.map wake else threads[j]? := by
  rw [moved, Array.getElem?_setIfInBounds_ne h.symm]
  split
  · rw [Array.getElem?_map]
  · rfl

/-- Another thread stays as it is or is woken. -/
theorem getElem?_moved_eq_some_iff {after : Thread} (h : j ≠ i) :
    (moved threads i woken thread')[j]? = some after ↔
      ∃ before, threads[j]? = some before ∧ (if woken then wake before else before) = after := by
  rw [getElem?_moved_of_ne h]
  cases woken with
  | false => simp only [Bool.false_eq_true, if_false, exists_eq_right]
  | true => simp only [if_true, Option.map_eq_some_iff]

end

/-- From one crew to the next, the thread of number `i`, which was `thread`, does one of the
    things that it can do. -/
def Does (engine : Engine) (crew : Crew) (i : Nat) (thread : Thread) (next : Crew) : Prop :=
  ∃ woken thread', Moves engine i crew.memo crew.edges thread next.memo next.edges woken thread' ∧
    next.threads = moved crew.threads i woken thread'

section

variable {engine : Engine} {crew next : Crew} {i : Nat} {thread : Thread}

theorem does_stepIdle (hphase : thread.phase = .idle) (h : crew.stepIdle i thread = some next) :
    Does engine crew i thread next := by
  obtain ⟨pending, stack, phase, finished⟩ := thread
  cases hphase
  rcases pending with _ | ⟨request, pending⟩
  · cases h
  · cases request with
    | find? name =>
      cases h
      exact ⟨false, _, .take rfl, rfl⟩
    | find name =>
      cases h
      exact ⟨false, _, .take rfl, rfl⟩
    | findOrPlaceholder name =>
      cases h
      exact ⟨false, _, .take rfl, rfl⟩
    | clear =>
      cases h
      exact ⟨false, _, .takeClear, rfl⟩

theorem does_stepLook {name : String} (hphase : thread.phase = .look name) :
    Does engine crew i thread (crew.stepLook engine i thread name) := by
  obtain ⟨pending, stack, phase, finished⟩ := thread
  cases hphase
  unfold stepLook
  split
  next hproviders => exact ⟨false, _, .refuse hproviders, rfl⟩
  next hproviders =>
    have hsome := eq_false_of_ne_true hproviders
    split
    next hslot => exact ⟨false, _, .hit hsome hslot, rfl⟩
    next owner hslot =>
      split
      next howner => exact ⟨false, _, .reenter hsome (howner ▸ hslot), rfl⟩
      next howner => exact ⟨false, _, .meet hsome hslot howner, rfl⟩
    next hslot => exact ⟨false, _, .begin hsome hslot, rfl⟩

theorem does_stepCheck {name : String} {owner : Nat} (hphase : thread.phase = .check name owner) :
    Does engine crew i thread (crew.stepCheck i thread name owner) := by
  obtain ⟨pending, stack, phase, finished⟩ := thread
  cases hphase
  unfold stepCheck
  split
  next hmark =>
    split
    next hring => exact ⟨false, _, .closeRing hmark hring, rfl⟩
    next hring => exact ⟨false, _, .sleep hmark (eq_false_of_ne_true hring), rfl⟩
  next hmark => exact ⟨false, _, .again (eq_false_of_ne_true hmark), rfl⟩

theorem does_stepConsult {name : String} {rest : List (Nat × Provider)}
    (hphase : thread.phase = .consult name rest) :
    Does engine crew i thread (crew.stepConsult i thread name rest) := by
  obtain ⟨pending, stack, phase, finished⟩ := thread
  cases hphase
  rcases rest with _ | ⟨⟨number, provider⟩, rest⟩
  · exact ⟨false, _, .exhaust, rfl⟩
  · exact ⟨false, _, .consult, rfl⟩

theorem does_stepInquire {name : String} {rest : List (Nat × Provider)} {inquiry : Inquiry}
    (hphase : thread.phase = .inquire name rest inquiry) :
    Does engine crew i thread (crew.stepInquire i thread name rest inquiry) := by
  obtain ⟨pending, stack, phase, finished⟩ := thread
  cases hphase
  cases inquiry with
  | done answer =>
    rcases answer with e | _ | handle
    · exact ⟨false, _, .conclude nofun, rfl⟩
    · exact ⟨false, _, .pass, rfl⟩
    · exact ⟨false, _, .conclude nofun, rfl⟩
  | ask other next => exact ⟨false, _, .ask, rfl⟩
  | make kind next => exact ⟨false, _, .make, rfl⟩
  | look handle next => exact ⟨false, _, .inspect, rfl⟩
  | clear next => exact ⟨false, _, .forget, rfl⟩

theorem does_stepDeliver {answer : Answer} (hphase : thread.phase = .deliver answer) :
    Does engine crew i thread (crew.stepDeliver i thread answer) := by
  obtain ⟨pending, stack, phase, finished⟩ := thread
  cases hphase
  rcases stack with _ | ⟨frame, stack⟩
  · rcases pending with _ | ⟨request, pending⟩
    · exact ⟨false, _, .drop, rfl⟩
    · exact ⟨false, _, .finish, rfl⟩
  · exact ⟨false, _, .resume, rfl⟩

/-- A step is one of the things that a thread can do. -/
theorem does_of_step (h : crew.step engine i = some next) :
    ∃ thread, crew.threads[i]? = some thread ∧ Does engine crew i thread next := by
  unfold step at h
  split at h
  next => cases h
  next thread hthread =>
    refine ⟨thread, hthread, ?_⟩
    obtain ⟨pending, stack, phase, finished⟩ := thread
    cases phase with
    | idle => exact does_stepIdle rfl h
    | look name =>
      cases h
      exact does_stepLook rfl
    | check name owner =>
      cases h
      exact does_stepCheck rfl
    | asleep name owner => cases h
    | consult name rest =>
      cases h
      exact does_stepConsult rfl
    | inquire name rest inquiry =>
      cases h
      exact does_stepInquire rfl
    | settle name answer =>
      cases h
      exact ⟨false, _, .settle, rfl⟩
    | announce name answer =>
      cases h
      exact ⟨true, _, .announce, rfl⟩
    | announceClear name rest next =>
      cases h
      exact ⟨true, _, .announceClear, rfl⟩
    | finishClear =>
      cases h
      exact ⟨true, _, .finishClear, rfl⟩
    | deliver answer =>
      cases h
      exact does_stepDeliver rfl

end

/-! ## Steps of all threads -/

namespace Reachable

variable {engine : Engine} {start crew later : Crew}

theorem trans (h : Reachable engine start crew) (h' : Reachable engine crew later) :
    Reachable engine start later := by
  induction h' with
  | refl => exact h
  | step i _ hstep ih => exact .step i ih hstep

/-- Steps lead to the state after steps of threads in a given order. -/
theorem of_foldlM {order : List Nat}
    (h : order.foldlM (fun (crew : Crew) i => crew.step engine i) start = some crew) :
    Reachable engine start crew := by
  induction order generalizing start with
  | nil =>
    cases h
    exact .refl
  | cons i order ih =>
    rw [List.foldlM_cons] at h
    obtain ⟨next, hstep, hrest⟩ := Option.bind_eq_some_iff.1 h
    exact (Reachable.step i .refl hstep).trans (ih hrest)

end Reachable

/-! ## Properties of each thread -/

/-- A property, which may depend on the memo and on the number of the thread, holds of each
    thread. -/
def Each (p : Memo → Nat → Thread → Prop) (crew : Crew) : Prop :=
  ∀ i thread, crew.threads[i]? = some thread → p crew.memo i thread

namespace Each

variable {engine : Engine} {crew next start : Crew} {i : Nat} {p : Memo → Nat → Thread → Prop}

/-- It still holds of each thread after a step if it holds of the thread that moved, and the
    step keeps it for the others. -/
theorem of_moved (h : Each p crew) {woken : Bool} {thread' : Thread}
    (hthreads : next.threads = moved crew.threads i woken thread') (hi : i < crew.threads.size)
    (hwake : ∀ j thread, p next.memo j thread → p next.memo j (wake thread))
    (hself : p next.memo i thread')
    (hothers : ∀ j other, j ≠ i → p crew.memo j other → p next.memo j other) : Each p next := by
  intro j after hafter
  rw [hthreads] at hafter
  by_cases hj : j = i
  · subst hj
    rw [getElem?_moved_self hi] at hafter
    cases hafter
    exact hself
  · obtain ⟨before, hbefore, rfl⟩ := (getElem?_moved_eq_some_iff hj).1 hafter
    have hkept := hothers j before hj (h j before hbefore)
    split
    · exact hwake j before hkept
    · exact hkept

section

variable (hwake : ∀ memo j thread, p memo j thread → p memo j (wake thread))
  (hmove : ∀ i memo edges thread memo' edges' woken thread',
    Moves engine i memo edges thread memo' edges' woken thread' → p memo i thread →
      p memo' i thread' ∧ ∀ j other, j ≠ i → p memo j other → p memo' j other)

include hwake hmove

/-- It still holds of each thread after a step if every move keeps it, of the thread that
    moves and of the others. -/
theorem step (h : Each p crew) (hstep : crew.step engine i = some next) : Each p next := by
  obtain ⟨thread, hthread, woken, thread', hmoves, hthreads⟩ := does_of_step hstep
  obtain ⟨hself, hothers⟩ := hmove _ _ _ _ _ _ _ _ hmoves (h i thread hthread)
  exact h.of_moved hthreads (Array.getElem?_eq_some_iff.1 hthread).1 (hwake next.memo) hself hothers

/-- It holds of each thread in every state that steps lead to. -/
theorem of_reachable (h : Each p start) (hcrew : Reachable engine start crew) : Each p crew := by
  induction hcrew with
  | refl => exact h
  | step i _ hstep ih => exact ih.step hwake hmove hstep

end

/-- It holds before the first step if it holds of the threads that have yet to send their
    requests. -/
theorem ofRequests {requests : List (List Request)}
    (h : ∀ i, ∀ calls ∈ requests, p .empty i (.ofRequests calls)) :
    Each p (Crew.ofRequests requests) := by
  intro i thread hthread
  have hmem : thread ∈ requests.map Thread.ofRequests :=
    List.mem_toArray.1 (Array.mem_of_getElem? hthread)
  obtain ⟨calls, hcalls, rfl⟩ := List.mem_map.1 hmem
  exact h i calls hcalls

end Each

end Crew

/-! ## Threads that keep what is remembered -/

/-- A provider that does not make the engine forget. -/
def Provider.Keeps (provider : Provider) : Prop :=
  ∀ turn name, (provider.inquire turn name).Keeps

/-- A waiting resolution in which the engine is not made to forget. -/
structure Frame.Keeps (frame : Frame) : Prop where
  rest : ∀ entry ∈ frame.rest, entry.2.Keeps
  next : ∀ answer, (frame.next answer).Keeps

/-- What a thread does next does not make the engine forget. -/
def Phase.Keeps : Phase → Prop
  | consult _ rest => ∀ entry ∈ rest, entry.2.Keeps
  | inquire _ rest inquiry => (∀ entry ∈ rest, entry.2.Keeps) ∧ inquiry.Keeps
  | announceClear _ _ _ | finishClear => False
  | idle | look _ | check _ _ | asleep _ _ | settle _ _ | announce _ _ | deliver _ => True

/-- A thread that neither forgets everything nor consults a provider that does. -/
structure Thread.Keeps (thread : Thread) : Prop where
  pending : Request.clear ∉ thread.pending
  phase : thread.phase.Keeps
  stack : ∀ frame ∈ thread.stack, frame.Keeps

/-- The next step of a thread makes the engine forget everything. -/
def Thread.forgets (thread : Thread) : Bool :=
  match thread.phase, thread.pending with
  | .idle, .clear :: _ => true
  | .inquire _ _ (.clear _), _ => true
  | _, _ => false

theorem Thread.Keeps.not_forgets {thread : Thread} (h : thread.Keeps) :
    ¬ thread.forgets = true := by
  obtain ⟨hpending, hphase, -⟩ := h
  intro hforgets
  unfold forgets at hforgets
  split at hforgets
  next pending _ hclear =>
    rw [hclear] at hpending
    exact hpending List.mem_cons_self
  next hinquire =>
    rw [hinquire] at hphase
    cases hphase.2
  next => cases hforgets

namespace Crew

theorem keeps_wake {thread : Thread} (h : thread.Keeps) : (wake thread).Keeps := by
  obtain heq | ⟨name, owner, -, heq⟩ := wake_cases thread
  · rw [heq]
    exact h
  · rw [heq]
    exact ⟨h.pending, trivial, h.stack⟩

namespace Moves

variable {engine : Engine} {i : Nat} {memo memo' : Memo} {edges edges' : List (Nat × WaitEdge)}
  {woken : Bool} {thread thread' : Thread}

theorem keeps (h : Moves engine i memo edges thread memo' edges' woken thread')
    (hengine : ∀ entry ∈ engine.providers, entry.2.Keeps) (hkeeps : thread.Keeps) :
    thread'.Keeps := by
  obtain ⟨hpending, hphase, hstack⟩ := hkeeps
  cases h with
  | takeClear => exact absurd List.mem_cons_self hpending
  | begin => exact ⟨hpending, hengine, hstack⟩
  | consult =>
    obtain ⟨hfirst, hrest⟩ := List.forall_mem_cons.1 hphase
    exact ⟨hpending, ⟨hrest, hfirst _ _⟩, hstack⟩
  | pass => exact ⟨hpending, hphase.1, hstack⟩
  | ask =>
    obtain ⟨hrest, hinquiry⟩ := hphase
    cases hinquiry with
    | ask hnext => exact ⟨hpending, trivial, List.forall_mem_cons.2 ⟨⟨hrest, hnext⟩, hstack⟩⟩
  | make =>
    obtain ⟨hrest, hinquiry⟩ := hphase
    cases hinquiry with
    | make hnext => exact ⟨hpending, ⟨hrest, hnext _⟩, hstack⟩
  | inspect =>
    obtain ⟨hrest, hinquiry⟩ := hphase
    cases hinquiry with
    | look hnext => exact ⟨hpending, ⟨hrest, hnext⟩, hstack⟩
  | forget =>
    obtain ⟨-, hinquiry⟩ := hphase
    cases hinquiry
  | announceClear => exact hphase.elim
  | finishClear => exact hphase.elim
  | resume =>
    obtain ⟨hframe, hstack⟩ := List.forall_mem_cons.1 hstack
    exact ⟨hpending, ⟨hframe.rest, hframe.next _⟩, hstack⟩
  | finish => exact ⟨fun hmem => hpending (List.mem_cons_of_mem _ hmem), trivial, hstack⟩
  | take | refuse | hit | reenter | meet | closeRing | sleep | again | exhaust | conclude
  | settle | announce | drop => exact ⟨hpending, trivial, hstack⟩

end Moves

/-! ## Slots -/

/-- What a step of the thread of number `i` does to the slots and to the names that the thread
    is resolving, unless it makes the engine forget. -/
inductive Changes (i : Nat) (memo : Memo) : List String → Memo → List String → Prop where
  /-- No slot changes. -/
  | keep {opened memo'} (h : ∀ name, memo'.slot? name = memo.slot? name) :
    Changes i memo opened memo' opened
  /-- It marks an open name. -/
  | begin {opened name} (h : memo.slot? name = none) :
    Changes i memo opened (memo.begin i name) (name :: opened)
  /-- It settles the name that it marked last. -/
  | settle {opened name} (answer : Answer) :
    Changes i memo (name :: opened) (memo.settle i name answer) opened

theorem slot?_finish (memo : Memo) (answer : Answer) (request : Request) (name : String) :
    (finish memo answer request).2.slot? name = memo.slot? name := by
  cases request with
  | find? _ => rfl
  | clear => rfl
  | find _ => rcases answer with e | _ | handle <;> rfl
  | findOrPlaceholder _ => rcases answer with e | _ | handle <;> rfl

/-- A move changes the slots in one of these ways, or everything is forgotten. -/
theorem Moves.changes {engine : Engine} {i : Nat} {memo memo' : Memo}
    {edges edges' : List (Nat × WaitEdge)} {woken : Bool} {thread thread' : Thread}
    (h : Moves engine i memo edges thread memo' edges' woken thread') :
    Changes i memo thread.opened memo' thread'.opened ∨
      memo' = memo.clear ∧ thread'.opened = thread.opened ∧ thread.forgets = true := by
  cases h with
  | takeClear | forget => exact Or.inr ⟨rfl, rfl, rfl⟩
  | begin _ hslot => exact Or.inl (.begin hslot)
  | settle => exact Or.inl (.settle _)
  | consult => exact Or.inl (.keep fun name => memo.slot?_consult name _ _)
  | make => exact Or.inl (.keep fun name => memo.slot?_make name _)
  | inspect => exact Or.inl (.keep fun name => memo.slot?_look name _)
  | finish => exact Or.inl (.keep (slot?_finish memo _ _))
  | take | refuse | hit | reenter | meet | closeRing | sleep | again | exhaust | pass | conclude
  | ask | announce | announceClear | finishClear | resume | drop =>
    exact Or.inl (.keep fun _ => rfl)

/-- A thread that returns a handle of a name found it remembered or has settled it. -/
theorem Moves.found_cases {engine : Engine} {i : Nat} {memo memo' : Memo}
    {edges edges' : List (Nat × WaitEdge)} {woken : Bool} {thread thread' : Thread}
    (h : Moves engine i memo edges thread memo' edges' woken thread') {name : String}
    {handle : Handle} (hname : thread.phase.name? = some name)
    (hphase : thread'.phase = .deliver (.ok (some handle))) :
    memo.slot? name = some (.resolved handle) ∨ thread.phase = .announce name (.ok (some handle)) := by
  cases h with
  | hit _ hslot =>
    cases hname
    cases hphase
    exact Or.inl hslot
  | announce =>
    cases hname
    cases hphase
    exact Or.inr rfl
  | takeClear | take | refuse | reenter | meet | begin | closeRing | sleep | again | exhaust
  | consult | pass | conclude | ask | make | inspect | forget | settle | announceClear
  | finishClear | resume | finish | drop => cases hphase

end Crew

end TypeAtlas
