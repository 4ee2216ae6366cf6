/-
  Threads that share an engine.

  Any number of threads send requests to one engine.  A thread that resolves a
  name marks the name's slot; a thread that finds the mark of another waits until
  the slot changes, unless its waiting would close a cycle of threads that wait
  for each other.

  * `Crew.step` is one atomic step of one thread: looking at a slot and marking
    it, deciding to wait, consulting a provider, settling a slot, waking the
    threads that wait;
  * `Crew.Reachable` holds of the states that any order of steps leads to;
  * `Crew.run` lets the threads take turns.
-/
import TypeAtlas.Engine.Lookup

namespace TypeAtlas

/-! ## Threads -/

/-- What a thread asks of the engine. -/
inductive Request where
  /-- The handle of a name, if somebody knows it. -/
  | find? (name : String)
  /-- The handle of a name that somebody must know. -/
  | find (name : String)
  /-- The handle of a name; a placeholder if nobody knows it. -/
  | findOrPlaceholder (name : String)
  /-- To forget everything. -/
  | clear
  deriving DecidableEq, Repr

/-- A resolution whose provider waits for the answer for another name. -/
structure Frame where
  /-- The name that is resolved. -/
  name : String
  /-- The providers that come after the one that waits. -/
  rest : List (Nat × Provider)
  /-- What the provider does with the answer. -/
  next : Answer → Inquiry

/-- What a thread does next. -/
inductive Phase where
  /-- It takes up its next request. -/
  | idle
  /-- It looks at the slot of a name. -/
  | look (name : String)
  /-- It looks whether it has to wait for the owner of a mark. -/
  | check (name : String) (owner : Nat)
  /-- It waits for the owner of a mark. -/
  | asleep (name : String) (owner : Nat)
  /-- It consults the next provider for a name. -/
  | consult (name : String) (rest : List (Nat × Provider))
  /-- It does what a provider does for a name. -/
  | inquire (name : String) (rest : List (Nat × Provider)) (inquiry : Inquiry)
  /-- It settles the slot of a name. -/
  | settle (name : String) (answer : Answer)
  /-- It wakes the threads that wait for a name. -/
  | announce (name : String) (answer : Answer)
  /-- It wakes all threads after a provider made the engine forget everything. -/
  | announceClear (name : String) (rest : List (Nat × Provider)) (next : Inquiry)
  /-- It wakes all threads after its request to forget everything. -/
  | finishClear
  /-- It hands an answer to what asked for it. -/
  | deliver (answer : Answer)

/-- A thread. -/
structure Thread where
  /-- The requests that it has not finished; the first is being served unless the
      thread is idle. -/
  pending : List Request
  /-- The resolutions that wait for the one at hand, innermost first. -/
  stack : List Frame
  /-- What it does next. -/
  phase : Phase
  /-- The finished requests with their answers, last first. -/
  finished : List (Request × Answer)

/-- A thread that has yet to send its requests. -/
def Thread.ofRequests (requests : List Request) : Thread := ⟨requests, [], .idle, []⟩

/-- For whom a thread waits, and for which name. -/
structure WaitEdge where
  owner : Nat
  name : String
  deriving DecidableEq, Repr

/-- Threads and what they share. -/
structure Crew where
  memo : Memo
  edges : List (Nat × WaitEdge)
  threads : Array Thread

namespace Crew

/-- The threads of lists of requests, before their first step. -/
def ofRequests (requests : List (List Request)) : Crew where
  memo := .empty
  edges := []
  threads := (requests.map Thread.ofRequests).toArray

/-! ## Waiting -/

def edge? (edges : List (Nat × WaitEdge)) (thread : Nat) : Option WaitEdge :=
  (edges.find? fun entry => entry.1 == thread).map Prod.snd

/-- The edges without that of a thread. -/
def dropEdge (edges : List (Nat × WaitEdge)) (thread : Nat) : List (Nat × WaitEdge) :=
  edges.filter fun entry => entry.1 != thread

/-- Whether following the edges from a thread leads to another in the given
    number of steps. -/
def leadsTo (edges : List (Nat × WaitEdge)) (goal : Nat) : Nat → Nat → Bool
  | 0, _ => false
  | steps + 1, cursor =>
    if cursor = goal then true
    else
      match edge? edges cursor with
      | some edge => leadsTo edges goal steps edge.owner
      | none => false

/-- Whether a name carries the mark of a thread. -/
def isMarkedBy (memo : Memo) (name : String) (owner : Nat) : Bool :=
  match memo.slot? name with
  | some (.loading other) => other == owner
  | _ => false

def wake (thread : Thread) : Thread :=
  match thread.phase with
  | .asleep name owner => { thread with phase := .check name owner }
  | _ => thread

def wakeAll (crew : Crew) : Crew := { crew with threads := crew.threads.map wake }

/-! ## Steps -/

/-- The crew with one thread changed. -/
def put (crew : Crew) (i : Nat) (thread : Thread) : Crew :=
  { crew with threads := crew.threads.setIfInBounds i thread }

/-- The crew with one thread in another phase. -/
def go (crew : Crew) (i : Nat) (thread : Thread) (phase : Phase) : Crew :=
  crew.put i { thread with phase := phase }

/-- An idle thread takes up a request. -/
def stepIdle (crew : Crew) (i : Nat) (thread : Thread) : Option Crew :=
  match thread.pending with
  | [] => none
  | .clear :: _ => some (({ crew with memo := crew.memo.clear }).go i thread .finishClear)
  | .find? name :: _ | .find name :: _ | .findOrPlaceholder name :: _ =>
    some (crew.go i thread (.look name))

/-- A thread looks at the slot of a name and marks it if it is open. -/
def stepLook (engine : Engine) (crew : Crew) (i : Nat) (thread : Thread) (name : String) : Crew :=
  if engine.providers.isEmpty then crew.go i thread (.deliver (.error .noProviders))
  else
    match crew.memo.slot? name with
    | some (.resolved handle) => crew.go i thread (.deliver (.ok (some handle)))
    | some (.loading owner) =>
      if owner = i then crew.go i thread (.deliver (.error (.cycle name)))
      else crew.go i thread (.check name owner)
    | none =>
      ({ crew with memo := crew.memo.begin i name }).go i thread (.consult name engine.providers)

/-- A thread decides whether to wait for the owner of a mark. -/
def stepCheck (crew : Crew) (i : Nat) (thread : Thread) (name : String) (owner : Nat) : Crew :=
  let others := dropEdge crew.edges i
  if isMarkedBy crew.memo name owner then
    if leadsTo crew.edges i (crew.edges.length + 1) owner then
      ({ crew with edges := others }).go i thread (.deliver (.error (.cycle name)))
    else ({ crew with edges := (i, ⟨owner, name⟩) :: others }).go i thread (.asleep name owner)
  else ({ crew with edges := others }).go i thread (.look name)

/-- A thread consults the next provider. -/
def stepConsult (crew : Crew) (i : Nat) (thread : Thread) (name : String) :
    List (Nat × Provider) → Crew
  | [] => crew.go i thread (.settle name (.ok none))
  | (number, provider) :: rest =>
    ({ crew with memo := crew.memo.consult number name }).go i thread
      (.inquire name rest (provider.inquire crew.memo.turn name))

/-- A thread does the next thing that a provider does. -/
def stepInquire (crew : Crew) (i : Nat) (thread : Thread) (name : String)
    (rest : List (Nat × Provider)) : Inquiry → Crew
  | .done (.ok none) => crew.go i thread (.consult name rest)
  | .done answer => crew.go i thread (.settle name answer)
  | .ask other next =>
    crew.put i { thread with phase := .look other, stack := ⟨name, rest, next⟩ :: thread.stack }
  | .make kind next =>
    let (handle, memo) := crew.memo.make kind
    ({ crew with memo := memo }).go i thread (.inquire name rest (next handle))
  | .look handle next =>
    ({ crew with memo := crew.memo.look handle }).go i thread (.inquire name rest next)
  | .clear next =>
    ({ crew with memo := crew.memo.clear }).go i thread (.announceClear name rest next)

/-- A thread wakes those that wait for it and a name. -/
def stepAnnounce (crew : Crew) (i : Nat) (thread : Thread) (name : String) (answer : Answer) :
    Crew :=
  let edges := crew.edges.filter fun entry => entry.2 != ⟨i, name⟩
  ({ crew with edges := edges }).wakeAll.go i thread (.deliver answer)

/-- The answer to a request, given the answer for its name. -/
def finish (memo : Memo) (answer : Answer) : Request → Answer × Memo
  | .find name =>
    match answer with
    | .ok none => (.error (.unknown name), memo)
    | _ => (answer, memo)
  | .findOrPlaceholder name =>
    match answer with
    | .ok none =>
      let (handle, memo) := memo.make (.placeholder name)
      (.ok (some handle), memo)
    | _ => (answer, memo)
  | .find? _ | .clear => (answer, memo)

/-- A thread hands over an answer. -/
def stepDeliver (crew : Crew) (i : Nat) (thread : Thread) (answer : Answer) : Crew :=
  match thread.stack with
  | frame :: stack =>
    crew.put i { thread with
      phase := .inquire frame.name frame.rest (frame.next answer)
      stack := stack }
  | [] =>
    match thread.pending with
    | request :: pending =>
      let (answer, memo) := finish crew.memo answer request
      ({ crew with memo := memo }).put i { thread with
        phase := .idle
        pending := pending
        finished := (request, answer) :: thread.finished }
    | [] => crew.go i thread .idle

/-- One atomic step of a thread; nothing if there is no such thread, or it sleeps
    or has finished. -/
def step (engine : Engine) (crew : Crew) (i : Nat) : Option Crew :=
  match crew.threads[i]? with
  | none => none
  | some thread =>
    match thread.phase with
    | .idle => crew.stepIdle i thread
    | .look name => some (crew.stepLook engine i thread name)
    | .check name owner => some (crew.stepCheck i thread name owner)
    | .asleep _ _ => none
    | .consult name rest => some (crew.stepConsult i thread name rest)
    | .inquire name rest inquiry => some (crew.stepInquire i thread name rest inquiry)
    | .settle name answer =>
      some (({ crew with memo := crew.memo.settle i name answer }).go i thread
        (.announce name answer))
    | .announce name answer => some (crew.stepAnnounce i thread name answer)
    | .announceClear name rest next =>
      some (({ crew with edges := [] }).wakeAll.go i thread (.inquire name rest next))
    | .finishClear =>
      some (({ crew with edges := [] }).wakeAll.go i thread (.deliver (.ok none)))
    | .deliver answer => some (crew.stepDeliver i thread answer)

/-- The states that steps of any threads in any order lead to. -/
inductive Reachable (engine : Engine) (start : Crew) : Crew → Prop
  | refl : Reachable engine start start
  | step {crew next : Crew} (i : Nat) : Reachable engine start crew →
      crew.step engine i = some next → Reachable engine start next

/-! ## Taking turns -/

/-- One step of each of the first `n` threads that can take one. -/
def round (engine : Engine) (crew : Crew) (n : Nat) : Crew :=
  n.fold (fun i _ crew => (crew.step engine i).getD crew) crew

def isFinished (crew : Crew) : Bool :=
  crew.threads.all fun thread => thread.pending.isEmpty

/-- The state after the threads took turns, for at most the given number of
    rounds. -/
def run (engine : Engine) : Nat → Crew → Crew
  | 0, crew => crew
  | rounds + 1, crew =>
    if crew.isFinished then crew else run engine rounds (crew.round engine crew.threads.size)

end Crew

end TypeAtlas
