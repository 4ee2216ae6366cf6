/-
  Cycles that are reported.

  The engine reports a cycle where a thread meets its own mark, and where its waiting would
  close a ring of threads.  If providers ask only for what a name needs, then each name that
  a thread is busy with is needed by those below it, and an edge to another thread continues
  this chain on that thread: every ring of threads is a ring of names.

  * `Inquiry.Follows`, `Provider.Follows`: the names that are asked for are needed, and no
    cycle is reported that nobody spoke of;
  * `Thread.Linked` is the invariant of one thread;
  * `Crew.needs_of_reaches`: the way from thread to thread is a way from name to name;
  * `Crew.needs_of_cycle`: a name whose cycle a call returns needs itself.
-/
import TypeAtlas.Proofs.Engine.Transparency
import TypeAtlas.Proofs.Engine.Waiting

namespace TypeAtlas

open Relation (TransGen ReflTransGen)

/-! ## Providers -/

/-- Whatever it is answered, an inquiry asks only for some names, and it ends with a cycle only
    if it was told of it. -/
inductive Inquiry.Follows (asks : String → Prop) : (told : String → Prop) → Inquiry → Prop where
  | done {told answer} (h : ∀ name, answer = .error (.cycle name) → told name) :
    Follows asks told (.done answer)
  | ask {told name next} (hname : asks name)
    (h : ∀ answer : Answer, Follows asks
      (fun other => told other ∨ answer = .error (.cycle other)) (next answer)) :
    Follows asks told (.ask name next)
  | make {told kind next} (h : ∀ handle, Follows asks told (next handle)) :
    Follows asks told (.make kind next)
  | look {told handle next} (h : Follows asks told next) : Follows asks told (.look handle next)
  | clear {told next} (h : Follows asks told next) : Follows asks told (.clear next)

/-- A provider that asks only for what a name needs. -/
def Provider.Follows (needs : String → String → Prop) (provider : Provider) : Prop :=
  ∀ turn name, (provider.inquire turn name).Follows (needs name) fun _ => False

namespace Inquiry.Follows

variable {asks told told' : String → Prop} {inquiry : Inquiry}

theorem mono (h : inquiry.Follows asks told) (hsub : ∀ name, told name → told' name) :
    inquiry.Follows asks told' := by
  induction h generalizing told' with
  | done h => exact .done fun name hanswer => hsub name (h name hanswer)
  | ask hname _ ih => exact .ask hname fun answer => ih answer fun other => Or.imp_left (hsub other)
  | make _ ih => exact .make fun handle => ih handle hsub
  | look _ ih => exact .look (ih hsub)
  | clear _ ih => exact .clear (ih hsub)

theorem unknown : Follows asks told .unknown := .done nofun

theorem answer (kind : HandleKind) : Follows asks told (.answer kind) := .make fun _ => .done nofun

theorem provider (text : String) : Follows asks told (.fail (.provider text)) := .done nofun

variable {name : String} {next : Handle → Inquiry}

theorem require (hname : asks name) (h : ∀ handle, (next handle).Follows asks told) :
    Follows asks told (.require name next) := by
  refine .ask hname fun found => ?_
  rcases found with e | _ | handle
  · exact .done fun _ => Or.inr
  · exact .done nofun
  · exact (h handle).mono fun _ => Or.inl

theorem requireOrPlaceholder (hname : asks name) (h : ∀ handle, (next handle).Follows asks told) :
    Follows asks told (.requireOrPlaceholder name next) := by
  refine .ask hname fun found => ?_
  rcases found with e | _ | handle
  · exact .done fun _ => Or.inr
  · exact .make fun handle => (h handle).mono fun _ => Or.inl
  · exact (h handle).mono fun _ => Or.inl

theorem requireOrUnknown (hname : asks name) (h : ∀ handle, (next handle).Follows asks told) :
    Follows asks told (.requireOrUnknown name next) := by
  refine .ask hname fun found => ?_
  rcases found with e | _ | handle
  · exact .done fun _ => Or.inr
  · exact unknown
  · exact (h handle).mono fun _ => Or.inl

end Inquiry.Follows

namespace Plan

variable {asks told : String → Prop}

/-- A plan names another name. -/
def Mentions (plan : Plan) (name : String) : Prop :=
  name ∈ plan.requires ∨ name ∈ plan.requiresOrPlaceholder ∨ name ∈ plan.requiresOrUnknown

theorem follows_askAll {ask : String → (Handle → Inquiry) → Inquiry}
    (hask : ∀ {name next}, asks name → (∀ handle, (next handle).Follows asks told) →
      (ask name next).Follows asks told) {names : List String} (hnames : ∀ name ∈ names, asks name)
    {next : Inquiry} (hnext : next.Follows asks told) :
    (askAll ask names next).Follows asks told := by
  induction names with
  | nil => exact hnext
  | cons name names ih =>
    obtain ⟨hname, hnames⟩ := List.forall_mem_cons.1 hnames
    exact hask hname fun _ => ih hnames

theorem follows_inquiry {plan : Plan} (hasks : ∀ name, plan.Mentions name → asks name) :
    plan.inquiry.Follows asks told := by
  have hasking : ∀ {last : Inquiry}, last.Follows asks told →
      (askAll .require plan.requires (askAll .requireOrPlaceholder plan.requiresOrPlaceholder
        (askAll .requireOrUnknown plan.requiresOrUnknown last))).Follows asks told := fun hlast =>
    follows_askAll .require (fun _ hname => hasks _ (Or.inl hname))
      (follows_askAll .requireOrPlaceholder (fun _ hname => hasks _ (Or.inr (Or.inl hname)))
        (follows_askAll .requireOrUnknown (fun _ hname => hasks _ (Or.inr (Or.inr hname))) hlast))
  simp only [inquiry]
  split
  · refine .clear (hasking ?_)
    cases plan.failure with
    | some text => exact .provider text
    | none => exact .answer _
  · refine hasking ?_
    cases plan.failure with
    | some text => exact .provider text
    | none => exact .answer _

end Plan

/-- Of the names that the well-known types are made of, only the component of an array is asked
    for. -/
theorem Provider.follows_wellKnown :
    wellKnown.Follows fun name other => Name.component? name = some other := by
  intro turn name
  simp only [wellKnown]
  split
  · exact .answer _
  · split
    next component hcomponent =>
      exact .requireOrPlaceholder hcomponent fun handle => .look (.answer _)
    next => exact .unknown

/-- Compiled types need no other names. -/
theorem Provider.follows_ofDirectory (needs : String → String → Prop)
    (directory : Directory Compiled) : (ofDirectory directory).Follows needs := by
  intro turn name
  simp only [ofDirectory]
  split
  · exact .answer _
  · exact .unknown

/-- A provider that follows plans asks for what they name. -/
theorem Provider.follows_planned {needs : String → String → Prop} {priority : Int} {label : String}
    {plan? : String → Option Plan}
    (h : ∀ name plan, plan? name = some plan → ∀ other, plan.Mentions other → needs name other) :
    (planned priority label plan?).Follows needs := by
  intro turn name
  simp only [planned]
  cases hplan : plan? name with
  | none => exact .unknown
  | some plan => exact Plan.follows_inquiry (h name plan hplan)

/-! ## Threads -/

/-- An answer that speaks of no cycle but of names that need themselves. -/
def Answer.Genuine (needs : String → String → Prop) (answer : Answer) : Prop :=
  ∀ name, answer = .error (.cycle name) → TransGen needs name name

/-- A waiting resolution that goes on asking only for what its name needs. -/
structure Frame.Follows (needs : String → String → Prop) (frame : Frame) : Prop where
  rest : ∀ entry ∈ frame.rest, entry.2.Follows needs
  next : ∀ answer : Answer, answer.Genuine needs →
    (frame.next answer).Follows (needs frame.name) fun name => TransGen needs name name

/-- What a thread does next asks only for what is needed and speaks of no cycle that there is
    not. -/
def Phase.Follows (needs : String → String → Prop) : Phase → Prop
  | consult _ rest => ∀ entry ∈ rest, entry.2.Follows needs
  | inquire name rest inquiry | announceClear name rest inquiry =>
    (∀ entry ∈ rest, entry.2.Follows needs) ∧
      inquiry.Follows (needs name) fun name => TransGen needs name name
  | settle _ answer | announce _ answer | deliver answer => answer.Genuine needs
  | idle | look _ | check _ _ | asleep _ _ | finishClear => True

/-- Each name that a thread is busy with is needed by those below it. -/
structure Thread.Linked (needs : String → String → Prop) (thread : Thread) : Prop where
  grounded : thread.Grounded
  chain : thread.chain.Pairwise fun inner outer => TransGen needs outer inner
  phase : thread.phase.Follows needs
  stack : ∀ frame ∈ thread.stack, frame.Follows needs
  finished : ∀ request answer, (request, answer) ∈ thread.finished → answer.Genuine needs

namespace Crew

variable {needs : String → String → Prop}

theorem linked_wake {thread : Thread} (h : thread.Linked needs) : (wake thread).Linked needs := by
  obtain heq | ⟨name, owner, -, heq⟩ := wake_cases thread
  · exact heq.symm ▸ h
  · have hgrounded := grounded_wake h.grounded
    have hchain : (wake thread).chain.Pairwise fun inner outer => TransGen needs outer inner := by
      rw [chain_wake]
      exact h.chain
    rw [heq] at hgrounded hchain ⊢
    exact ⟨hgrounded, hchain, trivial, h.stack, h.finished⟩

theorem linked_ofRequests (requests : List Request) :
    (Thread.ofRequests requests).Linked needs where
  grounded _ := rfl
  chain := .nil
  phase := trivial
  stack := nofun
  finished := nofun

theorem genuine_finish {memo : Memo} {answer : Answer} (h : answer.Genuine needs)
    (request : Request) : (finish memo answer request).1.Genuine needs := by
  cases request with
  | find? _ => exact h
  | clear => exact h
  | find _ =>
    rcases answer with e | _ | handle
    · exact h
    · exact nofun
    · exact h
  | findOrPlaceholder _ =>
    rcases answer with e | _ | handle
    · exact h
    · exact nofun
    · exact h

/-- Every move keeps a thread linked if the engine itself reports no cycle that there is not. -/
theorem Moves.linked {engine : Engine} {i : Nat} {memo memo' : Memo}
    {edges edges' : List (Nat × WaitEdge)} {woken : Bool} {thread thread' : Thread}
    (h : Moves engine i memo edges thread memo' edges' woken thread')
    (hengine : ∀ entry ∈ engine.providers, entry.2.Follows needs) (hlinked : thread.Linked needs)
    (hlook : ∀ name, thread.phase = .look name → memo.slot? name = some (.loading i) →
      TransGen needs name name)
    (hcheck : ∀ name owner, thread.phase = .check name owner →
      memo.slot? name = some (.loading owner) → ReflTransGen (WaitsFor edges) owner i →
      TransGen needs name name) :
    thread'.Linked needs := by
  have hgrounded := h.grounded hlinked.grounded
  obtain ⟨hbefore, hchain, hphase, hstack, hfinished⟩ := hlinked
  cases h with
  | take =>
    cases hbefore (Or.inl rfl)
    exact ⟨hgrounded, List.pairwise_singleton _ _, trivial, hstack, hfinished⟩
  | refuse | hit => exact ⟨hgrounded, hchain.of_cons, nofun, hstack, hfinished⟩
  | reenter _ hslot =>
    refine ⟨hgrounded, hchain.of_cons, ?_, hstack, hfinished⟩
    rintro _ ⟨⟩
    exact hlook _ rfl hslot
  | closeRing hmark hring =>
    refine ⟨hgrounded, hchain.of_cons, ?_, hstack, hfinished⟩
    rintro _ ⟨⟩
    exact hcheck _ _ rfl (isMarkedBy_iff.1 hmark) (reaches_of_leadsTo hring)
  | begin => exact ⟨hgrounded, hchain, hengine, hstack, hfinished⟩
  | consult =>
    obtain ⟨hfirst, hrest⟩ := List.forall_mem_cons.1 hphase
    exact ⟨hgrounded, hchain, ⟨hrest, (hfirst _ _).mono fun _ => False.elim⟩, hstack, hfinished⟩
  | pass => exact ⟨hgrounded, hchain, hphase.1, hstack, hfinished⟩
  | conclude =>
    cases hphase.2 with
    | done hanswer => exact ⟨hgrounded, hchain, hanswer, hstack, hfinished⟩
  | @ask pending stack finished name rest other next =>
    cases hphase.2 with
    | ask hneeds hnext =>
      refine ⟨hgrounded, List.pairwise_cons.2 ⟨fun outer houter => ?_, hchain⟩, trivial,
        List.forall_mem_cons.2 ⟨⟨hphase.1, fun answer hanswer => ?_⟩, hstack⟩, hfinished⟩
      · rcases List.mem_cons.1 houter with rfl | houter
        · exact .single hneeds
        · exact ((List.pairwise_cons.1 hchain).1 outer houter).tail hneeds
      · exact (hnext answer).mono fun _ => Or.rec id (hanswer _)
  | make =>
    cases hphase.2 with
    | make hnext => exact ⟨hgrounded, hchain, ⟨hphase.1, hnext _⟩, hstack, hfinished⟩
  | inspect =>
    cases hphase.2 with
    | look hnext => exact ⟨hgrounded, hchain, ⟨hphase.1, hnext⟩, hstack, hfinished⟩
  | forget =>
    cases hphase.2 with
    | clear hnext => exact ⟨hgrounded, hchain, ⟨hphase.1, hnext⟩, hstack, hfinished⟩
  | announce => exact ⟨hgrounded, hchain.of_cons, hphase, hstack, hfinished⟩
  | resume =>
    obtain ⟨hframe, hstack⟩ := List.forall_mem_cons.1 hstack
    exact ⟨hgrounded, hchain, ⟨hframe.rest, hframe.next _ hphase⟩, hstack, hfinished⟩
  | finish =>
    refine ⟨hgrounded, hchain, trivial, hstack, fun request answer hmem => ?_⟩
    rcases List.mem_cons.1 hmem with heq | hmem
    · cases heq
      exact genuine_finish hphase _
    · exact hfinished request answer hmem
  | exhaust | finishClear => exact ⟨hgrounded, hchain, nofun, hstack, hfinished⟩
  | drop => exact ⟨hgrounded, hchain, trivial, hstack, hfinished⟩
  | takeClear | meet | sleep | again | settle | announceClear =>
    exact ⟨hgrounded, hchain, hphase, hstack, hfinished⟩

end Crew

/-! ## Rings -/

namespace Thread

variable {needs : String → String → Prop} {thread : Thread} {name : String} {edge : WaitEdge}

/-- A thread that waits has woken those that wait for what it settled. -/
theorem mem_opened_of_worksOn (h : thread.WorksOn name) (hedge : thread.phase.edge? = some edge) :
    name ∈ thread.opened := by
  rcases h with hopened | ⟨answer, hphase⟩
  · exact hopened
  · rw [hphase] at hedge
    cases hedge

/-- What a thread is resolving needs the name that it looks at or waits for. -/
theorem Linked.needs_of_stack (h : thread.Linked needs) {awaited : String}
    (hphase : thread.phase.name? = some awaited) (hname : name ∈ thread.stack.map Frame.name) :
    TransGen needs name awaited := by
  have hchain := h.chain
  rw [Thread.chain, hphase] at hchain
  exact (List.pairwise_cons.1 hchain).1 name hname

theorem Linked.needs_of_waiting (h : thread.Linked needs) (hedge : thread.phase.edge? = some edge)
    (hworks : thread.WorksOn name) : TransGen needs name edge.name := by
  have hopened := mem_opened_of_worksOn hworks hedge
  obtain ⟨pending, stack, phase, finished⟩ := thread
  cases phase with
  | check awaited owner | asleep awaited owner =>
    cases hedge
    exact h.needs_of_stack rfl hopened
  | idle | look | consult | inquire | settle | announce | announceClear | finishClear
  | deliver => cases hedge

end Thread

namespace Crew

section

variable {needs : String → String → Prop} {engine : Engine} {crew next : Crew}

/-- The way from thread to thread is a way from name to name. -/
theorem needs_of_reaches (horderly : Orderly crew)
    (hlinked : Each (fun _ _ thread => thread.Linked needs) crew) {i k : Nat} {last : Thread}
    {edge : WaitEdge} (hlast : crew.threads[k]? = some last)
    (hedge : last.phase.edge? = some edge) (hway : ReflTransGen (WaitsFor crew.edges) i k)
    {thread : Thread} {name : String} (hthread : crew.threads[i]? = some thread)
    (hworks : thread.WorksOn name) : TransGen needs name edge.name := by
  induction hway using ReflTransGen.head_induction_on generalizing thread name with
  | refl =>
    cases hthread.symm.trans hlast
    exact (hlinked k last hlast).needs_of_waiting hedge hworks
  | @head i owner hstep _ ih =>
    obtain ⟨other, hmem⟩ := hstep
    obtain ⟨waiting, hwaiting, hawaited⟩ := horderly.waiting i _ hmem
    cases hwaiting.symm.trans hthread
    obtain ⟨worker, hworker, hother⟩ := horderly.working i _ hmem
    exact ((hlinked i thread hthread).needs_of_waiting hawaited hworks).trans (ih hworker hother)

/-- A thread that finds its own mark needs the name for itself. -/
theorem needs_of_reentry (horderly : Orderly crew) {i : Nat} {thread : Thread} {name : String}
    (hthread : crew.threads[i]? = some thread) (hlinked : thread.Linked needs)
    (hphase : thread.phase = .look name) (hslot : crew.memo.slot? name = some (.loading i)) :
    TransGen needs name name := by
  obtain ⟨owner, howner, hname⟩ := horderly.marked name i hslot
  cases howner.symm.trans hthread
  rw [Thread.opened, hphase] at hname
  exact hlinked.needs_of_stack (by rw [hphase, Phase.name?]) hname

/-- A thread whose waiting would close a ring needs the name for itself. -/
theorem needs_of_ring (horderly : Orderly crew)
    (hlinked : Each (fun _ _ thread => thread.Linked needs) crew) {i owner : Nat} {thread : Thread}
    {name : String} (hthread : crew.threads[i]? = some thread)
    (hphase : thread.phase = .check name owner)
    (hslot : crew.memo.slot? name = some (.loading owner))
    (hway : ReflTransGen (WaitsFor crew.edges) owner i) : TransGen needs name name := by
  obtain ⟨worker, hworker, hname⟩ := horderly.marked name owner hslot
  have hedge : thread.phase.edge? = some ⟨owner, name⟩ := by rw [hphase, Phase.edge?]
  exact needs_of_reaches horderly hlinked hthread hedge hway hworker (Or.inl hname)

/-- Every thread is linked in every state that steps lead to. -/
theorem linked_of_reachable {requests : List (List Request)}
    (hengine : ∀ entry ∈ engine.providers, entry.2.Follows needs)
    (hcrew : Reachable engine (ofRequests requests) crew) :
    Each (fun _ _ thread => thread.Linked needs) crew := by
  induction hcrew with
  | refl => exact .ofRequests fun _ calls _ => linked_ofRequests calls
  | @step crew next i hcrew hstep ih =>
    have horderly := orderly_of_reachable hcrew
    obtain ⟨thread, hthread, woken, thread', hmoves, hthreads⟩ := does_of_step hstep
    have hself := hmoves.linked hengine (ih i thread hthread)
      (fun _ => needs_of_reentry horderly hthread (ih i thread hthread))
      (fun _ _ => needs_of_ring horderly ih hthread)
    exact ih.of_moved hthreads (Array.getElem?_eq_some_iff.1 hthread).1
      (fun _ _ => linked_wake) hself fun _ _ _ => id

/-- **A cycle that is reported is one of names**, whatever the order in which threads take
    their steps and make the engine forget.  If all that providers ask for is needed by the name
    that they are asked for, then a call, of a thread or of a provider, that returns a cycle of
    a name does so only if the name needs itself, through others or at once. -/
theorem needs_of_cycle {requests : List (List Request)}
    (hengine : ∀ entry ∈ engine.providers, entry.2.Follows needs)
    (hcrew : Reachable engine (ofRequests requests) crew) {i : Nat} {thread : Thread}
    (hthread : crew.threads[i]? = some thread) {name : String}
    (hreturned : thread.phase = .deliver (.error (.cycle name)) ∨
      ∃ request, (request, .error (.cycle name)) ∈ thread.finished) :
    TransGen needs name name := by
  have hlinked := linked_of_reachable hengine hcrew i thread hthread
  rcases hreturned with hphase | ⟨request, hfinished⟩
  · have hgenuine := hlinked.phase
    rw [hphase] at hgenuine
    exact hgenuine name rfl
  · exact hlinked.finished request _ hfinished name rfl

/-- Two threads each resolve a type that requires the type of the other.  The second is told of
    a cycle when it would wait for the first, although no thread met its own mark. -/
theorem needs_of_cycle_ring :
    ∃ needs : String → String → Prop, Provider.ring.Follows needs ∧
      (∀ name other, needs name other ↔
        name = "a.Left" ∧ other = "a.Right" ∨ name = "a.Right" ∧ other = "a.Left") ∧
      ∃ crew thread, Reachable ⟨[(0, Provider.ring)]⟩
          (ofRequests [[.find "a.Left"], [.find "a.Right"]]) crew ∧
        crew.threads[1]? = some thread ∧ thread.phase = .deliver (.error (.cycle "a.Left")) ∧
        TransGen needs "a.Left" "a.Left" := by
  let needs name other := name = "a.Left" ∧ other = "a.Right" ∨ name = "a.Right" ∧ other = "a.Left"
  have hfollows : Provider.ring.Follows needs := by
    refine Provider.follows_planned fun name plan hplan other hother => ?_
    split at hplan
    next hleft =>
      cases hplan
      exact Or.inl ⟨hleft, by simpa [Plan.Mentions] using hother⟩
    next =>
      split at hplan
      next hright =>
        cases hplan
        exact Or.inr ⟨hright, by simpa [Plan.Mentions] using hother⟩
      next => cases hplan
  refine ⟨needs, hfollows, fun _ _ => Iff.rfl, ?_⟩
  obtain ⟨crew, thread, hcrew, hthread, hphase⟩ : ∃ crew thread,
      [0, 0, 0, 0, 1, 1, 1, 1, 0, 0, 1, 1].foldlM
          (fun (crew : Crew) i => crew.step ⟨[(0, Provider.ring)]⟩ i)
          (ofRequests [[.find "a.Left"], [.find "a.Right"]]) = some crew ∧
        crew.threads[1]? = some thread ∧ thread.phase = .deliver (.error (.cycle "a.Left")) :=
    ⟨_, _, rfl, rfl, rfl⟩
  exact ⟨crew, thread, .of_foldlM hcrew, hthread, hphase,
    needs_of_cycle (List.forall_mem_singleton.2 hfollows) (.of_foldlM hcrew) hthread
      (Or.inl hphase)⟩

end

end Crew

end TypeAtlas
