/-
  Threads that wait for each other.

  A thread that meets the mark of another puts down an edge to the owner of the mark
  before it falls asleep.  Edges change under a lock and marks outside of it, so an edge
  may outlive the mark that it was put down for; but it does not outlive the work of its
  owner.

  * `Crew.WaitsFor` is one edge, whatever the name; `Crew.leadsTo_iff` says that the walk
    over edges, whose length is bounded, misses nothing, and `Crew.exists_end` that every
    walk ends;
  * `Crew.Rewires` says what a step does to the edges, with one case for each kind of
    change, and `Crew.Moves.rewires` that it does nothing else;
  * `Crew.Orderly` is the invariant of marks and edges, and `Crew.orderly_of_reachable` the
    induction over the steps of all threads;
  * `Crew.waits_end`: there is no deadlock.
-/
import Mathlib.Data.List.Nodup
import Mathlib.Logic.Relation
import TypeAtlas.Proofs.Engine.Moves

namespace TypeAtlas

namespace Crew

open Relation (TransGen ReflTransGen)

/-! ## Walks over edges -/

/-- A thread waits for another. -/
def WaitsFor (edges : List (Nat × WaitEdge)) (i owner : Nat) : Prop :=
  ∃ name, (i, ⟨owner, name⟩) ∈ edges

section

variable {edges edges' : List (Nat × WaitEdge)} {i j owner goal : Nat} {edge : WaitEdge}

theorem mem_dropEdge : (j, edge) ∈ dropEdge edges i ↔ (j, edge) ∈ edges ∧ j ≠ i := by
  rw [dropEdge, List.mem_filter, bne_iff_ne]

theorem nodup_dropEdge (h : (edges.map Prod.fst).Nodup) (i : Nat) :
    ((dropEdge edges i).map Prod.fst).Nodup :=
  h.sublist (List.filter_sublist.map _)

theorem length_dropEdge_lt (h : (i, edge) ∈ edges) : (dropEdge edges i).length < edges.length := by
  rw [dropEdge, List.length_filter_lt_length_iff_exists]
  exact ⟨(i, edge), h, by simp⟩

theorem edge?_eq_none_iff : edge? edges i = none ↔ ∀ edge, (i, edge) ∉ edges := by
  rw [edge?, Option.map_eq_none_iff, List.find?_eq_none]
  constructor
  · intro h edge hmem
    exact h (i, edge) hmem (beq_self_eq_true i)
  · rintro h ⟨j, edge⟩ hmem hj
    rw [beq_iff_eq] at hj
    exact h edge (hj ▸ hmem)

theorem mem_of_edge? (h : edge? edges i = some edge) : (i, edge) ∈ edges := by
  obtain ⟨entry, hfind, rfl⟩ := Option.map_eq_some_iff.1 h
  have hi := List.find?_some hfind
  rw [beq_iff_eq] at hi
  exact hi ▸ List.mem_of_find?_eq_some hfind

/-- Of a thread that has one edge at most, the edge is found. -/
theorem edge?_of_mem (hnodup : (edges.map Prod.fst).Nodup) (h : (i, edge) ∈ edges) :
    edge? edges i = some edge := by
  cases hfind : edge? edges i with
  | none => exact absurd h (edge?_eq_none_iff.1 hfind edge)
  | some found =>
    have hsame := List.inj_on_of_nodup_map hnodup h (mem_of_edge? hfind) rfl
    rw [(Prod.mk.inj hsame).2]

theorem isMarkedBy_iff {memo : Memo} {name : String} :
    isMarkedBy memo name owner = true ↔ memo.slot? name = some (.loading owner) := by
  unfold isMarkedBy
  split
  next other hslot =>
    rw [hslot, beq_iff_eq, Option.some.injEq, MemoSlot.loading.injEq]
  next hother =>
    constructor
    · nofun
    · exact fun hslot => absurd hslot (hother owner)

theorem edge?_dropEdge_of_ne (h : j ≠ i) : edge? (dropEdge edges i) j = edge? edges j := by
  rw [edge?, edge?, dropEdge, List.find?_filter]
  congr 2
  funext entry
  by_cases hj : entry.1 = j
  · simp [hj, h]
  · simp [hj]

/-- A walk that arrives follows edges. -/
theorem reaches_of_leadsTo {steps : Nat} (h : leadsTo edges goal steps i = true) :
    ReflTransGen (WaitsFor edges) i goal := by
  induction steps generalizing i with
  | zero => cases h
  | succ steps ih =>
    rw [leadsTo] at h
    split at h
    next heq => exact heq ▸ .refl
    next =>
      split at h
      next edge hedge => exact .head ⟨edge.name, mem_of_edge? hedge⟩ (ih h)
      next => cases h

/-- A walk that arrives does so with more steps, and where there are more edges. -/
theorem leadsTo_mono {steps steps' : Nat}
    (hedges : ∀ j edge, edge? edges j = some edge → edge? edges' j = some edge)
    (hsteps : steps ≤ steps') (h : leadsTo edges goal steps i = true) :
    leadsTo edges' goal steps' i = true := by
  induction steps generalizing i steps' with
  | zero => cases h
  | succ steps ih =>
    obtain ⟨more, rfl⟩ : ∃ more, steps' = more + 1 := ⟨steps' - 1, by omega⟩
    rw [leadsTo] at h ⊢
    split at h
    next heq => rw [if_pos heq]
    next hne =>
      rw [if_neg hne]
      split at h
      next edge hedge =>
        rw [hedges _ _ hedge]
        exact ih (by omega) h
      next => cases h

theorem waitsFor_mono (hsub : ∀ entry ∈ edges', entry ∈ edges) :
    WaitsFor edges' ≤ WaitsFor edges :=
  fun _ _ ⟨name, hmem⟩ => ⟨name, hsub _ hmem⟩

theorem mem_of_mem_dropEdge : ∀ entry ∈ dropEdge edges i, entry ∈ edges :=
  fun _ hmem => (List.mem_filter.1 hmem).1

/-- Without rings, a thread's own edge is no help behind it. -/
theorem reaches_dropEdge (hacyclic : ∀ i, ¬ TransGen (WaitsFor edges) i i)
    (hstep : WaitsFor edges i j) (h : ReflTransGen (WaitsFor edges) j goal) :
    ReflTransGen (WaitsFor (dropEdge edges i)) j goal := by
  induction h with
  | refl => exact .refl
  | @tail a b hja hab ih =>
    obtain ⟨name, hmem⟩ := hab
    refine ih.tail ⟨name, mem_dropEdge.2 ⟨hmem, ?_⟩⟩
    rintro rfl
    exact hacyclic a (.head' hstep hja)

/-- **Without rings the walk over the edges misses nothing**: it arrives if and only if some way
    leads to the goal. -/
theorem leadsTo_iff (hnodup : (edges.map Prod.fst).Nodup)
    (hacyclic : ∀ i, ¬ TransGen (WaitsFor edges) i i) :
    leadsTo edges goal (edges.length + 1) i = true ↔ ReflTransGen (WaitsFor edges) i goal := by
  refine ⟨reaches_of_leadsTo, fun h => ?_⟩
  -- each step of the walk leaves an edge behind that it does not need again
  induction hn : edges.length using Nat.strongRecOn generalizing edges i with
  | _ n ih =>
    rw [leadsTo]
    split
    next => rfl
    next hne =>
      rcases h.cases_head with heq | ⟨owner, ⟨name, hmem⟩, hrest⟩
      · exact absurd heq hne
      · rw [edge?_of_mem hnodup hmem]
        have hlt := length_dropEdge_lt hmem
        have hwalk := ih _ (hn ▸ hlt) (nodup_dropEdge hnodup i)
          (fun k hk => hacyclic k (TransGen.mono (waitsFor_mono mem_of_mem_dropEdge) _ _ hk))
          (reaches_dropEdge hacyclic ⟨name, hmem⟩ hrest) rfl
        refine leadsTo_mono (fun k edge hedge => ?_) (by omega) hwalk
        exact edge?_of_mem hnodup (mem_dropEdge.1 (mem_of_edge? hedge)).1

/-- Every walk over the edges ends. -/
theorem exists_end (hacyclic : ∀ i, ¬ TransGen (WaitsFor edges) i i) (i : Nat) :
    ∃ k, ReflTransGen (WaitsFor edges) i k ∧ edge? edges k = none := by
  induction hn : edges.length using Nat.strongRecOn generalizing edges i with
  | _ n ih =>
    cases hedge : edge? edges i with
    | none => exact ⟨i, .refl, hedge⟩
    | some edge =>
      have hmem := mem_of_edge? hedge
      obtain ⟨k, hk, hnone⟩ := ih _ (hn ▸ length_dropEdge_lt hmem)
        (fun k hk => hacyclic k (TransGen.mono (waitsFor_mono mem_of_mem_dropEdge) _ _ hk))
        edge.owner rfl
      have hreach := ReflTransGen.mono (waitsFor_mono mem_of_mem_dropEdge) _ _ hk
      refine ⟨k, .head ⟨edge.name, hmem⟩ hreach, ?_⟩
      rw [← hnone, edge?_dropEdge_of_ne]
      rintro rfl
      exact hacyclic k (.head' ⟨edge.name, hmem⟩ hreach)

/-- An edge to a thread that does not lead back closes no ring. -/
theorem acyclic_cons {name : String} (hacyclic : ∀ i, ¬ TransGen (WaitsFor edges) i i)
    (hback : ¬ ReflTransGen (WaitsFor edges) owner i) (k : Nat) :
    ¬ TransGen (WaitsFor ((i, ⟨owner, name⟩) :: edges)) k k := by
  -- a way either keeps to the old edges, or comes to the new one and goes on behind it
  have hway : ∀ a b, TransGen (WaitsFor ((i, ⟨owner, name⟩) :: edges)) a b →
      TransGen (WaitsFor edges) a b ∨
        ReflTransGen (WaitsFor edges) a i ∧ ReflTransGen (WaitsFor edges) owner b := by
    intro a b hab
    induction hab with
    | single hstep =>
      obtain ⟨other, hmem⟩ := hstep
      rcases List.mem_cons.1 hmem with heq | hmem
      · cases heq
        exact Or.inr ⟨.refl, .refl⟩
      · exact Or.inl (.single ⟨other, hmem⟩)
    | tail _ hstep ih =>
      obtain ⟨other, hmem⟩ := hstep
      rcases List.mem_cons.1 hmem with heq | hmem
      · cases heq
        rcases ih with hold | ⟨hi, -⟩
        · exact Or.inr ⟨hold.to_reflTransGen, .refl⟩
        · exact Or.inr ⟨hi, .refl⟩
      · rcases ih with hold | ⟨hi, hb⟩
        · exact Or.inl (hold.tail ⟨other, hmem⟩)
        · exact Or.inr ⟨hi, hb.tail ⟨other, hmem⟩⟩
  intro hring
  rcases hway k k hring with hold | ⟨hi, hb⟩
  · exact hacyclic k hold
  · exact hback (hb.trans hi)

end

end Crew

/-! ## Who waits and who works -/

/-- For whom a thread waits, asleep or woken and yet to look again. -/
def Phase.edge? : Phase → Option WaitEdge
  | check name owner | asleep name owner => some ⟨owner, name⟩
  | idle | look _ | consult _ _ | inquire _ _ _ | settle _ _ | announce _ _
  | announceClear _ _ _ | finishClear | deliver _ => none

/-- A thread sleeps until it is woken. -/
def Phase.IsAsleep (phase : Phase) : Prop := ∃ name owner, phase = .asleep name owner

namespace Thread

/-- A thread is busy with a name that others may wait for: it is resolving the name, or it has
    settled it and has yet to wake them. -/
def WorksOn (thread : Thread) (name : String) : Prop :=
  name ∈ thread.opened ∨ ∃ answer, thread.phase = .announce name answer

/-- No resolution waits below a thread that is between two requests. -/
def Grounded (thread : Thread) : Prop :=
  thread.phase = .idle ∨ thread.phase = .finishClear → thread.stack = []

end Thread

namespace Crew

open Relation (TransGen ReflTransGen)

theorem not_isAsleep_wake (thread : Thread) : ¬ (wake thread).phase.IsAsleep := by
  rintro ⟨name, owner, hphase⟩
  unfold wake at hphase
  split at hphase
  next => cases hphase
  next hawake => exact hawake name owner hphase

@[simp] theorem edge?_phase_wake (thread : Thread) :
    (wake thread).phase.edge? = thread.phase.edge? := by
  obtain h | ⟨name, owner, hphase, h⟩ := wake_cases thread
  · rw [h]
  · simp only [h, hphase, Phase.edge?]

theorem worksOn_wake {thread : Thread} {name : String} (h : thread.WorksOn name) :
    (wake thread).WorksOn name := by
  rcases h with hopened | ⟨answer, hphase⟩
  · exact Or.inl (by rwa [opened_wake])
  · refine Or.inr ⟨answer, ?_⟩
    simp only [wake, hphase]

theorem grounded_wake {thread : Thread} (h : thread.Grounded) : (wake thread).Grounded := by
  obtain heq | ⟨name, owner, -, heq⟩ := wake_cases thread
  · exact heq.symm ▸ h
  · rw [heq]
    rintro (hphase | hphase) <;> cases hphase

/-! ## Steps -/

/-- What a step of the thread of number `i` does to the edges: from the phase of the thread and
    the edges to what becomes of them, and whether those that sleep are woken. -/
inductive Rewires (i : Nat) (edges : List (Nat × WaitEdge)) :
    Phase → List (Nat × WaitEdge) → (woken : Bool) → Phase → Prop where
  /-- The thread does not wait and does not begin to. -/
  | keep {phase phase'} (hphase : phase.edge? = none) (hawake : ¬ phase'.IsAsleep) :
    Rewires i edges phase edges false phase'
  /-- It waits no more. -/
  | leave {phase phase'} (hawake : ¬ phase'.IsAsleep) :
    Rewires i edges phase (dropEdge edges i) false phase'
  /-- It falls asleep. -/
  | sleep {name owner} (hring : leadsTo edges i (edges.length + 1) owner = false) :
    Rewires i edges (.check name owner) ((i, ⟨owner, name⟩) :: dropEdge edges i) false
      (.asleep name owner)
  /-- It wakes those that wait for it and a name. -/
  | announce {name answer} :
    Rewires i edges (.announce name answer) (edges.filter fun entry => entry.2 != ⟨i, name⟩) true
      (.deliver answer)
  /-- It wakes all after the engine was made to forget. -/
  | forget {phase phase'} (hawake : ¬ phase'.IsAsleep) : Rewires i edges phase [] true phase'

namespace Rewires

variable {i j : Nat} {edges edges' : List (Nat × WaitEdge)} {phase phase' : Phase} {woken : Bool}
  {edge : WaitEdge}

/-- Nobody puts down an edge for another. -/
theorem mem_of_ne (h : Rewires i edges phase edges' woken phase') (hj : j ≠ i)
    (hmem : (j, edge) ∈ edges') : (j, edge) ∈ edges := by
  cases h with
  | keep => exact hmem
  | leave => exact (mem_dropEdge.1 hmem).1
  | sleep =>
    rcases List.mem_cons.1 hmem with heq | hmem
    · exact absurd (Prod.mk.inj heq).1 hj
    · exact (mem_dropEdge.1 hmem).1
  | announce => exact (List.mem_filter.1 hmem).1
  | forget => cases hmem

/-- A thread's own edge says for whom it waits. -/
theorem edge?_of_mem (h : Rewires i edges phase edges' woken phase')
    (hbefore : (i, edge) ∈ edges → phase.edge? = some edge) (hmem : (i, edge) ∈ edges') :
    phase'.edge? = some edge := by
  cases h with
  | keep hphase =>
    have hedge := hbefore hmem
    rw [hphase] at hedge
    cases hedge
  | leave => exact absurd rfl (mem_dropEdge.1 hmem).2
  | sleep =>
    rcases List.mem_cons.1 hmem with heq | hmem
    · cases heq
      rfl
    · exact absurd rfl (mem_dropEdge.1 hmem).2
  | announce => cases hbefore (List.mem_filter.1 hmem).1
  | forget => cases hmem

/-- An edge of another stays unless all that sleep are woken. -/
theorem mem_of_not_woken (h : Rewires i edges phase edges' false phase') (hj : j ≠ i)
    (hmem : (j, edge) ∈ edges) : (j, edge) ∈ edges' := by
  cases h with
  | keep => exact hmem
  | leave => exact mem_dropEdge.2 ⟨hmem, hj⟩
  | sleep => exact List.mem_cons_of_mem _ (mem_dropEdge.2 ⟨hmem, hj⟩)

/-- Whoever falls asleep has put down its edge. -/
theorem mem_of_asleep {name : String} {owner : Nat}
    (h : Rewires i edges phase edges' woken (.asleep name owner)) :
    (i, ⟨owner, name⟩) ∈ edges' := by
  cases h with
  | sleep => exact List.mem_cons_self
  | keep _ hawake => exact absurd ⟨name, owner, rfl⟩ hawake
  | leave hawake => exact absurd ⟨name, owner, rfl⟩ hawake
  | forget hawake => exact absurd ⟨name, owner, rfl⟩ hawake

theorem nodup (h : Rewires i edges phase edges' woken phase')
    (hnodup : (edges.map Prod.fst).Nodup) : (edges'.map Prod.fst).Nodup := by
  cases h with
  | keep => exact hnodup
  | leave => exact nodup_dropEdge hnodup i
  | sleep =>
    refine List.nodup_cons.2 ⟨fun hmem => ?_, nodup_dropEdge hnodup i⟩
    obtain ⟨⟨j, edge⟩, hmem, rfl⟩ := List.mem_map.1 hmem
    exact (mem_dropEdge.1 hmem).2 rfl
  | announce => exact hnodup.sublist (List.filter_sublist.map _)
  | forget => exact .nil

/-- Whoever falls asleep has looked whether its edge closes a ring. -/
theorem acyclic (h : Rewires i edges phase edges' woken phase')
    (hnodup : (edges.map Prod.fst).Nodup) (hacyclic : ∀ k, ¬ TransGen (WaitsFor edges) k k)
    (k : Nat) : ¬ TransGen (WaitsFor edges') k k := by
  have hsub : ∀ edges'' : List (Nat × WaitEdge), (∀ entry ∈ edges'', entry ∈ edges) →
      ∀ k, ¬ TransGen (WaitsFor edges'') k k :=
    fun _ hsub k hk => hacyclic k (TransGen.mono (waitsFor_mono hsub) _ _ hk)
  cases h with
  | keep => exact hacyclic k
  | leave => exact hsub _ mem_of_mem_dropEdge k
  | sleep hring =>
    refine acyclic_cons (hsub _ mem_of_mem_dropEdge) (fun hback => ?_) k
    have hwalk := (leadsTo_iff hnodup hacyclic).2
      (ReflTransGen.mono (waitsFor_mono mem_of_mem_dropEdge) _ _ hback)
    rw [hring] at hwalk
    cases hwalk
  | announce => exact hsub _ (fun _ hmem => (List.mem_filter.1 hmem).1) k
  | forget => exact hsub _ (fun _ hmem => (List.not_mem_nil hmem).elim) k

end Rewires

namespace Moves

variable {engine : Engine} {i : Nat} {memo memo' : Memo} {edges edges' : List (Nat × WaitEdge)}
  {woken : Bool} {thread thread' : Thread}

theorem rewires (h : Moves engine i memo edges thread memo' edges' woken thread') :
    Rewires i edges thread.phase edges' woken thread'.phase := by
  cases h with
  | sleep _ hring => exact .sleep hring
  | announce => exact .announce
  | closeRing | again => exact .leave nofun
  | announceClear | finishClear => exact .forget nofun
  | takeClear | take | refuse | hit | reenter | meet | begin | exhaust | consult | pass | conclude
  | ask | make | inspect | forget | settle | resume | finish | drop => exact .keep rfl nofun

/-- A thread stays busy with a name until it wakes those that wait for it. -/
theorem worksOn (h : Moves engine i memo edges thread memo' edges' woken thread') {name : String}
    (hname : name ∈ thread.opened) : thread'.WorksOn name := by
  cases h with
  | begin => exact Or.inl (List.mem_cons_of_mem _ hname)
  | settle =>
    rcases List.mem_cons.1 hname with rfl | hname
    · exact Or.inr ⟨_, rfl⟩
    · exact Or.inl hname
  | takeClear | take | refuse | hit | reenter | meet | closeRing | sleep | again | exhaust
  | consult | pass | conclude | ask | make | inspect | forget | announce | announceClear
  | finishClear | resume | finish | drop => exact Or.inl hname

/-- An edge is put down for the owner of a mark. -/
theorem mem_or_marked (h : Moves engine i memo edges thread memo' edges' woken thread') {j : Nat}
    {edge : WaitEdge} (hmem : (j, edge) ∈ edges') :
    (j, edge) ∈ edges ∨ memo.slot? edge.name = some (.loading edge.owner) := by
  cases h with
  | sleep hmark =>
    rcases List.mem_cons.1 hmem with heq | hmem
    · cases heq
      exact Or.inr (isMarkedBy_iff.1 hmark)
    · exact Or.inl (mem_dropEdge.1 hmem).1
  | closeRing | again => exact Or.inl (mem_dropEdge.1 hmem).1
  | announce => exact Or.inl (List.mem_filter.1 hmem).1
  | announceClear | finishClear => cases hmem
  | takeClear | take | refuse | hit | reenter | meet | begin | exhaust | consult | pass | conclude
  | ask | make | inspect | forget | settle | resume | finish | drop => exact Or.inl hmem

/-- Whoever wakes those that wait for it and a name leaves them no edge. -/
theorem not_announced (h : Moves engine i memo edges thread memo' edges' woken thread') {j : Nat}
    {name : String} (hmem : (j, ⟨i, name⟩) ∈ edges') (answer : Answer) :
    thread.phase ≠ .announce name answer := by
  obtain ⟨pending, stack, phase, finished⟩ := thread
  rintro ⟨⟩
  cases h with
  | announce =>
    have hkept := (List.mem_filter.1 hmem).2
    rw [bne_self_eq_false] at hkept
    cases hkept

theorem grounded (h : Moves engine i memo edges thread memo' edges' woken thread')
    (hgrounded : thread.Grounded) : thread'.Grounded := by
  cases h with
  | takeClear => exact fun _ => hgrounded (Or.inl rfl)
  | finish | drop => exact fun _ => rfl
  | take | refuse | hit | reenter | meet | begin | closeRing | sleep | again | exhaust | consult
  | pass | conclude | ask | make | inspect | forget | settle | announce | announceClear
  | finishClear | resume => rintro (hphase | hphase) <;> cases hphase

end Moves

/-- A mark that is there after a step was there before, of a thread that still resolves the
    name, or the thread has just put it there. -/
theorem Changes.marked_cases {i owner : Nat} {memo memo' : Memo} {opened opened' : List String}
    {name : String} (h : Changes i memo opened memo' opened')
    (hslot : memo'.slot? name = some (.loading owner)) :
    (memo.slot? name = some (.loading owner) ∧ (owner = i → name ∈ opened → name ∈ opened')) ∨
      owner = i ∧ name ∈ opened' := by
  cases h with
  | keep hkept => exact Or.inl ⟨(hkept name) ▸ hslot, fun _ => id⟩
  | @begin _ begun hopen =>
    rw [Memo.slot?_begin] at hslot
    split at hslot
    next heq =>
      cases hslot
      exact Or.inr ⟨rfl, heq ▸ List.mem_cons_self⟩
    next => exact Or.inl ⟨hslot, fun _ => List.mem_cons_of_mem _⟩
  | @settle _ settled answer =>
    by_cases hname : name = settled
    · subst hname
      rcases memo.settle_cases i name answer with
        ⟨handle, -, hhandle⟩ | ⟨-, hnone⟩ | ⟨hother, hsame⟩
      · rw [hhandle] at hslot
        cases hslot
      · rw [hnone] at hslot
        cases hslot
      · rw [hsame] at hslot
        exact Or.inl ⟨hslot, fun howner => absurd (howner ▸ hslot) hother⟩
    · rw [Memo.slot?_settle_of_ne _ hname] at hslot
      exact Or.inl ⟨hslot, fun _ hmem => List.mem_of_ne_of_mem hname hmem⟩

/-! ## The invariant -/

/-- Marks and edges say the truth about the threads of a crew. -/
structure Orderly (crew : Crew) : Prop where
  /-- Who marked a name is resolving it. -/
  marked : ∀ name owner, crew.memo.slot? name = some (.loading owner) →
    ∃ thread, crew.threads[owner]? = some thread ∧ name ∈ thread.opened
  /-- An edge starts at a thread that waits. -/
  waiting : ∀ i edge, (i, edge) ∈ crew.edges →
    ∃ thread, crew.threads[i]? = some thread ∧ thread.phase.edge? = some edge
  /-- It ends at a thread that is busy with the name. -/
  working : ∀ i edge, (i, edge) ∈ crew.edges →
    ∃ thread, crew.threads[edge.owner]? = some thread ∧ thread.WorksOn edge.name
  /-- A thread that sleeps has its edge. -/
  asleep : ∀ i thread name owner, crew.threads[i]? = some thread →
    thread.phase = .asleep name owner → (i, ⟨owner, name⟩) ∈ crew.edges
  /-- No thread has two. -/
  nodup : (crew.edges.map Prod.fst).Nodup
  /-- There are no rings. -/
  acyclic : ∀ i, ¬ TransGen (WaitsFor crew.edges) i i

namespace Orderly

variable {engine : Engine} {crew next : Crew} {i : Nat} {thread thread' : Thread} {woken : Bool}

section

variable (h : Orderly crew) (hthread : crew.threads[i]? = some thread)
  (hmoves : Moves engine i crew.memo crew.edges thread next.memo next.edges woken thread')
  (hthreads : next.threads = moved crew.threads i woken thread')

include hthread hthreads

/-- What holds of a thread that does not move, asleep or awake, holds of it after the step. -/
theorem exists_after {p : Thread → Prop} {j : Nat} (hwake : ∀ thread, p thread → p (wake thread))
    (hself : j = i → p thread') (hother : ∃ other, crew.threads[j]? = some other ∧ p other) :
    ∃ other, next.threads[j]? = some other ∧ p other := by
  rw [hthreads]
  by_cases hj : j = i
  · subst hj
    exact ⟨thread', getElem?_moved_self (Array.getElem?_eq_some_iff.1 hthread).1, hself rfl⟩
  · obtain ⟨other, hbefore, hp⟩ := hother
    refine ⟨_, (getElem?_moved_eq_some_iff hj).2 ⟨other, hbefore, rfl⟩, ?_⟩
    split
    · exact hwake other hp
    · exact hp

include h hmoves

theorem marked_after (name : String) (owner : Nat)
    (hslot : next.memo.slot? name = some (.loading owner)) :
    ∃ thread, next.threads[owner]? = some thread ∧ name ∈ thread.opened := by
  have hwake : ∀ thread : Thread, name ∈ thread.opened → name ∈ (wake thread).opened :=
    fun thread hname => by rwa [opened_wake]
  rcases hmoves.changes with hchanges | ⟨hclear, -, -⟩
  · rcases hchanges.marked_cases hslot with ⟨hbefore, hkept⟩ | ⟨rfl, hname⟩
    · obtain ⟨other, hother, hname⟩ := h.marked name owner hbefore
      refine exists_after hthread hthreads hwake (fun howner => ?_) ⟨other, hother, hname⟩
      subst howner
      cases hother.symm.trans hthread
      exact hkept rfl hname
    · rw [hthreads]
      exact ⟨thread', getElem?_moved_self (Array.getElem?_eq_some_iff.1 hthread).1, hname⟩
  · rw [hclear, Memo.slot?_clear] at hslot
    cases hslot

theorem waiting_after (j : Nat) (edge : WaitEdge) (hmem : (j, edge) ∈ next.edges) :
    ∃ other, next.threads[j]? = some other ∧ other.phase.edge? = some edge := by
  by_cases hj : j = i
  · subst hj
    rw [hthreads, getElem?_moved_self (Array.getElem?_eq_some_iff.1 hthread).1]
    refine ⟨thread', rfl, hmoves.rewires.edge?_of_mem (fun hbefore => ?_) hmem⟩
    obtain ⟨other, hother, hedge⟩ := h.waiting j edge hbefore
    cases hother.symm.trans hthread
    exact hedge
  · exact exists_after hthread hthreads (fun thread hedge => by rwa [edge?_phase_wake])
      (fun heq => absurd heq hj) (h.waiting j edge (hmoves.rewires.mem_of_ne hj hmem))

theorem working_after (j : Nat) (edge : WaitEdge) (hmem : (j, edge) ∈ next.edges) :
    ∃ other, next.threads[edge.owner]? = some other ∧ other.WorksOn edge.name := by
  have hbefore : ∃ other, crew.threads[edge.owner]? = some other ∧ other.WorksOn edge.name := by
    rcases hmoves.mem_or_marked hmem with hold | hmark
    · exact h.working j edge hold
    · obtain ⟨other, hother, hname⟩ := h.marked edge.name edge.owner hmark
      exact ⟨other, hother, Or.inl hname⟩
  refine exists_after hthread hthreads (fun _ => worksOn_wake) (fun howner => ?_) hbefore
  obtain ⟨other, hother, hopened | ⟨answer, hphase⟩⟩ := hbefore
  · cases (howner ▸ hother).symm.trans hthread
    exact hmoves.worksOn hopened
  · cases (howner ▸ hother).symm.trans hthread
    subst howner
    exact absurd hphase (hmoves.not_announced hmem answer)

theorem asleep_after (j : Nat) (other : Thread) (name : String) (owner : Nat)
    (hother : next.threads[j]? = some other) (hphase : other.phase = .asleep name owner) :
    (j, ⟨owner, name⟩) ∈ next.edges := by
  rw [hthreads] at hother
  by_cases hj : j = i
  · subst hj
    rw [getElem?_moved_self (Array.getElem?_eq_some_iff.1 hthread).1] at hother
    cases hother
    have hrewires := hmoves.rewires
    rw [hphase] at hrewires
    exact hrewires.mem_of_asleep
  · obtain ⟨before, hbefore, rfl⟩ := (getElem?_moved_eq_some_iff hj).1 hother
    cases woken with
    | true => exact absurd ⟨name, owner, hphase⟩ (not_isAsleep_wake before)
    | false =>
      exact hmoves.rewires.mem_of_not_woken hj (h.asleep j before name owner hbefore hphase)

end

/-- A step keeps the truth. -/
theorem step (h : Orderly crew) (hstep : crew.step engine i = some next) : Orderly next := by
  obtain ⟨thread, hthread, woken, thread', hmoves, hthreads⟩ := does_of_step hstep
  exact {
    marked := h.marked_after hthread hmoves hthreads
    waiting := h.waiting_after hthread hmoves hthreads
    working := h.working_after hthread hmoves hthreads
    asleep := h.asleep_after hthread hmoves hthreads
    nodup := hmoves.rewires.nodup h.nodup
    acyclic := hmoves.rewires.acyclic h.nodup h.acyclic }

/-- Before the first step there are neither marks nor edges, and nobody sleeps. -/
theorem ofRequests (requests : List (List Request)) : Orderly (ofRequests requests) where
  marked _ _ hslot := nomatch hslot
  waiting _ _ hmem := nomatch hmem
  working _ _ hmem := nomatch hmem
  asleep i thread name owner hthread hphase := by
    have hidle : Each (fun _ _ thread => thread.phase = .idle) (Crew.ofRequests requests) :=
      .ofRequests fun _ _ _ => rfl
    cases (hidle i thread hthread).symm.trans hphase
  nodup := .nil
  acyclic i hring := by
    obtain ⟨j, ⟨name, hmem⟩, -⟩ := Relation.TransGen.head'_iff.1 hring
    cases hmem

end Orderly

section

variable {engine : Engine} {crew : Crew} {requests : List (List Request)}

theorem orderly_of_reachable (hcrew : Reachable engine (ofRequests requests) crew) :
    Orderly crew := by
  induction hcrew with
  | refl => exact .ofRequests requests
  | step i _ hstep ih => exact ih.step hstep

theorem grounded_of_reachable (hcrew : Reachable engine (ofRequests requests) crew) :
    Each (fun _ _ thread => thread.Grounded) crew :=
  (Each.ofRequests fun _ _ _ _ => rfl).of_reachable (fun _ _ _ => grounded_wake)
    (fun _ _ _ _ _ _ _ _ hmoves hgrounded => ⟨hmoves.grounded hgrounded, fun _ _ _ => id⟩) hcrew

/-! ## No deadlock -/

/-- A thread that is busy with a name can take a step unless it sleeps. -/
theorem isSome_step_of_worksOn {i : Nat} {thread : Thread} {name : String}
    (hthread : crew.threads[i]? = some thread) (hgrounded : thread.Grounded)
    (hworks : thread.WorksOn name) (hawake : ¬ thread.phase.IsAsleep) :
    (crew.step engine i).isSome := by
  obtain ⟨pending, stack, phase, finished⟩ := thread
  unfold step
  rw [hthread]
  cases phase with
  | idle =>
    cases hgrounded (Or.inl rfl)
    rcases hworks with hopened | ⟨answer, hphase⟩
    · cases hopened
    · cases hphase
  | asleep name owner => exact absurd ⟨name, owner, rfl⟩ hawake
  | look | check | consult | inquire | settle | announce | announceClear | finishClear | deliver =>
    rfl

/-- **Threads that wait never wait for each other**, whatever the order in which threads take
    their steps and make the engine forget.  The edges form no ring; a thread that sleeps has an
    edge to a thread that is still busy with the name; and whoever follows the edges from
    a thread that waits comes to one that can take its next step. -/
theorem waits_end (hcrew : Reachable engine (ofRequests requests) crew) :
    (∀ i, ¬ TransGen (WaitsFor crew.edges) i i) ∧
      (∀ i thread name owner, crew.threads[i]? = some thread →
        thread.phase = .asleep name owner →
          edge? crew.edges i = some ⟨owner, name⟩ ∧
            ∃ other, crew.threads[owner]? = some other ∧ other.WorksOn name) ∧
      ∀ i edge, edge? crew.edges i = some edge →
        ∃ k last, TransGen (WaitsFor crew.edges) i k ∧ edge? crew.edges k = none ∧
          crew.threads[k]? = some last ∧ ¬ last.phase.IsAsleep ∧ (crew.step engine k).isSome := by
  have horderly := orderly_of_reachable hcrew
  refine ⟨horderly.acyclic, fun i thread name owner hthread hphase => ?_, fun i edge hedge => ?_⟩
  · have hmem := horderly.asleep i thread name owner hthread hphase
    exact ⟨edge?_of_mem horderly.nodup hmem, horderly.working i _ hmem⟩
  · obtain ⟨k, hk, hnone⟩ := exists_end horderly.acyclic edge.owner
    have hway : TransGen (WaitsFor crew.edges) i k := .head' ⟨edge.name, mem_of_edge? hedge⟩ hk
    obtain ⟨j, -, name, hlast⟩ := Relation.TransGen.tail'_iff.1 hway
    obtain ⟨last, hthread, hworks⟩ := horderly.working j _ hlast
    have hawake : ¬ last.phase.IsAsleep := by
      rintro ⟨other, owner, hphase⟩
      exact edge?_eq_none_iff.1 hnone _ (horderly.asleep k last other owner hthread hphase)
    exact ⟨k, last, hway, hnone, hthread, hawake, isSome_step_of_worksOn hthread
      (grounded_of_reachable hcrew k last hthread) hworks hawake⟩

/-- One thread resolves an array, the second an array of such arrays, and the third waits for the
    second: the way from the third leads through the second to the first. -/
theorem waits_end_tower :
    ∃ crew, Reachable ⟨[(0, .wellKnown)]⟩
        (ofRequests [[.find "int[]"], [.find "int[][]"], [.find? "int[][]"]]) crew ∧
      edge? crew.edges 2 = some ⟨1, "int[][]"⟩ ∧ edge? crew.edges 1 = some ⟨0, "int[]"⟩ ∧
      edge? crew.edges 0 = none ∧ (∀ i, ¬ TransGen (WaitsFor crew.edges) i i) ∧
      (∃ other, crew.threads[1]? = some other ∧ other.WorksOn "int[][]") ∧
      ∃ k last, TransGen (WaitsFor crew.edges) 2 k ∧ edge? crew.edges k = none ∧
        crew.threads[k]? = some last ∧ ¬ last.phase.IsAsleep ∧
        (crew.step ⟨[(0, .wellKnown)]⟩ k).isSome := by
  obtain ⟨crew, thread, hcrew, hedges, hthread, hphase⟩ : ∃ crew thread,
      [0, 0, 1, 1, 1, 1, 1, 1, 2, 2, 2].foldlM
          (fun (crew : Crew) i => crew.step ⟨[(0, .wellKnown)]⟩ i)
          (ofRequests [[.find "int[]"], [.find "int[][]"], [.find? "int[][]"]]) = some crew ∧
        crew.edges = [(2, ⟨1, "int[][]"⟩), (1, ⟨0, "int[]"⟩)] ∧
        crew.threads[2]? = some thread ∧ thread.phase = .asleep "int[][]" 1 :=
    ⟨_, _, rfl, rfl, rfl, rfl⟩
  obtain ⟨hacyclic, hasleep, hend⟩ := waits_end (.of_foldlM hcrew)
  obtain ⟨hedge, hworks⟩ := hasleep 2 thread "int[][]" 1 hthread hphase
  refine ⟨crew, .of_foldlM hcrew, hedge, ?_, ?_, hacyclic, hworks, hend 2 _ hedge⟩
  · rw [hedges]
    rfl
  · rw [hedges]
    rfl

end

end Crew

end TypeAtlas
