/-
  What an engine remembers does not show in its answers.

  `Memo.Fits` is the invariant of all that happens while a stack of names is being
  resolved: exactly the names of the stack are marked, and the handle of a
  resolved name is its free answer.

  * `Engine.mirrors_load`: with a memo that fits, the engine answers as if nothing
    were remembered;
  * a remembered name cannot close a cycle, since all names of the stack need it:
    if it needed one of them, it would need itself and have no free answer;
  * `Engine.answers_fresh`: whatever was asked before, all requests are answered
    as if nothing were remembered.
-/
import TypeAtlas.Engine.Threads
import TypeAtlas.Proofs.Engine.Fresh
import TypeAtlas.Proofs.Engine.Lookup

namespace TypeAtlas

/-! ## What is remembered -/

/-- What is remembered while the names in `stack` are being resolved. -/
structure Memo.Fits (memo : Memo) (chain : Chain) (stack : List String) : Prop where
  /-- The names of the stack are marked. -/
  marked : ∀ name ∈ stack, memo.slot? name = some (.loading Engine.onlyThread)
  /-- No other names are marked. -/
  stacked : ∀ name owner, memo.slot? name = some (.loading owner) → name ∈ stack
  /-- The handles of resolved names are right. -/
  right : ∀ name handle, memo.slot? name = some (.resolved handle) →
    ∃ found, chain.Gives name found ∧ Answer.Alike (.ok (some handle)) found

namespace Memo.Fits

variable {memo memo' : Memo} {chain : Chain} {stack : List String}

theorem of_slots (h : memo.Fits chain stack)
    (hslots : ∀ name, memo'.slot? name = memo.slot? name) : memo'.Fits chain stack where
  marked name hname := (hslots name).trans (h.marked name hname)
  stacked name owner hslot := h.stacked name owner ((hslots name).symm.trans hslot)
  right name handle hslot := h.right name handle ((hslots name).symm.trans hslot)

theorem of_open (hopen : ∀ name, memo.slot? name = none) : memo.Fits chain [] where
  marked name hname := absurd hname List.not_mem_nil
  stacked name owner hslot := by simp [hopen] at hslot
  right name handle hslot := by simp [hopen] at hslot

theorem not_mem (h : memo.Fits chain stack) {name : String} (hopen : memo.slot? name = none) :
    name ∉ stack := by
  intro hname
  rw [h.marked name hname] at hopen
  cases hopen

theorem begin (h : memo.Fits chain stack) (name : String) :
    (memo.begin Engine.onlyThread name).Fits chain (name :: stack) := by
  constructor
  · intro other hother
    rw [slot?_begin]
    split
    · rfl
    · exact h.marked other ((List.mem_cons.1 hother).resolve_left ‹_›)
  · intro other owner hslot
    rw [slot?_begin] at hslot
    split at hslot
    · exact List.mem_cons.2 (.inl ‹_›)
    · exact List.mem_cons_of_mem _ (h.stacked other owner hslot)
  · intro other handle hslot
    rw [slot?_begin] at hslot
    split at hslot
    · cases hslot
    · exact h.right other handle hslot

/-- Settling a name takes it from the stack if the right handle is remembered. -/
theorem settle {name : String} (h : memo.Fits chain (name :: stack)) (hname : name ∉ stack)
    {answer : Answer} (hanswer : ∀ handle, answer = .ok (some handle) →
      ∃ found, chain.Gives name found ∧ Answer.Alike (.ok (some handle)) found) :
    (memo.settle Engine.onlyThread name answer).Fits chain stack := by
  have hslot := fun other => slot?_settle other (h.marked name List.mem_cons_self) answer
  constructor
  · intro other hother
    have hne : other ≠ name := fun heq => hname (heq ▸ hother)
    rw [hslot, if_neg hne]
    exact h.marked other (List.mem_cons_of_mem _ hother)
  · intro other owner hother
    rw [hslot] at hother
    split at hother
    · split at hother <;> cases hother
    · exact (List.mem_cons.1 (h.stacked other owner hother)).resolve_left ‹_›
  · intro other handle hother
    rw [hslot] at hother
    by_cases heq : other = name
    · rw [if_pos heq] at hother
      rw [heq]
      rcases answer with e | _ | handle'
      · cases hother
      · cases hother
      · cases hother
        exact hanswer handle rfl
    · rw [if_neg heq] at hother
      exact h.right other handle hother

end Memo.Fits

/-! ## Answers as without memory -/

/-- The computation leaves a memo that fits and comes to what `reference` comes to, and it has
    an answer where `reference` has one in the given depth. -/
def LookupM.Mirrors (body : LookupM (Option Handle)) (memo : Memo) (chain : Chain)
    (stack : List String) (depth : Nat) (reference : Nat → Option Answer) : Prop :=
  body.Ends memo (reference depth = none) fun outcome memo' =>
    memo'.Fits chain stack ∧
      ∃ deep found, reference deep = some found ∧ Answer.Alike outcome found

open LookupM

section

variable {chain : Chain} {stack : List String} {depth : Nat}
  {ask : String → LookupM (Option Handle)}

/-- Once a first answer is found, what comes after it may be judged by itself. -/
theorem LookupM.Mirrors.bind {body : LookupM (Option Handle)} {memo : Memo}
    {first : Nat → Option Answer} (next : Answer → Nat → Option Answer) {deep : Nat}
    {found : Answer} (hfirst : Rising first) (hfound : first deep = some found)
    (hnext : Rising (next found)) (h : Mirrors body memo chain stack depth (next found)) :
    Mirrors body memo chain stack depth fun depth =>
      (first depth).bind fun found => next found depth := by
  refine Ends.imp h (fun hnone => ?_) ?_
  · simp only
    cases hdepth : first depth with
    | none => rfl
    | some found' =>
      cases hfirst.inj hfound hdepth
      exact hnone
  · rintro outcome memo' ⟨hfits, deep', answer, hanswer, halike⟩
    refine ⟨hfits, max deep deep', answer, ?_, halike⟩
    simp only [hfirst hfound (Nat.le_max_left deep deep'), Option.bind_some]
    exact hnext hanswer (Nat.le_max_right deep deep')

variable (hsteady : ∀ provider ∈ chain, provider.Steady)
  (hask : ∀ name memo, memo.Fits chain stack → (∀ above ∈ stack, chain.Needs above name) →
    Mirrors (ask name) memo chain stack depth fun depth => chain.fresh depth stack name)

include hsteady hask

/-- What a provider does with the engine comes to what it does without memory, if the names
    that are being resolved need all that it asks for. -/
theorem Inquiry.Alike.mirrors {inquiry inquiry' : Inquiry} (h : inquiry.Alike inquiry')
    (hneeds : ∀ asked, inquiry'.Asks chain.Gives asked →
      ∀ above ∈ stack, chain.Needs above asked) {memo : Memo} (hfits : memo.Fits chain stack) :
    Mirrors (inquiry.run ask) memo chain stack depth fun depth =>
      inquiry'.answerWith (chain.fresh depth stack) := by
  induction h generalizing memo with
  | done h =>
    simp only [Mirrors, Inquiry.run, ends_ofExcept]
    exact ⟨hfits, 0, _, rfl, h⟩
  | @ask name next next' hnext herror herror' ih =>
    simp only [Mirrors, Inquiry.run, ends_bind, ends_outcome]
    refine (hask name memo hfits (hneeds name (.now _ _))).imp (fun hnone => ?_) ?_
    · simp only [answerWith, hnone, Option.bind_none]
    · rintro outcome memo' ⟨hfits', deep, found, hfound, halike⟩
      rcases outcome with e | outcome
      · cases halike
        simp only [herror, Inquiry.run, ends_ofExcept]
        refine ⟨hfits', deep, .error e, ?_, .error e⟩
        simp only [answerWith, hfound, Option.bind_some, herror']
      · obtain ⟨found', rfl⟩ : ∃ found', found = .ok found' := by
          cases halike <;> exact ⟨_, rfl⟩
        have hgives : chain.Gives name (.ok found') := ⟨deep, Chain.free_of_fresh hsteady hfound⟩
        have hneeds' := fun asked hasks => hneeds asked (.later hgives hasks)
        exact Mirrors.bind (fun found depth => (next' found).answerWith (chain.fresh depth stack))
          (Chain.rising_fresh chain stack name) hfound (Chain.rising_inquiry chain stack _)
          (ih _ _ halike hneeds' hfits')
  | make hkind hnext ih =>
    simp only [Mirrors, Inquiry.run, ends_bind, ends_make]
    exact ih _ 0 (fun asked hasks => hneeds asked (.make hasks))
      (hfits.of_slots fun _ => Memo.slot?_make _ _ _)
  | look h hnext ih =>
    simp only [Mirrors, Inquiry.run, ends_bind, ends_modify]
    exact ih (fun asked hasks => hneeds asked (.look hasks))
      (hfits.of_slots fun _ => Memo.slot?_look _ _ _)

/-- Consulting providers with the engine comes to what it comes to without memory, if the
    names that are being resolved need all that they ask for. -/
theorem Engine.mirrors_consult (name : String) {entries : List (Nat × Provider)}
    (hentries : ∀ entry ∈ entries, entry.2.Steady)
    (hneeds : ∀ asked, Chain.Asks chain.Gives name (entries.map Prod.snd) asked →
      ∀ above ∈ stack, chain.Needs above asked) {memo : Memo} (hfits : memo.Fits chain stack) :
    Mirrors (Engine.consult ask name entries) memo chain stack depth fun depth =>
      Chain.answerWith (chain.fresh depth stack) name (entries.map Prod.snd) := by
  induction entries generalizing memo with
  | nil => exact ⟨hfits, 0, _, rfl, .none⟩
  | cons entry rest ih =>
    obtain ⟨number, provider⟩ := entry
    obtain ⟨hfirst, hrest⟩ := List.forall_mem_cons.1 hentries
    simp only [Mirrors, Engine.consult, ends_bind, ends_get, ends_modify, List.map_cons,
      Chain.answerWith]
    have hconsult : (memo.consult number name).Fits chain stack :=
      hfits.of_slots fun _ => Memo.slot?_consult _ _ _ _
    have hmirrors := (hfirst memo.turn 0 name).mirrors hsteady hask
      (fun asked hasks => hneeds asked (.first hasks)) hconsult
    refine hmirrors.imp (fun hnone => ?_) ?_
    · simp only [hnone, Option.bind_none]
    · rintro outcome memo' ⟨hfits', deep, found, hfound, halike⟩
      cases halike with
      | some h =>
        refine ⟨hfits', deep, _, ?_, .some h⟩
        simp only [hfound, Option.bind_some, Answer.orElse]
      | none =>
        have hnone := (hfirst 0 0 name).answerWith_of_ok
          (fun _ _ => Chain.free_of_fresh hsteady) hfound
        have hneeds' := fun asked hasks =>
          hneeds asked (.rest (fun _ _ hfree => ⟨deep, hfree⟩) hnone hasks)
        exact Mirrors.bind (fun found depth => found.orElse
            (Chain.answerWith (chain.fresh depth stack) name (rest.map Prod.snd)))
          (Chain.rising_inquiry chain stack _) hfound (Chain.rising_answerWith chain stack name _)
          (ih hrest hneeds' hfits')
      | error e =>
        refine ⟨hfits', deep, _, ?_, .error e⟩
        simp only [hfound, Option.bind_some, Answer.orElse]

end

/-- The providers of an engine. -/
def Engine.chain (engine : Engine) : Chain := engine.providers.map Prod.snd

/-- **With a memo that fits, the engine answers as if nothing were remembered.** -/
theorem Engine.mirrors_load {engine : Engine} (hsteady : ∀ provider ∈ engine.chain, provider.Steady)
    (depth : Nat) {stack : List String} (name : String) {memo : Memo}
    (hfits : memo.Fits engine.chain stack) (hneeds : ∀ above ∈ stack, engine.chain.Needs above name) :
    Mirrors (engine.load depth name) memo engine.chain stack depth fun depth =>
      engine.chain.fresh depth stack name := by
  induction depth generalizing stack name memo with
  | zero => exact ends_exhausted.2 rfl
  | succ depth ih =>
    simp only [Mirrors, ends_load]
    have hchain : engine.chain.isEmpty = engine.providers.isEmpty := List.isEmpty_map
    split
    next hempty =>
      refine ⟨hfits, 1, _, ?_, .error _⟩
      rw [Chain.fresh_succ, hchain, if_pos hempty]
    next hempty =>
      rcases hslot : memo.slot? name with _ | owner | handle
      · -- The name is open.
        have hnew := hfits.not_mem hslot
        have hreference : ∀ deep, engine.chain.fresh (deep + 1) stack name =
            engine.chain.answerWith (engine.chain.fresh deep (name :: stack)) name := by
          intro deep
          rw [Chain.fresh_succ, hchain, if_neg hempty, if_neg hnew]
        have hconsult := mirrors_consult hsteady (fun other _ => ih other) name
          (fun entry hentry => hsteady _ (List.mem_map_of_mem hentry)) ?_ (hfits.begin name)
        refine hconsult.imp (fun hnone => (hreference depth).trans hnone) ?_
        rintro answer memo' ⟨hfits', deep, found, hfound, halike⟩
        have hfresh := (hreference deep).trans hfound
        refine ⟨hfits'.settle hnew ?_, deep + 1, found, hfresh, halike⟩
        · rintro handle rfl
          cases halike with
          | some h => exact ⟨_, ⟨deep + 1, Chain.free_of_fresh hsteady hfresh⟩, .some h⟩
        · intro asked hasks above habove
          have hasked := Chain.needs_of_asks hasks
          rcases List.mem_cons.1 habove with rfl | habove
          · exact hasked
          · exact (hneeds above habove).trans hasked
      · -- The name is being resolved.
        refine ⟨hfits, 1, _, ?_, .error _⟩
        rw [Chain.fresh_succ, hchain, if_neg hempty, if_pos (hfits.stacked name owner hslot)]
      · -- The name is remembered; the names of the stack need it, so its free answer stands.
        obtain ⟨found, ⟨deep, hfound⟩, halike⟩ := hfits.right name handle hslot
        exact ⟨hfits, deep, found, Chain.fresh_of_free hneeds hfound, halike⟩

/-! ## The order of providers -/

/-- The providers in descending priority; those of one priority keep their order. -/
structure Chain.InOrder (chain : Chain) (providers : List Provider) : Prop where
  descending : chain.Pairwise fun provider later => later.priority ≤ provider.priority
  stable : ∀ priority, chain.filter (fun provider => provider.priority = priority) =
    providers.filter fun provider => provider.priority = priority

/-- Whether a provider may be consulted before another. -/
def Provider.mayPrecede (provider other : Provider) : Bool := other.priority ≤ provider.priority

theorem Provider.mayPrecede_iff {provider other : Provider} :
    provider.mayPrecede other = true ↔ other.priority ≤ provider.priority := decide_eq_true_iff

theorem Provider.mayPrecede_trans (a b c : Provider) (hab : a.mayPrecede b = true)
    (hbc : b.mayPrecede c = true) : a.mayPrecede c = true := by
  rw [mayPrecede_iff] at hab hbc ⊢
  exact Int.le_trans hbc hab

theorem Provider.mayPrecede_total (a b : Provider) :
    (a.mayPrecede b || b.mayPrecede a) = true := by
  rw [Bool.or_eq_true, mayPrecede_iff, mayPrecede_iff]
  exact Int.le_total b.priority a.priority

theorem Engine.chain_ofProviders (providers : List Provider) :
    (ofProviders providers).chain = providers.mergeSort Provider.mayPrecede := by
  have hzip : (providers.zipIdx.map fun entry => (entry.2, entry.1)).map Prod.snd = providers := by
    rw [List.map_map]
    exact List.zipIdx_map_fst 0 providers
  refine (List.map_mergeSort (s := Provider.mayPrecede) fun _ _ _ _ => rfl).trans ?_
  rw [hzip]

/-- The sort is stable: providers of one priority are a sorted part of the list. -/
theorem Engine.inOrder_chain (providers : List Provider) :
    (ofProviders providers).chain.InOrder providers := by
  rw [chain_ofProviders]
  constructor
  · have hsorted := List.pairwise_mergeSort Provider.mayPrecede_trans Provider.mayPrecede_total
      providers
    exact hsorted.imp Provider.mayPrecede_iff.1
  · intro priority
    have hsame : (providers.filter fun provider => provider.priority = priority).Pairwise
        fun a b => a.mayPrecede b = true := by
      refine List.pairwise_of_forall_mem_list fun a ha b hb => ?_
      have ha' := of_decide_eq_true (List.mem_filter.1 ha).2
      have hb' := of_decide_eq_true (List.mem_filter.1 hb).2
      exact Provider.mayPrecede_iff.2 (Int.le_of_eq (hb'.trans ha'.symm))
    have hpart := (List.sublist_mergeSort Provider.mayPrecede_trans Provider.mayPrecede_total
      hsame List.filter_sublist).filter fun provider => provider.priority = priority
    rw [List.filter_filter] at hpart
    simp only [Bool.and_self] at hpart
    have hperm := (List.mergeSort_perm providers Provider.mayPrecede).filter
      fun provider => provider.priority = priority
    exact (hpart.eq_of_length hperm.length_eq.symm).symm

/-! ## Requests -/

namespace Request

/-- Serves a request. -/
def run (engine : Engine) (depth : Nat) : Request → LookupM (Option Handle)
  | find? name => engine.find? depth name
  | find name => some <$> engine.find depth name
  | findOrPlaceholder name => some <$> engine.findOrPlaceholder depth name
  | clear => do
    modify fun (memo : Memo) => memo.clear
    return none

/-- The answer to a request and what is remembered after it. -/
def serve (request : Request) (engine : Engine) (depth : Nat) (memo : Memo) :
    Option (Answer × Memo) :=
  (request.run engine depth).run.run memo

/-- The answer to a request if nothing is remembered. -/
def fresh (chain : Chain) (depth : Nat) : Request → Option Answer
  | find? name => chain.fresh depth [] name
  | find name => (chain.fresh depth [] name).map fun
    | .ok none => .error (.unknown name)
    | found => found
  | findOrPlaceholder name => (chain.fresh depth [] name).map fun
    | .ok none => .ok (some (.mk 0 (.placeholder name)))
    | found => found
  | clear => some (.ok none)

theorem rising_fresh (chain : Chain) (request : Request) :
    Rising fun depth => request.fresh chain depth := by
  intro depth deeper found h hle
  cases request with
  | find? name => exact Chain.rising_fresh chain [] name h hle
  | find name =>
    obtain ⟨found', hfound', rfl⟩ := Option.map_eq_some_iff.1 h
    exact Option.map_eq_some_iff.2 ⟨found', Chain.rising_fresh chain [] name hfound' hle, rfl⟩
  | findOrPlaceholder name =>
    obtain ⟨found', hfound', rfl⟩ := Option.map_eq_some_iff.1 h
    exact Option.map_eq_some_iff.2 ⟨found', Chain.rising_fresh chain [] name hfound' hle, rfl⟩
  | clear => exact h

/-- With a memo that fits, a request is answered as if nothing were remembered. -/
theorem mirrors_run {engine : Engine} (hsteady : ∀ provider ∈ engine.chain, provider.Steady)
    {memo : Memo} (hfits : memo.Fits engine.chain []) (depth : Nat) (request : Request) :
    Mirrors (request.run engine depth) memo engine.chain [] depth fun depth =>
      request.fresh engine.chain depth := by
  have hload := fun name => Engine.mirrors_load hsteady depth name hfits
    fun _ habove => absurd habove List.not_mem_nil
  cases request with
  | find? name => exact hload name
  | find name =>
    simp only [Mirrors, run, fresh, Engine.find, map_eq_pure_bind, ends_bind]
    refine (hload name).imp (fun hnone => by simp only [hnone, Option.map_none]) ?_
    rintro outcome memo' ⟨hfits', deep, found, hfound, halike⟩
    have hanswer := fun finish : Answer → Answer => congrArg (Option.map finish) hfound
    cases halike with
    | some h => exact ⟨hfits', deep, _, hanswer _, .some h⟩
    | none => exact ⟨hfits', deep, _, hanswer _, .error _⟩
    | error e => exact ⟨hfits', deep, _, hanswer _, .error e⟩
  | findOrPlaceholder name =>
    simp only [Mirrors, run, fresh, Engine.findOrPlaceholder, map_eq_pure_bind, ends_bind]
    refine (hload name).imp (fun hnone => by simp only [hnone, Option.map_none]) ?_
    rintro outcome memo' ⟨hfits', deep, found, hfound, halike⟩
    have hanswer := fun finish : Answer → Answer => congrArg (Option.map finish) hfound
    cases halike with
    | some h => exact ⟨hfits', deep, _, hanswer _, .some h⟩
    | none => exact ⟨hfits'.of_slots fun _ => Memo.slot?_make _ _ (.placeholder name), deep, _,
        hanswer _, .some rfl⟩
    | error e => exact ⟨hfits', deep, _, hanswer _, .error e⟩
  | clear => exact ⟨.of_open fun _ => Memo.slot?_clear _ _, 0, _, rfl, .none⟩

/-- A depth that is enough for a request without memory is enough with a memo that fits. -/
theorem ends_run_of_fresh {engine : Engine} (hsteady : ∀ provider ∈ engine.chain, provider.Steady)
    {request : Request} {found : Answer} {enough : Nat}
    (hfresh : request.fresh engine.chain enough = some found) (depth : Nat)
    {memo : Memo} (hfits : memo.Fits engine.chain []) :
    (request.run engine depth).Ends memo (depth < enough) fun answer memo' =>
      memo'.Fits engine.chain [] ∧ Answer.Alike answer found := by
  have hrising := rising_fresh engine.chain request
  refine (mirrors_run hsteady hfits depth request).imp (fun hnone => ?_) ?_
  · refine Nat.lt_of_not_le fun hdepth => ?_
    exact Option.some_ne_none found ((hrising hfresh hdepth).symm.trans hnone)
  · rintro answer memo' ⟨hfits', deep, found', hfound', halike⟩
    rw [hrising.inj hfound' hfresh] at halike
    exact ⟨hfits', halike⟩

end Request

/-- What a name resolves to if nothing is remembered it resolves to with every memo that fits. -/
theorem Engine.ends_findOrPlaceholder {engine : Engine}
    (hsteady : ∀ provider ∈ engine.chain, provider.Steady) {name : String} {found : Handle}
    {enough : Nat}
    (hfresh : (Request.findOrPlaceholder name).fresh engine.chain enough = some (.ok (some found)))
    (depth : Nat) {memo : Memo} (hfits : memo.Fits engine.chain []) :
    (engine.findOrPlaceholder depth name).Ends memo (depth < enough) fun outcome memo' =>
      memo'.Fits engine.chain [] ∧
        ∃ handle, outcome = .ok handle ∧ handle.unmarked = found.unmarked := by
  have hends := Request.ends_run_of_fresh hsteady hfresh depth hfits
  simp only [Request.run, map_eq_pure_bind, ends_bind] at hends
  refine hends.imp id ?_
  rintro (e | handle) memo' ⟨hfits', halike⟩
  · cases halike
  · cases halike with
    | some hhandle => exact ⟨hfits', handle, rfl, hhandle⟩

/-- What an engine may remember between requests. -/
inductive Engine.Served (engine : Engine) : Memo → Prop where
  | empty : Served engine .empty
  | step {memo memo' : Memo} {depth : Nat} {request : Request} {answer : Answer}
    (h : Served engine memo)
    (hserve : request.serve engine depth memo = some (answer, memo')) : Served engine memo'

theorem Engine.Served.fits {engine : Engine} (hsteady : ∀ provider ∈ engine.chain, provider.Steady)
    {memo : Memo} (h : engine.Served memo) : memo.Fits engine.chain [] := by
  induction h with
  | empty => exact .of_open fun _ => Memo.slot?_empty _
  | step _ hserve ih => exact ((Request.mirrors_run hsteady ih _ _).of_eq_some hserve).1

/-- **Whatever was asked before, requests are answered as if nothing were remembered.**
    The first part holds of all answers of the engine, the second says that the engine has an
    answer in every depth that is enough without memory, and by the third no two histories
    show a difference. -/
theorem Engine.answers_fresh {providers : List Provider}
    (hsteady : ∀ provider ∈ providers, provider.Steady) :
    (ofProviders providers).chain.InOrder providers ∧
      ∀ memo, (ofProviders providers).Served memo → ∀ request : Request,
        (∀ depth answer memo',
          request.serve (ofProviders providers) depth memo = some (answer, memo') →
            ∃ deep found, request.fresh (ofProviders providers).chain deep = some found ∧
              Answer.Alike answer found) ∧
        (∀ depth found, request.fresh (ofProviders providers).chain depth = some found →
          ∃ answer memo', request.serve (ofProviders providers) depth memo = some (answer, memo') ∧
            Answer.Alike answer found) ∧
        ∀ other, (ofProviders providers).Served other →
          ∀ depth answer memo' depth' answer' other',
            request.serve (ofProviders providers) depth memo = some (answer, memo') →
            request.serve (ofProviders providers) depth' other = some (answer', other') →
              Answer.Alike answer answer' := by
  have hchain : ∀ provider ∈ (ofProviders providers).chain, provider.Steady := by
    intro provider hmem
    rw [chain_ofProviders, List.mem_mergeSort] at hmem
    exact hsteady provider hmem
  refine ⟨inOrder_chain providers, fun memo hserved request => ?_⟩
  have hrising := Request.rising_fresh (ofProviders providers).chain request
  have hmirrors := fun depth => request.mirrors_run hchain (hserved.fits hchain) depth
  refine ⟨fun depth answer memo' hserve => ((hmirrors depth).of_eq_some hserve).2, ?_, ?_⟩
  · intro depth found hfound
    cases hserve : request.serve (ofProviders providers) depth memo with
    | none => exact absurd (hfound.symm.trans ((hmirrors depth).of_eq_none hserve)) (by simp)
    | some result =>
      obtain ⟨answer, memo'⟩ := result
      obtain ⟨-, deep, found', hfound', halike⟩ := (hmirrors depth).of_eq_some hserve
      rw [hrising.inj hfound hfound']
      exact ⟨answer, memo', rfl, halike⟩
  · intro other hother depth answer memo' depth' answer' other' hserve hserve'
    obtain ⟨-, deep, found, hfound, halike⟩ := (hmirrors depth).of_eq_some hserve
    obtain ⟨-, deep', found', hfound', halike'⟩ :=
      (request.mirrors_run hchain (hother.fits hchain) depth').of_eq_some hserve'
    rw [← hrising.inj hfound hfound'] at halike'
    exact halike.trans halike'.symm

/-- Two types each of which requires the other. -/
def Provider.ring : Provider :=
  planned 0 "ring" fun name =>
    if name = "a.Left" then some ⟨false, ["a.Right"], [], [], none, .ofName "a.Left" .cls⟩
    else if name = "a.Right" then some ⟨false, ["a.Left"], [], [], none, .ofName "a.Right" .cls⟩
    else none

theorem Provider.steady_ring : Provider.ring.Steady := by
  refine steady_planned fun name plan hplan => ?_
  split at hplan
  · cases hplan
    rfl
  · split at hplan
    · cases hplan
      rfl
    · cases hplan

/-- A type of the ring is a cycle, whichever of them was asked for before. -/
theorem Engine.answers_fresh_ring :
    Provider.ring.Steady ∧ ∀ memo, (ofProviders [Provider.ring]).Served memo →
      ∃ memo', (Request.find? "a.Left").serve (ofProviders [Provider.ring]) 3 memo =
        some (.error (.cycle "a.Left"), memo') := by
  refine ⟨Provider.steady_ring, fun memo hserved => ?_⟩
  have hchain : (ofProviders [Provider.ring]).chain = [Provider.ring] := by
    rw [chain_ofProviders, List.mergeSort_singleton]
  obtain ⟨-, hanswers⟩ := answers_fresh (List.forall_mem_singleton.2 Provider.steady_ring)
  obtain ⟨-, hdefined, -⟩ := hanswers memo hserved (.find? "a.Left")
  rw [hchain] at hdefined
  obtain ⟨answer, memo', hserve, halike⟩ := hdefined 3 (.error (.cycle "a.Left")) rfl
  cases halike
  exact ⟨memo', hserve⟩

end TypeAtlas
