/-
  Marks do not outlive a lookup.

  A name is marked while its providers are consulted.  They may ask for other names
  meanwhile, which are then marked too, and they may fail, take errors for answers
  or make the engine forget everything, its marks included.

  * `Memo.ChangedBy` is the invariant: marks are taken back, a new handle was found,
    and slots are kept unless the engine forgets;
  * `Engine.accounts_inquire`, `Engine.accounts_consult`, `Engine.accounts_load`: a
    lookup keeps it, by induction on the depth, the providers and what each of them does;
  * `Request.changedBy_of_serve`: so does every request;
  * `Engine.slot?_of_load_not_found`: a name for which no handle is found stays open;
  * `Engine.slots_of_served`: what is remembered after a request, compared with what was
    remembered before; nothing is marked;
  * `Engine.remembered_of_failed`: a name that failed can be remembered if the engine was
    made to forget that it is being resolved.
-/
import TypeAtlas.Proofs.Engine.Course
import TypeAtlas.Proofs.Engine.Transparency

namespace TypeAtlas

/-! ## Changes of the memo -/

open Engine (Event)

/-- From one memo to another nothing changes but by what happens, and every mark that was made
    is taken back. -/
structure Memo.ChangedBy (happens : Event → Prop) (memo memo' : Memo) : Prop where
  /-- Every mark that is left was there before. -/
  marks : ∀ name owner, memo'.slot? name = some (.loading owner) →
    memo.slot? name = some (.loading owner)
  /-- Every handle that is remembered was there before or was found. -/
  found : ∀ name handle, memo'.slot? name = some (.resolved handle) →
    memo.slot? name = some (.resolved handle) ∨ happens (.found name handle)
  /-- What was there is kept unless everything is forgotten. -/
  kept : ¬ happens .clear → ∀ name slot, memo.slot? name = some slot → memo'.slot? name = some slot

namespace Memo.ChangedBy

variable {p q r : Event → Prop} {memo memo₁ memo₂ : Memo} {owner : Nat} {name : String}

theorem of_slots (h : ∀ name, memo₁.slot? name = memo.slot? name) : memo.ChangedBy p memo₁ where
  marks name _ hmark := h name ▸ hmark
  found name _ hfound := Or.inl (h name ▸ hfound)
  kept _ name _ hslot := (h name).trans hslot

/-- One change after another. -/
theorem trans (h : memo.ChangedBy p memo₁) (h' : memo₁.ChangedBy q memo₂)
    (hp : ∀ event, p event → r event) (hq : ∀ event, q event → r event) :
    memo.ChangedBy r memo₂ where
  marks name owner hmark := h.marks name owner (h'.marks name owner hmark)
  found name handle hfound := by
    rcases h'.found name handle hfound with hfound | hevent
    · exact (h.found name handle hfound).imp_right (hp _)
    · exact Or.inr (hq _ hevent)
  kept hclear name slot hslot :=
    h'.kept (fun hevent => hclear (hq _ hevent)) name slot
      (h.kept (fun hevent => hclear (hp _ hevent)) name slot hslot)

theorem imp (h : memo.ChangedBy p memo₁) (hp : ∀ event, p event → q event) :
    memo.ChangedBy q memo₁ :=
  h.trans (.of_slots fun _ => rfl) hp hp

/-- What touches no slot does not count. -/
theorem after (h : ∀ name, memo₁.slot? name = memo.slot? name) (h' : memo₁.ChangedBy p memo₂) :
    memo.ChangedBy p memo₂ :=
  (of_slots h).trans h' (fun _ => id) fun _ => id

/-- Forgetting leaves nothing. -/
theorem clear (memo : Memo) (h : p .clear) : memo.ChangedBy p memo.clear where
  marks name owner hmark := by
    rw [slot?_clear] at hmark
    cases hmark
  found name handle hfound := by
    rw [slot?_clear] at hfound
    cases hfound
  kept hclear := absurd h hclear

/-- What is remembered of a name that was marked and settled without a handle. -/
theorem slot?_settled (h : (memo.begin owner name).ChangedBy p memo₁) {answer : Answer}
    (hanswer : ∀ handle, answer ≠ .ok (some handle)) :
    (memo₁.settle owner name answer).slot? name = none ∨
      p .clear ∧ ∃ handle, (memo₁.settle owner name answer).slot? name = some (.resolved handle) ∧
        p (.found name handle) := by
  have hbegin : (memo.begin owner name).slot? name = some (.loading owner) := by
    rw [slot?_begin, if_pos rfl]
  have hsettle : memo₁.settle owner name answer = memo₁.release owner name := by
    rcases answer with e | _ | handle
    · rfl
    · rfl
    · exact absurd rfl (hanswer handle)
  rw [hsettle]
  by_cases hmark : memo₁.slot? name = some (.loading owner)
  · rw [slot?_release name hmark, if_pos rfl]
    exact Or.inl rfl
  · -- the mark was lost, so the engine has forgotten it; the name may have been found again
    have hclear : p .clear :=
      Classical.byContradiction fun hclear => hmark (h.kept hclear name _ hbegin)
    rw [release_of_ne hmark]
    rcases hslot : memo₁.slot? name with _ | other | handle
    · exact Or.inl rfl
    · have hsame := h.marks name other hslot
      rw [hbegin, ← hslot] at hsame
      exact absurd hsame.symm hmark
    · rcases h.found name handle hslot with hbefore | hevent
      · rw [hbegin] at hbefore
        cases hbefore
      · exact Or.inr ⟨hclear, handle, rfl, hevent⟩

/-- Whatever is remembered of a name that was marked and settled is a handle found for it. -/
theorem of_slot?_settled (h : (memo.begin owner name).ChangedBy p memo₁) {answer : Answer}
    (hanswer : ∀ handle, answer = .ok (some handle) → p (.found name handle)) {slot : MemoSlot}
    (hslot : (memo₁.settle owner name answer).slot? name = some slot) :
    ∃ handle, slot = .resolved handle ∧ p (.found name handle) := by
  by_cases hfound : ∃ handle, answer = .ok (some handle)
  · obtain ⟨handle, rfl⟩ := hfound
    simp only [slot?, Memo.settle, Table.find?_insert, if_true, Option.some.injEq] at hslot
    exact ⟨handle, hslot.symm, hanswer handle rfl⟩
  · rcases h.slot?_settled fun handle heq => hfound ⟨handle, heq⟩ with
      hnone | ⟨-, handle, hsome, hevent⟩
    · rw [hnone] at hslot
      cases hslot
    · rw [hsome, Option.some.injEq] at hslot
      exact ⟨handle, hslot.symm, hevent⟩

/-- An open name that is marked, then settled. -/
theorem settle (hopen : memo.slot? name = none) (h : (memo.begin owner name).ChangedBy p memo₁)
    {answer : Answer} (hanswer : ∀ handle, answer = .ok (some handle) → p (.found name handle)) :
    memo.ChangedBy p (memo₁.settle owner name answer) := by
  have hother : ∀ other, other ≠ name →
      (memo.begin owner name).slot? other = memo.slot? other := by
    intro other hne
    rw [slot?_begin, if_neg hne]
  constructor
  · intro other marker hmark
    by_cases hne : other = name
    · obtain ⟨handle, hsame, -⟩ := h.of_slot?_settled hanswer (hne ▸ hmark)
      cases hsame
    · rw [slot?_settle_of_ne _ hne] at hmark
      rw [← hother other hne]
      exact h.marks other marker hmark
  · intro other handle hfound
    by_cases hne : other = name
    · subst hne
      obtain ⟨found, hsame, hevent⟩ := h.of_slot?_settled hanswer hfound
      cases hsame
      exact Or.inr hevent
    · rw [slot?_settle_of_ne _ hne] at hfound
      rw [← hother other hne]
      exact h.found other handle hfound
  · intro hclear other slot hslot
    have hne : other ≠ name := by
      rintro rfl
      rw [hopen] at hslot
      cases hslot
    rw [slot?_settle_of_ne _ hne]
    exact h.kept hclear other slot ((hother other hne).trans hslot)

end Memo.ChangedBy

/-! ## Lookups -/

namespace Engine

open LookupM

variable {engine : Engine} {depth : Nat}

/-- Whatever a computation changes is what happens in a task. -/
def Accounts (engine : Engine) (depth : Nat) (task : Task) (body : LookupM (Option Handle)) :
    Prop :=
  ∀ memo, body.Ends memo True fun _ memo' =>
    memo.ChangedBy (engine.Happens depth task memo) memo'

section

variable (hload : ∀ name, engine.Accounts depth (.load name) (engine.load depth name))

include hload

/-- What a provider does is accounted for, step by step. -/
theorem accounts_inquire (inquiry : Inquiry) :
    engine.Accounts depth (.inquire inquiry) (inquiry.run (engine.load depth)) := by
  induction inquiry with
  | done answer =>
    intro memo
    simp only [Inquiry.run, ends_ofExcept]
    exact .of_slots fun _ => rfl
  | ask name next ih =>
    intro memo
    simp only [Inquiry.run, ends_bind, ends_outcome]
    refine (hload name memo).with_run.imp id ?_
    rintro answer memo₁ ⟨hanswer, hfirst⟩
    refine (ih answer memo₁).imp id fun _ memo₂ hrest => ?_
    exact hfirst.trans hrest (fun _ => .asked) (fun _ => .answered hanswer)
  | make kind next ih =>
    intro memo
    simp only [Inquiry.run, ends_bind, ends_make]
    refine (ih _ _).imp id fun _ memo₁ hrest => ?_
    exact (hrest.after fun _ => Memo.slot?_make _ _ kind).imp fun _ => .made
  | look handle next ih =>
    intro memo
    simp only [Inquiry.run, ends_bind, ends_modify]
    refine (ih _).imp id fun _ memo₁ hrest => ?_
    exact (hrest.after fun _ => Memo.slot?_look _ _ handle).imp fun _ => .looked
  | clear next ih =>
    intro memo
    simp only [Inquiry.run, ends_bind, ends_modify]
    refine (ih _).imp id fun _ memo₁ hrest => ?_
    exact (Memo.ChangedBy.clear memo .clear).trans hrest (fun _ => id) fun _ => .cleared

/-- What the providers do one after another. -/
theorem accounts_consult (name : String) (providers : List (Nat × Provider)) :
    engine.Accounts depth (.consult name providers)
      (consult (engine.load depth) name providers) := by
  induction providers with
  | nil =>
    intro memo
    simp only [consult, ends_pure]
    exact .of_slots fun _ => rfl
  | cons entry rest ih =>
    obtain ⟨number, provider⟩ := entry
    intro memo
    simp only [consult, ends_bind, ends_get, ends_modify]
    refine (accounts_inquire hload _ _).with_run.imp id ?_
    rintro outcome memo₁ ⟨hanswer, hinquire⟩
    have hfirst : memo.ChangedBy (engine.Happens depth (.consult name ((number, provider) :: rest))
        memo) memo₁ :=
      (hinquire.after fun _ => Memo.slot?_consult _ _ _ _).imp fun _ => .first
    rcases outcome with e | _ | handle
    · exact hfirst
    · refine (ih memo₁).imp id fun _ memo₂ hrest => ?_
      exact hfirst.trans hrest (fun _ => id) fun _ => .rest hanswer
    · exact hfirst

end

/-- **Whatever a lookup changes is what happens in it**, however deep providers ask. -/
theorem accounts_load (engine : Engine) (depth : Nat) (name : String) :
    engine.Accounts depth (.load name) (engine.load depth name) := by
  induction depth generalizing name with
  | zero => exact fun memo => ends_exhausted.2 trivial
  | succ depth ih =>
    intro memo
    rw [ends_load]
    split
    next => exact .of_slots fun _ => rfl
    next =>
      split
      next => exact .of_slots fun _ => rfl
      next => exact .of_slots fun _ => rfl
      next hopen =>
        refine (accounts_consult ih name engine.providers _).with_run.imp id ?_
        rintro answer memo₁ ⟨hanswer, hconsult⟩
        refine (hconsult.imp fun _ => .opened hopen).settle hopen ?_
        rintro handle rfl
        exact .found hopen hanswer

/-- A lookup that finds no handle leaves an open name open, unless a provider made the engine
    forget that the name is being resolved: then it may be asked for once more and be found
    before the lookup fails. -/
theorem slot?_of_load_not_found {name : String} {memo memo' : Memo} {answer : Answer}
    (hload : (engine.load depth name).run.run memo = some (answer, memo'))
    (hanswer : ∀ handle, answer ≠ .ok (some handle)) (hopen : memo.slot? name = none) :
    memo'.slot? name = none ∨
      engine.Happens depth (.load name) memo .clear ∧
        ∃ handle, memo'.slot? name = some (.resolved handle) ∧
          engine.Happens depth (.load name) memo (.found name handle) := by
  cases depth with
  | zero => cases hload
  | succ depth =>
    have hends : (engine.load (depth + 1) name).Ends memo True fun answer memo' =>
        (∀ handle, answer ≠ .ok (some handle)) → memo'.slot? name = none ∨
          engine.Happens (depth + 1) (.load name) memo .clear ∧
            ∃ handle, memo'.slot? name = some (.resolved handle) ∧
              engine.Happens (depth + 1) (.load name) memo (.found name handle) := by
      rw [ends_load, hopen]
      split
      next => exact fun _ => Or.inl rfl
      next =>
        refine (accounts_consult (engine.accounts_load depth) name engine.providers _).imp id ?_
        intro answer memo₁ hconsult hnone
        exact (hconsult.imp fun _ => .opened hopen).slot?_settled hnone
    exact hends.of_eq_some hload hanswer

end Engine

/-! ## Requests -/

namespace Request

open LookupM

/-- The name that a request looks up. -/
def name? : Request → Option String
  | find? name | find name | findOrPlaceholder name => some name
  | clear => none

/-- What happens while a request is served. -/
def Happens (request : Request) (engine : Engine) (depth : Nat) (memo : Memo) (event : Event) :
    Prop :=
  match request.name? with
  | some name => engine.Happens depth (.load name) memo event
  | none => event = .clear

variable {request : Request} {engine : Engine} {depth : Nat} {memo memo' : Memo} {answer : Answer}

/-- A request looks its name up, and what it does besides touches no slot. -/
theorem exists_load (hserve : request.serve engine depth memo = some (answer, memo'))
    {name : String} (hname : request.name? = some name) :
    ∃ found loaded, (engine.load depth name).run.run memo = some (found, loaded) ∧
      ∀ other, memo'.slot? other = loaded.slot? other := by
  have hload := (engine.accounts_load depth name memo).with_run
  have hends : (request.run engine depth).Ends memo True fun _ memo' =>
      ∃ found loaded, (engine.load depth name).run.run memo = some (found, loaded) ∧
        ∀ other, memo'.slot? other = loaded.slot? other := by
    cases request with
    | clear => cases hname
    | find? name =>
      cases hname
      exact hload.imp id fun found loaded hrun => ⟨found, loaded, hrun.1, fun _ => rfl⟩
    | find name =>
      cases hname
      simp only [run, Engine.find, map_eq_pure_bind, ends_bind]
      refine hload.imp id ?_
      rintro (e | _ | handle) loaded ⟨hrun, -⟩
      all_goals exact ⟨_, loaded, hrun, fun _ => rfl⟩
    | findOrPlaceholder name =>
      cases hname
      simp only [run, Engine.findOrPlaceholder, map_eq_pure_bind, ends_bind]
      refine hload.imp id ?_
      rintro (e | _ | handle) loaded ⟨hrun, -⟩
      · exact ⟨_, loaded, hrun, fun _ => rfl⟩
      · exact ⟨_, loaded, hrun, fun other => Memo.slot?_make _ other (.placeholder name)⟩
      · exact ⟨_, loaded, hrun, fun _ => rfl⟩
  exact hends.of_eq_some hserve

/-- **Whatever a request changes is what happens while it is served.** -/
theorem changedBy_of_serve (hserve : request.serve engine depth memo = some (answer, memo')) :
    memo.ChangedBy (request.Happens engine depth memo) memo' := by
  cases hname : request.name? with
  | none =>
    cases request with
    | clear =>
      cases hserve
      exact .clear memo rfl
    | find? name => cases hname
    | find name => cases hname
    | findOrPlaceholder name => cases hname
  | some name =>
    obtain ⟨found, loaded, hload, hslots⟩ := exists_load hserve hname
    have hchanged := (engine.accounts_load depth name memo).of_eq_some hload
    have hhappens : request.Happens engine depth memo = engine.Happens depth (.load name) memo := by
      unfold Happens
      rw [hname]
    rw [hhappens]
    exact hchanged.trans (.of_slots hslots) (fun _ => id) fun _ => id

/-- The lookup of a request comes to no handle: it fails, or nobody knows the name, which
    a placeholder may stand for. -/
def Misses (request : Request) (engine : Engine) (depth : Nat) (memo : Memo) (name : String) :
    Prop :=
  request.name? = some name ∧ ∃ found loaded,
    (engine.load depth name).run.run memo = some (found, loaded) ∧
      ∀ handle, found ≠ .ok (some handle)

end Request

/-! ## Between requests -/

namespace Engine

variable {engine : Engine} {depth : Nat} {memo memo' : Memo} {request : Request} {answer : Answer}

/-- Between requests no name is marked. -/
theorem Served.unmarked (hserved : engine.Served memo) (name : String) (owner : Nat) :
    memo.slot? name ≠ some (.loading owner) := by
  induction hserved with
  | empty => exact fun hmark => nomatch hmark
  | step _ hserve ih =>
    intro hmark
    exact ih ((Request.changedBy_of_serve hserve).marks name owner hmark)

/-- **No mark outlives a request**, whatever the providers do, and whether it is answered or
    fails.  A name for which no handle was found stays open, unless a provider made the engine
    forget in between and the name was found then; what was remembered before is kept unless the
    engine was made to forget; and what is remembered besides are handles that the providers of
    their own names came to while the request was served. -/
theorem slots_of_served (hserved : engine.Served memo)
    (hserve : request.serve engine depth memo = some (answer, memo')) :
    (∀ name owner, memo'.slot? name ≠ some (.loading owner)) ∧
      (∀ name, request.Misses engine depth memo name →
        memo'.slot? name = none ∨ (∃ handle, memo.slot? name = some (.resolved handle)) ∨
          request.Happens engine depth memo .clear ∧
            ∃ handle, memo'.slot? name = some (.resolved handle) ∧
              request.Happens engine depth memo (.found name handle)) ∧
      (¬ request.Happens engine depth memo .clear →
        ∀ name slot, memo.slot? name = some slot → memo'.slot? name = some slot) ∧
      ∀ name slot, memo'.slot? name = some slot → memo.slot? name = some slot ∨
        ∃ handle, slot = .resolved handle ∧
          request.Happens engine depth memo (.found name handle) := by
  have hchanged := Request.changedBy_of_serve hserve
  have hunmarked := (hserved.step hserve).unmarked
  refine ⟨hunmarked, ?_, hchanged.kept, ?_⟩
  · rintro name ⟨hname, found, loaded, hload, hmissed⟩
    obtain ⟨found', loaded', hload', hslots⟩ := Request.exists_load hserve hname
    cases hload.symm.trans hload'
    rcases hslot : memo.slot? name with _ | owner | handle
    · simp only [hslots, Request.Happens, hname]
      rcases slot?_of_load_not_found hload hmissed hslot with hopen | hfound
      · exact Or.inl hopen
      · exact Or.inr (Or.inr hfound)
    · exact absurd hslot (hserved.unmarked name owner)
    · exact Or.inr (Or.inl ⟨handle, rfl⟩)
  · rintro name (owner | handle) hslot
    · exact absurd hslot (hunmarked name owner)
    · exact (hchanged.found name handle hslot).imp_right fun hevent => ⟨handle, rfl, hevent⟩

end Engine

/-! ## A name that is found before it fails -/

/-- At first it makes the engine forget everything, asks for the name once more and fails; later
    it answers. -/
def Provider.fickle : Provider where
  priority := 0
  label := "fickle"
  inquire turn name :=
    if turn = 0 then .clear (.ask name fun _ => .fail (.provider "late"))
    else .answer (.described (.ofName name .cls))

/-- **A name can be remembered although its lookup failed**: the mark that would have made a cycle
    of the second lookup was forgotten, and its handle outlives the first. -/
theorem Engine.remembered_of_failed : ∃ handle memo,
    Engine.Served ⟨[(0, .fickle)]⟩ .empty ∧ Memo.empty.slot? "a.Late" = none ∧
    (Request.find? "a.Late").serve ⟨[(0, .fickle)]⟩ 2 .empty =
      some (.error (.provider "late"), memo) ∧
    memo.slot? "a.Late" = some (.resolved handle) :=
  ⟨_, _, .empty, rfl, rfl, rfl⟩

/-! ## A cycle below a hub -/

/-- Two types each of which requires the other, and a hub that asks for the first of them and
    takes every answer. -/
def Provider.hub : Provider where
  priority := 0
  label := "hub"
  inquire _ name :=
    if name = "a.Left" then .require "a.Right" fun _ => .answer (.described (.ofName name .cls))
    else if name = "a.Right" then
      .require "a.Left" fun _ => .answer (.described (.ofName name .cls))
    else if name = "a.Hub" then .ask "a.Left" fun _ => .answer (.described (.ofName name .cls))
    else .unknown

theorem Provider.keeps_hub (turn : Nat) (name : String) : (hub.inquire turn name).Keeps := by
  simp only [hub]
  split
  · exact .require _ fun _ => .answer _
  · split
    · exact .require _ fun _ => .answer _
    · split
      · exact .ask fun _ => .answer _
      · exact .unknown

/-- The hub is remembered although a cycle was met below it.  The lookup that fails with the
    cycle leaves the hub as it is and nothing of its own. -/
theorem Engine.slots_of_served_hub :
    ∃ handle memo memo', (Request.find? "a.Hub").serve ⟨[(0, .hub)]⟩ 4 .empty =
        some (.ok (some handle), memo) ∧
      (Request.find? "a.Left").serve ⟨[(0, .hub)]⟩ 4 memo =
        some (.error (.cycle "a.Left"), memo') ∧
      (∀ name owner, memo'.slot? name ≠ some (.loading owner)) ∧
      memo'.slot? "a.Left" = none ∧ memo'.slot? "a.Hub" = some (.resolved handle) := by
  have hkeeps : ∀ entry ∈ [(0, Provider.hub)], ∀ turn name, (entry.2.inquire turn name).Keeps :=
    List.forall_mem_singleton.2 Provider.keeps_hub
  obtain ⟨handle, memo, memo', hhub, hresolved, hopen, hleft⟩ : ∃ handle memo memo',
      (Request.find? "a.Hub").serve ⟨[(0, .hub)]⟩ 4 .empty = some (.ok (some handle), memo) ∧
        memo.slot? "a.Hub" = some (.resolved handle) ∧ memo.slot? "a.Left" = none ∧
        (Request.find? "a.Left").serve ⟨[(0, .hub)]⟩ 4 memo =
          some (.error (.cycle "a.Left"), memo') :=
    ⟨_, _, _, rfl, rfl, rfl, rfl⟩
  obtain ⟨hmarks, hmissed, hkept, -⟩ := slots_of_served (.step .empty hhub) hleft
  have hclear : ¬ (Request.find? "a.Left").Happens ⟨[(0, .hub)]⟩ 4 memo .clear :=
    not_happens_clear hkeeps trivial
  refine ⟨handle, memo, memo', hhub, hleft, hmarks, ?_, hkept hclear _ _ hresolved⟩
  rcases hmissed "a.Left" ⟨rfl, _, memo', hleft, fun _ => nofun⟩ with
    hnone | ⟨found, hbefore⟩ | ⟨hforgot, -⟩
  · exact hnone
  · rw [hopen] at hbefore
    cases hbefore
  · exact absurd hforgot hclear

end TypeAtlas
