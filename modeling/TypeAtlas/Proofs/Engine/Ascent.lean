/-
  What a type is below.

  An engine is asked whether a type is below a name.  It follows the supertypes of the
  handles that it gives itself: out of a name that resolves to a type there are steps to
  the supertypes of this type, and out of a name that nobody knows there are none.

  * `Engine.Gives`: the handles that an engine gives for a name, among them all that it
    finds for it (`gives_of_find?`);
  * `Engine.Ascends`: the steps up that they make;
  * `Engine.Resolves`: no lookup of a name fails, and all make the same steps;
  * `Engine.isBelow_iff_ascends`: every answer is whether one or more steps lead from the
    type to the name, and there is an answer if no more than finitely many names are above
    the type;
  * `Engine.resolves_of_fresh`: the names that an engine of steady providers resolves.
-/
import TypeAtlas.Proofs.Engine.BuiltIn
import TypeAtlas.Proofs.Engine.Walk

namespace TypeAtlas

open Relation (TransGen)

/-- Two relations that agree on all that is passed on the way have the same ways to a target. -/
theorem transGen_of_passed {α : Type} {r s : α → α → Prop} {start target : α}
    (hstart : ∀ n, r start n → s start n)
    (hpassed : ∀ m n, TransGen r start m → TransGen s start m → m ≠ target → r m n → s m n)
    (h : TransGen r start target) : TransGen s start target := by
  have hway : ∀ n, TransGen r start n → TransGen s start target ∨ TransGen s start n := by
    intro n hn
    induction hn with
    | single hstep => exact Or.inr (.single (hstart _ hstep))
    | @tail m n hm hstep ih =>
      rcases ih with hdone | hm'
      · exact Or.inl hdone
      · by_cases hsame : m = target
        · exact Or.inl (hsame ▸ hm')
        · exact Or.inr (hm'.tail (hpassed m n hm hm' hsame hstep))
  exact (hway target h).elim id id

namespace Engine

open LookupM Walk

/-! ## Steps up -/

section

variable (engine : Engine) (fit : Memo → Prop)

/-- In a state with `fit` the engine gives this handle for a name, a placeholder if nobody knows
    the name. -/
def Gives (name : String) (handle : Handle) : Prop :=
  ∃ depth memo memo', fit memo ∧
    (engine.findOrPlaceholder depth name).run.run memo = some (.ok handle, memo')

/-- One step up, from a name that resolves to a type to a superclass or an interface of the
    type. -/
def Ascends (a b : String) : Prop :=
  ∃ handle shape, engine.Gives fit a handle ∧ handle.isPlaceholder = false ∧
    handle.shape = .ok shape ∧ b ∈ shape.supertypes

/-- All handles that the engine gives for a name are of the same type, or all are
    placeholders. -/
def Agrees (name : String) : Prop :=
  ∀ handle other, engine.Gives fit name handle → engine.Gives fit name other →
    other.isPlaceholder = handle.isPlaceholder ∧ other.shape = handle.shape

/-- No lookup of a name fails, and the shape of what it resolves to can be read. -/
structure Resolves (name : String) : Prop where
  ends : ∃ enough, ∀ depth memo, fit memo →
    (engine.findOrPlaceholder depth name).Ends memo (depth < enough) fun outcome memo' =>
      fit memo' ∧ ∃ handle shape, outcome = .ok handle ∧ handle.shape = .ok shape
  agrees : engine.Agrees fit name

end

variable {engine : Engine} {fit : Memo → Prop} {name ancestor a b : String} {handle : Handle}
  {shape : Shape}

/-- A handle that the engine finds for a name is one that it gives. -/
theorem gives_of_find? {depth : Nat} {memo memo' : Memo} (hfit : fit memo)
    (hrun : (engine.find? depth name).run.run memo = some (.ok (some handle), memo')) :
    engine.Gives fit name handle := by
  refine ⟨depth, memo, memo', hfit, ?_⟩
  rw [find?] at hrun
  simp only [findOrPlaceholder, ExceptT.run_bind, StateT.run_bind, hrun]
  rfl

/-- The steps up from a name are those of any handle that the engine gives for it. -/
theorem Agrees.ascends_iff (h : engine.Agrees fit name) (hgives : engine.Gives fit name handle)
    (hshape : handle.shape = .ok shape) : engine.Ascends fit name b ↔ b ∈ shape.supertypes := by
  constructor
  · rintro ⟨other, shape', hgives', -, hshape', hb⟩
    have hsame := (h handle other hgives hgives').2
    rw [hshape, hshape'] at hsame
    cases hsame
    exact hb
  · intro hb
    refine ⟨handle, shape, hgives, ?_, hshape, hb⟩
    rw [Bool.eq_false_iff]
    intro hplaceholder
    rw [handle.supertypes_of_isPlaceholder hplaceholder hshape] at hb
    cases hb

theorem Resolves.exists_gives (h : engine.Resolves fit name) {memo : Memo} (hfit : fit memo) :
    ∃ handle shape, engine.Gives fit name handle ∧ handle.shape = .ok shape := by
  obtain ⟨enough, hends⟩ := h.ends
  obtain ⟨outcome, memo', hrun, -, handle, shape, rfl, hshape⟩ :=
    (hends enough memo hfit).exists_run (Nat.lt_irrefl enough)
  exact ⟨handle, shape, ⟨enough, memo, memo', hfit, hrun⟩, hshape⟩

/-- The supertypes of what a name resolves to, last first. -/
theorem exists_up (engine : Engine) (fit : Memo → Prop) (name : String) :
    ∃ up : List String, engine.Agrees fit name → ∀ handle shape,
      engine.Gives fit name handle → handle.shape = .ok shape → shape.supertypes.reverse = up := by
  by_cases hknown : ∃ handle shape, engine.Gives fit name handle ∧ handle.shape = .ok shape
  · obtain ⟨handle, shape, hgives, hshape⟩ := hknown
    refine ⟨shape.supertypes.reverse, fun hagrees other shape' hgives' hshape' => ?_⟩
    have hsame := (hagrees handle other hgives hgives').2
    rw [hshape, hshape'] at hsame
    cases hsame
    rfl
  · exact ⟨[], fun _ handle shape hgives hshape => absurd ⟨handle, shape, hgives, hshape⟩ hknown⟩

/-! ## What the walk answers -/

/-- The names that a walk from `start` takes up if it is looking for `ancestor`. -/
def Passes (engine : Engine) (fit : Memo → Prop) (start ancestor name : String) : Prop :=
  TransGen (engine.Ascends fit) start name ∧ name ≠ ancestor

/-- If every name on the way resolves, the steps up can be computed, and a walk takes nothing up
    but names that resolve to them. -/
theorem exists_rises (hlooks : ∀ handle memo, fit memo → fit (memo.look handle))
    (hgives : engine.Gives fit shape.name handle) (hshape : handle.shape = .ok shape)
    (hagrees : engine.Agrees fit shape.name)
    (hresolves : ∀ name, engine.Passes fit shape.name ancestor name → engine.Resolves fit name) :
    ∃ up enough, engine.Rises up (engine.Passes fit shape.name ancestor) ancestor fit enough ∧
      shape.supertypes.reverse = up shape.name ∧
      (∀ b, Leads up shape.name b ↔ engine.Ascends fit shape.name b) ∧
      (TransGen (Leads up) shape.name ancestor ↔
        TransGen (engine.Ascends fit) shape.name ancestor) := by
  choose up hup using exists_up engine fit
  have hsteps : ∀ {name handle shape}, engine.Agrees fit name → engine.Gives fit name handle →
      handle.shape = .ok shape → ∀ b, Leads up name b ↔ engine.Ascends fit name b := by
    intro name handle shape hagrees hgives hshape b
    rw [hagrees.ascends_iff hgives hshape, Leads, ← hup name hagrees handle shape hgives hshape,
      List.mem_reverse]
  have hstart := hsteps hagrees hgives hshape
  have hpassed : ∀ name, engine.Passes fit shape.name ancestor name →
      ∀ b, Leads up name b ↔ engine.Ascends fit name b := by
    intro name hpasses
    obtain ⟨-, memo, -, hfit, -⟩ := hgives
    obtain ⟨handle', shape', hgives', hshape'⟩ := (hresolves name hpasses).exists_gives hfit
    exact hsteps (hresolves name hpasses).agrees hgives' hshape'
  choose! enough henough using fun name hpasses => (hresolves name hpasses).ends
  refine ⟨up, enough, ⟨fun name hpasses depth memo hfit => ?_, fun name hpasses next hnext hne =>
    ⟨hpasses.1.tail ((hpassed name hpasses next).1 hnext), hne⟩, hlooks⟩,
    hup shape.name hagrees handle shape hgives hshape, hstart,
    transGen_of_passed (fun n => (hstart n).1) fun m n _ hm hne => (hpassed m ⟨hm, hne⟩ n).1,
    transGen_of_passed (fun n => (hstart n).2) fun m n hm _ hne => (hpassed m ⟨hm, hne⟩ n).2⟩
  refine (henough name hpasses depth memo hfit).with_run.imp id ?_
  rintro _ memo' ⟨hrun, hfit', handle', shape', rfl, hshape'⟩
  exact ⟨hfit', handle', shape', rfl, hshape', hup name (hresolves name hpasses).agrees handle'
    shape' ⟨depth, memo, memo', hfit, hrun⟩ hshape'⟩

/-- **The engine answers whether one or more steps up lead from a type to a name.**  The name
    itself need not resolve, and it may be that of the type.  There is one answer in all depths
    and states.  That there is an answer is said of hierarchies that are finite, with cycles or
    without: if no more than finitely many names are above the type the engine has the answer in
    every depth from some on, and if there are more a walk need not end. -/
theorem isBelow_iff_ascends (ancestor : String)
    (hlooks : ∀ handle memo, fit memo → fit (memo.look handle))
    (hgives : engine.Gives fit shape.name handle) (hshape : handle.shape = .ok shape)
    (hagrees : engine.Agrees fit shape.name)
    (hresolves : ∀ name, TransGen (engine.Ascends fit) shape.name name → name ≠ ancestor →
      engine.Resolves fit name) :
    ∃ (answer : Bool) (limit : Nat),
      (answer = true ↔ TransGen (engine.Ascends fit) shape.name ancestor) ∧
      ∀ depth memo, fit memo →
        (engine.isBelow depth handle ancestor).Ends memo
          ((∃ names : List String, ∀ name, TransGen (engine.Ascends fit) shape.name name →
            name ∈ names) → depth < limit)
          fun outcome memo' => fit memo' ∧ outcome = .ok answer := by
  classical
  obtain ⟨up, enough, hrises, hup, hstart, hreach⟩ :=
    exists_rises hlooks hgives hshape hagrees fun name hpasses => hresolves name hpasses.1 hpasses.2
  have hlimit : ∃ limit, (∃ names : List String, ∀ name,
      TransGen (engine.Ascends fit) shape.name name → name ∈ names) → ∀ depth, limit ≤ depth →
        Suffices up (engine.Passes fit shape.name ancestor) enough depth depth [shape.name]
          (up shape.name) := by
    by_cases hfinite : ∃ names : List String, ∀ name,
        TransGen (engine.Ascends fit) shape.name name → name ∈ names
    · obtain ⟨names, hnames⟩ := hfinite
      obtain ⟨limit, hlimit⟩ := exists_suffices up enough
        (fun name (hpasses : engine.Passes fit shape.name ancestor name) => hnames name hpasses.1)
        [shape.name] (up shape.name)
      exact ⟨limit, fun _ => hlimit⟩
    · exact ⟨0, fun hfinite' => absurd hfinite' hfinite⟩
  obtain ⟨limit, hlimit⟩ := hlimit
  refine ⟨decide (TransGen (engine.Ascends fit) shape.name ancestor), limit, decide_eq_true_iff,
    fun depth memo hfit => ?_⟩
  have hnext : ∀ next ∈ up shape.name, next ≠ ancestor →
      engine.Passes fit shape.name ancestor next :=
    fun next hmem hne => ⟨.single ((hstart next).1 hmem), hne⟩
  refine (hrises.ends_isBelow hshape hup hnext (decide_eq_true_iff.trans hreach.symm) depth
    hfit).imp (fun hstuck hfinite => ?_) fun _ _ => id
  exact Nat.lt_of_not_le fun hdepth => hstuck (hlimit hfinite depth hdepth)

/-! ## Steady providers -/

section

variable {found : Handle} {enough : Nat}

theorem Gives.unmarked_eq (h : engine.Gives (fun memo => memo.Fits engine.chain []) name handle)
    (hsteady : ∀ provider ∈ engine.chain, provider.Steady)
    (hfresh : (Request.findOrPlaceholder name).fresh engine.chain enough =
      some (.ok (some found))) : handle.unmarked = found.unmarked := by
  obtain ⟨depth, memo, memo', hfits, hrun⟩ := h
  obtain ⟨-, _, hhandle, hsame⟩ :=
    (ends_findOrPlaceholder hsteady hfresh depth hfits).of_eq_some hrun
  cases hhandle
  exact hsame

/-- A name resolves if it resolves without memory and the shape can be read. -/
theorem resolves_of_fresh (hsteady : ∀ provider ∈ engine.chain, provider.Steady)
    (hfresh : (Request.findOrPlaceholder name).fresh engine.chain enough = some (.ok (some found)))
    (hshape : found.shape = .ok shape) :
    engine.Resolves (fun memo => memo.Fits engine.chain []) name where
  ends := by
    refine ⟨enough, fun depth memo hfits =>
      (ends_findOrPlaceholder hsteady hfresh depth hfits).imp id ?_⟩
    rintro _ memo' ⟨hfits', handle, rfl, hsame⟩
    refine ⟨hfits', handle, shape, rfl, ?_⟩
    rw [← handle.shape_unmarked, hsame, found.shape_unmarked, hshape]
  agrees handle other hgives hgives' := by
    have hsame : other.unmarked = handle.unmarked :=
      (hgives'.unmarked_eq hsteady hfresh).trans (hgives.unmarked_eq hsteady hfresh).symm
    rw [← other.isPlaceholder_unmarked, ← other.shape_unmarked, hsame,
      handle.isPlaceholder_unmarked, handle.shape_unmarked]
    exact ⟨rfl, rfl⟩

end

end Engine

/-! ## A cycle -/

/-- A class that is below another and below an interface that nobody knows. -/
def layer (name superclass : String) : Shape :=
  { Shape.ofName name .cls with superclass := some superclass, interfaces := ["lib.Gone"] }

/-- Two classes, each of which is below the other. -/
def flock? (name : String) : Option Shape :=
  if name = "a.Egg" then some (layer "a.Egg" "a.Hen")
  else if name = "a.Hen" then some (layer "a.Hen" "a.Egg")
  else none

/-- The engine that knows these two classes. -/
def flock : Engine :=
  .ofProviders [.planned 0 "flock" fun name =>
    (flock? name).map fun shape => ⟨false, [], [], [], none, shape⟩]

theorem chain_flock : flock.chain =
    [.planned 0 "flock" fun name =>
      (flock? name).map fun shape => ⟨false, [], [], [], none, shape⟩] := by
  rw [flock, Engine.chain_ofProviders, List.mergeSort_singleton]

theorem steady_flock : ∀ provider ∈ flock.chain, provider.Steady := by
  rw [chain_flock]
  refine List.forall_mem_singleton.2 (Provider.steady_planned fun name plan hplan => ?_)
  obtain ⟨shape, -, rfl⟩ := Option.map_eq_some_iff.1 hplan
  rfl

theorem fresh_flock (name : String) :
    (Request.findOrPlaceholder name).fresh flock.chain 1 =
      some (.ok (some (.mk 0 ((flock? name).elim (.placeholder name) .described)))) := by
  rw [Request.fresh, chain_flock]
  simp only [Chain.fresh, Chain.answerWith, Provider.planned]
  cases flock? name <;> rfl

theorem shape_flock (name : String) :
    (Handle.mk 0 ((flock? name).elim (.placeholder name) .described)).shape =
      .ok ((flock? name).getD (.ofName name .cls)) := by
  cases flock? name <;> rfl

theorem resolves_flock (name : String) :
    flock.Resolves (fun memo => memo.Fits flock.chain []) name :=
  Engine.resolves_of_fresh steady_flock (fresh_flock name) (shape_flock name)

theorem exists_gives_flock (name : String) :
    ∃ handle, flock.Gives (fun memo => memo.Fits flock.chain []) name handle ∧
      handle.shape = .ok ((flock? name).getD (.ofName name .cls)) := by
  obtain ⟨handle, shape, hgives, hshape⟩ :=
    (resolves_flock name).exists_gives (.of_open fun _ => Memo.slot?_empty _)
  refine ⟨handle, hgives, ?_⟩
  rw [← handle.shape_unmarked, hgives.unmarked_eq steady_flock (fresh_flock name),
    Handle.shape_unmarked, shape_flock]

/-- Each class is above itself, and what nobody knows is above both. -/
theorem transGen_ascends_flock_iff {ancestor : String} :
    Relation.TransGen (flock.Ascends fun memo => memo.Fits flock.chain []) "a.Egg" ancestor ↔
      ancestor ∈ ["a.Hen", "lib.Gone", "a.Egg"] := by
  have hstep : ∀ a b, flock.Ascends (fun memo => memo.Fits flock.chain []) a b ↔
      b ∈ ((flock? a).getD (.ofName a .cls)).supertypes := by
    intro a b
    obtain ⟨handle, hgives, hshape⟩ := exists_gives_flock a
    exact (resolves_flock a).agrees.ascends_iff hgives hshape
  constructor
  · intro h
    obtain ⟨last, -, hlast⟩ := Relation.TransGen.tail'_iff.1 h
    rw [hstep, flock?] at hlast
    split_ifs at hlast
    · rcases List.mem_pair.1 hlast with rfl | rfl <;> decide
    · rcases List.mem_pair.1 hlast with rfl | rfl <;> decide
    · cases hlast
  · have hhen := (hstep "a.Egg" "a.Hen").2 (by decide)
    have hgone := (hstep "a.Egg" "lib.Gone").2 (by decide)
    have hegg := (hstep "a.Hen" "a.Egg").2 (by decide)
    simp only [List.mem_cons, List.not_mem_nil, or_false]
    rintro (rfl | rfl | rfl)
    · exact .single hhen
    · exact .single hgone
    · exact (Relation.TransGen.single hhen).tail hegg

/-- **A class on a cycle is below itself**, below the others on it, and below an interface that
    does not resolve. -/
theorem Engine.isBelow_iff_ascends_flock :
    ∃ handle, flock.Gives (fun memo => memo.Fits flock.chain []) "a.Egg" handle ∧
      ∀ ancestor, ∃ depth memo', (flock.isBelow depth handle ancestor).run.run .empty =
        some (.ok (decide (ancestor ∈ ["a.Hen", "lib.Gone", "a.Egg"])), memo') := by
  obtain ⟨handle, hgives, hshape⟩ := exists_gives_flock "a.Egg"
  refine ⟨handle, hgives, fun ancestor => ?_⟩
  obtain ⟨answer, limit, hanswer, hends⟩ := isBelow_iff_ascends ancestor
    (fun _ _ hfits => hfits.of_slots fun _ => Memo.slot?_look _ _ _) hgives hshape
    (resolves_flock "a.Egg").agrees fun name _ _ => resolves_flock name
  obtain ⟨outcome, memo', hrun, -, rfl⟩ :=
    (hends limit .empty (.of_open fun _ => Memo.slot?_empty _)).exists_run fun hstuck =>
      Nat.lt_irrefl limit (hstuck ⟨_, fun name h => transGen_ascends_flock_iff.1 h⟩)
  refine ⟨limit, memo', hrun.trans ?_⟩
  rw [Bool.eq_iff_iff.2 ((hanswer.trans transGen_ascends_flock_iff).trans decide_eq_true_iff.symm)]

end TypeAtlas
