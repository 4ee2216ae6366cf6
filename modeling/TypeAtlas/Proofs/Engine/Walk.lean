/-
  Walks over the supertypes of handles.

  An engine that is asked whether a type is below a name takes one name after
  another, stops when it takes that name, and otherwise resolves it and lets its
  supertypes wait.  A name is resolved once, so cycles do no harm.

  * `Walk.Missed` is the invariant of the walk: a step from a name that was taken
    leads to a name that waits or was taken, and the ancestor was not;
  * `Walk.Suffices` says that a number of steps is enough: each name that waits takes
    one, and each name that may still be taken up lets its supertypes wait;
  * `Engine.Rises`: the names that a walk may take up resolve to handles whose
    supertypes are the steps from them;
  * `Rises.ends_isBelow`: then every answer of the walk is whether one or more steps
    lead to the ancestor, and it has an answer where its steps are enough;
  * `Engine.Climbs` and `Climbs.ends_isBelow`: the same of an engine all of whose names
    resolve as a graph says.
-/
import Mathlib.Algebra.Order.BigOperators.Group.List
import Mathlib.Algebra.Order.Group.Nat
import Mathlib.Data.List.Flatten
import TypeAtlas.Proofs.Engine.Lookup
import TypeAtlas.Proofs.Graph

namespace TypeAtlas

/-! ## What a walk has missed -/

namespace Walk

section

variable (up : String → List String)

/-- One step up. -/
def Leads (a b : String) : Prop := b ∈ up a

/-- One of the names that wait is the ancestor, or steps lead from it to the ancestor. -/
def Hits (ancestor : String) (waiting : List String) : Prop :=
  ∃ first ∈ waiting, Relation.ReflTransGen (Leads up) first ancestor

/-- A walk that is looking for `ancestor` took the names in `visited` and not `ancestor`, but for
    where it started: each step from one of them leads to a name that waits or to another of
    them. -/
def Missed (ancestor : String) (visited waiting : List String) : Prop :=
  ∀ m ∈ visited, ∀ n ∈ up m, n ∈ waiting ∨ n ∈ visited ∧ n ≠ ancestor

end

variable {up : String → List String} {ancestor name a b : String} {visited waiting : List String}

/-- The steps from a name hit what one or more steps from it lead to. -/
theorem hits_up_iff : Hits up ancestor (up name) ↔ Relation.TransGen (Leads up) name ancestor := by
  rw [Relation.TransGen.head'_iff]
  rfl

theorem hits_cons_self (waiting : List String) : Hits up name (name :: waiting) :=
  ⟨name, List.mem_cons_self, .refl⟩

theorem not_hits_nil (ancestor : String) : ¬ Hits up ancestor [] :=
  fun ⟨_, hfirst, _⟩ => absurd hfirst List.not_mem_nil

/-- The steps from a name hit what the name hits, itself apart. -/
theorem hits_follow_iff (hne : name ≠ ancestor) :
    Hits up ancestor (name :: waiting) ↔ Hits up ancestor (up name ++ waiting) := by
  have hname : Relation.ReflTransGen (Leads up) name ancestor ↔ Hits up ancestor (up name) := by
    rw [hits_up_iff, Relation.reflTransGen_iff_eq_or_transGen]
    exact or_iff_right hne.symm
  unfold Hits at hname ⊢
  simp only [List.mem_cons, List.mem_append, or_and_right, exists_or, exists_eq_left, hname]

namespace Missed

theorem start (up : String → List String) (ancestor name : String) :
    Missed up ancestor [name] (up name) := by
  intro m hm n hn
  rw [List.mem_singleton.1 hm] at hn
  exact Or.inl hn

theorem skip (h : Missed up ancestor visited (name :: waiting)) (hname : name ∈ visited)
    (hne : name ≠ ancestor) : Missed up ancestor visited waiting := by
  intro m hm n hn
  rcases h m hm n hn with hwaits | htaken
  · rcases List.mem_cons.1 hwaits with rfl | hwaits
    · exact Or.inr ⟨hname, hne⟩
    · exact Or.inl hwaits
  · exact Or.inr htaken

theorem follow (h : Missed up ancestor visited (name :: waiting)) (hne : name ≠ ancestor) :
    Missed up ancestor (name :: visited) (up name ++ waiting) := by
  intro m hm n hn
  rcases List.mem_cons.1 hm with rfl | hm
  · exact Or.inl (List.mem_append_left _ hn)
  · rcases h m hm n hn with hwaits | ⟨htaken, hother⟩
    · rcases List.mem_cons.1 hwaits with rfl | hwaits
      · exact Or.inr ⟨List.mem_cons_self, hne⟩
      · exact Or.inl (List.mem_append_right _ hwaits)
    · exact Or.inr ⟨List.mem_cons_of_mem _ htaken, hother⟩

/-- What a name that was taken leads to is taken too, or something that waits leads to it. -/
theorem reaches (h : Missed up ancestor visited waiting) (ha : a ∈ visited) (hne : a ≠ ancestor)
    (hr : Relation.ReflTransGen (Leads up) a b) :
    b ∈ visited ∧ b ≠ ancestor ∨ Hits up b waiting := by
  induction hr with
  | refl => exact Or.inl ⟨ha, hne⟩
  | @tail b c _ hs ih =>
    rcases ih with ⟨hb, -⟩ | ⟨first, hfirst, hr⟩
    · rcases h b hb c hs with hwaits | htaken
      · exact Or.inr ⟨c, hwaits, .refl⟩
      · exact Or.inl htaken
    · exact Or.inr ⟨first, hfirst, hr.tail hs⟩

/-- A name that was taken before has nothing to add. -/
theorem hits_skip_iff (h : Missed up ancestor visited (name :: waiting)) (hname : name ∈ visited)
    (hne : name ≠ ancestor) :
    Hits up ancestor (name :: waiting) ↔ Hits up ancestor waiting := by
  constructor
  · rintro ⟨first, hfirst, hr⟩
    rcases List.mem_cons.1 hfirst with rfl | hfirst
    · exact ((h.skip hname hne).reaches hname hne hr).resolve_left fun hsame => hsame.2 rfl
    · exact ⟨first, hfirst, hr⟩
  · rintro ⟨first, hfirst, hr⟩
    exact ⟨first, List.mem_cons_of_mem _ hfirst, hr⟩

end Missed

/-! ## How long a walk takes -/

/-- The steps that a walk may still take if it takes up no names but those in `names`. -/
def cost (up : String → List String) (names visited waiting : List String) : Nat :=
  waiting.length + ((names.filter (· ∉ visited)).flatMap up).length + 1

theorem cost_cons (names visited waiting : List String) (name : String) :
    cost up names visited (name :: waiting) = cost up names visited waiting + 1 := by
  simp only [cost, List.length_cons]
  omega

/-- Without a name there are fewer steps from a list of names, by those from the name at least. -/
theorem length_flatMap_filter_ne_le (up : String → List String) {names : List String}
    (hname : name ∈ names) :
    (up name).length + ((names.filter (· ≠ name)).flatMap up).length ≤
      (names.flatMap up).length := by
  have hsplit := List.perm_cons_erase hname
  have hrest : (names.filter (· ≠ name)).Perm ((names.erase name).filter (· ≠ name)) := by
    simpa using hsplit.filter (· ≠ name)
  calc (up name).length + ((names.filter (· ≠ name)).flatMap up).length
      = (up name).length + (((names.erase name).filter (· ≠ name)).flatMap up).length := by
        rw [(hrest.flatMap_right up).length_eq]
    _ ≤ (up name).length + ((names.erase name).flatMap up).length :=
        Nat.add_le_add_left (List.filter_sublist.flatMap up).length_le _
    _ = (names.flatMap up).length := by
        rw [(hsplit.flatMap_right up).length_eq, List.flatMap_cons, List.length_append]

/-- The supertypes of a name that is taken up wait once. -/
theorem cost_follow_le {names : List String} (hname : name ∈ names) (hnew : name ∉ visited) :
    cost up names (name :: visited) (up name ++ waiting) ≤ cost up names visited waiting := by
  have hsplit : names.filter (· ∉ name :: visited) =
      (names.filter (· ∉ visited)).filter (· ≠ name) := by
    rw [List.filter_filter]
    exact List.filter_congr fun other _ => by simp
  have hmem : name ∈ names.filter (· ∉ visited) := by simp [hname, hnew]
  have hsteps := length_flatMap_filter_ne_le up hmem
  rw [cost, cost, hsplit, List.length_append]
  omega

/-- So many steps are enough for a walk that takes up names with `above`, where `enough` bounds
    the depth that is needed for each. -/
def Suffices (up : String → List String) (above : String → Prop) (enough : String → Nat)
    (depth steps : Nat) (visited waiting : List String) : Prop :=
  ∃ names : List String, (∀ name, above name → name ∈ names ∧ enough name ≤ depth) ∧
    cost up names visited waiting ≤ steps

section

variable {above : String → Prop} {enough : String → Nat} {depth steps : Nat}

theorem not_suffices_zero : ¬ Suffices up above enough depth 0 visited waiting :=
  fun ⟨_, _, hcost⟩ => absurd hcost (Nat.not_succ_le_zero _)

theorem Suffices.skip (h : Suffices up above enough depth (steps + 1) visited (name :: waiting)) :
    Suffices up above enough depth steps visited waiting := by
  obtain ⟨names, hnames, hcost⟩ := h
  rw [cost_cons] at hcost
  exact ⟨names, hnames, Nat.le_of_succ_le_succ hcost⟩

theorem Suffices.follow
    (h : Suffices up above enough depth (steps + 1) visited (name :: waiting))
    (habove : above name) (hnew : name ∉ visited) :
    Suffices up above enough depth steps (name :: visited) (up name ++ waiting) := by
  obtain ⟨names, hnames, hcost⟩ := h
  rw [cost_cons] at hcost
  exact ⟨names, hnames,
    Nat.le_trans (cost_follow_le (hnames name habove).1 hnew) (Nat.le_of_succ_le_succ hcost)⟩

theorem Suffices.enough_le (h : Suffices up above enough depth steps visited waiting)
    (habove : above name) : enough name ≤ depth := by
  obtain ⟨names, hnames, -⟩ := h
  exact (hnames name habove).2

/-- If no more than finitely many names are taken up, every depth from some on is enough. -/
theorem exists_suffices (up : String → List String) (enough : String → Nat) {names : List String}
    (hnames : ∀ name, above name → name ∈ names) (visited waiting : List String) :
    ∃ limit, ∀ depth, limit ≤ depth → Suffices up above enough depth depth visited waiting := by
  refine ⟨max (names.map enough).sum (cost up names visited waiting), fun depth hdepth =>
    ⟨names, fun name habove => ⟨hnames name habove, ?_⟩,
      Nat.le_trans (Nat.le_max_right _ _) hdepth⟩⟩
  have hle : enough name ≤ (names.map enough).sum :=
    List.le_sum_of_mem (List.mem_map_of_mem (hnames name habove))
  exact Nat.le_trans hle (Nat.le_trans (Nat.le_max_left _ _) hdepth)

end

end Walk

/-! ## Walks -/

open LookupM Walk

/-- A placeholder has no supertypes. -/
theorem Handle.supertypes_of_isPlaceholder {handle : Handle} {shape : Shape}
    (h : handle.isPlaceholder = true) (hshape : handle.shape = .ok shape) :
    shape.supertypes = [] := by
  obtain ⟨id, kind⟩ := handle
  cases kind <;> cases h
  cases hshape
  rfl

/-- The names with `above` are all that a walk may take up that is looking for `ancestor`.  Each
    resolves, with a placeholder if nobody knows it, to a handle whose supertypes, last first, are
    the steps from the name.  `fit` holds of what is remembered, before and after, and `enough`
    bounds the depth that is needed. -/
structure Engine.Rises (engine : Engine) (up : String → List String) (above : String → Prop)
    (ancestor : String) (fit : Memo → Prop) (enough : String → Nat) : Prop where
  finds : ∀ name, above name → ∀ depth memo, fit memo →
    (engine.findOrPlaceholder depth name).Ends memo (depth < enough name) fun outcome memo' =>
      fit memo' ∧ ∃ handle shape, outcome = .ok handle ∧ handle.shape = .ok shape ∧
        shape.supertypes.reverse = up name
  closed : ∀ name, above name → ∀ next ∈ up name, next ≠ ancestor → above next
  /-- Looking at a shape changes nothing that counts. -/
  looks : ∀ handle memo, fit memo → fit (memo.look handle)

namespace Engine

variable {engine : Engine} {fit : Memo → Prop} {handle : Handle} {shape : Shape}
  {ancestor : String} {visited waiting : List String} {answer : Bool}

theorem ends_shape (hlooks : ∀ handle memo, fit memo → fit (memo.look handle))
    (hshape : handle.shape = .ok shape) {memo : Memo} (hfit : fit memo) {stuck : Prop} :
    (LookupM.shape handle).Ends memo stuck fun outcome memo' =>
      fit memo' ∧ outcome = .ok shape := by
  simp only [LookupM.shape, ends_bind, ends_modify, ends_ofExcept]
  exact ⟨hlooks handle memo hfit, hshape⟩

section

variable {up : String → List String} {above : String → Prop} {enough : String → Nat}

/-- **A walk meets the ancestor if something that waits leads to it**, and it has an answer if
    its steps are enough. -/
theorem Rises.ends_meets (h : engine.Rises up above ancestor fit enough) (depth steps : Nat)
    (hmissed : Missed up ancestor visited waiting)
    (hwaiting : ∀ name ∈ waiting, name ≠ ancestor → above name)
    (hanswer : answer = true ↔ Hits up ancestor waiting) {memo : Memo} (hfit : fit memo) :
    (engine.meets depth ancestor steps visited waiting).Ends memo
      (¬ Suffices up above enough depth steps visited waiting) fun outcome memo' =>
        fit memo' ∧ outcome = .ok answer := by
  induction steps generalizing visited waiting memo with
  | zero => exact ends_exhausted.2 not_suffices_zero
  | succ steps ih =>
    cases waiting with
    | nil =>
      obtain rfl : answer = false := by simpa [not_hits_nil] using hanswer
      exact ⟨hfit, rfl⟩
    | cons name waiting =>
      by_cases hne : name = ancestor
      · subst hne
        obtain rfl : answer = true := hanswer.2 (hits_cons_self waiting)
        rw [meets, if_pos rfl]
        exact ⟨hfit, rfl⟩
      rw [meets, if_neg hne]
      obtain ⟨hname, hwaiting⟩ := List.forall_mem_cons.1 hwaiting
      by_cases hvisited : name ∈ visited
      · rw [if_pos (List.contains_iff_mem.2 hvisited)]
        exact (ih (hmissed.skip hvisited hne) hwaiting
          (hanswer.trans (hmissed.hits_skip_iff hvisited hne)) hfit).imp
            (fun hstuck hsuffices => hstuck hsuffices.skip) fun _ _ => id
      · -- a name that was not taken before: its supertypes wait, and a placeholder has none
        have habove := hname hne
        have hrest : ∀ memo, fit memo →
            (engine.meets depth ancestor steps (name :: visited) (up name ++ waiting)).Ends memo
              (¬ Suffices up above enough depth (steps + 1) visited (name :: waiting))
              fun outcome memo' => fit memo' ∧ outcome = .ok answer := by
          intro memo hfit
          refine (ih (hmissed.follow hne) (fun next hnext => ?_)
            (hanswer.trans (hits_follow_iff hne)) hfit).imp
              (fun hstuck hsuffices => hstuck (hsuffices.follow habove hvisited)) fun _ _ => id
          rcases List.mem_append.1 hnext with hnext | hnext
          · exact h.closed name habove next hnext
          · exact hwaiting next hnext
        rw [if_neg (mt List.contains_iff_mem.1 hvisited), ends_bind]
        refine (h.finds name habove depth memo hfit).imp
          (fun hdepth hsuffices => absurd (hsuffices.enough_le habove) (Nat.not_le_of_lt hdepth)) ?_
        rintro _ memo' ⟨hfit', handle, shape, rfl, hshape, hup⟩
        simp only
        split
        next hplaceholder =>
          have hend : up name = [] := by
            rw [← hup, handle.supertypes_of_isPlaceholder hplaceholder hshape, List.reverse_nil]
          rw [hend] at hrest
          exact hrest memo' hfit'
        next =>
          rw [ends_bind]
          refine (ends_shape h.looks hshape hfit').imp id ?_
          rintro _ memo'' ⟨hfit'', rfl⟩
          rw [← hup] at hrest
          exact hrest memo'' hfit''

/-- **Whether a type is properly below a name is whether one or more steps lead to the name.** -/
theorem Rises.ends_isBelow (h : engine.Rises up above ancestor fit enough)
    (hshape : handle.shape = .ok shape) (hup : shape.supertypes.reverse = up shape.name)
    (hstart : ∀ next ∈ up shape.name, next ≠ ancestor → above next)
    (hanswer : answer = true ↔ Relation.TransGen (Leads up) shape.name ancestor) (depth : Nat)
    {memo : Memo} (hfit : fit memo) :
    (engine.isBelow depth handle ancestor).Ends memo
      (¬ Suffices up above enough depth depth [shape.name] (up shape.name)) fun outcome memo' =>
        fit memo' ∧ outcome = .ok answer := by
  rw [isBelow, ends_bind]
  refine (ends_shape h.looks hshape hfit).imp id ?_
  rintro _ memo' ⟨hfit', rfl⟩
  simp only [hup]
  exact h.ends_meets depth depth (.start up ancestor shape.name) hstart
    (hanswer.trans hits_up_iff.symm) hfit'

end

end Engine

/-! ## Names that resolve as a graph says -/

/-- Every name resolves, with a placeholder if nobody knows it, to a handle whose supertypes,
    last first, are the steps from the name.  `fit` holds of what is remembered, before and
    after, and `enough` bounds the depth that is needed. -/
structure Engine.Climbs (engine : Engine) (graph : Graph) (fit : Memo → Prop) (enough : Nat) :
    Prop where
  finds : ∀ name depth memo, fit memo →
    (engine.findOrPlaceholder depth name).Ends memo (depth < enough) fun outcome memo' =>
      fit memo' ∧ ∃ handle shape, outcome = .ok handle ∧ handle.shape = .ok shape ∧
        shape.supertypes.reverse = graph.next name
  /-- Looking at a shape changes nothing that counts. -/
  looks : ∀ handle memo, fit memo → fit (memo.look handle)

namespace Engine

variable {engine : Engine} {graph : Graph} {fit : Memo → Prop} {enough : Nat} {handle : Handle}
  {shape : Shape}

/-- A walk takes up nothing but what the graph leads to. -/
theorem Climbs.rises (h : engine.Climbs graph fit enough) (ancestor : String) :
    engine.Rises graph.next (· ∈ graph.targets) ancestor fit fun _ => enough where
  finds name _ := h.finds name
  closed _ _ _ hnext _ := Graph.mem_targets hnext
  looks := h.looks

/-- **Whether a type is properly below a name is whether one or more steps lead to the name.** -/
theorem Climbs.ends_isBelow (h : engine.Climbs graph fit enough) (ancestor : String)
    (hshape : handle.shape = .ok shape)
    (hnext : shape.supertypes.reverse = graph.next shape.name) :
    ∃ (answer : Bool) (limit : Nat),
      (answer = true ↔ Relation.TransGen graph.Leads shape.name ancestor) ∧
      ∀ depth memo, fit memo →
        (engine.isBelow depth handle ancestor).Ends memo (depth < limit) fun outcome memo' =>
          fit memo' ∧ outcome = .ok answer := by
  classical
  obtain ⟨limit, hlimit⟩ := exists_suffices graph.next (fun _ => enough)
    (fun name (hname : name ∈ graph.targets) => hname) [shape.name] (graph.next shape.name)
  refine ⟨decide (Relation.TransGen graph.Leads shape.name ancestor), limit, decide_eq_true_iff,
    fun depth memo hfit => ?_⟩
  refine ((h.rises ancestor).ends_isBelow hshape hnext (fun _ hmem _ => Graph.mem_targets hmem)
    decide_eq_true_iff depth hfit).imp (fun hstuck => ?_) fun _ _ => id
  exact Nat.lt_of_not_le fun hdepth => hstuck (hlimit depth hdepth)

end Engine

end TypeAtlas
