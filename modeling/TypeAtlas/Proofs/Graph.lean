/-
  Walks through graphs of names.

  A walk marks what its start reaches, whichever way it takes.  The names that
  are marked but not yet followed are those that wait, so at every moment each
  step from a marked name ends at a marked name or at one that waits.

  * `mem_visit`: the names visited are those that some start reaches;
  * `mem_discover`: the names discovered are, but for the start, those that the
    start reaches.
-/
import Mathlib.Logic.Relation
import TypeAtlas.Graph.Basic
import TypeAtlas.Proofs.Table

namespace TypeAtlas.Graph

variable {graph : Graph} {marked waiting : List String} {a b c name : String}

/-! ## Reaching -/

theorem reaches_iff : graph.Reaches a b ↔ Relation.ReflTransGen graph.Leads a b := by
  constructor
  · intro hr
    induction hr with
    | refl => exact .refl
    | step _ hs ih => exact ih.tail hs
  · intro hr
    induction hr with
    | refl => exact .refl a
    | tail _ hs ih => exact ih.step hs

/-- A list that holds a name and all ends of steps from its members holds what the name reaches. -/
theorem Reaches.mem_of_closed {names : List String} (hr : graph.Reaches a b)
    (hclosed : ∀ m ∈ names, ∀ n ∈ graph.next m, n ∈ names) (ha : a ∈ names) : b ∈ names := by
  induction hr with
  | refl => exact ha
  | step _ hs ih => exact hclosed _ ih _ hs

theorem next_reverseLists : graph.reverseLists.next a = (graph.next a).reverse := by
  have hfind : graph.reverseLists.edges.find? a = (graph.edges.find? a).map List.reverse :=
    Table.lookupName_map List.reverse graph.edges.entries a
  unfold next
  rw [hfind]
  cases graph.edges.find? a <;> rfl

theorem mem_next_reverseLists : b ∈ graph.reverseLists.next a ↔ b ∈ graph.next a := by
  rw [next_reverseLists, List.mem_reverse]

/-! ## Walks that mark what they take -/

/-- A walk sees of a graph nothing but its steps. -/
theorem visitFrom_congr {other : Graph} (h : ∀ a, graph.next a = other.next a) :
    graph.visitFrom marked waiting = other.visitFrom marked waiting := by
  fun_induction visitFrom graph marked waiting with
  | case1 marked => rw [visitFrom]
  | case2 marked first waiting hfirst ih => rw [visitFrom, if_pos hfirst, ih]
  | case3 marked first waiting hfirst ih => rw [visitFrom, if_neg hfirst, ih, h]

theorem mem_visitFrom_of_marked (h : name ∈ marked ∨ name ∈ waiting) :
    name ∈ graph.visitFrom marked waiting := by
  fun_induction visitFrom graph marked waiting with
  | case1 marked => simpa using h
  | case2 marked first waiting hfirst ih =>
    refine ih ?_
    rcases h with h | h
    · exact Or.inl h
    · rcases List.mem_cons.1 h with rfl | h
      · exact Or.inl hfirst
      · exact Or.inr h
  | case3 marked first waiting hfirst ih =>
    refine ih ?_
    rcases h with h | h
    · exact Or.inl (List.mem_cons_of_mem _ h)
    · rcases List.mem_cons.1 h with rfl | h
      · exact Or.inl List.mem_cons_self
      · exact Or.inr (List.mem_append_right _ h)

/-- The invariant of a walk: a step from a marked name ends at a marked name or at one that
    waits. -/
theorem visitFrom_closed (h : ∀ m ∈ marked, ∀ n ∈ graph.next m, n ∈ marked ∨ n ∈ waiting) :
    ∀ m ∈ graph.visitFrom marked waiting, ∀ n ∈ graph.next m,
      n ∈ graph.visitFrom marked waiting := by
  fun_induction visitFrom graph marked waiting with
  | case1 marked =>
    intro m hm n hn
    simp only [List.mem_reverse] at hm ⊢
    simpa using h m hm n hn
  | case2 marked first waiting hfirst ih =>
    refine ih fun m hm n hn => ?_
    rcases h m hm n hn with hmem | hmem
    · exact Or.inl hmem
    · rcases List.mem_cons.1 hmem with rfl | hmem
      · exact Or.inl hfirst
      · exact Or.inr hmem
  | case3 marked first waiting hfirst ih =>
    refine ih fun m hm n hn => ?_
    rcases List.mem_cons.1 hm with rfl | hm
    · exact Or.inr (List.mem_append_left _ hn)
    · rcases h m hm n hn with hmem | hmem
      · exact Or.inl (List.mem_cons_of_mem _ hmem)
      · rcases List.mem_cons.1 hmem with rfl | hmem
        · exact Or.inl List.mem_cons_self
        · exact Or.inr (List.mem_append_right _ hmem)

theorem visitFrom_sound {p : String → Prop} (hp : ∀ m, p m → ∀ n ∈ graph.next m, p n)
    (hmarked : ∀ m ∈ marked, p m) (hwaiting : ∀ m ∈ waiting, p m) :
    ∀ m ∈ graph.visitFrom marked waiting, p m := by
  fun_induction visitFrom graph marked waiting with
  | case1 marked => simpa using hmarked
  | case2 marked first waiting _ ih =>
    exact ih hmarked (List.forall_mem_cons.1 hwaiting).2
  | case3 marked first waiting _ ih =>
    obtain ⟨hfirst, hrest⟩ := List.forall_mem_cons.1 hwaiting
    refine ih (List.forall_mem_cons.2 ⟨hfirst, hmarked⟩) fun m hm => ?_
    rcases List.mem_append.1 hm with hm | hm
    · exact hp first hfirst m hm
    · exact hrest m hm

/-- **The names visited are those that some start reaches.** -/
theorem mem_visit {start : List String} :
    name ∈ graph.visit start ↔ ∃ s ∈ start, graph.Reaches s name := by
  constructor
  · refine visitFrom_sound (p := fun n => ∃ s ∈ start, graph.Reaches s n) ?_ (by simp) ?_ name
    · rintro m ⟨s, hs, hr⟩ n hn
      exact ⟨s, hs, hr.step hn⟩
    · exact fun s hs => ⟨s, hs, .refl s⟩
  · rintro ⟨s, hs, hr⟩
    exact hr.mem_of_closed (visitFrom_closed (by simp)) (mem_visitFrom_of_marked (Or.inr hs))

/-! ## Walks that mark what they see -/

theorem exists_discoverFrom_eq (graph : Graph) (marked waiting : List String) :
    ∃ more, graph.discoverFrom marked waiting = marked ++ more := by
  fun_induction discoverFrom graph marked waiting with
  | case1 marked => exact ⟨[], (List.append_nil _).symm⟩
  | case2 marked first waiting _ ih => exact ih
  | case3 marked first waiting _ ih =>
    obtain ⟨more, hmore⟩ := ih
    exact ⟨graph.fresh marked first ++ more, by rw [hmore, List.append_assoc]⟩

/-- The invariant of a walk that marks what it sees: a marked name waits, or every step from
    it ends at a marked name. -/
theorem discoverFrom_closed
    (h : ∀ m ∈ marked, m ∈ waiting ∨ ∀ n ∈ graph.next m, n ∈ marked) :
    ∀ m ∈ graph.discoverFrom marked waiting, ∀ n ∈ graph.next m,
      n ∈ graph.discoverFrom marked waiting := by
  fun_induction discoverFrom graph marked waiting with
  | case1 marked =>
    intro m hm
    simpa using h m hm
  | case2 marked first waiting hfresh ih =>
    refine ih fun m hm => ?_
    rcases h m hm with hmem | hnext
    · rcases List.mem_cons.1 hmem with rfl | hmem
      · refine Or.inr fun n hn => ?_
        by_cases hmarked : n ∈ marked
        · exact hmarked
        · have hn' := mem_fresh.2 ⟨hn, hmarked⟩
          rw [hfresh] at hn'
          cases hn'
      · exact Or.inl hmem
    · exact Or.inr hnext
  | case3 marked first waiting _ ih =>
    refine ih fun m hm => ?_
    rcases List.mem_append.1 hm with hm | hm
    · rcases h m hm with hmem | hnext
      · rcases List.mem_cons.1 hmem with rfl | hmem
        · refine Or.inr fun n hn => List.mem_append.2 ?_
          by_cases hmarked : n ∈ marked
          · exact Or.inl hmarked
          · exact Or.inr (mem_fresh.2 ⟨hn, hmarked⟩)
        · exact Or.inl (List.mem_append_right _ hmem)
      · exact Or.inr fun n hn => List.mem_append_left _ (hnext n hn)
    · exact Or.inl (List.mem_append_left _ (List.mem_reverse.2 hm))

theorem discoverFrom_sound {p : String → Prop} (hp : ∀ m, p m → ∀ n ∈ graph.next m, p n)
    (hmarked : ∀ m ∈ marked, p m) (hwaiting : ∀ m ∈ waiting, p m) :
    ∀ m ∈ graph.discoverFrom marked waiting, p m := by
  fun_induction discoverFrom graph marked waiting with
  | case1 marked => exact hmarked
  | case2 marked first waiting _ ih =>
    exact ih hmarked (List.forall_mem_cons.1 hwaiting).2
  | case3 marked first waiting _ ih =>
    obtain ⟨hfirst, hrest⟩ := List.forall_mem_cons.1 hwaiting
    have hfresh : ∀ m ∈ graph.fresh marked first, p m := fun m hm =>
      hp first hfirst m (mem_fresh.1 hm).1
    refine ih ?_ ?_
    · exact fun m hm => (List.mem_append.1 hm).elim (hmarked m) (hfresh m)
    · intro m hm
      rcases List.mem_append.1 hm with hm | hm
      · exact hfresh m (List.mem_reverse.1 hm)
      · exact hrest m hm

theorem discover_eq_nil {start : String} (h : graph.next start = []) :
    graph.discover start = [] := by
  have hfresh : graph.fresh [start] start = [] := by
    rw [fresh, h, List.filter_nil, List.eraseDups_nil]
  rw [discover, discoverFrom, dif_pos hfresh, discoverFrom, List.tail_cons]

/-- **The names discovered are, with the start, those that the start reaches.** -/
theorem mem_discover {start : String} :
    name = start ∨ name ∈ graph.discover start ↔ graph.Reaches start name := by
  obtain ⟨more, hmore⟩ := exists_discoverFrom_eq graph [start] [start]
  have hmem : name ∈ graph.discoverFrom [start] [start] ↔
      name = start ∨ name ∈ graph.discover start := by
    rw [discover, hmore]
    simp
  rw [← hmem]
  constructor
  · refine discoverFrom_sound (p := graph.Reaches start) ?_ ?_ ?_ name
    · exact fun m hm n hn => hm.step hn
    · simpa using Reaches.refl start
    · simpa using Reaches.refl start
  · intro hr
    refine hr.mem_of_closed (discoverFrom_closed fun m hm => Or.inl hm) ?_
    rw [hmore]
    exact List.mem_append_left _ (List.mem_singleton_self _)

end TypeAtlas.Graph
