/-
  Walks in preorder.

  A walk that marks what it takes keeps on a stack what waits, and lets what a name leads to wait
  in front of the rest.  A walk by recursion goes down from a name before it looks at the next one,
  and tells the next one what it has met.  On every graph the two meet the same names in the same
  order.

  * `Graph.Visits`: what the walk by recursion meets;
  * `Visits.visitFrom_append`: the walk with a stack meets this first, whatever else waits;
  * `exists_visits`: the walk by recursion ends;
  * `visits_iff`: so each of them says what the other meets.
-/
import TypeAtlas.Proofs.Graph

namespace TypeAtlas.Graph

variable {graph : Graph} {marked names met met' : List String} {name : String}

/-- A walk by recursion from one name after another: `marked` are the names that were met before,
    last first, and the third list those that it meets. -/
inductive Visits (graph : Graph) : List String → List String → List String → Prop
  | nil (marked : List String) : Visits graph marked [] []
  /-- A name that was met is passed over. -/
  | pass {marked rest met : List String} {name : String} :
    name ∈ marked → Visits graph marked rest met → Visits graph marked (name :: rest) met
  /-- A new name is met, then what it leads to, then what is left of the rest. -/
  | meet {marked rest below after : List String} {name : String} :
    name ∉ marked → Visits graph (name :: marked) (graph.next name) below →
      Visits graph (below.reverse ++ name :: marked) rest after →
      Visits graph marked (name :: rest) (name :: (below ++ after))

/-- The walk with a stack goes through the names in front before it comes to what waits behind. -/
theorem Visits.visitFrom_append (h : graph.Visits marked names met) (waiting : List String) :
    graph.visitFrom marked (names ++ waiting) =
      graph.visitFrom (met.reverse ++ marked) waiting := by
  induction h generalizing waiting with
  | nil marked => rfl
  | pass hname _ ih => rw [List.cons_append, visitFrom, if_pos hname, ih]
  | @meet marked rest below after name hname _ _ ihBelow ihAfter =>
    calc graph.visitFrom marked (name :: rest ++ waiting)
      _ = graph.visitFrom (name :: marked) (graph.next name ++ (rest ++ waiting)) := by
        rw [List.cons_append, visitFrom, if_neg hname]
      _ = graph.visitFrom (after.reverse ++ (below.reverse ++ name :: marked)) waiting := by
        rw [ihBelow, ihAfter]
      _ = _ := by simp

theorem Visits.visitFrom_eq (h : graph.Visits marked names met) :
    graph.visitFrom marked names = marked.reverse ++ met := by
  have hall := h.visitFrom_append []
  rw [List.append_nil, visitFrom] at hall
  simpa using hall

theorem length_unvisited_append_le (graph : Graph) (more marked : List String) :
    (graph.unvisited (more ++ marked)).length ≤ (graph.unvisited marked).length :=
  length_filter_le_of_imp fun other _ h => by simp_all

/-- The walk by recursion ends: below a name fewer listed names are left to mark. -/
theorem exists_visits (graph : Graph) (marked names : List String) :
    ∃ met, graph.Visits marked names met := by
  match names with
  | [] => exact ⟨[], .nil marked⟩
  | name :: rest =>
    by_cases hname : name ∈ marked
    · obtain ⟨met, hmet⟩ := exists_visits graph marked rest
      exact ⟨met, .pass hname hmet⟩
    · obtain ⟨below, hbelow⟩ : ∃ below, graph.Visits (name :: marked) (graph.next name) below := by
        by_cases hlisted : name ∈ graph.edges.keys
        · exact exists_visits graph (name :: marked) (graph.next name)
        · rw [next_eq_nil hlisted]
          exact ⟨[], .nil _⟩
      obtain ⟨after, hafter⟩ := exists_visits graph (below.reverse ++ name :: marked) rest
      exact ⟨_, .meet hname hbelow hafter⟩
termination_by ((graph.unvisited marked).length, names.length)
decreasing_by
  · exact Prod.Lex.right _ (by simp)
  · exact Prod.Lex.left _ _ (length_unvisited_cons_lt hlisted hname)
  · have hle : (graph.unvisited (below.reverse ++ name :: marked)).length ≤
        (graph.unvisited marked).length :=
      Nat.le_trans (length_unvisited_append_le ..) (length_unvisited_cons_le ..)
    rcases Nat.lt_or_eq_of_le hle with hlt | heq
    · exact Prod.Lex.left _ _ hlt
    · rw [heq]
      exact Prod.Lex.right _ (by simp)

/-- **The walk with a stack is the walk by recursion.** -/
theorem visits_iff :
    graph.Visits marked names met ↔ graph.visitFrom marked names = marked.reverse ++ met := by
  refine ⟨Visits.visitFrom_eq, fun h => ?_⟩
  obtain ⟨met', hmet'⟩ := exists_visits graph marked names
  obtain rfl := List.append_cancel_left (hmet'.visitFrom_eq.symm.trans h)
  exact hmet'

theorem visits_visit (graph : Graph) (start : List String) :
    graph.Visits [] start (graph.visit start) :=
  visits_iff.2 rfl

end TypeAtlas.Graph
