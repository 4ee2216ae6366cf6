/-
  Graphs of names.

  A graph lists, for finitely many names, the names that each leads to.  Names
  that are not listed may be led to and lead nowhere.

  * `Graph.visit` goes through a graph depth first: it takes the first name that
    waits, marks it, and lets what it leads to wait in front of the others; the
    answer is the marked names in order;
  * `Graph.discover` marks a name as soon as something leads to it, and goes on
    from the name marked last; the answer is again the marked names in order;
  * both end because a name is marked once: `visit` by the listed names that are
    not marked yet, `discover` by the names led to that are not marked yet;
  * `Graph.Leads` is one step, `Graph.Reaches` any number of steps.
-/
import TypeAtlas.Table

namespace TypeAtlas

/-- A finite graph of names. -/
structure Graph where
  /-- The names that each listed name leads to. -/
  edges : Table (List String)

namespace Graph

/-- The names that a name leads to. -/
def next (graph : Graph) (name : String) : List String := (graph.edges.find? name).getD []

/-- The names that something leads to. -/
def targets (graph : Graph) : List String := graph.edges.values.flatten

def Leads (graph : Graph) (a b : String) : Prop := b ∈ graph.next a

/-- Any number of steps. -/
inductive Reaches (graph : Graph) : String → String → Prop
  | refl (a : String) : Reaches graph a a
  | step {a b c : String} : Reaches graph a b → graph.Leads b c → Reaches graph a c

/-- The graph in which every list of steps is turned round. -/
def reverseLists (graph : Graph) : Graph where
  edges := ⟨graph.edges.entries.map fun entry => (entry.1, entry.2.reverse), by
    rw [List.map_map]; exact graph.edges.nodup⟩

/-! ## What is left to mark -/

/-- The listed names that are not marked. -/
def unvisited (graph : Graph) (marked : List String) : List String :=
  graph.edges.keys.filter fun name => !marked.contains name

/-- The names led to that are not marked. -/
def undiscovered (graph : Graph) (marked : List String) : List String :=
  graph.targets.filter fun name => !marked.contains name

theorem length_filter_le_of_imp {α : Type} {p q : α → Bool} {xs : List α}
    (h : ∀ x ∈ xs, q x = true → p x = true) :
    (xs.filter q).length ≤ (xs.filter p).length := by
  induction xs with
  | nil => simp
  | cons x rest ih =>
    have ih := ih fun y hy => h y (List.mem_cons_of_mem _ hy)
    have hx := h x List.mem_cons_self
    by_cases hq : q x = true
    · simp [hq, hx hq, ih]
    · by_cases hp : p x = true
      · simp [hq, hp]; omega
      · simp [hq, hp, ih]

theorem length_filter_lt_of_imp {α : Type} {p q : α → Bool} {xs : List α} {y : α}
    (h : ∀ x ∈ xs, q x = true → p x = true) (hy : y ∈ xs) (hp : p y = true)
    (hq : q y = false) : (xs.filter q).length < (xs.filter p).length := by
  induction xs with
  | nil => simp at hy
  | cons x rest ih =>
    have hrest : (rest.filter q).length ≤ (rest.filter p).length :=
      length_filter_le_of_imp fun z hz => h z (List.mem_cons_of_mem _ hz)
    rcases List.mem_cons.1 hy with rfl | hy
    · simp [hp, hq]; omega
    · have ih := ih (fun z hz => h z (List.mem_cons_of_mem _ hz)) hy
      have hx := h x List.mem_cons_self
      by_cases hqx : q x = true
      · simp [hqx, hx hqx, ih]
      · by_cases hpx : p x = true
        · simp [hqx, hpx]; omega
        · simp [hqx, hpx, ih]

theorem length_unvisited_cons_le (graph : Graph) (marked : List String) (name : String) :
    (graph.unvisited (name :: marked)).length ≤ (graph.unvisited marked).length :=
  length_filter_le_of_imp fun other _ h => by simp_all

theorem length_unvisited_cons_lt {graph : Graph} {marked : List String} {name : String}
    (hk : name ∈ graph.edges.keys) (hm : name ∉ marked) :
    (graph.unvisited (name :: marked)).length < (graph.unvisited marked).length :=
  length_filter_lt_of_imp (fun other _ h => by simp_all) hk (by simp [hm]) (by simp)

theorem next_eq_nil {graph : Graph} {name : String} (h : name ∉ graph.edges.keys) :
    graph.next name = [] := by
  rw [next, Table.find?_eq_none_iff.2 h, Option.getD_none]

theorem mem_targets {graph : Graph} {a b : String} (h : b ∈ graph.next a) :
    b ∈ graph.targets := by
  unfold next at h
  cases hf : graph.edges.find? a with
  | none => simp [hf] at h
  | some names =>
    rw [hf, Option.getD_some] at h
    refine List.mem_flatten.2 ⟨names, ?_, h⟩
    have : ∀ entries : List (String × List String),
        lookupName a entries = some names → names ∈ entries.map Prod.snd := by
      intro entries hl
      induction entries with
      | nil => simp [lookupName] at hl
      | cons entry rest ih =>
        obtain ⟨key, value⟩ := entry
        by_cases hk : key = a
        · simp [lookupName, hk] at hl
          simp [hl]
        · simp only [lookupName, hk, if_false] at hl
          exact List.mem_cons_of_mem _ (ih hl)
    exact this _ hf

/-! ## Walks -/

/-- The names marked by a walk, in order; `marked` holds what is marked already,
    last first, and the third list what waits. -/
def visitFrom (graph : Graph) (marked : List String) : List String → List String
  | [] => marked.reverse
  | name :: waiting =>
    if name ∈ marked then visitFrom graph marked waiting
    else visitFrom graph (name :: marked) (graph.next name ++ waiting)
termination_by waiting => ((graph.unvisited marked).length, waiting.length)
decreasing_by
  · exact Prod.Lex.right _ (by simp)
  · by_cases hk : name ∈ graph.edges.keys
    · exact Prod.Lex.left _ _ (length_unvisited_cons_lt hk ‹_›)
    · rw [next_eq_nil hk, List.nil_append]
      rcases Nat.lt_or_eq_of_le (length_unvisited_cons_le graph marked name) with h | h
      · exact Prod.Lex.left _ _ h
      · rw [h]
        exact Prod.Lex.right _ (by simp)

/-- The names marked by a walk from a list of names. -/
def visit (graph : Graph) (start : List String) : List String := graph.visitFrom [] start

/-- The names that a name leads to and that are not marked, each once. -/
def fresh (graph : Graph) (marked : List String) (name : String) : List String :=
  ((graph.next name).filter fun other => !marked.contains other).eraseDups

theorem mem_fresh {graph : Graph} {marked : List String} {name other : String} :
    other ∈ graph.fresh marked name ↔ other ∈ graph.next name ∧ other ∉ marked := by
  simp [fresh]

theorem length_undiscovered_lt {graph : Graph} {marked : List String} {name : String}
    (h : graph.fresh marked name ≠ []) :
    (graph.undiscovered (marked ++ graph.fresh marked name)).length <
      (graph.undiscovered marked).length := by
  obtain ⟨other, ho⟩ := List.exists_mem_of_ne_nil _ h
  have hf := mem_fresh.1 ho
  refine length_filter_lt_of_imp (fun x _ hx => ?_) (mem_targets hf.1) (by simp [hf.2])
    (by simp [ho])
  simp_all

/-- The names marked by a walk that marks what it sees, in order; `marked` holds
    what is marked already and the third list what waits. -/
def discoverFrom (graph : Graph) (marked : List String) : List String → List String
  | [] => marked
  | name :: waiting =>
    if _h : graph.fresh marked name = [] then discoverFrom graph marked waiting
    else
      discoverFrom graph (marked ++ graph.fresh marked name)
        ((graph.fresh marked name).reverse ++ waiting)
termination_by waiting => ((graph.undiscovered marked).length, waiting.length)
decreasing_by
  · exact Prod.Lex.right _ (by simp)
  · exact Prod.Lex.left _ _ (length_undiscovered_lt _h)

/-- The names that a walk from a name sees, in order, without the name itself. -/
def discover (graph : Graph) (start : String) : List String :=
  (graph.discoverFrom [start] [start]).tail

end Graph

end TypeAtlas
