/-
  Tables and sets that remember order.

  A `Table` maps names to values and keeps the order in which its names were
  first stored; a `NameSet` is a set of names in the order of first insertion.
  Both carry the proof that no name occurs twice.

  * `Table.insert` puts a new name last and replaces the value of a known name
    where it stands;
  * `Table.find?` is the one view of a table that its laws are stated through
    (`find?_insert`, `find?_erase`);
  * `NameSet.mem_insert`, `NameSet.mem_union`: the members after an insertion.
-/

namespace TypeAtlas

universe u v

/-! ## Lists of entries -/

/-- The value stored under `name` in a list of entries. -/
def lookupName {α : Type u} (name : String) : List (String × α) → Option α
  | [] => none
  | (key, value) :: rest => if key = name then some value else lookupName name rest

theorem lookupName_eq_none_iff {α : Type u} {name : String} {entries : List (String × α)} :
    lookupName name entries = none ↔ name ∉ entries.map Prod.fst := by
  induction entries with
  | nil => simp [lookupName]
  | cons entry rest ih =>
    obtain ⟨key, value⟩ := entry
    by_cases h : key = name
    · simp [lookupName, h]
    · simp [lookupName, h, ih, Ne.symm h]

theorem lookupName_append {α : Type u} (name : String) (xs ys : List (String × α)) :
    lookupName name (xs ++ ys) = (lookupName name xs).or (lookupName name ys) := by
  induction xs with
  | nil => simp [lookupName]
  | cons entry rest ih =>
    obtain ⟨key, value⟩ := entry
    by_cases h : key = name <;> simp [lookupName, h, ih]

/-- Puts `value` in place of the value of every entry called `name`. -/
def replaceName {α : Type u} (name : String) (value : α) (entries : List (String × α)) :
    List (String × α) :=
  entries.map fun entry => if entry.1 = name then (entry.1, value) else entry

theorem keys_replaceName {α : Type u} (name : String) (value : α)
    (entries : List (String × α)) :
    (replaceName name value entries).map Prod.fst = entries.map Prod.fst := by
  simp only [replaceName, List.map_map]
  refine List.map_congr_left fun entry _ => ?_
  by_cases h : entry.1 = name <;> simp [h]

theorem lookupName_replaceName {α : Type u} (name other : String) (value : α)
    (entries : List (String × α)) :
    lookupName other (replaceName name value entries) =
      if other = name then (lookupName other entries).map fun _ => value
      else lookupName other entries := by
  induction entries with
  | nil => simp [replaceName, lookupName]
  | cons entry rest ih =>
    obtain ⟨key, old⟩ := entry
    simp only [replaceName, List.map_cons] at ih ⊢
    by_cases hk : key = name
    · by_cases ho : other = name
      · simp [lookupName, hk, ho]
      · have : ¬ name = other := fun h => ho h.symm
        simp [lookupName, hk, ho, this] at ih ⊢
        exact ih
    · by_cases ho : other = name
      · subst ho
        simp [lookupName, hk] at ih ⊢
        exact ih
      · by_cases hko : key = other <;> simp [lookupName, hk, ho, hko] at ih ⊢
        exact ih

/-! ## Tables -/

/-- A finite map from names to values that keeps the order of first storing. -/
structure Table (α : Type u) where
  entries : List (String × α)
  nodup : (entries.map Prod.fst).Nodup
  deriving DecidableEq

namespace Table

variable {α : Type u} {β : Type v}

def empty : Table α := ⟨[], by simp⟩

instance : Inhabited (Table α) := ⟨empty⟩

def find? (table : Table α) (name : String) : Option α := lookupName name table.entries

/-- Whether something is stored under `name`. -/
def contains (table : Table α) (name : String) : Bool := (table.find? name).isSome

/-- The names, in order of first storing. -/
def keys (table : Table α) : List String := table.entries.map Prod.fst

/-- The values, in the order of their names. -/
def values (table : Table α) : List α := table.entries.map Prod.snd

def size (table : Table α) : Nat := table.entries.length

def isEmpty (table : Table α) : Bool := table.entries.isEmpty

theorem find?_eq_none_iff {table : Table α} {name : String} :
    table.find? name = none ↔ name ∉ table.keys :=
  lookupName_eq_none_iff

/-- Stores `value` under `name`: a known name keeps its place, a new one goes last. -/
def insert (table : Table α) (name : String) (value : α) : Table α :=
  if h : table.find? name = none then
    ⟨table.entries ++ [(name, value)], by
      have hn := find?_eq_none_iff.1 h
      simp only [List.map_append, List.map_cons, List.map_nil]
      refine List.nodup_append.2 ⟨table.nodup, by simp, ?_⟩
      intro a ha b hb hab
      simp only [List.mem_singleton] at hb
      exact hn (hb ▸ hab ▸ ha)⟩
  else
    ⟨replaceName name value table.entries, by
      rw [keys_replaceName]; exact table.nodup⟩

def erase (table : Table α) (name : String) : Table α :=
  ⟨table.entries.filter fun entry => entry.1 != name,
    table.nodup.sublist (List.filter_sublist.map _)⟩

/-- Stores the entries one after another. -/
def ofList (entries : List (String × α)) : Table α :=
  entries.foldl (fun table entry => table.insert entry.1 entry.2) empty

@[simp] theorem find?_empty (name : String) : (empty : Table α).find? name = none := rfl

theorem find?_insert (table : Table α) (name other : String) (value : α) :
    (table.insert name value).find? other =
      if other = name then some value else table.find? other := by
  unfold insert
  split
  · next h =>
    simp only [find?] at h ⊢
    rw [lookupName_append]
    by_cases ho : other = name
    · simp [ho, h, lookupName]
    · have : ¬ name = other := fun h => ho h.symm
      simp [ho, lookupName, this]
  · next h =>
    simp only [find?] at h ⊢
    rw [lookupName_replaceName]
    by_cases ho : other = name
    · subst ho
      obtain ⟨v, hv⟩ := Option.ne_none_iff_exists'.1 h
      simp [hv]
    · simp [ho]

theorem find?_erase (table : Table α) (name other : String) :
    (table.erase name).find? other = if other = name then none else table.find? other := by
  simp only [erase, find?]
  induction table.entries with
  | nil => simp [lookupName]
  | cons entry rest ih =>
    obtain ⟨key, value⟩ := entry
    by_cases hk : key = name
    · by_cases ho : other = name
      · simp [hk, ho] at ih ⊢
        exact ih
      · have : ¬ name = other := fun h => ho h.symm
        simp [hk, ho, lookupName, this] at ih ⊢
        exact ih
    · by_cases ho : other = name
      · subst ho
        simp [hk, lookupName] at ih ⊢
        exact ih
      · simp [hk, ho, lookupName] at ih ⊢
        by_cases hko : key = other <;> simp [hko, ih]

end Table

/-! ## Sets of names -/

/-- A set of names that keeps the order of first insertion. -/
structure NameSet where
  toList : List String
  nodup : toList.Nodup
  deriving DecidableEq

namespace NameSet

def empty : NameSet := ⟨[], by simp⟩

instance : Inhabited NameSet := ⟨empty⟩

instance : Membership String NameSet := ⟨fun set name => name ∈ set.toList⟩

theorem mem_def {set : NameSet} {name : String} : name ∈ set ↔ name ∈ set.toList := Iff.rfl

instance (set : NameSet) (name : String) : Decidable (name ∈ set) :=
  inferInstanceAs (Decidable (name ∈ set.toList))

def contains (set : NameSet) (name : String) : Bool := decide (name ∈ set)

/-- Adds `name` at the end unless it is a member already. -/
def insert (set : NameSet) (name : String) : NameSet :=
  if h : name ∈ set.toList then set
  else ⟨set.toList ++ [name], by
    refine List.nodup_append.2 ⟨set.nodup, by simp, ?_⟩
    intro a ha b hb hab
    simp only [List.mem_singleton] at hb
    exact h (hb ▸ hab ▸ ha)⟩

def insertAll (set : NameSet) (names : List String) : NameSet := names.foldl insert set

/-- Adds the members of `other` in their order. -/
def union (set other : NameSet) : NameSet := set.insertAll other.toList

/-- The members that satisfy `p`, in order. -/
def filter (set : NameSet) (p : String → Bool) : NameSet :=
  ⟨set.toList.filter p, set.nodup.sublist List.filter_sublist⟩

def isEmpty (set : NameSet) : Bool := set.toList.isEmpty

def size (set : NameSet) : Nat := set.toList.length

@[simp] theorem not_mem_empty (name : String) : name ∉ empty := by
  simp [mem_def, empty]

theorem mem_insert {set : NameSet} {name other : String} :
    other ∈ set.insert name ↔ other ∈ set ∨ other = name := by
  unfold insert
  split
  · next h =>
    constructor
    · exact Or.inl
    · rintro (h' | rfl)
      · exact h'
      · exact h
  · simp [mem_def]

theorem mem_insertAll {set : NameSet} {names : List String} {other : String} :
    other ∈ set.insertAll names ↔ other ∈ set ∨ other ∈ names := by
  induction names generalizing set with
  | nil => simp [insertAll]
  | cons name rest ih =>
    simp only [insertAll, List.foldl_cons] at ih ⊢
    rw [ih, mem_insert]
    simp [or_assoc]

theorem mem_union {set other : NameSet} {name : String} :
    name ∈ set.union other ↔ name ∈ set ∨ name ∈ other :=
  mem_insertAll

theorem mem_filter {set : NameSet} {p : String → Bool} {name : String} :
    name ∈ set.filter p ↔ name ∈ set ∧ p name = true := by
  simp [mem_def, filter]

end NameSet

end TypeAtlas
