/-
  Laws of tables and sets.

  * `Table.entries_ofList`: entries with different names are the entries of their
    table, so a table is made of its entries (`Table.ofList_entries`);
  * `Table.find?_ofList`: of entries with one name the last counts;
  * `Table.lookupName_filter`: a lookup does not see the entries of other names.
-/
import TypeAtlas.Table

namespace TypeAtlas

namespace Table

variable {α : Type}

theorem entries_insert_of_new {table : Table α} {name : String} (value : α)
    (h : table.find? name = none) :
    (table.insert name value).entries = table.entries ++ [(name, value)] := by
  simp [insert, h]

theorem entries_foldl_insert (entries : List (String × α)) (table : Table α)
    (h : ((table.entries ++ entries).map Prod.fst).Nodup) :
    (entries.foldl (fun table entry => table.insert entry.1 entry.2) table).entries =
      table.entries ++ entries := by
  induction entries generalizing table with
  | nil => simp
  | cons entry rest ih =>
    have hnew : table.find? entry.1 = none := by
      rw [find?_eq_none_iff, keys]
      intro hmem
      rw [List.map_append, List.map_cons, List.nodup_append] at h
      exact h.2.2 _ hmem _ List.mem_cons_self rfl
    have hentries := entries_insert_of_new entry.2 hnew
    rw [List.foldl_cons, ih, hentries]
    · simp
    · rw [hentries]
      simpa using h

/-- A list of entries with different names is the list of entries of its table. -/
theorem entries_ofList {entries : List (String × α)} (h : (entries.map Prod.fst).Nodup) :
    (ofList entries).entries = entries :=
  entries_foldl_insert entries empty h

theorem ofList_entries (table : Table α) : ofList table.entries = table := by
  have h := entries_ofList table.nodup
  obtain ⟨entries, nodup⟩ := table
  simp only at h
  generalize ofList entries = other at h
  obtain ⟨entries', nodup'⟩ := other
  simp only at h
  subst h
  rfl

/-! ## Looking up -/

theorem find?_foldl_insert (entries : List (String × α)) (table : Table α) (name : String) :
    (entries.foldl (fun table entry => table.insert entry.1 entry.2) table).find? name =
      (lookupName name entries.reverse).or (table.find? name) := by
  induction entries generalizing table with
  | nil => rfl
  | cons entry rest ih =>
    rw [List.foldl_cons, ih, find?_insert, List.reverse_cons, lookupName_append, Option.or_assoc]
    congr 1
    by_cases h : name = entry.1
    · simp [lookupName, h]
    · have h' : ¬ entry.1 = name := fun he => h he.symm
      simp [lookupName, h, h']

/-- Of entries with one name the last counts. -/
theorem find?_ofList (entries : List (String × α)) (name : String) :
    (ofList entries).find? name = lookupName name entries.reverse := by
  rw [ofList, find?_foldl_insert, find?_empty, Option.or_none]

theorem lookupName_map {β : Type} (f : α → β) (entries : List (String × α)) (name : String) :
    lookupName name (entries.map fun entry => (entry.1, f entry.2)) =
      (lookupName name entries).map f := by
  induction entries with
  | nil => rfl
  | cons entry rest ih =>
    obtain ⟨key, value⟩ := entry
    by_cases hk : key = name <;> simp [lookupName, hk, ih]

theorem mem_of_lookupName {name : String} {value : α} {entries : List (String × α)}
    (h : lookupName name entries = some value) : (name, value) ∈ entries := by
  induction entries with
  | nil => simp [lookupName] at h
  | cons entry rest ih =>
    obtain ⟨key, other⟩ := entry
    by_cases hk : key = name
    · simp only [lookupName, hk, if_true, Option.some.injEq] at h
      simp [hk, h]
    · simp only [lookupName, hk, if_false] at h
      exact List.mem_cons_of_mem _ (ih h)

theorem mem_keys_of_find? {table : Table α} {name : String} {value : α}
    (h : table.find? name = some value) : name ∈ table.keys := by
  refine Decidable.byContradiction fun hnone => ?_
  rw [find?_eq_none_iff.2 hnone] at h
  cases h

/-- Entries with different names are looked up one by one. -/
theorem lookupName_eq_some_iff {name : String} {value : α} {entries : List (String × α)}
    (h : (entries.map Prod.fst).Nodup) :
    lookupName name entries = some value ↔ (name, value) ∈ entries := by
  refine ⟨mem_of_lookupName, fun hmem => ?_⟩
  induction entries with
  | nil => cases hmem
  | cons entry rest ih =>
    obtain ⟨hnew, hrest⟩ := List.nodup_cons.1 h
    rcases List.mem_cons.1 hmem with rfl | hmem
    · simp [lookupName]
    · have hne : entry.1 ≠ name := fun he =>
        hnew (he ▸ List.mem_map.2 ⟨(name, value), hmem, rfl⟩)
      simp [lookupName, hne, ih hrest hmem]

/-- The entries of a table are among those that it is made of. -/
theorem mem_of_mem_entries_ofList {entries : List (String × α)} {entry : String × α}
    (h : entry ∈ (ofList entries).entries) : entry ∈ entries := by
  have hfound : (ofList entries).find? entry.1 = some entry.2 :=
    (lookupName_eq_some_iff (ofList entries).nodup).2 h
  rw [find?_ofList] at hfound
  exact List.mem_reverse.1 (mem_of_lookupName hfound)

theorem lookupName_eq_find? (name : String) (entries : List (String × α)) :
    lookupName name entries = (entries.find? fun entry => entry.1 == name).map Prod.snd := by
  induction entries with
  | nil => rfl
  | cons entry rest ih =>
    obtain ⟨key, value⟩ := entry
    by_cases hk : key = name <;> simp [lookupName, hk, ih]

/-- Entries of other names do not count. -/
theorem lookupName_filter {name : String} {p : String × α → Bool}
    {entries : List (String × α)} (h : ∀ value, p (name, value) = true) :
    lookupName name (entries.filter p) = lookupName name entries := by
  induction entries with
  | nil => rfl
  | cons entry rest ih =>
    obtain ⟨key, value⟩ := entry
    by_cases hk : key = name
    · subst hk
      rw [List.filter_cons_of_pos (h value)]
      simp [lookupName]
    · cases hp : p (key, value) with
      | true => simp [hp, lookupName, hk, ih]
      | false => simp [hp, lookupName, hk, ih]

/-- What is looked up among entries that a function gives is what the function gives. -/
theorem find?_ofList_filterMap (names : List String) (f : String → Option α) (name : String) :
    (ofList (names.filterMap fun n => (f n).map fun value => (n, value))).find? name =
      if name ∈ names then f name else none := by
  rw [find?_ofList]
  cases hlook : lookupName name
      (names.filterMap fun n => (f n).map fun value => (n, value)).reverse with
  | none =>
    rw [lookupName_eq_none_iff] at hlook
    split
    · next hname =>
      cases hf : f name with
      | none => rfl
      | some value =>
        refine absurd ?_ hlook
        simp only [List.mem_map, List.mem_reverse, List.mem_filterMap, Option.map_eq_some_iff]
        exact ⟨(name, value), ⟨name, hname, value, hf, rfl⟩, rfl⟩
    · rfl
  | some value =>
    have hmem := mem_of_lookupName hlook
    simp only [List.mem_reverse, List.mem_filterMap, Option.map_eq_some_iff, Prod.mk.injEq] at hmem
    obtain ⟨n, hn, v, hv, rfl, rfl⟩ := hmem
    rw [if_pos hn, hv]

end Table

end TypeAtlas
