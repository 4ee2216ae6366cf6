/-
  Searching sorted groups.

  * `lastIn_eq`: the interval is halved down to the last place at which the test
    holds, if it holds up to that place and not behind it;
  * `search?_eq_some_iff`: in an array whose keys go up, the search for a key finds
    exactly the item that has it;
  * `search?_groups`: among groups that were made by key and sorted, the search for
    a key finds the items of that key, in their order;
  * `flatMap_groupBy_perm`: grouping loses nothing and repeats nothing.
-/
import Mathlib.Data.List.Basic
import TypeAtlas.Directory.Basic

namespace TypeAtlas

universe u v

variable {α : Type u} {β : Type v}

/-! ## Searching -/

namespace Directory

theorem lastIn_eq {small : Nat → Bool} {start size j : Nat} (hstart : start ≤ j)
    (hend : j < start + size) (hsmall : ∀ i, i ≤ j → small i = true)
    (hlarge : ∀ i, j < i → i < start + size → small i = false) :
    lastIn small start size = j := by
  fun_induction lastIn small start size with
  | case1 start size hsize => omega
  | case2 start size hsize ih =>
    by_cases hmiddle : small (start + size / 2) = true
    · have hle : start + size / 2 ≤ j := by
        by_contra hlt
        rw [hlarge _ (by omega) (by omega)] at hmiddle
        cases hmiddle
      rw [dif_pos hmiddle] at ih
      rw [if_pos hmiddle]
      exact ih hle (by omega) fun i hi hi' => hlarge i hi (by omega)
    · have hlt : j < start + size / 2 := by
        by_contra hle
        exact hmiddle (hsmall _ (by omega))
      rw [dif_neg hmiddle] at ih
      rw [if_neg hmiddle]
      exact ih hstart (by omega) fun i hi hi' => hlarge i hi (by omega)

/-- Where keys go up, a search for a key finds the item that has it. -/
theorem search?_eq_some_iff {key : α → Nat} {items : Array α} {k : Nat} {item : α}
    (h : items.toList.Pairwise fun a b => key a < key b) :
    search? key items k = some item ↔ item ∈ items ∧ key item = k := by
  unfold search?
  extract_lets place
  rw [Option.filter_eq_some_iff, beq_iff_eq]
  constructor
  · rintro ⟨hfound, hkey⟩
    exact ⟨Array.mem_of_getElem? hfound, hkey⟩
  · rintro ⟨hmem, hkey⟩
    obtain ⟨j, hj, rfl⟩ := Array.mem_iff_getElem.1 hmem
    have hlt : ∀ {a b : Nat} (ha : a < items.size) (hb : b < items.size), a < b →
        key items[a] < key items[b] := fun ha hb =>
      List.pairwise_iff_getElem.1 h _ _ ha hb
    have hplace : place = j := by
      refine lastIn_eq (Nat.zero_le j) (by omega) (fun i hi => ?_) fun i hi hend => ?_
      · rw [Array.getElem?_eq_getElem (by omega), Option.any_some, decide_eq_true_eq]
        rcases Nat.lt_or_eq_of_le hi with hi | rfl
        · exact Nat.le_of_lt (hkey ▸ hlt (by omega) hj hi)
        · exact Nat.le_of_eq hkey
      · have := hlt hj (by omega) hi
        rw [Array.getElem?_eq_getElem (by omega), Option.any_some, decide_eq_false_iff_not]
        omega
    rw [hplace]
    exact ⟨Array.getElem?_eq_getElem hj, hkey⟩

end Directory

/-! ## Sorting -/

theorem sortBy_perm (key : β → Nat) (items : List β) : (sortBy key items).Perm items :=
  List.mergeSort_perm items _

/-- Sorted items go up by their key, if no two have the same. -/
theorem pairwise_sortBy {key : β → Nat} {items : List β} (h : (items.map key).Nodup) :
    (sortBy key items).Pairwise fun a b => key a < key b := by
  have hle : (sortBy key items).Pairwise fun a b => key a ≤ key b := by
    refine (List.pairwise_mergeSort ?_ ?_ items).imp fun hab => of_decide_eq_true hab
    · intro a b c hab hbc
      simp only [decide_eq_true_eq] at hab hbc ⊢
      omega
    · intro a b
      simp only [Bool.or_eq_true, decide_eq_true_eq]
      omega
  have hne : (sortBy key items).Pairwise fun a b => key a ≠ key b := by
    rw [← List.pairwise_map (R := (· ≠ ·))]
    exact ((sortBy_perm key items).map key).nodup_iff.2 h
  exact hle.imp₂ (fun a b hab hab' => Nat.lt_of_le_of_ne hab hab') hne

/-! ## Grouping -/

theorem nodup_eraseDups (keys : List Nat) : keys.eraseDups.Nodup := by
  induction hn : keys.length using Nat.strongRecOn generalizing keys with
  | _ n ih =>
    cases keys with
    | nil => simp
    | cons k rest =>
      rw [List.eraseDups_cons, List.nodup_cons]
      refine ⟨by simp, ih _ ?_ _ rfl⟩
      rw [← hn, List.length_cons]
      exact Nat.lt_succ_of_le (List.length_filter_le _ _)

/-- The items of a key, in their order. -/
def groupOf (key : β → Nat) (items : List β) (k : Nat) : List β :=
  items.filter fun item => key item == k

/-- The keys of items, each once. -/
def keysOf (key : β → Nat) (items : List β) : List Nat :=
  sortBy id (items.map key).eraseDups

theorem groupBy_eq (key : β → Nat) (items : List β) :
    groupBy key items = (keysOf key items).map fun k => (k, groupOf key items k) := by
  simp [groupBy, keysOf, groupOf, List.filter_map, Function.comp_def]

theorem nodup_keysOf (key : β → Nat) (items : List β) : (keysOf key items).Nodup :=
  (sortBy_perm id _).nodup_iff.2 (nodup_eraseDups _)

theorem mem_keysOf_iff_exists {key : β → Nat} {items : List β} {k : Nat} :
    k ∈ keysOf key items ↔ ∃ item ∈ items, key item = k := by
  rw [keysOf, (sortBy_perm id _).mem_iff, List.mem_eraseDups, List.mem_map]

theorem mem_keysOf {key : β → Nat} {items : List β} {k : Nat} :
    k ∈ keysOf key items ↔ groupOf key items k ≠ [] := by
  rw [mem_keysOf_iff_exists, groupOf, Ne, List.filter_eq_nil_iff]
  simp

/-- The items of different keys, one key after another, are the items of these keys. -/
theorem flatMap_groupOf_perm {key : β → Nat} {keys : List Nat} (h : keys.Nodup)
    {items : List β} (hall : ∀ item ∈ items, key item ∈ keys) :
    (keys.flatMap (groupOf key items)).Perm items := by
  induction keys generalizing items with
  | nil =>
    cases items with
    | nil => simp
    | cons item rest => exact absurd (hall item List.mem_cons_self) List.not_mem_nil
  | cons k rest ih =>
    obtain ⟨hk, hrest⟩ := List.nodup_cons.1 h
    -- the items of all other keys are the items that do not have this key
    have hothers : rest.flatMap (groupOf key items) =
        rest.flatMap (groupOf key (items.filter fun item => !(key item == k))) := by
      refine List.flatMap_congr fun k' hk' => ?_
      rw [groupOf, groupOf, List.filter_filter]
      refine List.filter_congr fun item _ => ?_
      by_cases hitem : key item = k'
      · have hne : key item ≠ k := fun he => hk (he ▸ hitem ▸ hk')
        simp [hitem, hitem ▸ hne]
      · simp [hitem]
    rw [List.flatMap_cons, hothers]
    refine ((ih hrest fun item hitem => ?_).append_left _).trans
      (List.filter_append_perm (fun item => key item == k) items)
    obtain ⟨hitem, hne⟩ := List.mem_filter.1 hitem
    rcases List.mem_cons.1 (hall item hitem) with he | hmem
    · simp [he] at hne
    · exact hmem

/-- **Grouping loses nothing and repeats nothing.** -/
theorem flatMap_groupBy_perm (key : β → Nat) (items : List β) :
    ((groupBy key items).flatMap Prod.snd).Perm items := by
  rw [groupBy_eq, List.flatMap_map]
  refine flatMap_groupOf_perm (nodup_keysOf key items) fun item hitem => mem_keysOf.2 ?_
  rw [groupOf, Ne, List.filter_eq_nil_iff]
  intro hnone
  exact hnone item hitem (beq_self_eq_true _)

/-- **A search among sorted groups finds the items of a key.** -/
theorem search?_groups {key : β → Nat} {items : List β} {key' : α → Nat}
    {make : Nat × List β → α}
    (hkey : ∀ k ∈ keysOf key items, key' (make (k, groupOf key items k)) = k) (k : Nat) :
    Directory.search? key' (sortBy key' ((groupBy key items).map make)).toArray k =
      if groupOf key items k = [] then none else some (make (k, groupOf key items k)) := by
  have hperm := sortBy_perm key' ((groupBy key items).map make)
  have hsorted : (sortBy key' ((groupBy key items).map make)).Pairwise
      fun a b => key' a < key' b := by
    refine pairwise_sortBy ?_
    rw [groupBy_eq, List.map_map, List.map_map]
    refine (List.map_congr_left (g := id) fun k hk => hkey k hk) ▸ ?_
    rw [List.map_id]
    exact nodup_keysOf key items
  generalize sortBy key' ((groupBy key items).map make) = sorted at hperm hsorted ⊢
  have hfound : ∀ found, Directory.search? key' sorted.toArray k = some found ↔
      (∃ k' ∈ keysOf key items, make (k', groupOf key items k') = found) ∧ key' found = k := by
    intro found
    rw [Directory.search?_eq_some_iff hsorted, List.mem_toArray, hperm.mem_iff, groupBy_eq,
      List.map_map, List.mem_map]
    rfl
  by_cases hgroup : groupOf key items k = []
  · rw [if_pos hgroup]
    refine Option.eq_none_iff_forall_ne_some.2 fun found hsome => ?_
    obtain ⟨⟨k', hk', rfl⟩, hk⟩ := (hfound found).1 hsome
    rw [hkey k' hk'] at hk
    subst hk
    exact mem_keysOf.1 hk' hgroup
  · have hk := mem_keysOf.2 hgroup
    rw [if_neg hgroup]
    exact (hfound _).2 ⟨⟨k, hk, rfl⟩, hkey k hk⟩

end TypeAtlas
