/-
  How large a layout is.

  However the entries are laid out, there are as many shards as first characters, as many buckets
  as pairs of a first character and a hash, and as many places in chains as names that are not
  empty.

  * `Directory.firstsOf` and `Directory.placesOf`: the first characters of names, and these with
    their hashes;
  * `length_layout`, `length_buckets`, `chains_perm`: the three numbers.
-/
import Mathlib.Data.Finset.Card
import TypeAtlas.Proofs.Directory.Lookup

namespace TypeAtlas.Directory

variable {α : Type}

/-- The first characters of names; the empty name has none. -/
def firstsOf (names : List String) : Finset Char :=
  (names.filterMap fun name => name.toList.head?).toFinset

/-- The first characters of names with the hashes of the names. -/
def placesOf (names : List String) : Finset (Char × UInt32) :=
  (names.filterMap fun name => name.toList.head?.map fun first => (first, Name.hash name)).toFinset

/-- The buckets of all shards. -/
def bucketsIn (shards : List (Shard α)) : List (Bucket α) :=
  shards.flatMap fun shard => shard.buckets.toList

/-- The entries that have a place. -/
def namedIn (entries : List (String × α)) : List (String × α) :=
  entries.filter fun entry => entry.1 != ""

theorem layout_namedIn (entries : List (String × α)) :
    layout (namedIn entries) = layout entries := by
  simp only [layout, namedIn, List.filter_filter, Bool.and_self]

variable (entries : List (String × α))

theorem named_namedIn : ∀ entry ∈ namedIn entries, entry.1 ≠ "" :=
  fun _ hentry => bne_iff_ne.1 (List.mem_filter.1 hentry).2

/-- What has a first character has a place. -/
theorem exists_mem_namedIn_iff (first : Char) (p : String → Prop) :
    (∃ entry ∈ namedIn entries, entry.1.toList.head? = some first ∧ p entry.1) ↔
      ∃ name ∈ entries.map Prod.fst, name.toList.head? = some first ∧ p name := by
  constructor
  · rintro ⟨entry, hentry, hname⟩
    exact ⟨entry.1, List.mem_map_of_mem (List.mem_of_mem_filter hentry), hname⟩
  · rintro ⟨_, hmem, hfirst, hname⟩
    obtain ⟨entry, hentry, rfl⟩ := List.mem_map.1 hmem
    refine ⟨entry, List.mem_filter.2 ⟨hentry, bne_iff_ne.2 fun hempty => ?_⟩, hfirst, hname⟩
    rw [hempty] at hfirst
    cases hfirst

/-- There is a shard for each first character of a name. -/
theorem mem_firsts_layout_iff {first : Char} : first ∈ (layout entries).map Shard.first ↔
    ∃ name ∈ entries.map Prod.fst, name.toList.head? = some first := by
  have hnamed := exists_mem_namedIn_iff entries first fun _ => True
  simp only [and_true] at hnamed
  rw [List.mem_map, ← hnamed, ← layout_namedIn]
  simp only [mem_layout_iff (named_namedIn entries)]
  constructor
  · rintro ⟨_, ⟨first, hentry, rfl⟩, rfl⟩
    exact hentry
  · intro hentry
    exact ⟨_, ⟨first, hentry, rfl⟩, rfl⟩

/-- There are as many shards as first characters. -/
theorem length_layout : (layout entries).length = (firstsOf (entries.map Prod.fst)).card := by
  have hfirsts : firstsOf (entries.map Prod.fst) = ((layout entries).map Shard.first).toFinset := by
    ext first
    rw [firstsOf, List.mem_toFinset, List.mem_filterMap, List.mem_toFinset, mem_firsts_layout_iff]
  have hnodup : ((layout entries).map Shard.first).Nodup := by
    rw [← layout_namedIn]
    exact nodup_firsts (named_namedIn entries)
  rw [hfirsts, List.toFinset_card_of_nodup hnodup, List.length_map]

/-- What the buckets of all shards are of. -/
def pairsIn (shards : List (Shard α)) : List (Char × UInt32) :=
  shards.flatMap fun shard => shard.buckets.toList.map fun bucket => (shard.first, bucket.hash)

theorem mem_pairsIn_iff {first : Char} {hash : UInt32} :
    (first, hash) ∈ pairsIn (layout entries) ↔
      ∃ entry ∈ namedIn entries, entry.1.toList.head? = some first ∧ Name.hash entry.1 = hash := by
  rw [pairsIn, ← layout_namedIn]
  simp only [List.mem_flatMap, List.mem_map, Prod.mk.injEq]
  constructor
  · rintro ⟨shard, hshard, bucket, hbucket, rfl, rfl⟩
    obtain ⟨first, -, rfl⟩ := (mem_layout_iff (named_namedIn entries)).1 hshard
    obtain ⟨entry, hentry, rfl⟩ := mem_buckets_iff.1 hbucket
    obtain ⟨hmem, hfirst⟩ := List.mem_filter.1 hentry
    exact ⟨entry, hmem, beq_iff_eq.1 hfirst, rfl⟩
  · rintro ⟨entry, hentry, hfirst, rfl⟩
    refine ⟨_, (mem_layout_iff (named_namedIn entries)).2 ⟨first, ⟨entry, hentry, hfirst⟩, rfl⟩,
      _, mem_buckets_iff.2 ⟨entry, List.mem_filter.2 ⟨hentry, ?_⟩, rfl⟩, rfl, rfl⟩
    exact beq_iff_eq.2 hfirst

theorem nodup_pairsIn : (pairsIn (layout entries)).Nodup := by
  rw [pairsIn, List.nodup_flatMap, ← layout_namedIn]
  constructor
  · intro shard hshard
    obtain ⟨first, -, rfl⟩ := (mem_layout_iff (named_namedIn entries)).1 hshard
    refine List.Nodup.of_map (fun pair => pair.2.toNat) ?_
    rw [List.map_map]
    exact nodup_hashes _ _
  · -- buckets of different shards differ in their first characters
    refine (List.pairwise_map.1 (nodup_firsts (named_namedIn entries))).imp ?_
    intro shard shard' hdiffer pair hpair hpair'
    obtain ⟨bucket, -, rfl⟩ := List.mem_map.1 hpair
    obtain ⟨bucket', -, hsame⟩ := List.mem_map.1 hpair'
    exact hdiffer (congrArg Prod.fst hsame).symm

/-- There are as many buckets as first characters with hashes. -/
theorem length_buckets :
    (bucketsIn (layout entries)).length = (placesOf (entries.map Prod.fst)).card := by
  have hplaces : placesOf (entries.map Prod.fst) = (pairsIn (layout entries)).toFinset := by
    ext ⟨first, hash⟩
    have hnamed := exists_mem_namedIn_iff entries first fun name => Name.hash name = hash
    rw [placesOf, List.mem_toFinset, List.mem_toFinset, mem_pairsIn_iff, hnamed]
    simp [List.mem_filterMap, Option.map_eq_some_iff]
  rw [hplaces, List.toFinset_card_of_nodup (nodup_pairsIn entries), bucketsIn, pairsIn,
    List.length_flatMap, List.length_flatMap]
  simp only [List.length_map]

/-- The chains hold each name that is not empty. -/
theorem chains_perm :
    ((bucketsIn (layout entries)).flatMap Bucket.chain).Perm (namedIn entries) := by
  have hshards := (sortBy_perm (fun shard => shard.first.toNat) (layout entries)).flatMap_right
    Shard.entries
  rw [bucketsIn, List.flatMap_assoc]
  exact hshards.symm.trans (entries_ofEntries_perm entries 0)

end TypeAtlas.Directory
