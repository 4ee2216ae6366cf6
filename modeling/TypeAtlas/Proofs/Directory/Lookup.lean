/-
  Looking names up in a directory.

  * `Shard.find?_ofBuckets`: the way over hashes and chains finds in a shard what a
    plain lookup finds among its entries, whichever of them have the same hash;
  * `Directory.find?_ofEntries`: the same of the way over first characters, but that
    the empty name is never found;
  * `Directory.entries_ofEntries_perm`: a directory holds every entry of a name that
    is not empty once;
  * `Directory.mem_layout_iff` and `Directory.mem_buckets_iff`: which shards and buckets
    entries are laid out in.
-/
import Mathlib.Data.List.Nodup
import Mathlib.Data.List.Perm.Basic
import TypeAtlas.Proofs.Directory.Search
import TypeAtlas.Proofs.Table

namespace TypeAtlas

variable {α : Type}

/-! ## Keys of groups -/

/-- The number of a hash is that of its bucket. -/
theorem Directory.toNat_ofNat_hash {entries : List (String × α)} {k : Nat}
    (hk : k ∈ keysOf (fun entry => (Name.hash entry.1).toNat) entries) :
    (UInt32.ofNat k).toNat = k := by
  obtain ⟨entry, hentry⟩ := List.exists_mem_of_ne_nil _ (mem_keysOf.1 hk)
  have hkey : (Name.hash entry.1).toNat = k := by
    simpa using (List.mem_filter.1 hentry).2
  rw [← hkey, UInt32.ofNat_toNat]

/-- The number of a first character is that of its shard. -/
theorem Directory.toNat_ofNat_first {entries : List (String × α)}
    (h : ∀ entry ∈ entries, entry.1 ≠ "") {k : Nat} (hk : k ∈ keysOf firstCode entries) :
    (Char.ofNat k).toNat = k := by
  obtain ⟨entry, hentry⟩ := List.exists_mem_of_ne_nil _ (mem_keysOf.1 hk)
  obtain ⟨hmem, hkey⟩ := List.mem_filter.1 hentry
  rw [beq_iff_eq] at hkey
  cases hchars : entry.1.toList with
  | nil => exact absurd (String.toList_eq_nil_iff.1 hchars) (h entry hmem)
  | cons first rest =>
    have hfirst : first.toNat = k := by
      simpa [firstCode, hchars] using hkey
    rw [← hfirst, Char.ofNat_toNat]

/-! ## Buckets and shards -/

theorem Bucket.find?_eq (bucket : Bucket α) (name : String) :
    bucket.find? name = lookupName name bucket.chain :=
  (Table.lookupName_eq_find? name bucket.chain).symm

/-- **A lookup in a shard finds what a plain lookup finds.** -/
theorem Shard.find?_ofBuckets (first : Char) (entries : List (String × α)) (name : String) :
    (Shard.ofBuckets first (Directory.bucketsOf entries)).find? name =
      lookupName name entries := by
  have hsame : lookupName name (groupOf (fun entry => (Name.hash entry.1).toNat) entries
      (Name.hash name).toNat) = lookupName name entries :=
    Table.lookupName_filter fun value => beq_self_eq_true _
  unfold Shard.find? Shard.ofBuckets Directory.bucketsOf
  rw [search?_groups fun k hk => Directory.toNat_ofNat_hash hk, ← hsame]
  split
  · next hnone => rw [hnone]; rfl
  · exact Bucket.find?_eq _ name

namespace Directory

/-! ## Directories -/

/-- **A lookup in a directory finds what a plain lookup finds**, and nothing for the empty
    name. -/
theorem find?_ofEntries (entries : List (String × α)) (priority : Int) (name : String) :
    (ofEntries entries priority).find? name =
      if name = "" then none else lookupName name entries := by
  unfold find?
  cases hchars : name.toList with
  | nil => rw [if_pos (String.toList_eq_nil_iff.1 hchars)]
  | cons first rest =>
    have hname : name ≠ "" := by
      rintro rfl
      cases hchars
    have hfirst : firstCode (name, ()) = first.toNat := by simp [firstCode, hchars]
    have hsame : lookupName name (groupOf firstCode
        (entries.filter fun entry => entry.1 != "") first.toNat) = lookupName name entries := by
      rw [groupOf, Table.lookupName_filter, Table.lookupName_filter]
      · exact fun value => bne_iff_ne.2 hname
      · exact fun value => beq_iff_eq.2 hfirst
    unfold ofEntries ofShards layout
    simp only
    rw [search?_groups, if_neg hname, ← hsame]
    · split
      · next hnone => rw [hnone]; rfl
      · exact Shard.find?_ofBuckets _ _ name
    · exact fun k hk => toNat_ofNat_first (fun entry hentry =>
        bne_iff_ne.1 (List.mem_filter.1 hentry).2) hk

/-- **A directory holds every entry once**, but for entries of the empty name. -/
theorem entries_ofEntries_perm (entries : List (String × α)) (priority : Int) :
    (ofEntries entries priority).entries.Perm (entries.filter fun entry => entry.1 != "") := by
  have hshard : ∀ first (group : List (String × α)),
      (Shard.ofBuckets first (bucketsOf group)).entries.Perm group := by
    intro first group
    refine ((sortBy_perm _ _).flatMap_right Bucket.chain).trans ?_
    rw [bucketsOf, List.flatMap_map]
    exact flatMap_groupBy_perm _ group
  refine ((sortBy_perm _ _).flatMap_right Shard.entries).trans ?_
  rw [layout, List.flatMap_map]
  refine (List.Perm.flatMap_left _ fun group _ => hshard _ group.2).trans ?_
  exact flatMap_groupBy_perm firstCode _

theorem entries_ofEntries_perm_of_named {entries : List (String × α)}
    (h : ∀ entry ∈ entries, entry.1 ≠ "") (priority : Int) :
    (ofEntries entries priority).entries.Perm entries := by
  have hkept : entries.filter (fun entry => entry.1 != "") = entries :=
    List.filter_eq_self.2 fun entry hentry => bne_iff_ne.2 (h entry hentry)
  exact (entries_ofEntries_perm entries priority).trans (List.Perm.of_eq hkept)

/-! ## What a layout holds -/

/-- The number of a first character stands for that character. -/
theorem firstCode_eq_iff {entry : String × α} (h : entry.1 ≠ "") {first : Char} :
    firstCode entry = first.toNat ↔ entry.1.toList.head? = some first := by
  cases hchars : entry.1.toList with
  | nil => exact absurd (String.toList_eq_nil_iff.1 hchars) h
  | cons c rest =>
    rw [firstCode, hchars, List.head?_cons, Option.map_some, Option.getD_some, Char.toNat_inj,
      Option.some.injEq]

/-- There is one bucket for each hash. -/
theorem nodup_hashes (first : Char) (entries : List (String × α)) :
    ((Shard.ofBuckets first (bucketsOf entries)).buckets.toList.map
      fun bucket => bucket.hash.toNat).Nodup := by
  have hkeys : (bucketsOf entries).map (fun bucket => bucket.hash.toNat) =
      keysOf (fun entry => (Name.hash entry.1).toNat) entries := by
    rw [bucketsOf, groupBy_eq, List.map_map, List.map_map]
    exact (List.map_congr_left (g := id) fun k hk => toNat_ofNat_hash hk).trans (List.map_id _)
  refine ((sortBy_perm _ _).map _).nodup_iff.2 ?_
  rw [hkeys]
  exact nodup_keysOf _ entries

/-- The buckets are those of the hashes of the entries. -/
theorem mem_buckets_iff {first : Char} {entries : List (String × α)} {bucket : Bucket α} :
    bucket ∈ (Shard.ofBuckets first (bucketsOf entries)).buckets.toList ↔
      ∃ entry ∈ entries, ⟨Name.hash entry.1,
        entries.filter fun other => Name.hash other.1 == Name.hash entry.1⟩ = bucket := by
  have hmake : ∀ hash : UInt32, (⟨UInt32.ofNat hash.toNat,
      groupOf (fun entry => (Name.hash entry.1).toNat) entries hash.toNat⟩ : Bucket α) =
        ⟨hash, entries.filter fun entry => Name.hash entry.1 == hash⟩ := by
    intro hash
    rw [UInt32.ofNat_toNat, groupOf]
    congr 1
    refine List.filter_congr fun entry _ => ?_
    rw [Bool.eq_iff_iff, beq_iff_eq, beq_iff_eq, UInt32.toNat_inj]
  rw [Shard.ofBuckets, List.toList_toArray, (sortBy_perm _ _).mem_iff, bucketsOf, groupBy_eq,
    List.map_map, List.mem_map]
  constructor
  · rintro ⟨k, hk, rfl⟩
    obtain ⟨entry, hentry, rfl⟩ := mem_keysOf_iff_exists.1 hk
    exact ⟨entry, hentry, (hmake _).symm⟩
  · rintro ⟨entry, hentry, rfl⟩
    exact ⟨_, mem_keysOf_iff_exists.2 ⟨entry, hentry, rfl⟩, hmake _⟩

variable {entries : List (String × α)} (h : ∀ entry ∈ entries, entry.1 ≠ "")

include h

theorem layout_eq : layout entries = (keysOf firstCode entries).map fun k =>
    .ofBuckets (Char.ofNat k) (bucketsOf (groupOf firstCode entries k)) := by
  have hkept : entries.filter (fun entry => entry.1 != "") = entries :=
    List.filter_eq_self.2 fun entry hentry => bne_iff_ne.2 (h entry hentry)
  rw [layout, hkept, groupBy_eq, List.map_map]
  rfl

/-- There is one shard for each first character. -/
theorem nodup_firsts : ((layout entries).map Shard.first).Nodup := by
  have hkeys : ((layout entries).map Shard.first).map Char.toNat = keysOf firstCode entries := by
    rw [layout_eq h, List.map_map, List.map_map]
    exact (List.map_congr_left (g := id) fun k hk => toNat_ofNat_first h hk).trans (List.map_id _)
  refine List.Nodup.of_map Char.toNat ?_
  rw [hkeys]
  exact nodup_keysOf _ entries

/-- The shards are those of the first characters of the entries. -/
theorem mem_layout_iff {shard : Shard α} :
    shard ∈ layout entries ↔ ∃ first, (∃ entry ∈ entries, entry.1.toList.head? = some first) ∧
      .ofBuckets first (bucketsOf (entries.filter fun entry =>
        entry.1.toList.head? == some first)) = shard := by
  have hgroup : ∀ first : Char, groupOf firstCode entries first.toNat =
      entries.filter fun entry => entry.1.toList.head? == some first := by
    intro first
    refine List.filter_congr fun entry hentry => ?_
    rw [Bool.eq_iff_iff, beq_iff_eq, beq_iff_eq, firstCode_eq_iff (h entry hentry)]
  have hkeys : ∀ first : Char, first.toNat ∈ keysOf firstCode entries ↔
      ∃ entry ∈ entries, entry.1.toList.head? = some first := by
    intro first
    rw [mem_keysOf_iff_exists]
    exact exists_congr fun entry => and_congr_right fun hentry => firstCode_eq_iff (h entry hentry)
  rw [layout_eq h, List.mem_map]
  constructor
  · rintro ⟨k, hk, rfl⟩
    have hkey := toNat_ofNat_first h hk
    refine ⟨Char.ofNat k, (hkeys _).1 (hkey.symm ▸ hk), ?_⟩
    rw [← hgroup, hkey]
  · rintro ⟨first, hentry, rfl⟩
    refine ⟨first.toNat, (hkeys _).2 hentry, ?_⟩
    rw [hgroup, Char.ofNat_toNat]

end Directory

end TypeAtlas
