/-
  What a written lookup says.

  A listing is written branch by branch in the layout of a directory, and its constants are
  numbered in the order of its names.

  * `Source.Lists`: a source declares each constant once and has one branch for each first
    character, each hash and each name;
  * `Source.Lists.follow?_eq_some_iff`, `Source.Lists.metadataFor?_eq`: then its function finds
    what a plain lookup finds;
  * `Listing.lists_source`: the source of a listing is of this kind;
  * `Listing.ofText?_written`: the text of a listing answers with what was accepted, and that of a
    build with the blobs of its directory, if no name runs over several lines.
-/
import TypeAtlas.Proofs.Build.Coherence
import TypeAtlas.Proofs.Build.Listing

namespace TypeAtlas

open Listing (constantName)

/-! ## Branches -/

/-- In a list that has no key twice, what is found under a key is what is listed under it. -/
theorem lookup_eq_some_iff_of_nodup {κ β : Type} [BEq κ] [LawfulBEq κ] {entries : List (κ × β)}
    (h : (entries.map Prod.fst).Nodup) {k : κ} {value : β} :
    entries.lookup k = some value ↔ (k, value) ∈ entries := by
  induction entries with
  | nil => exact ⟨nofun, nofun⟩
  | cons entry entries ih =>
    obtain ⟨key, first⟩ := entry
    obtain ⟨hnew, hnodup⟩ := List.nodup_cons.1 h
    by_cases hk : k = key
    · subst hk
      rw [List.lookup_cons_self, Option.some.injEq, List.mem_cons, Prod.mk.injEq]
      constructor
      · exact fun heq => Or.inl ⟨rfl, heq.symm⟩
      · rintro (⟨-, rfl⟩ | hmem)
        · rfl
        · exact absurd (List.mem_map_of_mem hmem) hnew
    · rw [List.lookup_cons, beq_false_of_ne hk, ih hnodup, List.mem_cons, Prod.mk.injEq]
      simp only [hk, false_and, false_or]

namespace Source

/-- A source declares the texts of a list of entries and branches to their names. -/
structure Lists (source : Source) (entries : List (String × String)) : Prop where
  /-- The constants are declared one after another, each with the text of its entry. -/
  constants : source.constants =
    entries.zipIdx.map fun entry => (constantName entry.2, entry.1.2)
  /-- There is one branch for each first character, -/
  firsts_once : (source.arms.map Prod.fst).Nodup
  mem_firsts : ∀ first, first ∈ source.arms.map Prod.fst ↔
    ∃ entry ∈ entries, entry.1.toList.head? = some first
  /-- in it one for each hash, -/
  hashes_once : ∀ arm ∈ source.arms, (arm.2.map Prod.fst).Nodup
  mem_hashes : ∀ arm ∈ source.arms, ∀ hash, hash ∈ arm.2.map Prod.fst ↔
    ∃ entry ∈ entries, entry.1.toList.head? = some arm.1 ∧ (Name.hash entry.1).toNat = hash
  /-- and in that one for each name, which answers with the constant of its entry. -/
  names_once : ∀ arm ∈ source.arms, ∀ inner ∈ arm.2, (inner.2.map Prod.fst).Nodup
  mem_names : ∀ arm ∈ source.arms, ∀ inner ∈ arm.2, ∀ name constant,
    (name, constant) ∈ inner.2 ↔
      (name.toList.head? = some arm.1 ∧ (Name.hash name).toNat = inner.1) ∧
        ∃ i, (entries.map Prod.fst)[i]? = some name ∧ constant = constantName i

namespace Lists

variable {source : Source} {entries : List (String × String)}

/-- No constant is declared twice. -/
theorem constants_once (h : source.Lists entries) : (source.constants.map Prod.fst).Nodup := by
  have hnumbers : source.constants.map Prod.fst =
      (entries.zipIdx.map Prod.snd).map constantName := by
    rw [h.constants, List.map_map, List.map_map]
    rfl
  rw [hnumbers, List.zipIdx_map_snd]
  exact List.Nodup.map Listing.constantName_injective List.nodup_range'

/-- The text of a constant is that of the entry of its number. -/
theorem lookup_constants (h : source.Lists entries) {i : Nat} {text : String} :
    source.constants.lookup (constantName i) = some text ↔
      (entries.map Prod.snd)[i]? = some text := by
  rw [lookup_eq_some_iff_of_nodup h.constants_once, h.constants, List.mem_map, List.getElem?_map,
    Option.map_eq_some_iff]
  constructor
  · rintro ⟨⟨entry, j⟩, hentry, heq⟩
    obtain ⟨hname, htext⟩ := Prod.mk.inj heq
    obtain rfl := Listing.constantName_injective hname
    exact ⟨entry, List.mem_zipIdx_iff_getElem?.1 hentry, htext⟩
  · rintro ⟨entry, hentry, rfl⟩
    exact ⟨(entry, i), List.mem_zipIdx_iff_getElem?.2 hentry, rfl⟩

/-- The branches lead for the names of the entries to their constants, and for no other name. -/
theorem follow?_eq_some_iff (h : source.Lists entries) (hnamed : ∀ entry ∈ entries, entry.1 ≠ "")
    {name constant : String} :
    source.follow? name = some constant ↔
      ∃ i, (entries.map Prod.fst)[i]? = some name ∧ constant = constantName i := by
  simp only [follow?, Option.bind_eq_bind, Option.bind_eq_some_iff]
  constructor
  · rintro ⟨first, -, hashes, hfirst, names, hhash, hname⟩
    have harm := (lookup_eq_some_iff_of_nodup h.firsts_once).1 hfirst
    have hinner := (lookup_eq_some_iff_of_nodup (h.hashes_once _ harm)).1 hhash
    rw [lookup_eq_some_iff_of_nodup (h.names_once _ harm _ hinner)] at hname
    exact ((h.mem_names _ harm _ hinner name constant).1 hname).2
  · intro hlisted
    obtain ⟨i, hname, -⟩ := id hlisted
    obtain ⟨entry, hentry, rfl⟩ := List.mem_map.1 (List.mem_of_getElem? hname)
    obtain ⟨first, hfirst⟩ : ∃ first, entry.1.toList.head? = some first := by
      rw [← Option.isSome_iff_exists, List.isSome_head?]
      exact fun hnil => hnamed entry hentry (String.toList_eq_nil_iff.1 hnil)
    -- the branches of the entry are there, so the name is listed in them
    obtain ⟨arm, harm, rfl⟩ := List.mem_map.1 ((h.mem_firsts first).2 ⟨entry, hentry, hfirst⟩)
    obtain ⟨inner, hinner, hhash⟩ :=
      List.mem_map.1 ((h.mem_hashes arm harm _).2 ⟨entry, hentry, hfirst, rfl⟩)
    have hmem := (h.mem_names arm harm inner hinner entry.1 constant).2
      ⟨⟨hfirst, hhash.symm⟩, hlisted⟩
    refine ⟨arm.1, hfirst, arm.2, (lookup_eq_some_iff_of_nodup h.firsts_once).2 harm, inner.2, ?_,
      (lookup_eq_some_iff_of_nodup (h.names_once arm harm inner hinner)).2 hmem⟩
    rw [← hhash]
    exact (lookup_eq_some_iff_of_nodup (h.hashes_once arm harm)).2 hinner

theorem follow?_eq_constantName_iff (h : source.Lists entries)
    (hnamed : ∀ entry ∈ entries, entry.1 ≠ "") {name : String} {i : Nat} :
    source.follow? name = some (constantName i) ↔ (entries.map Prod.fst)[i]? = some name := by
  rw [h.follow?_eq_some_iff hnamed]
  constructor
  · rintro ⟨j, hname, hsame⟩
    rwa [Listing.constantName_injective hsame]
  · exact fun hname => ⟨i, hname, rfl⟩

/-- The branches lead nowhere for other names. -/
theorem follow?_eq_none (h : source.Lists entries) (hnamed : ∀ entry ∈ entries, entry.1 ≠ "")
    {name : String} (hname : name ∉ entries.map Prod.fst) : source.follow? name = none := by
  refine Option.eq_none_iff_forall_ne_some.2 fun constant hconstant => hname ?_
  obtain ⟨i, hi, -⟩ := (h.follow?_eq_some_iff hnamed).1 hconstant
  exact List.mem_of_getElem? hi

/-- **The function finds what a plain lookup finds.** -/
theorem metadataFor?_eq (h : source.Lists entries) (hnamed : ∀ entry ∈ entries, entry.1 ≠ "")
    (hnodup : (entries.map Prod.fst).Nodup) (name : String) :
    source.metadataFor? name = lookupName name entries := by
  refine Option.ext fun text => ?_
  simp only [metadataFor?, Option.bind_eq_bind, Option.bind_eq_some_iff,
    h.follow?_eq_some_iff hnamed, Table.lookupName_eq_some_iff hnodup]
  constructor
  · rintro ⟨_, ⟨i, hname, rfl⟩, htext⟩
    rw [h.lookup_constants] at htext
    rw [List.getElem?_map, Option.map_eq_some_iff] at hname htext
    obtain ⟨entry, hentry, rfl⟩ := hname
    obtain ⟨same, hsame, rfl⟩ := htext
    obtain rfl := Option.some.inj (hentry.symm.trans hsame)
    exact List.mem_of_getElem? hentry
  · intro hmem
    obtain ⟨i, hentry⟩ := List.mem_iff_getElem?.1 hmem
    refine ⟨constantName i, ⟨i, ?_, rfl⟩, h.lookup_constants.2 ?_⟩ <;>
      rw [List.getElem?_map, hentry, Option.map_some]

end Lists

end Source

/-! ## The source of a listing -/

namespace Listing

variable {listing : Listing}

theorem mem_numbered_iff {name : String} {i : Nat} :
    (name, i) ∈ listing.numbered ↔ listing.entries.keys[i]? = some name :=
  List.mem_zipIdx_iff_getElem?

theorem exists_mem_numbered_iff {p : String → Prop} :
    (∃ entry ∈ listing.numbered, p entry.1) ↔ ∃ entry ∈ listing.entries.entries, p entry.1 := by
  constructor
  · rintro ⟨⟨name, i⟩, hentry, hname⟩
    obtain ⟨entry, hmem, rfl⟩ :=
      List.mem_map.1 (List.mem_of_getElem? (mem_numbered_iff.1 hentry))
    exact ⟨entry, hmem, hname⟩
  · rintro ⟨entry, hentry, hname⟩
    obtain ⟨i, hi⟩ := List.mem_iff_getElem?.1 (List.mem_map_of_mem (f := Prod.fst) hentry)
    exact ⟨(entry.1, i), mem_numbered_iff.2 hi, hname⟩

theorem nodup_numbered : (listing.numbered.map Prod.fst).Nodup := by
  rw [numbered, List.zipIdx_map_fst]
  exact listing.entries.nodup

section

variable (hnamed : ∀ entry ∈ listing.entries.entries, entry.1 ≠ "")

include hnamed

theorem numbered_ne_empty : ∀ entry ∈ listing.numbered, entry.1 ≠ "" := by
  intro entry hentry hempty
  obtain ⟨named, hmem, heq⟩ := exists_mem_numbered_iff (p := (· = "")).1 ⟨entry, hentry, hempty⟩
  exact hnamed named hmem heq

/-- There is a shard for each first character of a name. -/
theorem exists_mem_arms_iff {first : Char} :
    (∃ shard ∈ listing.arms, shard.first = first) ↔
      ∃ entry ∈ listing.numbered, entry.1.toList.head? = some first := by
  constructor
  · rintro ⟨shard, hshard, rfl⟩
    obtain ⟨first, hentry, rfl⟩ := (Directory.mem_layout_iff (numbered_ne_empty hnamed)).1 hshard
    exact hentry
  · intro hentry
    exact ⟨_, (Directory.mem_layout_iff (numbered_ne_empty hnamed)).2 ⟨first, hentry, rfl⟩, rfl⟩

section

variable {shard : Shard Nat} (hshard : shard ∈ listing.arms)

include hshard

theorem nodup_buckets : (shard.buckets.toList.map fun bucket => bucket.hash.toNat).Nodup := by
  obtain ⟨first, -, rfl⟩ := (Directory.mem_layout_iff (numbered_ne_empty hnamed)).1 hshard
  exact Directory.nodup_hashes _ _

/-- The buckets of a shard are those of the hashes of its names. -/
theorem mem_buckets_iff {bucket : Bucket Nat} : bucket ∈ shard.buckets.toList ↔
    ∃ entry ∈ listing.numbered, entry.1.toList.head? = some shard.first ∧
      ⟨Name.hash entry.1, listing.numbered.filter fun other =>
        Name.hash other.1 == Name.hash entry.1 &&
          other.1.toList.head? == some shard.first⟩ = bucket := by
  obtain ⟨first, -, rfl⟩ := (Directory.mem_layout_iff (numbered_ne_empty hnamed)).1 hshard
  simp only [Directory.mem_buckets_iff, List.filter_filter, List.mem_filter, beq_iff_eq, and_assoc]
  rfl

end

/-- In the branch of a first character there is one for each hash. -/
theorem mem_hashes_iff {shard : Shard Nat} (hshard : shard ∈ listing.arms) {hash : Nat} :
    hash ∈ (readShard shard).2.map Prod.fst ↔ ∃ entry ∈ listing.entries.entries,
      entry.1.toList.head? = some shard.first ∧ (Name.hash entry.1).toNat = hash := by
  rw [map_fst_readShard, List.mem_map]
  refine Iff.trans ?_ (exists_mem_numbered_iff
    (p := fun name => name.toList.head? = some shard.first ∧ (Name.hash name).toNat = hash))
  constructor
  · rintro ⟨bucket, hbucket, rfl⟩
    obtain ⟨entry, hentry, hfirst, rfl⟩ := (mem_buckets_iff hnamed hshard).1 hbucket
    exact ⟨entry, hentry, hfirst, rfl⟩
  · rintro ⟨entry, hentry, hfirst, rfl⟩
    exact ⟨_, (mem_buckets_iff hnamed hshard).2 ⟨entry, hentry, hfirst, rfl⟩, rfl⟩

section

variable {shard : Shard Nat} (hshard : shard ∈ listing.arms) {bucket : Bucket Nat}
  (hbucket : bucket ∈ shard.buckets.toList)

include hshard hbucket

theorem nodup_names : ((readBucket bucket).2.map Prod.fst).Nodup := by
  obtain ⟨entry, -, -, rfl⟩ := (mem_buckets_iff hnamed hshard).1 hbucket
  rw [map_fst_readBucket]
  exact nodup_numbered.sublist (List.filter_sublist.map _)

/-- In the branch of a hash there is one for each name. -/
theorem mem_names_iff {name constant : String} : (name, constant) ∈ (readBucket bucket).2 ↔
    (name.toList.head? = some shard.first ∧ (Name.hash name).toNat = bucket.hash.toNat) ∧
      ∃ i, listing.entries.keys[i]? = some name ∧ constant = constantName i := by
  obtain ⟨entry, -, -, rfl⟩ := (mem_buckets_iff hnamed hshard).1 hbucket
  simp only [readBucket, List.mem_map, List.mem_filter, Bool.and_eq_true, beq_iff_eq,
    UInt32.toNat_inj, Prod.mk.injEq]
  constructor
  · rintro ⟨⟨_, i⟩, ⟨hentry, hhash, hfirst⟩, rfl, rfl⟩
    exact ⟨⟨hfirst, hhash⟩, i, mem_numbered_iff.1 hentry, rfl⟩
  · rintro ⟨⟨hfirst, hhash⟩, i, hname, rfl⟩
    exact ⟨(name, i), ⟨mem_numbered_iff.2 hname, hhash, hfirst⟩, rfl, rfl⟩

end

/-- **The source of a listing declares its entries.** -/
theorem lists_source : listing.source.Lists listing.entries.entries := by
  have hfirsts : listing.source.arms.map Prod.fst = listing.arms.map Shard.first := by
    rw [source, List.map_map]
    rfl
  constructor
  case constants => rfl
  case firsts_once =>
    rw [hfirsts]
    exact Directory.nodup_firsts (numbered_ne_empty hnamed)
  case mem_firsts =>
    intro first
    rw [hfirsts, List.mem_map, exists_mem_arms_iff hnamed]
    exact exists_mem_numbered_iff (p := fun name => name.toList.head? = some first)
  case hashes_once =>
    intro arm harm
    obtain ⟨shard, hshard, rfl⟩ := List.mem_map.1 harm
    rw [map_fst_readShard]
    exact nodup_buckets hnamed hshard
  case mem_hashes =>
    intro arm harm hash
    obtain ⟨shard, hshard, rfl⟩ := List.mem_map.1 harm
    exact mem_hashes_iff hnamed hshard
  case names_once =>
    intro arm harm inner hinner
    obtain ⟨shard, hshard, rfl⟩ := List.mem_map.1 harm
    obtain ⟨bucket, hbucket, rfl⟩ := List.mem_map.1 hinner
    exact nodup_names hnamed hshard hbucket
  case mem_names =>
    intro arm harm inner hinner name constant
    obtain ⟨shard, hshard, rfl⟩ := List.mem_map.1 harm
    obtain ⟨bucket, hbucket, rfl⟩ := List.mem_map.1 hinner
    exact mem_names_iff hnamed hshard hbucket

end

/-- What is written of named entries is read back as their source. -/
theorem exists_lists_render (hnamed : ∀ entry ∈ listing.entries.entries, entry.1 ≠ "")
    (hmodule : '\n' ∉ listing.moduleName.toList)
    (hnames : ∀ name ∈ listing.entries.keys, '\n' ∉ name.toList) :
    ∃ source, Source.ofText? listing.render = some source ∧
      source.Lists listing.entries.entries ∧
      ∀ name, source.metadataFor? name = listing.entries.find? name :=
  have hlists := lists_source hnamed
  ⟨listing.source, ofText?_render hmodule hnames, hlists,
    hlists.metadataFor?_eq hnamed listing.entries.nodup⟩

/-! ## Offers -/

/-- The listing after an offer, which may be refused. -/
def offer (listing : Listing) (entry : String × String) : Listing :=
  match listing.add entry.1 entry.2 with
  | .ok next => next
  | .error _ => listing

/-- What a list of offers comes to. -/
def ofOffers (moduleName : String) (offers : List (String × String)) : Listing :=
  offers.foldl offer (empty moduleName)

/-- The offers that are accepted, in order. -/
def accepted (listing : Listing) : List (String × String) → List (String × String)
  | [] => []
  | entry :: rest =>
    match listing.add entry.1 entry.2 with
    | .ok next => entry :: accepted next rest
    | .error _ => accepted listing rest

theorem add_eq_ok {next : Listing} {name blob : String} (h : listing.add name blob = .ok next) :
    next.moduleName = listing.moduleName ∧
      next.entries.entries = listing.entries.entries ++ [(name, blob)] := by
  unfold add at h
  split at h
  next => cases h
  next hnew =>
    cases h
    refine ⟨rfl, Table.entries_insert_of_new blob ?_⟩
    simpa [Table.contains] using hnew

/-- A listing holds what was accepted, behind what it held before. -/
theorem foldl_offer (offers : List (String × String)) (listing : Listing) :
    (offers.foldl offer listing).moduleName = listing.moduleName ∧
      (offers.foldl offer listing).entries.entries =
        listing.entries.entries ++ accepted listing offers := by
  induction offers generalizing listing with
  | nil => exact ⟨rfl, (List.append_nil _).symm⟩
  | cons entry rest ih =>
    obtain ⟨hmodule, hentries⟩ := ih (listing.offer entry)
    rw [List.foldl_cons, hmodule, hentries, offer, accepted]
    cases hadd : listing.add entry.1 entry.2 with
    | error e => exact ⟨rfl, rfl⟩
    | ok next =>
      obtain ⟨hsame, hnext⟩ := add_eq_ok hadd
      refine ⟨hsame, ?_⟩
      simp only [hnext, List.append_assoc, List.singleton_append]

theorem moduleName_ofOffers (moduleName : String) (offers : List (String × String)) :
    (ofOffers moduleName offers).moduleName = moduleName :=
  (foldl_offer offers (empty moduleName)).1

theorem entries_ofOffers (moduleName : String) (offers : List (String × String)) :
    (ofOffers moduleName offers).entries.entries = accepted (empty moduleName) offers :=
  (foldl_offer offers (empty moduleName)).2

theorem accepted_sublist (offers : List (String × String)) (listing : Listing) :
    (accepted listing offers).Sublist offers := by
  induction offers generalizing listing with
  | nil => exact .slnil
  | cons entry rest ih =>
    rw [accepted]
    cases listing.add entry.1 entry.2 with
    | error e => exact (ih listing).cons entry
    | ok next => exact (ih next).cons_cons entry

/-- Adding names that are new and different never fails. -/
theorem exists_foldlM_add (listing : Listing) {entries : List (String × String)}
    (h : ((listing.entries.entries ++ entries).map Prod.fst).Nodup) :
    ∃ last, entries.foldlM (fun listing entry => listing.add entry.1 entry.2) listing = .ok last ∧
      last.moduleName = listing.moduleName ∧
      last.entries.entries = listing.entries.entries ++ entries := by
  induction entries generalizing listing with
  | nil => exact ⟨listing, rfl, rfl, (List.append_nil _).symm⟩
  | cons entry rest ih =>
    have hnew : ¬ listing.entries.contains entry.1 = true := by
      rw [Table.contains, ← Option.ne_none_iff_isSome, not_not, Table.find?_eq_none_iff]
      intro hmem
      rw [List.map_append, List.map_cons, List.nodup_append] at h
      exact h.2.2 _ hmem _ List.mem_cons_self rfl
    obtain ⟨next, hadd⟩ : ∃ next, listing.add entry.1 entry.2 = .ok next := ⟨_, if_neg hnew⟩
    obtain ⟨hmodule, hentries⟩ := add_eq_ok hadd
    have hsplit : next.entries.entries ++ rest = listing.entries.entries ++ entry :: rest := by
      rw [hentries, List.append_assoc, List.singleton_append]
    obtain ⟨last, hlast, hsame, hall⟩ := ih next (hsplit ▸ h)
    refine ⟨last, ?_, hsame.trans hmodule, hall.trans hsplit⟩
    rw [List.foldlM_cons, hadd, ok_bind, hlast]

end Listing

/-! ## Builds -/

namespace Build

variable {scope : Scope} {own external : List Declaration} {settings : Settings}
  {registry : Registry} {build : Build}

theorem moduleName_of_run (h : run settings scope registry = .ok build) :
    build.moduleName = settings.moduleName := by
  simp only [run, bind_eq_ok, pure_eq_ok] at h
  obtain ⟨-, -, -, -, rfl⟩ := h
  rfl

/-- The listing of a build holds its blobs. -/
theorem exists_listing (build : Build) : ∃ listing, build.listing = .ok listing ∧
    listing.moduleName = build.moduleName ∧ listing.entries = build.blobs := by
  obtain ⟨listing, hlisting, hmodule, hentries⟩ :=
    Listing.exists_foldlM_add (.empty build.moduleName) build.blobs.nodup
  refine ⟨listing, hlisting, hmodule, ?_⟩
  rw [← Table.ofList_entries listing.entries, hentries]
  exact Table.ofList_entries build.blobs

/-- The blobs of a build are those of its directory. -/
theorem Lists.find?_blobs_eq {products : List (Product build.selection)} (h : build.Lists products)
    (name : String) :
    build.blobs.find? name = (build.directory.find? name).map Compiled.blob := by
  refine Option.ext fun blob => ?_
  rw [h.find?_blobs, Option.map_eq_some_iff]
  constructor
  · rintro ⟨product, hmem, rfl, rfl⟩
    exact ⟨product.compiled, h.find?_compiled.2 ⟨product, hmem, rfl, rfl⟩, rfl⟩
  · rintro ⟨compiled, hcompiled, rfl⟩
    obtain ⟨product, hmem, rfl, rfl⟩ := h.find?_compiled.1 hcompiled
    exact ⟨product, hmem, rfl, rfl⟩

end Build

namespace Listing

/-! ## What a text answers with -/

/-- **The text of a listing answers with what was accepted**, if neither the name of the module
    nor an accepted name runs over several lines.  It declares one constant for each accepted name
    and has one branch for each of their first characters, their hashes and themselves; for the
    name of a number the branches lead to the constant of that number, and for other names to
    none.  So the text of a build answers with the blobs of its directory.  The text is read as it
    stands: names with a carriage return are not excluded, although a compiler refuses one that
    stands by itself in a comment. -/
theorem ofText?_written {moduleName : String} (hmodule : '\n' ∉ moduleName.toList) :
    (∀ offers : List (String × String), (∀ entry ∈ offers, entry.1 ≠ "") →
      let taken := accepted (.empty moduleName) offers
      (∀ entry ∈ taken, '\n' ∉ entry.1.toList) →
      ∃ source, Source.ofText? (ofOffers moduleName offers).render = some source ∧
        source.Lists taken ∧ (source.constants.map Prod.fst).Nodup ∧
        (∀ name i, source.follow? name = some (constantName i) ↔
          (taken.map Prod.fst)[i]? = some name) ∧
        (∀ name, name ∉ taken.map Prod.fst → source.follow? name = none) ∧
        ∀ name, source.metadataFor? name = lookupName name taken) ∧
    ∀ (scope : Scope) (own external : List Declaration) (settings : Settings) (registry : Registry)
      (build : Build), Catalog.ofList own = .ok scope.catalog →
      Catalog.ofList external = .ok scope.external →
      Build.run settings scope registry = .ok build → settings.moduleName = moduleName →
      (∀ name ∈ build.blobs.keys, '\n' ∉ name.toList) →
      ∃ listing source, build.listing = .ok listing ∧
        Source.ofText? listing.render = some source ∧
        ∀ name, source.metadataFor? name = (build.directory.find? name).map Compiled.blob := by
  constructor
  · intro offers hnamed taken hlines
    have hentries : (ofOffers moduleName offers).entries.entries = taken :=
      entries_ofOffers moduleName offers
    have htaken : ∀ entry ∈ taken, entry.1 ≠ "" := fun entry hentry =>
      hnamed entry ((accepted_sublist offers _).subset hentry)
    have hkeys : ∀ name ∈ (ofOffers moduleName offers).entries.keys, '\n' ∉ name.toList := by
      rw [Table.keys, hentries, List.forall_mem_map]
      exact hlines
    have hsame := moduleName_ofOffers moduleName offers
    obtain ⟨source, hread, hlists, hanswer⟩ :=
      exists_lists_render (hentries ▸ htaken) (hsame.symm ▸ hmodule) hkeys
    rw [hentries] at hlists
    refine ⟨source, hread, hlists, hlists.constants_once,
      fun name i => hlists.follow?_eq_constantName_iff htaken,
      fun name => hlists.follow?_eq_none htaken, fun name => ?_⟩
    rw [hanswer, Table.find?, hentries]
  · intro scope own external settings registry build hown hexternal hrun hsettings hnames
    obtain ⟨products, hlists⟩ := Build.exists_products ⟨hown, hexternal⟩ hrun
    obtain ⟨listing, hlisting, hsame, hentries⟩ := build.exists_listing
    have hnamed : ∀ entry ∈ listing.entries.entries, entry.1 ≠ "" := by
      rw [hentries, hlists.blobs, List.forall_mem_map]
      exact fun product _ => Build.Lists.name_ne_empty product
    have hname : listing.moduleName = moduleName :=
      hsame.trans ((Build.moduleName_of_run hrun).trans hsettings)
    obtain ⟨source, hread, -, hanswer⟩ :=
      exists_lists_render hnamed (hname ▸ hmodule) (hentries ▸ hnames)
    refine ⟨listing, source, hlisting, hread, fun name => ?_⟩
    rw [hanswer, hentries, hlists.find?_blobs_eq]

/-- Two names of one hash are told apart and a refused offer is not written; of a build that was
    asked for two classes the text knows the compiled one. -/
theorem ofText?_written_collision :
    let offers := [("é.cuzx", "AA=="), ("a.A", "QQ=="), ("é.12ad", "Qg=="), ("a.A", "Qw==")]
    Name.hash "é.cuzx" = Name.hash "é.12ad" ∧
      (∃ source, Source.ofText? (ofOffers "generated" offers).render = some source ∧
        source.follow? "é.12ad" = some "TYPE_2" ∧ source.metadataFor? "é.12ad" = some "Qg==" ∧
        source.metadataFor? "é.cuzx" = some "AA==" ∧ source.metadataFor? "a.A" = some "QQ==" ∧
        source.follow? "b.B" = none) ∧
      ∃ build listing source, Build.run {} Build.pinned .empty = .ok build ∧
        build.listing = .ok listing ∧ Source.ofText? listing.render = some source ∧
        (source.metadataFor? "a.Pin").isSome = true ∧ source.metadataFor? "lib.Gone" = none := by
  intro offers
  have hgenerated : '\n' ∉ "generated".toList := by decide
  have hportrait : '\n' ∉ "portrait_generated".toList := by decide
  refine ⟨by decide +kernel, ?_, ?_⟩
  · have htaken : accepted (.empty "generated") offers =
        [("é.cuzx", "AA=="), ("a.A", "QQ=="), ("é.12ad", "Qg==")] := by decide +kernel
    obtain ⟨source, hread, -, -, hfollow, hother, hanswer⟩ :=
      (ofText?_written hgenerated).1 offers (by decide) (by rw [htaken]; decide)
    rw [htaken] at hfollow hother hanswer
    have hconstant : constantName 2 = "TYPE_2" := by decide +kernel
    refine ⟨source, hread, hconstant ▸ (hfollow _ 2).2 rfl, ?_, ?_, ?_, hother _ (by decide)⟩
    · exact (hanswer _).trans rfl
    · exact (hanswer _).trans rfl
    · exact (hanswer _).trans rfl
  · obtain ⟨build, hrun, hkeys, -⟩ := Build.exists_run_pinned
    have hown : Catalog.ofList [Build.board, Build.pin] = .ok Build.pinned.catalog := rfl
    have hexternal : Catalog.ofList [] = .ok Build.pinned.external := rfl
    obtain ⟨products, hlists⟩ := Build.exists_products ⟨hown, hexternal⟩ hrun
    have hblobs : build.blobs.keys = ["a.Pin"] := by
      rw [hlists.keys_blobs, ← hlists.keys_shapes, hkeys]
    obtain ⟨listing, source, hlisting, hread, hanswer⟩ :=
      (ofText?_written hportrait).2 _ _ _ _ _ build hown hexternal hrun rfl
        (by rw [hblobs]; decide)
    refine ⟨build, listing, source, hrun, hlisting, hread, ?_, ?_⟩ <;>
      rw [hanswer, ← hlists.find?_blobs_eq]
    · rw [← Option.ne_none_iff_isSome, Ne, Table.find?_eq_none_iff, hblobs]
      decide
    · rw [Table.find?_eq_none_iff, hblobs]
      decide

/-- A name that runs over three lines, the second of which declares a constant. -/
def spilling : String := "a.A`\npub const TYPE_0: &str = \"QQ==\";\n// `"

/-- The one name is accepted, and the text declares its constant twice, first with the text that
    stands in the name. -/
theorem ofText?_spilling :
    accepted (.empty "generated") [(spilling, "AA==")] = [(spilling, "AA==")] ∧
      ∃ source, Source.ofText? (ofOffers "generated" [(spilling, "AA==")]).render = some source ∧
        source.constants = [("TYPE_0", "QQ=="), ("TYPE_0", "AA==")] ∧
        ¬ (source.constants.map Prod.fst).Nodup := by
  have hspilled : spilled spilling =
      ([(("", "QQ=="), 0)] : List ((String × String) × Nat)).map
        fun entry => (constantText entry).toList := by decide +kernel
  have hconstants : ([(("", "QQ=="), 0), ((spilling, "AA=="), 0)] :
      List ((String × String) × Nat)).map (fun entry => (constantName entry.2, entry.1.2)) =
        [("TYPE_0", "QQ=="), ("TYPE_0", "AA==")] := by decide +kernel
  refine ⟨rfl, _, ofText?_render_of_spilled (by decide) (fun _ => [(("", "QQ=="), 0)]) ?_,
    hconstants, ?_⟩
  · exact List.forall_mem_singleton.2 hspilled
  · decide +kernel

end Listing

end TypeAtlas
