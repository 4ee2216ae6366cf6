/-
  Directories of names.

  A directory finds what belongs to a name in three steps: the shard of the
  name's first character, the bucket of its hash, and the name itself in the
  bucket's chain.  Shards are sorted by character and buckets by hash, so that
  both are found by a search; of two with one key the later one counts.

  * `Directory.layout` groups entries: one shard for each first character, one
    bucket for each hash in it; an empty name has no place;
  * `Directory.ofShards` and `Shard.ofBuckets` sort what they are given and keep
    the order of what has one key;
  * `Directory.find?` is the lookup, `Directory.entries` the view of a directory
    as a list.
-/
import TypeAtlas.Directory.Search
import TypeAtlas.Name.Hash

namespace TypeAtlas

universe u

/-- Entries whose names have one hash. -/
structure Bucket (α : Type u) where
  hash : UInt32
  chain : List (String × α)

/-- Buckets whose names have one first character. -/
structure Shard (α : Type u) where
  first : Char
  buckets : Array (Bucket α)

/-- Shards, and the priority of what they hold. -/
structure Directory (α : Type u) where
  shards : Array (Shard α)
  priority : Int

variable {α : Type u}

/-! ## Sorting and grouping -/

/-- Items sorted by a numeric key; those with one key keep their order. -/
def sortBy {β : Type u} (key : β → Nat) (items : List β) : List β :=
  items.mergeSort fun a b => key a ≤ key b

/-- Items in groups of one key, from the least key up; in a group they keep
    their order. -/
def groupBy {β : Type u} (key : β → Nat) (items : List β) : List (Nat × List β) :=
  let keyed := items.map fun item => (key item, item)
  let keys := sortBy id (keyed.map Prod.fst).eraseDups
  keys.map fun k => (k, (keyed.filter fun entry => entry.1 == k).map Prod.snd)

/-! ## Buckets and shards -/

/-- The entry of a name in a chain. -/
def Bucket.find? (bucket : Bucket α) (name : String) : Option α :=
  (bucket.chain.find? fun entry => entry.1 == name).map Prod.snd

namespace Shard

/-- The shard of a list of buckets. -/
def ofBuckets (first : Char) (buckets : List (Bucket α)) : Shard α :=
  ⟨first, (sortBy (fun bucket => bucket.hash.toNat) buckets).toArray⟩

def find? (shard : Shard α) (name : String) : Option α :=
  (Directory.search? (fun bucket => bucket.hash.toNat) shard.buckets
    (Name.hash name).toNat).bind fun bucket => bucket.find? name

def entries (shard : Shard α) : List (String × α) :=
  shard.buckets.toList.flatMap Bucket.chain

end Shard

/-! ## Directories -/

namespace Directory

/-- The directory of a list of shards. -/
def ofShards (shards : List (Shard α)) (priority : Int) : Directory α :=
  ⟨(sortBy (fun shard => shard.first.toNat) shards).toArray, priority⟩

/-- What belongs to a name; nothing belongs to the empty name. -/
def find? (directory : Directory α) (name : String) : Option α :=
  match name.toList with
  | [] => none
  | first :: _ =>
    (search? (fun shard => shard.first.toNat) directory.shards first.toNat).bind
      fun shard => shard.find? name

def entries (directory : Directory α) : List (String × α) :=
  directory.shards.toList.flatMap Shard.entries

def names (directory : Directory α) : List String := directory.entries.map Prod.fst

def size (directory : Directory α) : Nat := directory.entries.length

def summary (directory : Directory α) : String :=
  s!"CompiledProvider \x7b priority: {directory.priority}, shards: {directory.shards.size}" ++
    s!", types: {directory.size} \x7d"

/-! ## Laying out entries -/

/-- The first character of a name as a number. -/
def firstCode (entry : String × α) : Nat := (entry.1.toList.head?.map Char.toNat).getD 0

/-- The buckets of entries with one first character. -/
def bucketsOf (entries : List (String × α)) : List (Bucket α) :=
  (groupBy (fun entry => (Name.hash entry.1).toNat) entries).map fun group =>
    ⟨UInt32.ofNat group.1, group.2⟩

/-- The shards of a list of entries. -/
def layout (entries : List (String × α)) : List (Shard α) :=
  (groupBy firstCode (entries.filter fun entry => entry.1 != "")).map fun group =>
    .ofBuckets (Char.ofNat group.1) (bucketsOf group.2)

/-- The directory of a list of entries. -/
def ofEntries (entries : List (String × α)) (priority : Int) : Directory α :=
  ofShards (layout entries) priority

end Directory

end TypeAtlas
