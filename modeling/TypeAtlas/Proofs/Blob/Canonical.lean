/-
  The canonical blob of a shape.

  A blob may count in wide numbers, hold texts that nothing refers to, hold a text
  twice and give a property twice.  The blob that is written of the shape that was
  read does none of this.

  * `Pool.nodup`: a pool that is written holds no text twice, so it has no more
    texts than references can lead to;
  * `rewrites_pool`: it takes no more bytes than the pool that was read, and its
    references are not wider;
  * `Shape.canonical_of_ofBytes`: the shape of a blob can be written, is read again
    from what is written, and there is no shorter blob of it.
-/
import TypeAtlas.Proofs.Blob.PrefixFree
import TypeAtlas.Proofs.Blob.Rewriting

namespace TypeAtlas

open TypeAtlas.Wire

namespace Blob

variable {cursor next : Cursor}

/-! ## The texts of a pool -/

namespace Pool

/-- Different indices stand for different texts. -/
theorem nodup (pool : Pool) : pool.texts.toList.Nodup := by
  rw [List.nodup_iff_getElem?_ne_getElem?]
  intro i j hij hj heq
  obtain ⟨s, hs⟩ : ∃ s, pool.texts.toList[j]? = some s := ⟨_, List.getElem?_eq_getElem hj⟩
  rw [hs] at heq
  rw [Array.getElem?_toList] at hs heq
  have hfirst := (pool.indices_iff s i).2 heq
  have hsecond := (pool.indices_iff s j).2 hs
  rw [hfirst, Option.some.injEq] at hsecond
  omega

theorem mem_ofTexts {texts : List String} {s : String} : s ∈ (ofTexts texts).texts ↔ s ∈ texts := by
  rw [ofTexts, mem_texts_foldl]
  simp [empty]

end Pool

theorem capacity_pos (k : Nat) : 0 < capacity k := by
  induction k with
  | zero => exact Nat.one_pos
  | succ k ih => exact Nat.mul_pos (by decide) ih

/-- Each text of a pool takes the bytes of its length and its own. -/
theorem remaining_of_texts {length : Width} {n : Nat} {done texts : List String}
    (h : times (PoolTable.readText length) n done cursor = .ok texts next) :
    ∃ found, done.reverse ++ found = texts ∧ found.length = n ∧
      (found.map fun s => length.size + s.utf8ByteSize).sum + next.remaining = cursor.remaining ∧
      ∀ s ∈ found, s.utf8ByteSize < capacity length.size := by
  induction n generalizing done cursor with
  | zero =>
    obtain ⟨rfl, rfl⟩ := pure_run_eq_ok.1 h
    exact ⟨[], by simp, rfl, by simp, by simp⟩
  | succ n ih =>
    obtain ⟨s, middle, hs, hrest⟩ := bind_run_eq_ok.1 h
    obtain ⟨k, start, hk, htext⟩ := bind_run_eq_ok.1 (adaptExcept_run_eq_ok.1 hs)
    obtain ⟨hlength, hlt⟩ := remaining_of_number hk
    obtain ⟨htext, rfl⟩ := remaining_of_text htext
    obtain ⟨found, rfl, rfl, hsum, hall⟩ := ih hrest
    refine ⟨s :: found, by simp, rfl, ?_, List.forall_mem_cons.2 ⟨hlt, hall⟩⟩
    simp only [List.map_cons, List.sum_cons]
    omega

/-! ## The pool -/

/-- What a pool takes that is read, and how many texts it can hold. -/
theorem remaining_of_pool {guarded : Bool} {table : PoolTable}
    (h : PoolTable.read guarded cursor = .ok table next) :
    ∃ count length : Width, table.texts.size < capacity count.size ∧
      (∀ s ∈ table.texts, s.utf8ByteSize < capacity length.size) ∧
      1 + count.size + (table.texts.toList.map fun s => length.size + s.utf8ByteSize).sum +
        next.remaining = cursor.remaining := by
  obtain ⟨header, middle, hheader, h⟩ := bind_run_eq_ok.1 h
  obtain ⟨-, h⟩ := check_run_eq_ok.1 h
  obtain ⟨n, middle', hn, h⟩ := bind_run_eq_ok.1 h
  have hbyte := remaining_of_byte (adaptExcept_run_eq_ok.1 hheader)
  obtain ⟨hcount, hlt⟩ := remaining_of_number (adaptExcept_run_eq_ok.1 hn)
  have hbody := room_run (k := fun _ => times (PoolTable.readText _) n [] >>= fun texts =>
    pure (PoolTable.mk texts.toArray (.ofSelector (header.toNat / 4))))
    (fun remaining => BlobError.misformed (.poolCount n remaining)) h
  obtain ⟨texts, last, htexts, hpure⟩ := bind_run_eq_ok.1 hbody
  obtain ⟨rfl, rfl⟩ := pure_run_eq_ok.1 hpure
  obtain ⟨found, rfl, rfl, hsum, hall⟩ := remaining_of_texts htexts
  refine ⟨_, _, hlt, fun s hs => hall s (by simpa using hs), ?_⟩
  simp only [List.reverse_nil, List.nil_append]
  omega

/-- **A pool of texts that references can lead to** takes no more bytes than the pool that was
    read, and its references are not wider. -/
theorem rewrites_pool {guarded : Bool} {table : PoolTable}
    (h : PoolTable.read guarded cursor = .ok table next) {pool : Pool}
    (hoffered : ∀ s ∈ pool.texts, Source.Offers ⟨table, guarded⟩ s) :
    ∃ bytes, pool.write = .ok bytes ∧ bytes.length + next.remaining ≤ cursor.remaining ∧
      pool.indexWidth.size ≤ table.indexWidth.size := by
  obtain ⟨count, length, hcount, hlengths, hremaining⟩ := remaining_of_pool h
  have hsubperm : pool.texts.toList.Subperm table.texts.toList :=
    List.subperm_of_subset pool.nodup fun s hs => by
      obtain ⟨i, -, hi⟩ := hoffered s (Array.mem_toList_iff.1 hs)
      exact Array.mem_toList_iff.2 (Array.mem_of_getElem? hi)
  -- of the texts that were read only those at small indices can be referred to
  have hreferred : pool.size ≤ capacity table.indexWidth.size := by
    have hsubset : pool.texts.toList ⊆ table.texts.toList.take (capacity table.indexWidth.size) :=
      fun s hs => by
        obtain ⟨i, hlt, hi⟩ := hoffered s (Array.mem_toList_iff.1 hs)
        refine List.mem_of_getElem? (i := i) ?_
        rw [List.getElem?_take_of_lt hlt, Array.getElem?_toList, hi]
    have hle := (List.subperm_of_subset pool.nodup hsubset).length_le
    rw [List.length_take] at hle
    exact Nat.le_trans hle (Nat.min_le_left _ _)
  have hsize : pool.size < capacity count.size := by
    have hle := hsubperm.length_le
    simp only [Array.length_toList] at hle
    exact Nat.lt_of_le_of_lt hle hcount
  have hlongest : pool.longest < capacity length.size := by
    refine Pool.longest_lt (capacity_pos _) fun s hs => hlengths s ?_
    exact Array.mem_toList_iff.1 (hsubperm.subset (Array.mem_toList_iff.2 hs))
  obtain ⟨bytes, hbytes⟩ := exists_write
    (Nat.lt_of_lt_of_le hsize (Source.capacity_size_le _))
    (Nat.lt_of_lt_of_le hlongest (Source.capacity_size_le _))
  refine ⟨bytes, hbytes, ?_, ?_⟩
  · obtain ⟨-, -, rfl⟩ := write_eq_ok hbytes
    have hcountSize := Source.size_fit_le hsize
    have hlengthSize := Source.size_fit_le hlongest
    have hsum := calc
      (pool.texts.toList.map fun s => (Width.fit pool.longest).size + s.utf8ByteSize).sum
      _ ≤ (pool.texts.toList.map fun s => length.size + s.utf8ByteSize).sum :=
        List.sum_le_sum fun s _ => Nat.add_le_add_right hlengthSize _
      _ ≤ (table.texts.toList.map fun s => length.size + s.utf8ByteSize).sum :=
        Source.sum_map_le_of_subperm _ hsubperm
    simp only [List.length_cons, List.length_append, List.length_flatMap, length_putNumber,
      length_textBytes]
    omega
  · have hpos := capacity_pos table.indexWidth.size
    exact Source.size_fit_le (by omega)

/-! ## The blob -/

theorem toBytes_of {shape : Shape} {texts body : List UInt8} (hcheck : shape.check = .ok ())
    (htexts : (Pool.ofTexts shape.texts).write = .ok texts)
    (hbody : putShape (Pool.ofTexts shape.texts) shape = .ok body) :
    shape.toBytes = .ok (mark ++ UInt8.ofNat version :: (texts ++ body)) := by
  unfold Shape.toBytes
  rw [hcheck]
  simp only [htexts, hbody]
  rfl

/-- The shape of a blob can be written, in no more bytes than it was read from. -/
theorem exists_toBytes_of_ofBytes {bytes : List UInt8} {shape : Shape}
    (h : Shape.ofBytes bytes = .ok shape) :
    ∃ canonical, shape.toBytes = .ok canonical ∧ canonical.length ≤ bytes.length := by
  obtain ⟨next, hfront, -⟩ := exists_front h
  obtain ⟨found, start, hfound, hfront⟩ := bind_run_eq_ok.1 hfront
  obtain ⟨-, hfront⟩ := check_run_eq_ok.1 hfront
  obtain ⟨found, start', hversion, hfront⟩ := bind_run_eq_ok.1 hfront
  obtain ⟨-, hfront⟩ := check_run_eq_ok.1 hfront
  obtain ⟨table, middle, htable, hshape⟩ := bind_run_eq_ok.1 hfront
  obtain ⟨hmark, -⟩ := remaining_of_take (adaptExcept_run_eq_ok.1 hfound)
  have hbyte := remaining_of_byte (adaptExcept_run_eq_ok.1 hversion)
  obtain ⟨⟨cost, hcost, hwithin⟩, hcheck⟩ := Source.rewrites_shape hshape
  have hmem : ∀ s, s ∈ (Pool.ofTexts shape.texts).texts ↔ s ∈ shape.texts := fun _ =>
    Pool.mem_ofTexts
  obtain ⟨texts, htexts, hpool, hwidth⟩ := rewrites_pool htable fun s hs =>
    hwithin.offered s ((hmem s).1 hs)
  obtain ⟨body, hbody, hlength⟩ := hwithin.written _ hwidth fun s hs => (hmem s).2 hs
  refine ⟨_, toBytes_of hcheck htexts hbody, ?_⟩
  have hstart : (Cursor.start bytes).remaining = bytes.length := rfl
  simp only [List.length_append, List.length_cons]
  omega

/-- An interface with one annotation, whose only property is an empty list. -/
def bare : Shape where
  simpleName := "I"
  name := "I"
  kind := .interface
  modifiers := { isAbstract := true }
  superclass := none
  interfaces := []
  annotations := [⟨"I", "I", none, .ofList [("v", .list [])]⟩]
  constructors := []
  methods := []
  fields := []
  proxyMethods := none

/-- A blob of `bare` with wide numbers, a text that stands in the pool twice, one that nothing
    refers to, and the property given twice. -/
def lavishBytes : List UInt8 :=
  [80, 77, 65, 68, 4, 21, 4, 0, 1, 0, 73, 1, 0, 118, 1, 0, 73, 1, 0, 120, 0, 0, 2, 0, 5, 85, 0, 0,
    1, 1, 0, 0, 0, 0, 0, 0, 1, 2, 0, 1, 0, 0, 1, 0, 8, 0, 0, 0, 0, 0, 0, 0, 0, 0]

end Blob

/-- **The written form of a shape is canonical and no blob of it is shorter.**  Whatever blob a
    shape was read from, it can be written, what is written is read as the same shape, and it
    is no longer than that blob. -/
theorem Shape.canonical_of_ofBytes {bytes : List UInt8} {shape : Shape}
    (h : Shape.ofBytes bytes = .ok shape) :
    ∃ canonical, shape.toBytes = .ok canonical ∧ Shape.ofBytes canonical = .ok shape ∧
      canonical.length ≤ bytes.length := by
  obtain ⟨canonical, hbytes, hlength⟩ := Blob.exists_toBytes_of_ofBytes h
  exact ⟨canonical, hbytes, Blob.readBlob_of_toBytes hbytes true, hlength⟩

theorem Shape.canonical_of_ofBytes_lavish :
    Shape.ofBytes Blob.lavishBytes = .ok Blob.bare ∧
      ∃ canonical, Blob.bare.toBytes = .ok canonical ∧ Shape.ofBytes canonical = .ok Blob.bare ∧
        canonical.length ≤ Blob.lavishBytes.length := by
  have hread : Shape.ofBytes Blob.lavishBytes = .ok Blob.bare := by decide +kernel
  exact ⟨hread, Shape.canonical_of_ofBytes hread⟩

end TypeAtlas
