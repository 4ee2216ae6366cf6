/-
  Pools, written and read back.

  * `reads_pool`: the written form of a pool is read as a table of the same texts
    with the same width of references;
  * `reads_ref`: a reference is read as the text that it stands for.

  The count of a pool never exceeds the bytes behind it, so it makes no
  difference whether the read is guarded.
-/
import TypeAtlas.Blob.Reader
import TypeAtlas.Proofs.Except
import TypeAtlas.Proofs.Wire.Reads

namespace TypeAtlas.Blob

open TypeAtlas.Wire

variable {α β : Type}

theorem reads_scan {scan : Scan α} {bytes : List UInt8} {a : α} (h : Reads scan bytes a) :
    Reads (ofScan scan) bytes a := h.adapt _

/-- Reading item by item what was written item by item. -/
theorem reads_times {read : Read α} {chunks : List (List UInt8)} {items : List α}
    (h : List.Forall₂ (Reads read) chunks items) (done : List α) :
    Reads (times read items.length done) chunks.flatten (done.reverse ++ items) := by
  induction h generalizing done with
  | nil => simpa [times] using Reads.pure done.reverse
  | @cons chunk item chunks items hitem _ ih =>
    have hrest := ih (item :: done)
    rw [List.reverse_cons, List.append_assoc] at hrest
    exact hitem.bind hrest

theorem length_mul_le_flatten (k : Nat) (chunks : List (List UInt8))
    (h : ∀ chunk ∈ chunks, k ≤ chunk.length) :
    chunks.length * k ≤ chunks.flatten.length := by
  induction chunks with
  | nil => simp
  | cons chunk rest ih =>
    have hchunk := h chunk List.mem_cons_self
    have hrest := ih fun other ho => h other (List.mem_cons_of_mem _ ho)
    simp only [List.length_cons, List.flatten_cons, List.length_append, Nat.succ_mul]
    omega

/-! ## The texts of a pool -/

namespace Pool

theorem index?_lt {pool : Pool} {s : String} {i : Nat} (h : pool.index? s = some i) :
    i < pool.size := by
  obtain ⟨hi, -⟩ := Array.getElem?_eq_some_iff.1 (index?_eq_some_iff.1 h)
  exact hi

theorem mem_texts_intern {pool : Pool} {s t : String} :
    t ∈ (pool.intern s).2.texts ↔ t ∈ pool.texts ∨ t = s := by
  cases h : pool.index? s with
  | some i =>
    rw [texts_intern_of_some h]
    have hs : s ∈ pool.texts := Array.mem_of_getElem? (index?_eq_some_iff.1 h)
    constructor
    · exact Or.inl
    · rintro (ht | rfl)
      exacts [ht, hs]
  | none => rw [(texts_intern_of_none h).2, Array.mem_push]

theorem mem_texts_foldl {texts : List String} {pool : Pool} {t : String} :
    t ∈ (texts.foldl (fun pool s => (pool.intern s).2) pool).texts ↔
      t ∈ pool.texts ∨ t ∈ texts := by
  induction texts generalizing pool with
  | nil => simp
  | cons s rest ih => rw [List.foldl_cons, ih, mem_texts_intern, List.mem_cons, or_assoc]

theorem index?_of_mem {pool : Pool} {s : String} (h : s ∈ pool.texts) :
    ∃ i, pool.index? s = some i := by
  obtain ⟨i, hi⟩ := Array.getElem?_of_mem h
  exact ⟨i, index?_eq_some_iff.2 hi⟩

/-- The texts of a pool with one text more: it is added at the end, unless it is there. -/
theorem toList_texts_intern (pool : Pool) (s : String) :
    (pool.intern s).2.texts.toList =
      if s ∈ pool.texts.toList then pool.texts.toList else pool.texts.toList ++ [s] := by
  cases h : pool.index? s with
  | some i =>
    have hs : s ∈ pool.texts := Array.mem_of_getElem? (index?_eq_some_iff.1 h)
    rw [texts_intern_of_some h, if_pos (Array.mem_toList_iff.2 hs)]
  | none =>
    have hs : s ∉ pool.texts.toList := by
      intro hs
      obtain ⟨i, hi⟩ := index?_of_mem (Array.mem_toList_iff.1 hs)
      rw [h] at hi
      cases hi
    rw [(texts_intern_of_none h).2, if_neg hs, Array.toList_push]

/-- Texts stand in the order in which they are first interned. -/
theorem toList_texts_foldl (texts : List String) (pool : Pool) :
    (texts.foldl (fun pool s => (pool.intern s).2) pool).texts.toList =
      texts.foldl (fun seen s => if s ∈ seen then seen else seen ++ [s]) pool.texts.toList := by
  induction texts generalizing pool with
  | nil => rfl
  | cons s rest ih => rw [List.foldl_cons, List.foldl_cons, ih, toList_texts_intern]

theorem le_longest {pool : Pool} {s : String} (h : s ∈ pool.texts) :
    s.utf8ByteSize ≤ pool.longest := by
  have general : ∀ (xs : List String) (n : Nat), n ≤ xs.foldl (fun n s => max n s.utf8ByteSize) n ∧
      ∀ s ∈ xs, s.utf8ByteSize ≤ xs.foldl (fun n s => max n s.utf8ByteSize) n := by
    intro xs
    induction xs with
    | nil => simp
    | cons x rest ih =>
      intro n
      obtain ⟨hn, hs⟩ := ih (max n x.utf8ByteSize)
      refine ⟨Nat.le_trans (Nat.le_max_left _ _) hn, fun s hmem => ?_⟩
      rcases List.mem_cons.1 hmem with rfl | hmem
      · exact Nat.le_trans (Nat.le_max_right _ _) hn
      · exact hs s hmem
  rw [longest, ← Array.foldl_toList]
  exact (general pool.texts.toList 0).2 s (Array.mem_toList_iff.2 h)

theorem longest_lt {pool : Pool} {n : Nat} (hn : 0 < n)
    (h : ∀ s ∈ pool.texts, s.utf8ByteSize < n) : pool.longest < n := by
  have general : ∀ (xs : List String) (k : Nat), k < n → (∀ s ∈ xs, s.utf8ByteSize < n) →
      xs.foldl (fun k s => max k s.utf8ByteSize) k < n := by
    intro xs
    induction xs with
    | nil => exact fun k hk _ => hk
    | cons x rest ih =>
      intro k hk hxs
      obtain ⟨hx, hrest⟩ := List.forall_mem_cons.1 hxs
      exact ih _ (Nat.max_lt.2 ⟨hk, hx⟩) hrest
  rw [longest, ← Array.foldl_toList]
  exact general _ 0 hn fun s hs => h s (Array.mem_toList_iff.1 hs)

end Pool

/-! ## Widths in one byte -/

theorem ofSelector_of_mod {n : Nat} {width : Width} (h : n % 4 = width.selector) :
    Width.ofSelector n = width := by
  unfold Width.ofSelector
  rw [h]
  cases width <;> rfl

theorem toNat_header (count index length : Width) :
    (Pool.header count index length).toNat =
      count.selector + 4 * index.selector + 16 * length.selector := by
  have hc := count.selector_lt
  have hi := index.selector_lt
  have hl := length.selector_lt
  rw [Pool.header, UInt8.toNat_ofNat']
  omega

/-- The three widths are read off the header, which leaves two bits unused. -/
theorem widths_header (count index length : Width) :
    let header := (Pool.header count index length).toNat
    header < 64 ∧ Width.ofSelector header = count ∧ Width.ofSelector (header / 4) = index ∧
      Width.ofSelector (header / 16) = length := by
  have hc := count.selector_lt
  have hi := index.selector_lt
  have hl := length.selector_lt
  rw [toNat_header]
  exact ⟨by omega, ofSelector_of_mod (by omega), ofSelector_of_mod (by omega),
    ofSelector_of_mod (by omega)⟩

/-! ## Reading back -/

theorem reads_readText {length : Width} {s : String} (h : s.utf8ByteSize < capacity length.size) :
    Reads (PoolTable.readText length) (putNumber length s.utf8ByteSize ++ textBytes s) s :=
  reads_scan ((Reads.number h).bind (Reads.text s))

/-- The texts of a pool, each behind its length. -/
theorem reads_texts {pool : Pool} (h : pool.longest < countLimit) :
    List.Forall₂ (Reads (PoolTable.readText (.fit pool.longest)))
      (pool.texts.toList.map fun s =>
        putNumber (.fit pool.longest) s.utf8ByteSize ++ textBytes s) pool.texts.toList := by
  rw [List.forall₂_map_left_iff, List.forall₂_same]
  intro s hs
  exact reads_readText (Width.lt_of_fit h (Pool.le_longest (Array.mem_toList_iff.1 hs)))

theorem write_eq_ok {pool : Pool} {bytes : List UInt8} (h : pool.write = .ok bytes) :
    pool.size < countLimit ∧ pool.longest < countLimit ∧
      bytes = Pool.header (.fit pool.size) pool.indexWidth (.fit pool.longest) ::
        (putNumber (.fit pool.size) pool.size ++ pool.texts.toList.flatMap fun s =>
          putNumber (.fit pool.longest) s.utf8ByteSize ++ textBytes s) := by
  unfold Pool.write at h
  split at h
  · simp at h
  · next hsize =>
    split at h
    · simp at h
    · next hlong =>
      simp only [Except.ok.injEq] at h
      exact ⟨Nat.lt_of_not_le hsize, Nat.lt_of_not_le hlong, h.symm⟩

theorem exists_write {pool : Pool} (hsize : pool.size < countLimit)
    (hlong : pool.longest < countLimit) : ∃ bytes, pool.write = .ok bytes := by
  unfold Pool.write
  rw [if_neg (by omega), if_neg (by omega)]
  exact ⟨_, rfl⟩

/-- **The written form of a pool is read as its texts.** -/
theorem reads_pool {pool : Pool} {bytes : List UInt8} (h : pool.write = .ok bytes)
    (guarded : Bool) :
    Reads (PoolTable.read guarded) bytes ⟨pool.texts, pool.indexWidth⟩ := by
  obtain ⟨hsize, hlong, rfl⟩ := write_eq_ok h
  obtain ⟨hheader, hcount, hindex, hlength⟩ :=
    widths_header (.fit pool.size) pool.indexWidth (.fit pool.longest)
  have htexts := reads_texts hlong
  unfold PoolTable.read
  refine (reads_scan (Reads.byte _)).bind (Reads.passing (by omega) ?_)
  simp only [hcount, hindex, hlength]
  refine (reads_scan (Reads.number (Width.lt_of_fit hsize (Nat.le_refl _)))).bind
    (Reads.remaining fun cursor hleft => Reads.passing ?_ ?_)
  · -- each text takes at least the bytes of its length
    have hleast := length_mul_le_flatten (Width.fit pool.longest).size
      (pool.texts.toList.map fun s =>
        putNumber (.fit pool.longest) s.utf8ByteSize ++ textBytes s) (by simp)
    rw [List.length_map, Array.length_toList, ← List.flatMap_def] at hleast
    simp only [Bool.and_eq_true, decide_eq_true_eq, not_and, Nat.not_lt]
    exact fun _ => Nat.le_trans hleast hleft
  · rw [List.flatMap_def, ← List.append_nil (List.flatten _)]
    exact (reads_times htexts []).bind (Reads.pure _)

/-! ## References -/

/-- A source that holds the texts of a pool. -/
structure Source.Holds (source : Source) (pool : Pool) : Prop where
  /-- Its texts are those of the pool. -/
  texts : source.pool.texts = pool.texts
  /-- Its references are as wide. -/
  indexWidth : source.pool.indexWidth = pool.indexWidth
  /-- Every reference fits. -/
  size_lt : pool.size < countLimit

theorem putRef_eq_ok {pool : Pool} {s : String} {bytes : List UInt8} :
    putRef pool s = .ok bytes ↔
      ∃ i, pool.index? s = some i ∧ putNumber pool.indexWidth i = bytes := by
  unfold putRef
  cases pool.index? s with
  | none => simp
  | some i => simp

/-- References into a pool of few texts. -/
theorem putRef_of_texts {pool : Pool} {texts : Array String} (h : pool.texts = texts)
    (hsize : texts.size ≤ 256) (i : Nat) (s : String) (hi : texts[i]? = some s) :
    putRef pool s = .ok (putNumber .one i) := by
  have hwidth : pool.indexWidth = .one := by
    rw [Pool.indexWidth, Pool.size, h]
    exact if_pos (by omega)
  refine putRef_eq_ok.2 ⟨i, ?_, by rw [hwidth]⟩
  rw [Pool.index?_eq_some_iff, h, hi]

/-- A reference is read as the text that it stands for. -/
theorem reads_ref {source : Source} {pool : Pool} (hs : source.Holds pool) {s : String}
    {bytes : List UInt8} (h : putRef pool s = .ok bytes) : Reads source.ref bytes s := by
  obtain ⟨i, hi, rfl⟩ := putRef_eq_ok.1 h
  have hlt := Pool.index?_lt hi
  have hsize := hs.size_lt
  have hlast : pool.size - 1 < capacity 4 := Nat.lt_of_le_of_lt (Nat.sub_le _ _) hsize
  have hfits : i < capacity pool.indexWidth.size := Width.lt_of_fit hlast (by omega)
  have htext : source.pool.text? i = .ok s := by
    rw [PoolTable.text?, hs.texts, Pool.index?_eq_some_iff.1 hi]
  unfold Source.ref PoolTable.readRef
  rw [hs.indexWidth]
  refine (reads_scan (Reads.number hfits)).ending ?_
  simp only [htext]
  exact Reads.pure s

end TypeAtlas.Blob
