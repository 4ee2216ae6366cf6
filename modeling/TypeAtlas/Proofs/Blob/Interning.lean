/-
  Texts interned one after another.

  While a shape is written, each of its texts is interned, most of them many times.  The
  pool must tell the same text from others whenever it is asked, and a reader must find
  the same texts at the same places.

  * `Pool.internAll`: texts interned one after another, with the indices that come back;
  * `Pool.index?_internAll_of_some`: no index changes by what is interned later;
  * `Pool.toList_texts_internAll`: the texts stand in the order in which they first come;
  * `Pool.internAll_faithful`: the indices, and the way back from the written form.
-/
import Mathlib.Algebra.Group.Nat.Defs
import TypeAtlas.Proofs.Blob.Pool

namespace TypeAtlas.Blob

open TypeAtlas.Wire

namespace Pool

variable {pool : Pool} {calls earlier later firsts : List String} {s t : String} {i : Nat}

/-- Interns texts one after another: their indices, and the pool with all of them in it. -/
def internAll (pool : Pool) : List String → List Nat × Pool
  | [] => ([], pool)
  | s :: rest =>
    let later := internAll (pool.intern s).2 rest
    ((pool.intern s).1 :: later.1, later.2)

theorem internAll_append (pool : Pool) (earlier later : List String) :
    pool.internAll (earlier ++ later) =
      ((pool.internAll earlier).1 ++ ((pool.internAll earlier).2.internAll later).1,
        ((pool.internAll earlier).2.internAll later).2) := by
  induction earlier generalizing pool with
  | nil => rfl
  | cons s rest ih => simp only [List.cons_append, internAll, ih]

theorem length_internAll (pool : Pool) (calls : List String) :
    (pool.internAll calls).1.length = calls.length := by
  induction calls generalizing pool with
  | nil => rfl
  | cons s rest ih => simp only [internAll, List.length_cons, ih]

/-! ## Indices -/

/-- The index of a text stays when another text is interned. -/
theorem index?_intern_of_some (h : pool.index? t = some i) (s : String) :
    (pool.intern s).2.index? t = some i := by
  rw [index?_eq_some_iff] at h ⊢
  cases hs : pool.index? s with
  | some j => rwa [texts_intern_of_some hs]
  | none =>
    obtain ⟨hi, -⟩ := Array.getElem?_eq_some_iff.1 h
    rwa [(texts_intern_of_none hs).2, Array.getElem?_push_lt hi, ← Array.getElem?_eq_getElem hi]

/-- **No index changes by what is interned later.** -/
theorem index?_internAll_of_some (h : pool.index? t = some i) (later : List String) :
    (pool.internAll later).2.index? t = some i := by
  induction later generalizing pool with
  | nil => exact h
  | cons s rest ih => exact ih (index?_intern_of_some h s)

/-- The answers are the indices that the texts have in the end. -/
theorem map_some_internAll (pool : Pool) (calls : List String) :
    (pool.internAll calls).1.map some = calls.map (pool.internAll calls).2.index? := by
  induction calls generalizing pool with
  | nil => rfl
  | cons s rest ih =>
    have hindex := index?_internAll_of_some (index?_intern pool s) rest
    simp only [internAll, List.map_cons, ih, hindex]

/-! ## The order of the texts -/

theorem eraseDups_concat (earlier : List String) (s : String) :
    (earlier ++ [s]).eraseDups =
      if s ∈ earlier.eraseDups then earlier.eraseDups else earlier.eraseDups ++ [s] := by
  rw [List.eraseDups_append]
  by_cases hs : s ∈ earlier
  · rw [if_pos (List.mem_eraseDups.2 hs)]
    simp [List.removeAll, hs]
  · rw [if_neg (mt List.mem_eraseDups.1 hs)]
    simp [List.removeAll, hs, List.eraseDups_cons]

theorem toList_texts_internAll_of (h : pool.texts.toList = earlier.eraseDups)
    (calls : List String) :
    (pool.internAll calls).2.texts.toList = (earlier ++ calls).eraseDups := by
  induction calls generalizing pool earlier with
  | nil => rw [List.append_nil]; exact h
  | cons s rest ih =>
    have hnext : (pool.intern s).2.texts.toList = (earlier ++ [s]).eraseDups := by
      rw [toList_texts_intern, eraseDups_concat, h]
    rw [List.append_cons]
    exact ih hnext

/-- **The texts stand in the order in which they first come.** -/
theorem toList_texts_internAll (calls : List String) :
    (empty.internAll calls).2.texts.toList = calls.eraseDups := by
  have hempty : empty.texts.toList = [].eraseDups := rfl
  exact toList_texts_internAll_of hempty calls

/-- A text is looked up at its place among the texts. -/
theorem index?_of_toList (h : pool.texts.toList = firsts) (s : String) :
    pool.index? s = if s ∈ firsts then some (firsts.idxOf s) else none := by
  subst h
  by_cases hs : s ∈ pool.texts.toList
  · rw [if_pos hs, index?_eq_some_iff, ← Array.getElem?_toList, List.getElem?_idxOf hs]
  · rw [if_neg hs]
    cases hindex : pool.index? s with
    | none => rfl
    | some i =>
      exact absurd (Array.mem_toList_iff.2 (Array.mem_of_getElem? (index?_eq_some_iff.1 hindex))) hs

theorem index?_internAll (calls : List String) (s : String) :
    (empty.internAll calls).2.index? s =
      if s ∈ calls then some (calls.eraseDups.idxOf s) else none := by
  simp only [index?_of_toList (toList_texts_internAll calls), List.mem_eraseDups]

/-- Every answer is the place of the text among the different texts. -/
theorem internAll_eq_map (calls : List String) :
    (empty.internAll calls).1 = calls.map calls.eraseDups.idxOf := by
  refine List.map_injective_iff.2 (fun _ _ => Option.some.inj) ?_
  rw [map_some_internAll, List.map_map]
  refine List.map_congr_left fun s hs => ?_
  rw [index?_internAll, if_pos hs]
  rfl

theorem lt_of_mem_internAll (h : i ∈ (empty.internAll calls).1) : i < calls.eraseDups.length := by
  rw [internAll_eq_map] at h
  obtain ⟨s, hs, rfl⟩ := List.mem_map.1 h
  exact List.idxOf_lt_length_iff.2 (List.mem_eraseDups.2 hs)

/-- Two calls are answered alike if and only if they ask for the same text. -/
theorem answers_eq_iff {j k : Nat} (hj : calls[j]? = some s) (hk : calls[k]? = some t) :
    (empty.internAll calls).1[j]? = (empty.internAll calls).1[k]? ↔ s = t := by
  have hs : s ∈ calls.eraseDups := List.mem_eraseDups.2 (List.mem_of_getElem? hj)
  rw [internAll_eq_map, List.getElem?_map, List.getElem?_map, hj, hk, Option.map_some,
    Option.map_some, Option.some.injEq, List.idxOf_inj hs]

/-! ## The written form -/

theorem exists_write_internAll (hcount : calls.eraseDups.length < 2 ^ 32)
    (hlong : ∀ s ∈ calls, s.utf8ByteSize ≤ 2 ^ 32 - 1) :
    (empty.internAll calls).2.size < countLimit ∧
      ∃ bytes, (empty.internAll calls).2.write = .ok bytes := by
  have htexts := toList_texts_internAll calls
  have hsize : (empty.internAll calls).2.size < countLimit := by
    rw [size, ← Array.length_toList, htexts]
    exact hcount
  refine ⟨hsize, exists_write hsize (longest_lt (by decide) fun s hs => ?_)⟩
  rw [← Array.mem_toList_iff, htexts, List.mem_eraseDups] at hs
  exact Nat.lt_of_le_of_lt (hlong s hs) (by decide)

/-- **A pool that is filled by interning tells the same text from others, and is read back.**  The
    indices count the different texts in the order in which they first come, and later texts change
    none of them.  Wherever the written form stands, a reader takes exactly it and has the same
    texts at the same indices, and every reference leads to its text. -/
theorem internAll_faithful (calls : List String) (hcount : calls.eraseDups.length < 2 ^ 32)
    (hlong : ∀ s ∈ calls, s.utf8ByteSize ≤ 2 ^ 32 - 1) {answers : List Nat} {pool : Pool}
    (hcalls : empty.internAll calls = (answers, pool)) :
    (∀ (j k : Nat) (s t : String), calls[j]? = some s → calls[k]? = some t →
      (answers[j]? = answers[k]? ↔ s = t)) ∧
    (answers = calls.map calls.eraseDups.idxOf ∧ ∀ i ∈ answers, i < 2 ^ 32) ∧
    (∀ earlier later, calls = earlier ++ later →
      (empty.internAll earlier).1 = answers.take earlier.length ∧
      ∀ s i, (empty.internAll earlier).2.index? s = some i → pool.index? s = some i) ∧
    (∀ s, pool.index? s = if s ∈ calls then some (calls.eraseDups.idxOf s) else none) ∧
    (∃ bytes, pool.write = .ok bytes ∧ ∀ front back,
      let buffer := Cursor.start (front ++ bytes ++ back)
      PoolTable.read true (buffer.advance front.length) =
        .ok ⟨calls.eraseDups.toArray, pool.indexWidth⟩
          (buffer.advance (front.length + bytes.length))) ∧
    ∀ s i, pool.index? s = some i →
      let table : PoolTable := ⟨calls.eraseDups.toArray, pool.indexWidth⟩
      table.text? i = .ok s ∧ ∀ front back,
        let reference := putNumber pool.indexWidth i
        let buffer := Cursor.start (front ++ reference ++ back)
        table.readRef (buffer.advance front.length) =
          .ok s (buffer.advance (front.length + reference.length)) := by
  obtain ⟨rfl, rfl⟩ := Prod.ext_iff.1 hcalls
  obtain ⟨hsize, bytes, hwrite⟩ := exists_write_internAll hcount hlong
  have htexts : calls.eraseDups.toArray = (empty.internAll calls).2.texts := by
    rw [← toList_texts_internAll calls]
  rw [htexts]
  refine ⟨fun _ _ _ _ => answers_eq_iff, ⟨internAll_eq_map calls, fun i hi => ?_⟩,
    fun earlier later hcalls => ?_, index?_internAll calls,
    ⟨bytes, hwrite, fun front back => ?_⟩, fun s i hi => ⟨?_, fun front back => ?_⟩⟩
  · exact Nat.lt_trans (lt_of_mem_internAll hi) hcount
  · subst hcalls
    have hsplit := internAll_append empty earlier later
    refine ⟨?_, fun s i hi => ?_⟩
    · show _ = (empty.internAll (earlier ++ later)).1.take earlier.length
      rw [hsplit, List.take_left' (length_internAll empty earlier)]
    · show (empty.internAll (earlier ++ later)).2.index? s = some i
      rw [hsplit]
      exact index?_internAll_of_some hi later
  · exact (reads_pool hwrite true).between front back
  · rw [PoolTable.text?, index?_eq_some_iff.1 hi]
  · have hholds : Source.Holds ⟨⟨_, indexWidth _⟩, true⟩ (empty.internAll calls).2 :=
      ⟨rfl, rfl, hsize⟩
    exact (reads_ref hholds (putRef_eq_ok.2 ⟨i, hi, rfl⟩)).between front back

/-- The empty text and one of several bytes, one of them twice. -/
theorem internAll_faithful_repeated :
    ["", "héllo", "", "x"].eraseDups.length < 2 ^ 32 ∧
      (∀ s ∈ ["", "héllo", "", "x"], s.utf8ByteSize ≤ 2 ^ 32 - 1) ∧
      ∃ pool, empty.internAll ["", "héllo", "", "x"] = ([0, 1, 0, 2], pool) ∧
        pool.index? "x" = some 2 := by
  have hcount : ["", "héllo", "", "x"].eraseDups.length < 2 ^ 32 := by decide +kernel
  have hlong : ∀ s ∈ ["", "héllo", "", "x"], s.utf8ByteSize ≤ 2 ^ 32 - 1 := by decide +kernel
  have hcalls : empty.internAll ["", "héllo", "", "x"] =
      ([0, 1, 0, 2], (empty.internAll ["", "héllo", "", "x"]).2) :=
    Prod.ext ((internAll_eq_map _).trans (by decide +kernel)) rfl
  have hindex := (internAll_faithful _ hcount hlong hcalls).2.2.2.1 "x"
  exact ⟨hcount, hlong, _, hcalls, hindex.trans (by decide +kernel)⟩

end Pool

end TypeAtlas.Blob
