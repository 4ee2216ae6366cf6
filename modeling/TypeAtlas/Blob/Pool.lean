/-
  The pool of texts of a blob.

  Every text of a shape is written once, in a pool at the start of the blob, and
  referred to by its index.  A `Pool` is filled while writing, a `PoolTable` is
  what reading makes of it.

  * `Pool.intern` yields the index of a text and adds it if it is new; the
    indices count up in the order of first interning (`index?_intern`,
    `texts_intern`);
  * `Pool.write` and `PoolTable.read` are the two directions of its format: a
    header of three widths, the count, and each text behind its length.
-/
import Std.Data.HashMap
import TypeAtlas.Blob.Error

namespace TypeAtlas.Blob

open TypeAtlas.Wire

/-- A computation that reads a blob; a failure keeps the cursor. -/
abbrev Read (α : Type) := EStateM BlobError Cursor α

/-- A plain read as part of a blob. -/
def ofScan {α : Type} (scan : Scan α) : Read α := scan.adaptExcept .scan

/-- Refuses a blob for its structure. -/
def refuse {α : Type} (mistake : Misformed) : Read α := throw (.misformed mistake)

/-- Runs `read` the given number of times; `done` holds what was read before,
    last first. -/
def times {α : Type} (read : Read α) : Nat → List α → Read (List α)
  | 0, done => pure done.reverse
  | n + 1, done => do
    let item ← read
    times read n (item :: done)

/-! ## Filling a pool -/

/-- Texts in order of first interning, with their indices. -/
structure Pool where
  texts : Array String
  indices : Std.HashMap String Nat
  indices_iff : ∀ (s : String) (i : Nat), indices[s]? = some i ↔ texts[i]? = some s

namespace Pool

def empty : Pool := ⟨#[], ∅, by simp⟩

def index? (pool : Pool) (s : String) : Option Nat := pool.indices[s]?

def size (pool : Pool) : Nat := pool.texts.size

/-- The indices are still right after a new text was added at the end. -/
theorem indices_iff_push (pool : Pool) {s : String} (h : pool.indices[s]? = none) (t : String)
    (i : Nat) : (pool.indices.insert s pool.texts.size)[t]? = some i ↔
      (pool.texts.push s)[i]? = some t := by
  have hnone : ∀ j, pool.texts[j]? ≠ some s := fun j hj => by
    rw [(pool.indices_iff s j).2 hj] at h
    simp at h
  rw [Std.HashMap.getElem?_insert, Array.getElem?_push]
  by_cases hs : s = t
  · subst hs
    by_cases hi : i = pool.texts.size
    · simp [hi]
    · simp only [beq_self_eq_true, if_true, Option.some.injEq, hi, if_false]
      exact ⟨fun he => absurd he.symm hi, fun he => absurd he (hnone i)⟩
  · by_cases hi : i = pool.texts.size
    · subst hi
      have hlt : ¬ pool.indices[t]? = some pool.texts.size := fun he => by
        have := (pool.indices_iff t pool.texts.size).1 he
        simp at this
      simp [hs, hlt]
    · simp [hs, hi, pool.indices_iff t i]

/-- The pool with a text added at the end. -/
def push (pool : Pool) (s : String) (h : pool.indices[s]? = none) : Pool :=
  let next := pool.texts.size
  ⟨pool.texts.push s, pool.indices.insert s next, pool.indices_iff_push h⟩

/-- The index of a text, and the pool with the text in it. -/
def intern (pool : Pool) (s : String) : Nat × Pool :=
  match h : pool.indices[s]? with
  | some i => (i, pool)
  | none => (pool.size, pool.push s h)

/-- The pool of a list of texts. -/
def ofTexts (texts : List String) : Pool :=
  texts.foldl (fun pool s => (pool.intern s).2) empty

def indexWidth (pool : Pool) : Width := .fit (pool.size - 1)

/-- The number of bytes of the longest text. -/
def longest (pool : Pool) : Nat :=
  pool.texts.foldl (fun n s => max n s.utf8ByteSize) 0

/-- The header: the widths of the count, of references and of lengths. -/
def header (count index length : Width) : UInt8 :=
  UInt8.ofNat (count.selector + 4 * index.selector + 16 * length.selector)

/-- The written form of the pool. -/
def write (pool : Pool) : Except BlobError (List UInt8) :=
  if countLimit ≤ pool.size then .error (.unwritable .tooManyTexts)
  else if countLimit ≤ pool.longest then .error (.unwritable .tooLong)
  else
    let count := Width.fit pool.size
    let length := Width.fit pool.longest
    .ok (header count pool.indexWidth length :: (putNumber count pool.size ++
      pool.texts.toList.flatMap fun s => putNumber length s.utf8ByteSize ++ textBytes s))

/-! ### Small laws -/

theorem index?_eq_some_iff {pool : Pool} {s : String} {i : Nat} :
    pool.index? s = some i ↔ pool.texts[i]? = some s :=
  pool.indices_iff s i

theorem index?_intern (pool : Pool) (s : String) :
    (pool.intern s).2.index? s = some (pool.intern s).1 := by
  unfold intern
  split
  · next h => exact h
  · simp [push, index?, size]

theorem texts_intern_of_some {pool : Pool} {s : String} {i : Nat} (h : pool.index? s = some i) :
    pool.intern s = (i, pool) := by
  unfold intern
  split
  · next j hj => rw [index?, hj] at h; simp_all
  · next hn => rw [index?, hn] at h; simp at h

theorem texts_intern_of_none {pool : Pool} {s : String} (h : pool.index? s = none) :
    (pool.intern s).1 = pool.size ∧ (pool.intern s).2.texts = pool.texts.push s := by
  unfold intern
  split
  · next i hi => rw [index?, hi] at h; simp at h
  · exact ⟨rfl, rfl⟩

end Pool

/-! ## Reading a pool -/

/-- The texts of a pool and the width of references to them. -/
structure PoolTable where
  texts : Array String
  indexWidth : Width

namespace PoolTable

def readText (length : Width) : Read String := ofScan do Scan.text (← Scan.number length)

/-- Reads a pool.  Each text takes at least the bytes of its length, which a
    guarded read uses to refuse a count that cannot be met. -/
def read (guarded : Bool) : Read PoolTable := do
  let header ← ofScan Scan.byte
  if 64 ≤ header.toNat then refuse (.poolHeader header)
  let length := Width.ofSelector (header.toNat / 16)
  let count ← ofScan (Scan.number (.ofSelector header.toNat))
  let remaining := (← get).remaining
  if guarded && remaining < count * length.size then refuse (.poolCount count remaining)
  let texts ← times (readText length) count []
  pure ⟨texts.toArray, .ofSelector (header.toNat / 4)⟩

def text? (table : PoolTable) (index : Nat) : Except BlobError String :=
  match table.texts[index]? with
  | some s => .ok s
  | none => .error (.badReference index table.texts.size)

/-- Reads a reference and the text that it stands for. -/
def readRef (table : PoolTable) : Read String := do
  let index ← ofScan (Scan.number table.indexWidth)
  match table.text? index with
  | .ok s => pure s
  | .error e => throw e

end PoolTable

end TypeAtlas.Blob
