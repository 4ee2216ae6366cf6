/-
  What a part of a blob costs when it is written again.

  `Source.Rewrites read texts put` says that whatever `read` makes of the bytes
  that it takes can be written by `put`, in no more bytes than it took.  The pool
  must hold the texts of the part, and its references must not be wider than those
  that were read; the texts themselves are among those that references can lead to.

  * `Source.Within` is the same with the bytes counted: parts in a row cost as
    much as all of them together (`Within.both`, `Within.all`);
  * `Source.Behind` is the same for a part behind its tag, `Behind.byte` and
    `Behind.map` follow the readers that look at a tag first;
  * `Within.counted` and `Within.list`: the width of a count is the least that
    holds it, so no other is shorter;
  * `Rewrites.kept`: a list is not longer without the items that occur again.
-/
import Mathlib.Algebra.GroupWithZero.Nat
import Mathlib.Algebra.Order.BigOperators.Group.List
import Mathlib.Algebra.Order.Group.Nat
import Mathlib.Data.List.Nodup
import Mathlib.Data.List.Perm.Subperm
import TypeAtlas.Proofs.Blob.Parts
import TypeAtlas.Proofs.Wire.Takes

namespace TypeAtlas.Blob

open TypeAtlas.Wire

variable {α β : Type}

/-! ## Parts in a row -/

/-- What two writers write, one behind the other. -/
def putBoth (first second : Written) : Written := do return (← first) ++ (← second)

theorem putBoth_ok (xs ys : List UInt8) : putBoth (.ok xs) (.ok ys) = .ok (xs ++ ys) := rfl

theorem map_cons_eq (b : UInt8) (x : Written) : (b :: ·) <$> x = putBoth (.ok [b]) x := by
  cases x <;> rfl

namespace Source

/-- The texts that references can lead to. -/
def Offers (source : Source) (s : String) : Prop :=
  ∃ i, i < capacity source.pool.indexWidth.size ∧ source.pool.texts[i]? = some s

/-- A part with the given texts takes at most `cost` bytes, whatever pool it is written with. -/
structure Within (source : Source) (cost : Nat) (texts : List String) (put : Pool → Written) :
    Prop where
  /-- References can lead to its texts. -/
  offered : ∀ s ∈ texts, source.Offers s
  /-- It can be written where its texts are known and references are not wider. -/
  written : ∀ pool : Pool, pool.indexWidth.size ≤ source.pool.indexWidth.size →
    (∀ s ∈ texts, s ∈ pool.texts) → ∃ bytes, put pool = .ok bytes ∧ bytes.length ≤ cost

/-- What was read between two cursors can be written again in no more bytes. -/
def Rewritten (source : Source) (cursor next : Cursor) (texts : List String)
    (put : Pool → Written) : Prop :=
  ∃ cost, cost + next.remaining ≤ cursor.remaining ∧ source.Within cost texts put

/-- Whatever `read` makes of bytes can be written by `put` in no more bytes. -/
def Rewrites (source : Source) (read : Read α) (texts : α → List String)
    (put : Pool → α → Written) : Prop :=
  ∀ ⦃cursor next : Cursor⦄ ⦃a : α⦄, read cursor = .ok a next →
    source.Rewritten cursor next (texts a) (put · a)

variable {source : Source} {cursor middle next : Cursor} {texts texts' : List String}
  {put put' : Pool → Written} {cost cost' : Nat}

theorem Within.bytes {bytes : List UInt8} (h : bytes.length ≤ cost) :
    source.Within cost [] fun _ => .ok bytes :=
  ⟨by simp, fun _ _ _ => ⟨bytes, rfl, h⟩⟩

theorem Within.both (h : source.Within cost texts put) (h' : source.Within cost' texts' put') :
    source.Within (cost + cost') (texts ++ texts') fun pool => putBoth (put pool) (put' pool) := by
  constructor
  · intro s hs
    exact (List.mem_append.1 hs).elim (h.offered s) (h'.offered s)
  · intro pool hwidth hpool
    obtain ⟨hfirst, hsecond⟩ := List.forall_mem_append.1 hpool
    obtain ⟨xs, hxs, hlength⟩ := h.written pool hwidth hfirst
    obtain ⟨ys, hys, hlength'⟩ := h'.written pool hwidth hsecond
    refine ⟨xs ++ ys, by rw [hxs, hys, putBoth_ok], ?_⟩
    rw [List.length_append]
    omega

namespace Rewritten

theorem both (h : source.Rewritten cursor middle texts put)
    (h' : source.Rewritten middle next texts' put') :
    source.Rewritten cursor next (texts ++ texts') fun pool => putBoth (put pool) (put' pool) := by
  obtain ⟨cost, hcost, hwithin⟩ := h
  obtain ⟨cost', hcost', hwithin'⟩ := h'
  exact ⟨cost + cost', by omega, hwithin.both hwithin'⟩

/-- The same part by another name: the order of its texts does not count. -/
theorem of_eq (h : source.Rewritten cursor next texts put)
    (htexts : ∀ s, s ∈ texts' ↔ s ∈ texts) (hput : ∀ pool, put' pool = put pool) :
    source.Rewritten cursor next texts' put' := by
  obtain ⟨cost, hcost, hwithin⟩ := h
  refine ⟨cost, hcost, fun s hs => hwithin.offered s ((htexts s).1 hs), fun pool hwidth hpool => ?_⟩
  rw [hput]
  exact hwithin.written pool hwidth fun s hs => hpool s ((htexts s).2 hs)

/-- A single byte is written as some other byte. -/
theorem byte {b : UInt8} (h : Source.byte cursor = .ok b next) (b' : UInt8) :
    source.Rewritten cursor next [] fun _ => .ok [b'] :=
  ⟨1, (remaining_of_byte (adaptExcept_run_eq_ok.1 h)).le, .bytes (Nat.le_refl 1)⟩

/-- A part behind its tag. -/
theorem behind {start : Cursor} (h : source.Rewritten cursor next texts put)
    (hspent : 1 + cursor.remaining ≤ start.remaining) (tag : UInt8) :
    source.Rewritten start next texts fun pool => (tag :: ·) <$> put pool := by
  obtain ⟨cost, hcost, hwithin⟩ := h
  simp only [map_cons_eq]
  exact ⟨1 + cost, by omega, (Within.bytes (Nat.le_refl 1)).both hwithin⟩

end Rewritten

/-! ## Parts behind a tag -/

/-- The same for a part that stands behind bytes which tell what part it is. -/
def Behind (source : Source) (spent : Nat) (read : Read α) (texts : α → List String)
    (put : Pool → α → Written) : Prop :=
  ∀ ⦃start cursor next : Cursor⦄ ⦃a : α⦄, spent + cursor.remaining ≤ start.remaining →
    read cursor = .ok a next → source.Rewritten start next (texts a) (put · a)

section

variable {read : Read α} {select : UInt8 → Read α} {f : α → β} {textsOf : α → List String}
  {textsOf' : β → List String} {putOne : Pool → α → Written} {putOne' : Pool → β → Written}
  {spent : Nat}

theorem Rewrites.byte (h : ∀ b, source.Behind 1 (select b) textsOf putOne) :
    source.Rewrites (Source.byte >>= select) textsOf putOne := by
  intro cursor next a hread
  obtain ⟨b, middle, hb, hread⟩ := bind_run_eq_ok.1 hread
  exact h b (remaining_of_byte (adaptExcept_run_eq_ok.1 hb)).le hread

namespace Behind

theorem byte (h : ∀ b, source.Behind (1 + spent) (select b) textsOf putOne) :
    source.Behind spent (Source.byte >>= select) textsOf putOne := by
  intro start cursor next a hspent hread
  obtain ⟨b, middle, hb, hread⟩ := bind_run_eq_ok.1 hread
  have hbyte := remaining_of_byte (adaptExcept_run_eq_ok.1 hb)
  exact h b (by omega) hread

/-- The bytes before the part are all there is of it. -/
protected theorem pure {a : α} (bytes : List UInt8) (hlength : bytes.length ≤ spent)
    (htexts : textsOf a = []) (hput : ∀ pool, putOne pool a = .ok bytes) :
    source.Behind spent (pure a) textsOf putOne := by
  intro start cursor next a' hspent hread
  obtain ⟨rfl, rfl⟩ := pure_run_eq_ok.1 hread
  simp only [htexts, hput]
  exact ⟨spent, hspent, .bytes hlength⟩

protected theorem map (h : source.Rewrites read textsOf putOne) (tag : UInt8)
    (htexts : ∀ a, textsOf' (f a) = textsOf a)
    (hput : ∀ pool a, putOne' pool (f a) = (tag :: ·) <$> putOne pool a) :
    source.Behind 1 (f <$> read) textsOf' putOne' := by
  intro start cursor next b hspent hmap
  obtain ⟨a, hread, rfl⟩ := map_run_eq_ok.1 hmap
  simp only [htexts, hput]
  exact (h hread).behind hspent tag

theorem refuse {mistake : Misformed} :
    source.Behind spent (Blob.refuse mistake) textsOf putOne := by
  rintro start cursor next a - ⟨⟩

end Behind

end

/-! ## Numbers and references -/

/-- A value of fixed size is written in that size. -/
theorem rewrites_number {source : Source} {k : Nat} {f : Nat → α} {put : α → List UInt8}
    (hput : ∀ a, (put a).length = k) :
    source.Rewrites (ofScan (f <$> Scan.nat k)) (fun _ => []) fun _ a => .ok (put a) := by
  intro cursor next a h
  exact ⟨k, (remaining_of_map_nat (adaptExcept_run_eq_ok.1 h)).le, .bytes (hput a).le⟩

theorem rewrites_ref (source : Source) : source.Rewrites source.ref (fun s => [s]) putRef := by
  intro cursor next s h
  obtain ⟨i, middle, hi, h⟩ := bind_run_eq_ok.1 h
  obtain ⟨hremaining, hlt⟩ := remaining_of_number (adaptExcept_run_eq_ok.1 hi)
  have hfound : source.pool.texts[i]? = some s ∧ middle = next := by
    unfold PoolTable.text? at h
    cases htext : source.pool.texts[i]? with
    | none =>
      simp only [htext] at h
      cases h
    | some found =>
      simp only [htext] at h
      cases h
      exact ⟨rfl, rfl⟩
  obtain ⟨htext, rfl⟩ := hfound
  refine ⟨_, hremaining.le, ?_, fun pool hwidth hpool => ?_⟩
  · intro t ht
    rw [List.mem_singleton.1 ht]
    exact ⟨i, hlt, htext⟩
  · obtain ⟨j, hj⟩ := Pool.index?_of_mem (hpool s (List.mem_singleton_self s))
    exact ⟨_, putRef_eq_ok.2 ⟨j, hj, rfl⟩, by rwa [length_putNumber]⟩

/-! ## Lists -/

theorem capacity_size_le (width : Width) : capacity width.size ≤ countLimit := by
  cases width <;> decide

/-- The least width of a number is no wider than one in which it was read. -/
theorem size_fit_le {n : Nat} {width : Width} (h : n < capacity width.size) :
    (Width.fit n).size ≤ width.size := by
  rw [Width.fit_le_iff (Nat.lt_of_lt_of_le h (capacity_size_le width)), Width.largest]
  omega

theorem widthOf_of_lt {n : Nat} (h : n < countLimit) : widthOf n = .ok (.fit n) := if_pos h

/-- A count in the least width that holds it. -/
def putCount (n : Nat) : List UInt8 := putNumber (.fit n) n

theorem putList_eq {put : α → Written} {items : List α} (h : items.length < countLimit) :
    putList put items = putBoth (.ok [selectorByte (.fit items.length)])
      (putBoth (.ok (putCount items.length)) (putAll put items)) := by
  simp only [putList, putSize, widthOf_of_lt h, putBoth, putCount, ok_bind, pure_bind,
    bind_assoc, List.cons_append, List.nil_append]

variable {read : Read α} {textsOf : α → List String} {putOne : Pool → α → Written}
  {costed : List (α × Nat)} {width : Width}

/-- Items that are read one after another, each with the bytes that it took. -/
theorem Rewrites.exists_costs (h : source.Rewrites read textsOf putOne) {n : Nat}
    {done items : List α} (hread : times read n done cursor = .ok items next) :
    ∃ costed : List (α × Nat), done.reverse ++ costed.map Prod.fst = items ∧ costed.length = n ∧
      (costed.map Prod.snd).sum + next.remaining ≤ cursor.remaining ∧
      ∀ entry ∈ costed, source.Within entry.2 (textsOf entry.1) (putOne · entry.1) := by
  induction n generalizing done cursor with
  | zero =>
    obtain ⟨rfl, rfl⟩ := pure_run_eq_ok.1 hread
    exact ⟨[], by simp, rfl, by simp, by simp⟩
  | succ n ih =>
    obtain ⟨item, middle, hitem, hrest⟩ := bind_run_eq_ok.1 hread
    obtain ⟨cost, hcost, hwithin⟩ := h hitem
    obtain ⟨costed, rfl, rfl, hsum, hall⟩ := ih hrest
    refine ⟨(item, cost) :: costed, by simp, rfl, ?_, List.forall_mem_cons.2 ⟨hwithin, hall⟩⟩
    simp only [List.map_cons, List.sum_cons]
    omega

/-- The check that follows a count takes no bytes. -/
theorem remaining_of_count {part : Part} {n : Nat}
    (h : source.count part width cursor = .ok n next) :
    width.size + next.remaining = cursor.remaining ∧ n < capacity width.size := by
  obtain ⟨found, middle, hfound, h⟩ := bind_run_eq_ok.1 h
  obtain ⟨rfl, rfl⟩ := pure_run_eq_ok.1 (room_run (k := fun _ => pure found)
    (fun remaining => BlobError.misformed (.count part found remaining)) h)
  exact remaining_of_number (adaptExcept_run_eq_ok.1 hfound)

/-- Items behind a count, each with the bytes that it took. -/
theorem Rewrites.exists_counted (h : source.Rewrites read textsOf putOne) {part : Part}
    {items : List α} (hread : source.counted part width read cursor = .ok items next) :
    ∃ costed : List (α × Nat), costed.map Prod.fst = items ∧
      costed.length < capacity width.size ∧
      width.size + (costed.map Prod.snd).sum + next.remaining ≤ cursor.remaining ∧
      ∀ entry ∈ costed, source.Within entry.2 (textsOf entry.1) (putOne · entry.1) := by
  obtain ⟨n, middle, hn, hitems⟩ := bind_run_eq_ok.1 hread
  obtain ⟨hcount, hlt⟩ := remaining_of_count hn
  obtain ⟨costed, rfl, rfl, hsum, hall⟩ := h.exists_costs hitems
  exact ⟨costed, by simp, hlt, by omega, hall⟩

/-- Items in a row cost as much as all of them together. -/
theorem Within.all
    (h : ∀ entry ∈ costed, source.Within entry.2 (textsOf entry.1) (putOne · entry.1)) :
    source.Within (costed.map Prod.snd).sum ((costed.map Prod.fst).flatMap textsOf)
      fun pool => putAll (putOne pool) (costed.map Prod.fst) := by
  induction costed with
  | nil => exact .bytes (Nat.le_refl 0)
  | cons entry rest ih =>
    obtain ⟨hentry, hrest⟩ := List.forall_mem_cons.1 h
    simp only [List.map_cons, List.sum_cons, List.flatMap_cons, putAll_cons]
    exact hentry.both (ih hrest)

/-- Items behind their count, in no wider a count than they were read with. -/
theorem Within.counted (hlt : costed.length < capacity width.size)
    (h : ∀ entry ∈ costed, source.Within entry.2 (textsOf entry.1) (putOne · entry.1)) :
    source.Within (width.size + (costed.map Prod.snd).sum) ((costed.map Prod.fst).flatMap textsOf)
      fun pool => putBoth (.ok (putCount (costed.map Prod.fst).length))
        (putAll (putOne pool) (costed.map Prod.fst)) := by
  refine Within.both (.bytes ?_) (.all h)
  rw [putCount, length_putNumber, List.length_map]
  exact size_fit_le hlt

/-- Items behind their count and the byte that names its width. -/
theorem Within.list (hlt : costed.length < capacity width.size)
    (h : ∀ entry ∈ costed, source.Within entry.2 (textsOf entry.1) (putOne · entry.1)) :
    source.Within (1 + (width.size + (costed.map Prod.snd).sum))
      ((costed.map Prod.fst).flatMap textsOf)
      fun pool => putList (putOne pool) (costed.map Prod.fst) := by
  have hlimit : (costed.map Prod.fst).length < countLimit := by
    rw [List.length_map]
    exact Nat.lt_of_lt_of_le hlt (capacity_size_le width)
  simp only [putList_eq hlimit]
  exact Within.both (.bytes (Nat.le_refl 1)) (.counted hlt h)

theorem Rewrites.counted (h : source.Rewrites read textsOf putOne) {part : Part}
    {items : List α} (hread : source.counted part width read cursor = .ok items next) :
    source.Rewritten cursor next (items.flatMap textsOf)
      (fun pool => putBoth (.ok (putCount items.length)) (putAll (putOne pool) items)) ∧
      items.length < countLimit := by
  obtain ⟨costed, rfl, hlt, hsum, hall⟩ := h.exists_counted hread
  rw [List.length_map]
  exact ⟨⟨_, hsum, by simpa only [List.length_map] using Within.counted hlt hall⟩,
    Nat.lt_of_lt_of_le hlt (capacity_size_le width)⟩

/-- Items behind a count and the byte that names its width, each with the bytes that it
    took. -/
theorem Rewrites.exists_listed (h : source.Rewrites read textsOf putOne) {part : Part}
    {items : List α} (hread : source.list part read cursor = .ok items next) :
    ∃ (width : Width) (costed : List (α × Nat)), costed.map Prod.fst = items ∧
      costed.length < capacity width.size ∧
      1 + (width.size + (costed.map Prod.snd).sum) + next.remaining ≤ cursor.remaining ∧
      ∀ entry ∈ costed, source.Within entry.2 (textsOf entry.1) (putOne · entry.1) := by
  obtain ⟨n, start, hsize, hitems⟩ := bind_run_eq_ok.1 hread
  obtain ⟨selector, middle, hselector, hcount⟩ := bind_run_eq_ok.1 hsize
  have hbyte := remaining_of_byte (adaptExcept_run_eq_ok.1 hselector)
  have hcounted : source.counted part (.ofSelector selector.toNat) read middle = .ok items next :=
    bind_run_eq_ok.2 ⟨n, start, (check_run_eq_ok.1 hcount).2, hitems⟩
  obtain ⟨costed, hitems, hlt, hsum, hall⟩ := h.exists_counted hcounted
  exact ⟨_, costed, hitems, hlt, by omega, hall⟩

theorem Rewrites.list (h : source.Rewrites read textsOf putOne) (part : Part) :
    source.Rewrites (source.list part read) (List.flatMap textsOf)
      fun pool => putList (putOne pool) := by
  intro cursor next items hread
  obtain ⟨width, costed, rfl, hlt, hsum, hall⟩ := h.exists_listed hread
  exact ⟨_, hsum, .list hlt hall⟩

theorem sum_map_le_of_subperm (f : α → Nat) {xs ys : List α} (h : xs.Subperm ys) :
    (xs.map f).sum ≤ (ys.map f).sum := by
  obtain ⟨some, hperm, hsome⟩ := h
  rw [← (hperm.map f).sum_nat]
  exact (hsome.map f).sum_le_sum fun _ _ => Nat.zero_le _

/-- Items that are among others are so with the bytes that they took. -/
theorem exists_chosen {kept : List α} (h : kept ⊆ costed.map Prod.fst) :
    ∃ chosen ⊆ costed, chosen.map Prod.fst = kept := by
  induction kept with
  | nil => exact ⟨[], List.nil_subset _, rfl⟩
  | cons item rest ih =>
    obtain ⟨hitem, hrest⟩ := List.cons_subset.1 h
    obtain ⟨entry, hentry, rfl⟩ := List.mem_map.1 hitem
    obtain ⟨chosen, hchosen, rfl⟩ := ih hrest
    exact ⟨entry :: chosen, List.cons_subset.2 ⟨hentry, hchosen⟩, rfl⟩

/-- A list that was read may be written without items that occur again. -/
theorem Rewrites.kept (h : source.Rewrites read textsOf putOne) {part : Part}
    {items kept : List α} (hread : source.list part read cursor = .ok items next)
    (hnodup : kept.Nodup) (hkept : kept ⊆ items) :
    source.Rewritten cursor next (kept.flatMap textsOf) fun pool =>
      putList (putOne pool) kept := by
  obtain ⟨width, costed, rfl, hlt, hsum, hall⟩ := h.exists_listed hread
  obtain ⟨chosen, hchosen, rfl⟩ := exists_chosen hkept
  have hsubperm := List.subperm_of_subset (List.Nodup.of_map _ hnodup) hchosen
  have hlength := hsubperm.length_le
  have hcost := sum_map_le_of_subperm Prod.snd hsubperm
  exact ⟨_, by omega, .list (Nat.lt_of_le_of_lt hlength hlt) fun entry he => hall entry (hchosen he)⟩

/-! ## Parts that may be absent -/

theorem Rewrites.option (h : source.Rewrites read textsOf putOne) (mistake : UInt8 → Misformed) :
    source.Rewrites (Source.option mistake read) (fun part => part.toList.flatMap textsOf)
      fun pool => putOption (putOne pool) := by
  refine .byte fun presence => ?_
  split
  · exact .pure [0] (Nat.le_refl 1) rfl fun _ => rfl
  · exact .map h 1 (by simp) fun _ _ => rfl
  · exact .refuse

end Source

end TypeAtlas.Blob
