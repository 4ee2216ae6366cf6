/-
  Searching a sorted array.

  The items of an array are sorted by a numeric key.  A search halves the
  interval in which the last item with a key that is small enough must lie.

  * `lastIn` halves the interval;
  * `search? key items k` is the last item with the key `k`.
-/

namespace TypeAtlas.Directory

universe u

/-- The last place of an interval at which `small` holds, if `small` holds up to
    some place of it and not behind. -/
def lastIn (small : Nat → Bool) (start size : Nat) : Nat :=
  if size ≤ 1 then start
  else
    lastIn small (if small (start + size / 2) then start + size / 2 else start)
      (size - size / 2)
termination_by size

/-- The last item of a sorted array whose key is `k`. -/
def search? {α : Type u} (key : α → Nat) (items : Array α) (k : Nat) : Option α :=
  let i := lastIn (fun i => (items[i]?).any fun item => key item ≤ k) 0 items.size
  (items[i]?).filter fun item => key item == k

end TypeAtlas.Directory
