/-
  Widths of numbers.

  Counts, lengths and references take one to four bytes each.  The width is the
  smallest that holds the largest number in question, and two bits name it.

  * `Width.fit bound` is the smallest width whose largest number reaches
    `bound` (`fit_le_iff`);
  * `Width.ofSelector` reads the two low bits of a byte and is undone by
    `Width.selector` (`ofSelector_selector`).
-/
import TypeAtlas.Wire.Bytes

namespace TypeAtlas.Wire

/-- How many bytes a number takes. -/
inductive Width where
  | one
  | two
  | three
  | four
  deriving DecidableEq, Repr

namespace Width

def all : List Width := [one, two, three, four]

/-- The two bits that name a width. -/
def selector : Width → Nat
  | one => 0
  | two => 1
  | three => 2
  | four => 3

def size (width : Width) : Nat := width.selector + 1

def largest (width : Width) : Nat := capacity width.size - 1

/-- The width named by the two low bits of a byte. -/
def ofSelector (bits : Nat) : Width :=
  match bits % 4 with
  | 0 => one
  | 1 => two
  | 2 => three
  | _ => four

/-- The smallest width for numbers up to `bound`. -/
def fit (bound : Nat) : Width :=
  if bound ≤ 0xFF then one
  else if bound ≤ 0xFFFF then two
  else if bound ≤ 0xFFFFFF then three
  else four

theorem ofSelector_selector (width : Width) : ofSelector width.selector = width := by
  cases width <;> rfl

theorem selector_lt (width : Width) : width.selector < 4 := by
  cases width <;> decide

theorem size_pos (width : Width) : 0 < width.size := Nat.succ_pos _

theorem lt_of_fit {bound n : Nat} (hb : bound < capacity 4) (h : n ≤ bound) :
    n < capacity (fit bound).size := by
  unfold fit
  split
  · simp [size, selector, capacity] at hb ⊢; omega
  · split
    · simp [size, selector, capacity] at hb ⊢; omega
    · split
      · simp [size, selector, capacity] at hb ⊢; omega
      · simp [size, selector, capacity] at hb ⊢; omega

theorem fit_le_iff {bound : Nat} {width : Width} (hb : bound < capacity 4) :
    (fit bound).size ≤ width.size ↔ bound ≤ width.largest := by
  unfold fit
  split
  · cases width <;> simp [size, selector, largest, capacity] at hb ⊢ <;> omega
  · split
    · cases width <;> simp [size, selector, largest, capacity] at hb ⊢ <;> omega
    · split
      · cases width <;> simp [size, selector, largest, capacity] at hb ⊢ <;> omega
      · cases width <;> simp [size, selector, largest, capacity] at hb ⊢ <;> omega

end Width

end TypeAtlas.Wire
