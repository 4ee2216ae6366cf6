/-
  Taking a known ending off a text.

  * `before? suffix cs` is what stands before `suffix` at the end of `cs`;
  * `before?_eq_some_iff`: it is the one text that `suffix` completes to `cs`.
-/

namespace TypeAtlas.Text

/-- The characters before a given ending. -/
def before? (suffix cs : List Char) : Option (List Char) :=
  if suffix.isSuffixOf cs then some (cs.take (cs.length - suffix.length)) else none

theorem before?_eq_some_iff {suffix cs rest : List Char} :
    before? suffix cs = some rest ↔ cs = rest ++ suffix := by
  unfold before?
  constructor
  · intro h
    split at h
    · next hs =>
      obtain ⟨front, rfl⟩ := List.isSuffixOf_iff_suffix.1 hs
      simp at h
      rw [h]
    · simp at h
  · rintro rfl
    simp [List.isSuffixOf_iff_suffix]

theorem before?_append (suffix rest : List Char) : before? suffix (rest ++ suffix) = some rest :=
  before?_eq_some_iff.2 rfl

theorem before?_eq_none_iff {suffix cs : List Char} :
    before? suffix cs = none ↔ ¬ suffix <:+ cs := by
  unfold before?
  rw [← List.isSuffixOf_iff_suffix]
  split <;> simp_all

theorem length_of_before? {suffix cs rest : List Char} (h : before? suffix cs = some rest) :
    cs.length = rest.length + suffix.length := by
  rw [before?_eq_some_iff.1 h, List.length_append]

end TypeAtlas.Text
