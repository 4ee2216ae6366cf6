/-
  The normal form of a name.

  Types are collected under the name of what they are made of: an array counts
  as its element, whatever the spelling and the number of dimensions, blanks
  around a name do not count, and nothing is left of a blank name or of a
  primitive.

  * `normalForm?` computes the form; a normal name is its own form;
  * `isGeneratable` holds of the names that a shape can be compiled for: not
    blank, not primitive, not spelled as an array.
-/
import TypeAtlas.Name.Array
import TypeAtlas.Text.Blank

namespace TypeAtlas.Name

open TypeAtlas.Text (trim trimEnd isBlankText length_trim_le length_trimEnd_le)

theorem length_dropBrackets? {cs rest : List Char} (h : dropBrackets? cs = some rest) :
    rest.length < cs.length := by
  have := Text.length_of_before? h
  simp only [brackets, List.length_cons, List.length_nil] at this
  omega

theorem length_dropSemicolon? {cs rest : List Char} (h : dropSemicolon? cs = some rest) :
    rest.length < cs.length := by
  have := Text.length_of_before? h
  simp only [List.length_cons, List.length_nil] at this
  omega

/-- Drops every pair of brackets at the end, with the blanks before each. -/
def dropDimensions (cs : List Char) : List Char :=
  match _h : dropBrackets? cs with
  | some rest => dropDimensions (trimEnd rest)
  | none => cs
termination_by cs.length
decreasing_by exact Nat.lt_of_le_of_lt (length_trimEnd_le _) (length_dropBrackets? _h)

theorem length_dropDimensions_le (cs : List Char) :
    (dropDimensions cs).length ≤ cs.length := by
  fun_induction dropDimensions cs with
  | case1 cs rest h ih =>
    exact Nat.le_trans ih (Nat.le_of_lt
      (Nat.lt_of_le_of_lt (length_trimEnd_le _) (length_dropBrackets? h)))
  | case2 => exact Nat.le_refl _

/-- The class named between `L` and `;` behind a run of opening brackets. -/
def codedClass? (cs : List Char) : Option (List Char) :=
  match cs.dropWhile (· == '[') with
  | 'L' :: body => dropSemicolon? body
  | _ => none

theorem length_codedClass? {cs cls : List Char} (h : codedClass? cs = some cls) :
    cls.length < cs.length := by
  unfold codedClass? at h
  split at h
  · next body heq =>
    have h1 := length_dropSemicolon? h
    have h2 := (List.dropWhile_sublist (l := cs) (· == '[')).length_le
    rw [heq, List.length_cons] at h2
    omega
  · simp at h

/-- The normal form of a name, as characters. -/
def normalChars? (cs : List Char) : Option (List Char) :=
  match _h : dropDimensions (trim cs) with
  | '[' :: rest =>
    match _hc : codedClass? rest with
    | some cls => normalChars? cls
    | none => none
  | name => if name = [] ∨ isPrimitiveName (String.ofList name) then none else some name
termination_by cs.length
decreasing_by
  have h1 := length_codedClass? _hc
  have h2 := length_dropDimensions_le (trim cs)
  have h3 := length_trim_le cs
  rw [_h, List.length_cons] at h2
  omega

/-- The normal form of a name; nothing for blank names and primitives. -/
def normalForm? (name : String) : Option String :=
  (normalChars? name.toList).map String.ofList

/-- Whether a shape can be compiled for a type of this name. -/
def isGeneratable (name : String) : Bool :=
  !isBlankText name && !isPrimitiveName name && !brackets.isSuffixOf name.toList &&
    name.toList.head? != some '['

end TypeAtlas.Name
