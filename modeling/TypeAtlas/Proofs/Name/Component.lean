/-
  Normal forms of array names.

  Types are collected under the normal form of their name, which drops all dimensions at
  once, in both spellings and with the blanks between them.  An array name is taken apart
  one dimension after another, and blanks count.  The two agree.

  * `Name.normalForm?_of_component?`: a name has the normal form of its component, in each
    of the four ways in which it can have one;
  * `Name.normalForm?_element`: and that of its element, so nothing is collected for an
    array of a primitive (`Name.normalForm?_of_isPrimitiveName`).
-/
import TypeAtlas.Proofs.Name.Element
import TypeAtlas.Proofs.Name.Normal

namespace TypeAtlas

namespace Text

/-- Blanks at the end are trimmed up to the last other character. -/
theorem trimEnd_cons {c : Char} (h : isBlank c = false) (cs : List Char) :
    trimEnd (c :: cs) = c :: trimEnd cs := by
  have hkept : [c].dropWhile isBlank = [c] := List.dropWhile_cons_of_neg (by simp [h])
  rw [trimEnd, trimEnd, List.reverse_cons, List.dropWhile_append, hkept]
  split
  · next hnil => rw [List.isEmpty_iff.1 hnil]; rfl
  · rw [List.reverse_append, List.reverse_singleton, List.singleton_append]

theorem trim_cons {c : Char} (h : isBlank c = false) (cs : List Char) :
    trim (c :: cs) = c :: trimEnd cs := by
  rw [trim, trimStart, List.dropWhile_cons_of_neg (by simp [h]), trimEnd_cons h]

end Text

namespace Name

open Text

variable {cs ds : List Char} {name component : String}

/-! ## Brackets in front -/

theorem dropBrackets?_cons (hdrop : dropBrackets? cs = none) (hhead : cs.head? ≠ some ']') :
    dropBrackets? ('[' :: cs) = none := by
  rw [dropBrackets?, before?_eq_none_iff] at hdrop ⊢
  rw [List.suffix_cons_iff]
  rintro (hwhole | hrest)
  · obtain ⟨-, rfl⟩ := List.cons.inj hwhole
    exact hhead rfl
  · exact hdrop hrest

theorem head?_ne_of_prefix {c : Char} (h : ds <+: cs) (hhead : cs.head? ≠ some c) :
    ds.head? ≠ some c := by
  obtain ⟨rest, rfl⟩ := h
  cases ds with
  | nil => exact fun hnone => by cases hnone
  | cons d ds => exact hhead

/-- A bracket in front stays when the dimensions behind are dropped, unless it is part of one. -/
theorem dropDimensions_cons (hhead : cs.head? ≠ some ']') :
    dropDimensions ('[' :: cs) = '[' :: dropDimensions cs := by
  fun_induction dropDimensions cs with
  | case1 cs rest hdrop ih =>
    obtain rfl : cs = rest ++ brackets := before?_eq_some_iff.1 hdrop
    have hrest : (trimEnd rest).head? ≠ some ']' :=
      head?_ne_of_prefix ((prefix_trimEnd rest).trans (List.prefix_append _ _)) hhead
    rw [← List.cons_append, dropDimensions_append_brackets, trimEnd_cons (by decide), ih hrest]
  | case2 cs hdrop => exact dropDimensions_of_none (dropBrackets?_cons hdrop hhead)

/-- Of several brackets in front one is like all. -/
theorem normalChars?_outer (rest : List Char) :
    normalChars? ('[' :: '[' :: rest) = normalChars? ('[' :: rest) := by
  have hinner : trim ('[' :: rest) = '[' :: trimEnd rest := trim_cons (by decide) rest
  have houter : dropDimensions (trim ('[' :: '[' :: rest)) =
      '[' :: dropDimensions (trim ('[' :: rest)) := by
    rw [trim_cons (by decide), trimEnd_cons (by decide), hinner]
    exact dropDimensions_cons (by simp)
  rw [normalChars?_of_coded houter]
  cases hkept : dropDimensions (trim ('[' :: rest)) with
  | nil =>
    -- `[[]` with blanks behind it: nothing is left of the component
    rw [normalChars?_of_plain (by simp [hkept]), hkept]
    rfl
  | cons c tail =>
    have hstart := prefix_dropDimensions (trim ('[' :: rest))
    rw [hkept, hinner, List.cons_prefix_cons] at hstart
    obtain ⟨rfl, -⟩ := hstart
    rw [normalChars?_of_coded hkept]
    rfl

/-! ## Classes and primitives -/

theorem normalChars?_cls (ds : List Char) :
    normalChars? ('[' :: 'L' :: (ds ++ [';'])) = normalChars? ds := by
  have htrim : trim ('[' :: 'L' :: (ds ++ [';'])) = '[' :: 'L' :: (ds ++ [';']) := by
    rw [trim_cons (by decide), trimEnd_cons (by decide), trimEnd_append (by decide)]
  have hkept : dropDimensions (trim ('[' :: 'L' :: (ds ++ [';']))) =
      '[' :: 'L' :: (ds ++ [';']) := by
    rw [htrim, dropDimensions_of_none (dropBrackets?_cls ds)]
  have hcls : codedClass? ('L' :: (ds ++ [';'])) = some ds := before?_append [';'] ds
  rw [normalChars?_of_coded hkept, hcls, Option.bind_some]

/-- Nothing is collected for a primitive. -/
theorem normalForm?_of_isPrimitiveName (h : isPrimitiveName name = true) :
    normalForm? name = none := by
  obtain ⟨p, hp⟩ := Option.isSome_iff_exists.1 h
  obtain rfl := Primitive.name_of_ofName? hp
  cases p <;> decide +kernel

theorem normalChars?_name (p : Primitive) : normalChars? p.name.toList = none := by
  have hprimitive : isPrimitiveName p.name = true := by
    rw [isPrimitiveName, Primitive.ofName?_name]
    rfl
  exact Option.map_eq_none_iff.1 (normalForm?_of_isPrimitiveName hprimitive)

theorem normalChars?_code (p : Primitive) : normalChars? ['[', p.code] = none := by
  cases p <;> decide +kernel

/-! ## Components and elements -/

theorem ComponentOf.normalChars?_eq (h : ComponentOf ds cs) :
    normalChars? cs = normalChars? ds := by
  cases h with
  | brackets => exact normalChars?_append_brackets ds
  | outer => exact normalChars?_outer _
  | cls => exact normalChars?_cls ds
  | letter => rw [normalChars?_code, normalChars?_name]

/-- **A name has the normal form of its component.** -/
theorem normalForm?_of_component? (h : component? name = some component) :
    normalForm? name = normalForm? component := by
  rw [normalForm?, normalForm?, (component?_eq_some_iff.1 h).normalChars?_eq]

/-- **A name has the normal form of its element.** -/
theorem normalForm?_element (name : String) : normalForm? (element name) = normalForm? name := by
  fun_induction element name with
  | case1 name component h ih => rw [ih, normalForm?_of_component? h]
  | case2 name _ => rfl

end Name

end TypeAtlas
