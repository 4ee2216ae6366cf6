/-
  Normal names.

  A normal form has no blanks around it, no brackets at its end or its start and
  is no primitive; a name like this is its own normal form.

  * `Name.normalForm?_of_normalForm?`: a normal form is its own normal form;
  * `Name.normalForm?_append_brackets`: an array has the normal form of its component;
  * `Name.ordinary_of_isGeneratable`: what types can be compiled for;
  * `Name.Normal.isGeneratable`: among them are all normal names.
-/
import Mathlib.Data.List.DropRight
import TypeAtlas.Name.Normal

namespace TypeAtlas

namespace Text

variable {cs ds : List Char}

/-! ## Trimmed texts -/

theorem trimStart_trimStart (cs : List Char) : trimStart (trimStart cs) = trimStart cs :=
  List.dropWhile_idempotent isBlank cs

theorem trimEnd_trimEnd (cs : List Char) : trimEnd (trimEnd cs) = trimEnd cs := by
  simp only [trimEnd, List.reverse_reverse, List.dropWhile_idempotent]

/-- Blanks are trimmed up to the first other character. -/
theorem trimStart_append {c : Char} {tail : List Char} (h : isBlank c = false) (cs : List Char) :
    trimStart (cs ++ c :: tail) = trimStart cs ++ c :: tail := by
  rw [trimStart, trimStart, List.dropWhile_append, List.dropWhile_cons_of_neg (by simp [h])]
  split
  · next hnil => rw [List.isEmpty_iff.1 hnil, List.nil_append]
  · rfl

theorem trimEnd_append {c : Char} (h : isBlank c = false) (cs : List Char) :
    trimEnd (cs ++ [c]) = cs ++ [c] := by
  rw [trimEnd, List.reverse_append, List.reverse_singleton, List.singleton_append,
    List.dropWhile_cons_of_neg (by simp [h]), List.reverse_cons, List.reverse_reverse]

theorem prefix_trimEnd (cs : List Char) : trimEnd cs <+: cs := by
  rw [trimEnd, ← List.reverse_suffix, List.reverse_reverse]
  exact List.dropWhile_suffix _

/-- What starts without a blank still does when something is cut off its end. -/
theorem trimStart_of_start (h : trimStart cs = cs) (hp : ds <+: cs) : trimStart ds = ds := by
  cases ds with
  | nil => rfl
  | cons d rest =>
    obtain ⟨tail, rfl⟩ := hp
    exact List.dropWhile_cons_of_neg (List.dropWhile_eq_self_iff.1 h (by simp))

theorem trimStart_trim (cs : List Char) : trimStart (trim cs) = trim cs :=
  trimStart_of_start (trimStart_trimStart cs) (prefix_trimEnd _)

end Text

namespace Name

open Text

/-! ## Dropping brackets -/

theorem prefix_dropDimensions (cs : List Char) : dropDimensions cs <+: cs := by
  fun_induction dropDimensions cs with
  | case1 cs rest h ih =>
    refine ih.trans ((prefix_trimEnd rest).trans ?_)
    rw [before?_eq_some_iff.1 h]
    exact List.prefix_append _ _
  | case2 cs h => exact List.prefix_rfl

theorem trimEnd_dropDimensions {cs : List Char} (h : trimEnd cs = cs) :
    trimEnd (dropDimensions cs) = dropDimensions cs := by
  fun_induction dropDimensions cs with
  | case1 cs rest _ ih => exact ih (trimEnd_trimEnd rest)
  | case2 cs _ => exact h

theorem dropBrackets?_dropDimensions (cs : List Char) :
    dropBrackets? (dropDimensions cs) = none := by
  fun_induction dropDimensions cs with
  | case1 cs rest _ ih => exact ih
  | case2 cs h => exact h

theorem dropDimensions_of_none {cs : List Char} (h : dropBrackets? cs = none) :
    dropDimensions cs = cs := by
  unfold dropDimensions
  split
  · next rest hrest =>
    rw [h] at hrest
    cases hrest
  · rfl

theorem dropDimensions_append_brackets (cs : List Char) :
    dropDimensions (cs ++ brackets) = dropDimensions (trimEnd cs) := by
  have hdrop : dropBrackets? (cs ++ brackets) = some cs := before?_append brackets cs
  rw [dropDimensions]
  split
  · next rest hrest =>
    rw [hdrop] at hrest
    cases hrest
    rfl
  · next hnone =>
    rw [hdrop] at hnone
    cases hnone

/-! ## Normal forms -/

/-- A name without blanks around it, without brackets and that is no primitive. -/
structure Normal (cs : List Char) : Prop where
  /-- No blanks at the start. -/
  trimStart_eq : trimStart cs = cs
  /-- No blanks at the end. -/
  trimEnd_eq : trimEnd cs = cs
  /-- No brackets at the end. -/
  dropBrackets?_eq : dropBrackets? cs = none
  /-- No bracket at the start. -/
  head?_ne : cs.head? ≠ some '['
  /-- Not empty. -/
  ne_nil : cs ≠ []
  /-- No primitive. -/
  not_primitive : ¬ isPrimitiveName (String.ofList cs)

theorem Normal.normalChars?_eq {cs : List Char} (h : Normal cs) : normalChars? cs = some cs := by
  have htrim : trim cs = cs := by rw [trim, h.trimStart_eq, h.trimEnd_eq]
  have hdrop : dropDimensions (trim cs) = cs := by
    rw [htrim, dropDimensions_of_none h.dropBrackets?_eq]
  unfold normalChars?
  split
  · next rest heq =>
    rw [hdrop] at heq
    exact absurd (by rw [heq]; rfl) h.head?_ne
  · rw [hdrop, if_neg]
    rintro (hnil | hprimitive)
    · exact h.ne_nil hnil
    · exact h.not_primitive hprimitive

theorem Normal.normalForm?_eq {name : String} (h : Normal name.toList) :
    normalForm? name = some name := by
  rw [normalForm?, h.normalChars?_eq, Option.map_some, String.ofList_toList]

/-- What is left of a name is normal. -/
theorem normal_of_normalChars? {cs out : List Char} (h : normalChars? cs = some out) :
    Normal out := by
  fun_induction normalChars? cs with
  | case1 cs rest hdrop cls hcls ih => exact ih h
  | case2 => cases h
  | case3 => cases h
  | case4 cs hstart hkept =>
    simp only [Option.some.injEq] at h
    subst h
    have hstarts := prefix_dropDimensions (trim cs)
    refine ⟨trimStart_of_start (trimStart_trim cs) hstarts,
      trimEnd_dropDimensions (trimEnd_trimEnd _), dropBrackets?_dropDimensions _, ?_,
      fun hnil => hkept (Or.inl hnil), fun hprimitive => hkept (Or.inr hprimitive)⟩
    intro hhead
    cases hcs : dropDimensions (trim cs) with
    | nil =>
      rw [hcs] at hhead
      cases hhead
    | cons c rest =>
      rw [hcs, List.head?_cons, Option.some.injEq] at hhead
      exact hstart rest (hhead ▸ hcs)

/-- **A normal form is its own normal form.** -/
theorem normalForm?_of_normalForm? {name normal : String} (h : normalForm? name = some normal) :
    normalForm? normal = some normal := by
  obtain ⟨cs, hcs, rfl⟩ := Option.map_eq_some_iff.1 h
  refine Normal.normalForm?_eq ?_
  rw [String.toList_ofList]
  exact normal_of_normalChars? hcs

/-! ## Normal forms of arrays -/

/-- The normal form of a name in the second spelling of arrays. -/
theorem normalChars?_of_coded {cs rest : List Char} (h : dropDimensions (trim cs) = '[' :: rest) :
    normalChars? cs = (codedClass? rest).bind normalChars? := by
  rw [normalChars?]
  split
  · next rest' hrest =>
    obtain rfl : rest = rest' := (List.cons.inj (h.symm.trans hrest)).2
    cases codedClass? rest <;> rfl
  · next hplain => exact absurd h (hplain rest)

/-- The normal form of any other name. -/
theorem normalChars?_of_plain {cs : List Char}
    (h : ∀ rest, dropDimensions (trim cs) ≠ '[' :: rest) :
    normalChars? cs =
      if dropDimensions (trim cs) = [] ∨ isPrimitiveName (String.ofList (dropDimensions (trim cs)))
      then none else some (dropDimensions (trim cs)) := by
  rw [normalChars?]
  split
  · next rest hrest => exact absurd hrest (h rest)
  · rfl

/-- Nothing of a name counts but what is left without blanks and brackets. -/
theorem normalChars?_congr {cs ds : List Char}
    (h : dropDimensions (trim cs) = dropDimensions (trim ds)) :
    normalChars? cs = normalChars? ds := by
  by_cases hcoded : ∃ rest, dropDimensions (trim cs) = '[' :: rest
  · obtain ⟨rest, hrest⟩ := hcoded
    rw [normalChars?_of_coded hrest, normalChars?_of_coded (h.symm.trans hrest)]
  · have hplain : ∀ rest, dropDimensions (trim cs) ≠ '[' :: rest :=
      fun rest hrest => hcoded ⟨rest, hrest⟩
    rw [normalChars?_of_plain hplain, normalChars?_of_plain (h ▸ hplain), h]

theorem normalChars?_append_brackets (cs : List Char) :
    normalChars? (cs ++ brackets) = normalChars? cs := by
  refine normalChars?_congr ?_
  have htrim : trim (cs ++ brackets) = trimStart cs ++ brackets := by
    rw [trim, brackets, trimStart_append (by decide)]
    exact List.append_assoc _ ['['] [']'] ▸ trimEnd_append (by decide) _
  rw [htrim, dropDimensions_append_brackets, trim]

/-- **An array has the normal form of its component.** -/
theorem normalForm?_append_brackets (name : String) :
    normalForm? (name ++ "[]") = normalForm? name := by
  rw [normalForm?, normalForm?, String.toList_append]
  exact congrArg _ (normalChars?_append_brackets name.toList)

/-! ## Names of compiled types -/

/-- A type can be compiled for a name that is not blank, not primitive and no array name. -/
theorem ordinary_of_isGeneratable {name : String} (h : isGeneratable name = true) :
    isBlankText name = false ∧ Primitive.ofName? name = none ∧ component? name = none := by
  simp only [isGeneratable, Bool.and_eq_true, Bool.not_eq_true', bne_iff_ne, ne_eq] at h
  obtain ⟨⟨⟨hblank, hprimitive⟩, hend⟩, hstart⟩ := h
  refine ⟨hblank, Option.not_isSome_iff_eq_none.1 (Bool.eq_false_iff.1 hprimitive), ?_⟩
  have hdrop : dropBrackets? name.toList = none := by
    rw [dropBrackets?, before?_eq_none_iff, ← List.isSuffixOf_iff_suffix, hend]
    exact Bool.false_ne_true
  unfold component? componentChars?
  rw [hdrop]
  cases hchars : name.toList with
  | nil => rfl
  | cons first rest =>
    have hfirst : first ≠ '[' := by
      rintro rfl
      rw [hchars] at hstart
      exact hstart rfl
    simp [hfirst]

/-- A type can be compiled for every normal name. -/
theorem Normal.isGeneratable {name : String} (h : Normal name.toList) :
    isGeneratable name = true := by
  have hblank : isBlankText name = false := by
    obtain ⟨first, rest, hchars⟩ := List.exists_cons_of_ne_nil h.ne_nil
    have hfirst : isBlank first = false := by
      have hstart := List.dropWhile_eq_self_iff.1 h.trimStart_eq
      simp only [hchars] at hstart
      exact Bool.not_eq_true _ ▸ hstart (Nat.zero_lt_succ _)
    rw [isBlankText, hchars, List.all_cons, hfirst, Bool.false_and]
  have hprimitive : isPrimitiveName name = false := by
    have hnot := h.not_primitive
    rwa [String.ofList_toList, Bool.not_eq_true] at hnot
  have hend : brackets.isSuffixOf name.toList = false := by
    rw [Bool.eq_false_iff, ne_eq, List.isSuffixOf_iff_suffix, ← before?_eq_none_iff]
    exact h.dropBrackets?_eq
  have hstart : (name.toList.head? != some '[') = true := bne_iff_ne.2 h.head?_ne
  simp only [Name.isGeneratable, hblank, hprimitive, hend, hstart, Bool.not_false, Bool.and_self]

end Name

end TypeAtlas
