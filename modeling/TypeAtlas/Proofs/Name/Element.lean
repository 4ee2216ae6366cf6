/-
  The elements of array names.

  Taking dimensions off a name one after another ends: each step but the one to the name
  of a primitive makes the name shorter, and a primitive is no array.  What is left is
  the element of the name.

  * `Name.ComponentOf`: the four ways in which a name is the component of another;
  * `Name.rank` falls with every dimension taken off, `Name.dimensions` counts them;
  * `Name.Spelled` is the grammar of type names: elements and arrays of them, in both
    spellings and mixed;
  * `Name.isElement_element_iff`: the element of an array name is one that types can have
    if and only if the name is spelled by the grammar.
-/
import Mathlib.Logic.Relation
import TypeAtlas.Name.Array

namespace TypeAtlas.Name

variable {cs ds : List Char} {name component : String} {p : Primitive}

/-! ## One dimension -/

theorem dropBrackets?_append (cs : List Char) : dropBrackets? (cs ++ brackets) = some cs :=
  Text.before?_append brackets cs

/-- The ways in which a name is the component of another. -/
inductive ComponentOf : List Char → List Char → Prop where
  /-- Brackets stand behind it. -/
  | brackets {ds : List Char} (hne : ds ≠ []) : ComponentOf ds (ds ++ brackets)
  /-- A bracket stands in front of another; brackets at the end would be taken off first. -/
  | outer {rest : List Char} (hdrop : dropBrackets? ('[' :: '[' :: rest) = none) :
    ComponentOf ('[' :: rest) ('[' :: '[' :: rest)
  | cls {ds : List Char} (hne : ds ≠ []) : ComponentOf ds ('[' :: 'L' :: (ds ++ [';']))
  | letter {p : Primitive} (hp : p ≠ .void) : ComponentOf p.name.toList ['[', p.code]

theorem componentOf_of_eq_some (h : componentChars? cs = some ds) : ComponentOf ds cs := by
  unfold componentChars? at h
  split at h
  · next front hdrop =>
    split at h
    · cases h
    · next hne =>
      cases h
      rw [Text.before?_eq_some_iff.1 hdrop]
      exact .brackets hne
  · next hdrop =>
    split at h
    · next rest =>
      unfold codedComponent? at h
      split at h
      · next inner =>
        cases h
        exact .outer hdrop
      · next body =>
        obtain ⟨hbody, hne⟩ := Option.filter_eq_some_iff.1 h
        rw [Text.before?_eq_some_iff.1 hbody]
        exact .cls (of_decide_eq_true hne)
      · next code _ _ =>
        obtain ⟨p, hp, rfl⟩ := Option.map_eq_some_iff.1 h
        obtain ⟨hcode, hvoid⟩ := Option.filter_eq_some_iff.1 hp
        obtain rfl : p.code = code := by simpa using List.find?_some hcode
        exact .letter (of_decide_eq_true hvoid)
      · cases h
    · cases h

theorem dropBrackets?_cls (ds : List Char) :
    dropBrackets? ('[' :: 'L' :: (ds ++ [';'])) = none := by
  rw [dropBrackets?, Text.before?_eq_none_iff]
  rintro ⟨front, hfront⟩
  have hlast := congrArg List.getLast? hfront
  simp [brackets, List.getLast?_cons] at hlast

theorem eq_some_of_componentOf (h : ComponentOf ds cs) : componentChars? cs = some ds := by
  cases h with
  | brackets hne =>
    unfold componentChars?
    rw [dropBrackets?_append]
    exact if_neg hne
  | outer hdrop =>
    rw [componentChars?, hdrop]
    rfl
  | cls hne =>
    rw [componentChars?, dropBrackets?_cls]
    simp only [codedComponent?, dropSemicolon?, Text.before?_append, Option.filter_some, hne,
      decide_not, decide_false, Bool.not_false, if_true]
  | @letter p hp => cases p <;> first | exact absurd rfl hp | decide

theorem componentChars?_eq_some_iff : componentChars? cs = some ds ↔ ComponentOf ds cs :=
  ⟨componentOf_of_eq_some, eq_some_of_componentOf⟩

theorem component?_eq_some_iff :
    component? name = some component ↔ ComponentOf component.toList name.toList := by
  rw [← componentChars?_eq_some_iff, component?, Option.map_eq_some_iff]
  constructor
  · rintro ⟨ds, hds, rfl⟩
    rwa [String.toList_ofList]
  · exact fun h => ⟨_, h, String.ofList_toList⟩

theorem componentChars?_name (p : Primitive) : componentChars? p.name.toList = none := by
  cases p <;> decide

namespace ComponentOf

/-- Only the name of a primitive can be longer than that of an array of it, and it is no array. -/
theorem length_lt (h : ComponentOf ds cs) (harray : componentChars? ds ≠ none) :
    ds.length < cs.length := by
  cases h with
  | brackets => simp [Name.brackets]
  | outer => simp
  | cls =>
    simp only [List.length_cons, List.length_append]
    omega
  | letter => exact absurd (componentChars?_name _) harray

theorem ne_nil (h : ComponentOf ds cs) : cs ≠ [] := by
  cases h with
  | brackets hne => simp [hne]
  | outer | cls | letter => exact List.cons_ne_nil _ _

theorem component_ne_nil (h : ComponentOf ds cs) : ds ≠ [] := by
  cases h with
  | brackets hne | cls hne => exact hne
  | outer => exact List.cons_ne_nil _ _
  | @letter p => cases p <;> decide

end ComponentOf

/-! ## All dimensions -/

/-- The length of an array name; nothing for other names. -/
def rank (name : String) : Nat :=
  if component? name = none then 0 else name.toList.length

/-- The component of an array name is shorter, or no array. -/
theorem rank_lt (h : component? name = some component) : rank component < rank name := by
  have hcomponent := component?_eq_some_iff.1 h
  have hname : rank name = name.toList.length := by rw [rank, h, if_neg (Option.some_ne_none _)]
  rw [hname, rank]
  split
  · exact List.length_pos_iff.2 hcomponent.ne_nil
  · next harray => exact hcomponent.length_lt (mt Option.map_eq_none_iff.2 harray)

/-- How many dimensions a name has. -/
def dimensions (name : String) : Nat :=
  match _h : component? name with
  | some component => dimensions component + 1
  | none => 0
termination_by rank name
decreasing_by exact rank_lt _h

/-- What is left of a name without its dimensions. -/
def element (name : String) : String :=
  match _h : component? name with
  | some component => element component
  | none => name
termination_by rank name
decreasing_by exact rank_lt _h

theorem dimensions_of_some (h : component? name = some component) :
    dimensions name = dimensions component + 1 := by
  rw [dimensions]
  split
  · next other hother => rw [Option.some.inj (h.symm.trans hother)]
  · next hnone => rw [h] at hnone; cases hnone

theorem dimensions_of_none (h : component? name = none) : dimensions name = 0 := by
  rw [dimensions]
  split
  · next other hother => rw [h] at hother; cases hother
  · rfl

theorem element_of_some (h : component? name = some component) :
    element name = element component := by
  rw [element]
  split
  · next other hother => rw [Option.some.inj (h.symm.trans hother)]
  · next hnone => rw [h] at hnone; cases hnone

theorem element_of_none (h : component? name = none) : element name = name := by
  rw [element]
  split
  · next other hother => rw [h] at hother; cases hother
  · rfl

theorem component?_element (name : String) : component? (element name) = none := by
  fun_induction element name with
  | case1 name component h ih => exact ih
  | case2 name h => exact h

/-- One dimension after another leads to the element. -/
theorem reaches_element (name : String) :
    Relation.ReflTransGen (fun a b => component? a = some b) name (element name) := by
  fun_induction element name with
  | case1 name component h ih => exact ih.head h
  | case2 name h => exact .refl

theorem dimensions_lt_of_transGen {a b : String}
    (h : Relation.TransGen (fun a b => component? a = some b) a b) :
    dimensions b < dimensions a := by
  induction h with
  | single hstep => exact dimensions_of_some hstep ▸ Nat.lt_succ_self _
  | tail _ hstep ih => exact Nat.lt_trans (dimensions_of_some hstep ▸ Nat.lt_succ_self _) ih

/-- No name is reached from itself by taking dimensions off. -/
theorem not_transGen_component (name : String) :
    ¬ Relation.TransGen (fun a b => component? a = some b) name name :=
  fun h => Nat.lt_irrefl _ (dimensions_lt_of_transGen h)

/-! ## Elements and names of types -/

/-- An element that types can have: not `void`, without a bracket at its start and without
    brackets at its end. -/
structure IsElement (cs : List Char) : Prop where
  not_void : cs ≠ Primitive.void.name.toList
  head?_ne : cs.head? ≠ some '['
  dropBrackets?_eq : dropBrackets? cs = none

instance : DecidablePred IsElement := fun cs =>
  decidable_of_iff
    (cs ≠ Primitive.void.name.toList ∧ cs.head? ≠ some '[' ∧ dropBrackets? cs = none)
    ⟨fun h => ⟨h.1, h.2.1, h.2.2⟩, fun h => ⟨h.1, h.2, h.3⟩⟩

/-- The names of elements and of arrays of them.  A bracket stands in front of another array of
    its own spelling only; brackets may stand behind any name. -/
inductive Spelled : List Char → Prop where
  | element {cs : List Char} (h : IsElement cs) (hne : cs ≠ []) : Spelled cs
  | brackets {cs : List Char} (h : Spelled cs) : Spelled (cs ++ brackets)
  | letter {p : Primitive} (outer : Nat) (hp : p ≠ .void) :
    Spelled (.replicate outer '[' ++ ['[', p.code])
  | cls {cs : List Char} (outer : Nat) (h : Spelled cs) :
    Spelled (.replicate outer '[' ++ '[' :: 'L' :: (cs ++ [';']))

theorem isElement_name (hp : p ≠ .void) : IsElement p.name.toList := by
  cases p <;> first | exact absurd rfl hp | decide

theorem IsElement.componentChars?_eq (h : IsElement cs) : componentChars? cs = none := by
  simp only [componentChars?, h.dropBrackets?_eq]
  split
  · exact absurd rfl h.head?_ne
  · rfl

theorem Spelled.ne_nil (h : Spelled cs) : cs ≠ [] := by
  cases h with
  | element _ hne => exact hne
  | brackets => simp [Name.brackets]
  | letter => simp
  | cls => simp

/-! ## From the element outwards -/

/-- A name is spelled if its component is. -/
theorem ComponentOf.spelled (h : ComponentOf ds cs) (hds : Spelled ds) : Spelled cs := by
  cases h with
  | brackets => exact hds.brackets
  | @outer rest hdrop =>
    generalize hinner : '[' :: rest = inner at hds hdrop
    cases hds with
    | element helement => exact absurd (hinner ▸ rfl) helement.head?_ne
    | brackets =>
      rw [← List.cons_append, dropBrackets?_append] at hdrop
      cases hdrop
    | letter outer hp => exact .letter (outer + 1) hp
    | cls outer hcls => exact .cls (outer + 1) hcls
  | cls => exact .cls 0 hds
  | letter hp => exact .letter 0 hp

theorem spelled_of_isElement_element (hne : name.toList ≠ [])
    (h : IsElement (element name).toList) : Spelled name.toList := by
  fun_induction element name with
  | case1 name component hname ih =>
    have hcomponent := component?_eq_some_iff.1 hname
    exact hcomponent.spelled (ih hcomponent.component_ne_nil h)
  | case2 name _ => exact .element h hne

/-! ## From the name inwards -/

theorem element_ofList (h : ComponentOf ds cs) :
    element (.ofList cs) = element (.ofList ds) := by
  refine element_of_some (component?_eq_some_iff.2 ?_)
  rwa [String.toList_ofList, String.toList_ofList]

theorem element_ofList_of_none (h : componentChars? cs = none) :
    (element (.ofList cs)).toList = cs := by
  have hnone : component? (.ofList cs) = none := by
    rw [component?, String.toList_ofList, h, Option.map_none]
  rw [element_of_none hnone, String.toList_ofList]

theorem dropBrackets?_cons_cons {rest : List Char} :
    dropBrackets? ('[' :: '[' :: rest) = none ↔ dropBrackets? ('[' :: rest) = none := by
  have hfirst : brackets ≠ '[' :: '[' :: rest := by simp [brackets]
  rw [dropBrackets?, dropBrackets?, Text.before?_eq_none_iff, Text.before?_eq_none_iff,
    List.suffix_cons_iff, or_iff_right hfirst]

/-- Brackets in front of an array of their own spelling are dimensions. -/
theorem element_replicate {rest : List Char} (outer : Nat)
    (h : dropBrackets? ('[' :: rest) = none) :
    element (.ofList (.replicate outer '[' ++ '[' :: rest)) = element (.ofList ('[' :: rest)) := by
  induction outer generalizing rest with
  | zero => rfl
  | succ outer ih =>
    have hdrop := dropBrackets?_cons_cons.2 h
    rw [List.replicate_succ', List.append_assoc, List.singleton_append, ih hdrop,
      element_ofList (.outer hdrop)]

theorem isElement_element_of_spelled (h : Spelled cs) :
    IsElement (element (.ofList cs)).toList := by
  induction h with
  | element h _ => rwa [element_ofList_of_none h.componentChars?_eq]
  | brackets h ih => rwa [element_ofList (.brackets h.ne_nil)]
  | @letter p outer hp =>
    have hdrop : dropBrackets? ['[', p.code] = none := by cases p <;> decide
    rw [element_replicate outer hdrop, element_ofList (.letter hp),
      element_ofList_of_none (componentChars?_name p)]
    exact isElement_name hp
  | cls outer h ih =>
    rwa [element_replicate outer (dropBrackets?_cls _), element_ofList (.cls h.ne_nil)]

/-- **The element of an array name is one that types can have if and only if the name is spelled
    by the grammar.**  Each step looks at the outermost dimension alone, so an array name can have
    an element that is none. -/
theorem isElement_element_iff {name component : String} (h : component? name = some component) :
    Relation.TransGen (fun a b => component? a = some b) name (element name) ∧
      component? (element name) = none ∧
      (IsElement (element name).toList ↔ Spelled name.toList) := by
  have hne : name.toList ≠ [] := (component?_eq_some_iff.1 h).ne_nil
  refine ⟨?_, component?_element name, spelled_of_isElement_element hne, fun hspelled => ?_⟩
  · rw [element_of_some h]
    exact .head' h (reaches_element component)
  · have helement := isElement_element_of_spelled hspelled
    rwa [String.ofList_toList] at helement

/-- The two spellings can be mixed. -/
theorem isElement_element_mixed :
    component? "[[Lgeo.Point;[]" = some "[[Lgeo.Point;" ∧ Spelled "[[Lgeo.Point;[]".toList ∧
      IsElement (element "[[Lgeo.Point;[]").toList := by
  have hcomponent : component? "[[Lgeo.Point;[]" = some "[[Lgeo.Point;" := by decide +kernel
  have hpoint : Spelled "geo.Point".toList := .element (by decide +kernel) (by decide +kernel)
  have hspelled : Spelled "[[Lgeo.Point;[]".toList := .brackets (.cls 1 hpoint)
  exact ⟨hcomponent, hspelled, (isElement_element_iff hcomponent).2.2.2 hspelled⟩

/-- **Array names with an element that types cannot have**: what looks like an array name but is
    none, and `void`. -/
theorem component?_malformed :
    (component? "[[Q" = some "[Q" ∧ component? "[Q" = none ∧ ¬ IsElement "[Q".toList) ∧
      (component? "[[V" = some "[V" ∧ component? "[V" = none ∧ ¬ IsElement "[V".toList) ∧
      (component? "[[Lfoo" = some "[Lfoo" ∧ component? "[Lfoo" = none ∧
        ¬ IsElement "[Lfoo".toList) ∧
      (component? "void[]" = some "void" ∧ component? "void" = none ∧
        ¬ IsElement "void".toList) ∧
      component? "[Lvoid;" = some "void" := by
  decide +kernel

end TypeAtlas.Name
