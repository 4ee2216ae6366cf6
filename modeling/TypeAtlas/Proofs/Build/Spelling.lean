/-
  Seeds whose names are not written in their normal form.

  A type may be asked for as an array of it, by its code, or with blanks around its
  name.  The name itself is taken in its normal form; so is the start of the way to all
  types above it.  The other directives look the name up as it is written, and under
  such a spelling nothing is declared.

  * `DirectiveSet.upward`: what is left of a set of directives then;
  * `Selection.ofSeeds_respelled`: the selection of one seed under another spelling of
    its name;
  * `Selection.ofSeeds_array`: it can be smaller than that of the name itself;
  * `Selection.introspectable_element`: what is selected for a name without directives is
    the element that taking its dimensions off leads to.
-/
import TypeAtlas.Proofs.Build.Union
import TypeAtlas.Proofs.Name.Component

namespace TypeAtlas

/-! ## Directives that do not look the name up -/

namespace DirectiveSet

variable {directives : DirectiveSet}

/-- The directive to all types above, if it is a member. -/
def upward (directives : DirectiveSet) : DirectiveSet :=
  filtered fun directive => decide (directive = .allSupertypes) && decide (directive ∈ directives)

theorem toList_upward :
    directives.upward.toList = directives.toList.filter fun d => decide (d = .allSupertypes) := by
  rw [directives.ordered, List.filter_filter]
  rfl

theorem mem_of_mem_upward {directive : Directive} (h : directive ∈ directives.upward) :
    directive ∈ directives := by
  rw [upward, mem_filtered, Bool.and_eq_true] at h
  exact of_decide_eq_true h.2

theorem upward_of_forall (h : ∀ directive ∈ directives, directive = .allSupertypes) :
    directives.upward = directives := by
  have hlist : directives.upward.toList = directives.toList := by
    rw [toList_upward, List.filter_eq_self]
    exact fun d hd => decide_eq_true (h d hd)
  cases hupward : directives.upward with
  | mk toList ordered =>
    rw [hupward] at hlist
    subst hlist
    rfl

end DirectiveSet

namespace Selection

variable {scope : Scope} {own external : List Declaration} {role : Role}
  {directives : DirectiveSet} {name normal : String}

/-! ## Spellings of one name -/

theorem admit?_respelled (hform : Name.normalForm? name = some normal) (role : Role) :
    admit? scope role name = admit? scope role normal := by
  rw [admit?, admit?, hform, Name.normalForm?_of_normalForm? hform]

theorem allAbove_respelled (hform : Name.normalForm? name = some normal) :
    allAbove scope name = allAbove scope normal := by
  rw [allAbove, allAbove, hform, Name.normalForm?_of_normalForm? hform]

/-- A name that nobody declares is led nowhere but by the directive to all types above. -/
theorem widen_eq_nil (h : scope.Of own external)
    (hundeclared : ∀ decl ∈ own ++ external, decl.name ≠ name) (role : Role) {directive : Directive}
    (hdirective : directive ≠ .allSupertypes) : widen scope role name directive = [] := by
  have hown : ¬ Declared own name := fun ⟨decl, hmem, hname⟩ =>
    hundeclared decl (List.mem_append_left _ hmem) hname
  have hfind : scope.find? name = none := Option.eq_none_iff_forall_ne_some.2 fun decl hdecl =>
    let ⟨hmem, hname⟩ := known_name (h.find?_eq_some_iff.1 hdecl)
    hundeclared decl hmem hname
  have hbelow : subtypesBelow scope role name = [] :=
    List.eq_nil_iff_forall_not_mem.2 fun _ hmem => hown ((mem_subtypesBelow h).1 hmem).1.1
  have hnext : (subtypeGraph scope role).next name = [] :=
    List.eq_nil_iff_forall_not_mem.2 fun _ hmem => hown ((mem_next_subtypeGraph h).1 hmem).1.1
  have hapi : publicApi scope name = [] := by rw [publicApi, hfind]
  cases directive with
  | directSubtypes => exact hbelow
  | allSubtypes => exact Graph.discover_eq_nil hnext
  | directSupertypes => simp only [widen, directlyAbove, hfind]
  | allSupertypes => exact absurd rfl hdirective
  | publicApi => exact hapi
  | publicApiSupertypes => rw [widen, hapi, List.flatMap_nil, List.append_nil]
  | publicApiSubtypes => rw [widen, hapi, List.flatMap_nil, List.append_nil]

/-! ## What a seed offers -/

theorem flatMap_widen_eq (hform : Name.normalForm? name = some normal) (role : Role)
    (hlost : ∀ directive ∈ directives, directive ≠ .allSupertypes →
      widen scope role name directive = []) :
    directives.toList.flatMap (widen scope role name) =
      directives.upward.toList.flatMap (widen scope role normal) := by
  rw [DirectiveSet.toList_upward]
  have hlist : ∀ list : List Directive, (∀ directive ∈ list, directive ∈ directives) →
      list.flatMap (widen scope role name) =
        (list.filter fun d => decide (d = .allSupertypes)).flatMap (widen scope role normal) := by
    intro list hsub
    induction list with
    | nil => rfl
    | cons directive rest ih =>
      obtain ⟨hmem, hrest⟩ := List.forall_mem_cons.1 hsub
      rw [List.flatMap_cons, ih hrest]
      by_cases hup : directive = .allSupertypes
      · rw [List.filter_cons_of_pos (by simp [hup]), List.flatMap_cons, hup]
        exact congrArg (· ++ _) (allAbove_respelled hform)
      · rw [List.filter_cons_of_neg (by simp [hup]), hlost directive hmem hup, List.nil_append]
  exact hlist directives.toList fun _ => id

/-- A seed under another spelling brings what the name brings by the directive to all types
    above, if the others are led nowhere. -/
theorem ofSeeds_upward (hform : Name.normalForm? name = some normal) (role : Role)
    (hlost : ∀ directive ∈ directives, directive ≠ .allSupertypes →
      widen scope role name directive = []) :
    ofSeeds scope [⟨name, role, directives⟩] =
      ofSeeds scope [⟨normal, role, directives.upward⟩] := by
  have hadmitted : ∀ asked, admitted scope asked [⟨name, role, directives⟩] =
      admitted scope asked [⟨normal, role, directives.upward⟩] := by
    intro asked
    simp only [admitted, List.flatMap_cons, List.flatMap_nil, List.append_nil, offers]
    by_cases hrole : role = asked
    · subst hrole
      simp only [if_true, List.filterMap_cons, admit?_respelled hform,
        flatMap_widen_eq hform role hlost]
    · by_cases hasked : asked = .reflective
      · subst hasked
        simp only [hrole, if_true, if_false, List.filterMap_cons, admit?_respelled hform]
      · simp only [hrole, hasked, if_false]
  simp only [ofSeeds, hadmitted]

theorem within_upward (name : String) (role : Role) (directives : DirectiveSet) :
    (ofSeeds scope [⟨name, role, directives.upward⟩]).Within
      (ofSeeds scope [⟨name, role, directives⟩]) :=
  within_of_selects <| List.forall_mem_singleton.2
    ⟨_, List.mem_singleton_self _, fun _ _ hselects =>
      hselects.mono fun _ hmem => DirectiveSet.mem_of_mem_upward hmem⟩

/-! ## One seed under another spelling -/

theorem undeclared_of_respelled
    (hnormal : ∀ decl ∈ own, Name.normalForm? decl.name = some decl.name)
    (hform : Name.normalForm? name = some normal) (hne : name ≠ normal)
    (hexternal : ∀ decl ∈ external, decl.name ≠ name) :
    ∀ decl ∈ own ++ external, decl.name ≠ name := by
  intro decl hmem
  rcases List.mem_append.1 hmem with hown | hout
  · rintro rfl
    rw [hnormal decl hown, Option.some.injEq] at hform
    exact hne hform
  · exact hexternal decl hout

/-- **A seed under another spelling of its name selects what the name selects with the directive
    to all types above and no other**, if no declaration from outside is spelled that way either.
    So the two select the same if and only if the other directives bring nothing; they do if there
    are no others, whatever comes from outside. -/
theorem ofSeeds_respelled {own external : List Declaration} (scope : Scope)
    (hown : Catalog.ofList own = .ok scope.catalog)
    (hexternal : Catalog.ofList external = .ok scope.external)
    (hnormal : ∀ decl ∈ own, Name.normalForm? decl.name = some decl.name)
    {name normal : String} (hform : Name.normalForm? name = some normal) (role : Role)
    (directives : DirectiveSet) :
    (name = normal ∨ (∀ directive ∈ directives, directive = .allSupertypes) →
      ofSeeds scope [⟨name, role, directives⟩] = ofSeeds scope [⟨normal, role, directives⟩]) ∧
    (name ≠ normal → (∀ decl ∈ external, decl.name ≠ name) →
      ofSeeds scope [⟨name, role, directives⟩] =
          ofSeeds scope [⟨normal, role, directives.upward⟩] ∧
        ((ofSeeds scope [⟨name, role, directives⟩]).Alike
            (ofSeeds scope [⟨normal, role, directives⟩]) ↔
          (ofSeeds scope [⟨normal, role, directives⟩]).Within
            (ofSeeds scope [⟨normal, role, directives.upward⟩]))) := by
  refine ⟨?_, fun hne hout => ?_⟩
  · rintro (rfl | honly)
    · rfl
    · have hlost : ∀ directive ∈ directives, directive ≠ .allSupertypes →
          widen scope role name directive = [] :=
        fun directive hmem hother => absurd (honly directive hmem) hother
      rw [ofSeeds_upward hform role hlost, DirectiveSet.upward_of_forall honly]
  · have hundeclared := undeclared_of_respelled hnormal hform hne hout
    have hsame : ofSeeds scope [⟨name, role, directives⟩] =
        ofSeeds scope [⟨normal, role, directives.upward⟩] :=
      ofSeeds_upward hform role fun _ _ => widen_eq_nil ⟨hown, hexternal⟩ hundeclared role
    refine ⟨hsame, ?_⟩
    rw [hsame]
    constructor
    · exact fun halike part found => (halike part found).2
    · exact fun hwithin => .of_within (within_upward normal role directives) hwithin

/-! ## An array of a class -/

/-- A class. -/
def root : Declaration := .ofName "a.Base" .cls

/-- A class below it. -/
def twig : Declaration := { Declaration.ofName "a.Leaf" .cls with superclass := some "a.Base" }

theorem normalForm?_array : Name.normalForm? "a.Base[]" = some "a.Base" := by decide +kernel

theorem normalForm?_of_mem_twig :
    ∀ decl ∈ [root, twig], Name.normalForm? decl.name = some decl.name := by decide +kernel

/-- All types above an array are those above its element. -/
theorem ofSeeds_respelled_above : ∃ scope : Scope,
    Catalog.ofList [root, twig] = .ok scope.catalog ∧ Catalog.ofList [] = .ok scope.external ∧
    ofSeeds scope [⟨"a.Base[]", .reflective, .ofList [.allSupertypes]⟩] =
      ofSeeds scope [⟨"a.Base", .reflective, .ofList [.allSupertypes]⟩] := by
  obtain ⟨catalog, hcatalog⟩ : ∃ catalog, Catalog.ofList [root, twig] = .ok catalog := ⟨_, rfl⟩
  obtain ⟨outside, houtside⟩ : ∃ catalog, Catalog.ofList [] = .ok catalog := ⟨_, rfl⟩
  refine ⟨⟨catalog, outside⟩, hcatalog, houtside, ?_⟩
  refine (ofSeeds_respelled ⟨catalog, outside⟩ hcatalog houtside normalForm?_of_mem_twig
    normalForm?_array .reflective _).1 (Or.inr fun directive hmem => ?_)
  exact List.mem_singleton.1 (DirectiveSet.mem_ofList.1 hmem)

/-- **The class below is found for the name, but not for the array of it.** -/
theorem ofSeeds_array : ∃ scope : Scope,
    Catalog.ofList [root, twig] = .ok scope.catalog ∧ Catalog.ofList [] = .ok scope.external ∧
    (∀ decl ∈ [root, twig], Name.normalForm? decl.name = some decl.name) ∧
    Name.normalForm? "a.Base[]" = some "a.Base" ∧
    "a.Leaf" ∈ (ofSeeds scope
      [⟨"a.Base", .reflective, .ofList [.directSubtypes]⟩]).introspectable ∧
    "a.Leaf" ∉ (ofSeeds scope
      [⟨"a.Base[]", .reflective, .ofList [.directSubtypes]⟩]).introspectable := by
  exact ⟨⟨_, _⟩, rfl, rfl, normalForm?_of_mem_twig, normalForm?_array, by decide +kernel,
    by decide +kernel⟩

/-! ## Names without directives -/

theorem normalForm?_of_admit? {offered taken : String}
    (h : admit? scope role offered = some taken) : Name.normalForm? offered = some taken :=
  (Option.filter_eq_some_iff.1 h).1

theorem admit?_reflective (scope : Scope) (name : String) :
    admit? scope .reflective name = Name.normalForm? name := by
  rw [admit?]
  cases Name.normalForm? name <;> rfl

/-- A name alone is selected in its normal form, whatever it is asked for. -/
theorem toList_introspectable_bare (scope : Scope) (role : Role) (name : String) :
    (ofSeeds scope [⟨name, role, .empty⟩]).introspectable.toList =
      (Name.normalForm? name).toList := by
  have hoffers : offers scope .reflective ⟨name, role, .empty⟩ = [name] := by cases role <;> rfl
  have hreflective : (admitted scope .reflective [⟨name, role, .empty⟩]).toList =
      (Name.normalForm? name).toList := by
    rw [admitted, List.flatMap_singleton, hoffers, List.filterMap_cons, admit?_reflective]
    cases Name.normalForm? name <;> rfl
  have hproxy : ∀ taken ∈ (admitted scope .proxy [⟨name, role, .empty⟩]).toList,
      taken ∈ admitted scope .reflective [⟨name, role, .empty⟩] := by
    intro taken htaken
    obtain ⟨seed, hseed, offered, hoffered, hadmit⟩ := mem_admitted.1 htaken
    obtain rfl := List.mem_singleton.1 hseed
    have hname : offered = name := by
      cases role with
      | reflective => cases hoffered
      | proxy => exact List.mem_singleton.1 hoffered
    rw [NameSet.mem_def, hreflective, Option.mem_toList, ← hname]
    exact normalForm?_of_admit? hadmit
  rw [ofSeeds, NameSet.union, NameSet.insertAll_of_subset hproxy, hreflective]

/-- **Taking dimensions off a name, one after another, leads to what is selected for it.**  The
    name has the normal form of its component, so it has that of its element, and nothing is
    selected for an array of a primitive. -/
theorem introspectable_element (scope : Scope) (role : Role) (name : String) :
    (∀ component, Name.component? name = some component →
      Name.normalForm? name = Name.normalForm? component) ∧
    Relation.ReflTransGen (fun a b => Name.component? a = some b) name (Name.element name) ∧
    Name.component? (Name.element name) = none ∧
    Name.normalForm? (Name.element name) = Name.normalForm? name ∧
    (ofSeeds scope [⟨name, role, .empty⟩]).introspectable.toList =
      (Name.normalForm? (Name.element name)).toList ∧
    (isPrimitiveName (Name.element name) = true → Name.normalForm? name = none) := by
  refine ⟨fun _ => Name.normalForm?_of_component?, Name.reaches_element name,
    Name.component?_element name, Name.normalForm?_element name, ?_, fun hprimitive => ?_⟩
  · rw [toList_introspectable_bare, Name.normalForm?_element]
  · rw [← Name.normalForm?_element, Name.normalForm?_of_isPrimitiveName hprimitive]

/-- Spellings are mixed, and blanks stand between the dimensions. -/
theorem introspectable_element_mixed :
    Name.component? "[[Lgeo.Point;[] " = some "[Lgeo.Point;[] " ∧
      Name.normalForm? "[[Lgeo.Point;[] " = Name.normalForm? "[Lgeo.Point;[] " ∧
      isPrimitiveName (Name.element "[[I[]") = true ∧ Name.normalForm? "[[I[]" = none := by
  have hcomponent : Name.component? "[[Lgeo.Point;[] " = some "[Lgeo.Point;[] " := by
    decide +kernel
  have hprimitive : isPrimitiveName (Name.element "[[I[]") = true := by decide +kernel
  exact ⟨hcomponent,
    (introspectable_element ⟨.empty, .empty⟩ .reflective "[[Lgeo.Point;[] ").1 _ hcomponent,
    hprimitive,
    (introspectable_element ⟨.empty, .empty⟩ .proxy "[[I[]").2.2.2.2.2 hprimitive⟩

end Selection

end TypeAtlas
