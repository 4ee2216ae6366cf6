/-
  Selections are well formed.

  Declarations and seeds may be spelled in any way: names with blanks around them,
  arrays in either spelling, brackets that belong to nothing, primitives, empty texts.
  A selection holds none of these, since names are admitted in their normal form only.

  * `Selection.normal_of_mem_introspectable`: names are admitted in their normal form;
  * `Selection.wellFormed_ofSeeds`: every selection is well formed.
-/
import TypeAtlas.Proofs.Build.Selection

namespace TypeAtlas

namespace Selection

variable {scope : Scope} {own external : List Declaration} {name : String} {role : Role}
  {seeds : List Seed}

/-! ## What is admitted -/

theorem normal_of_mem_admitted (h : name ∈ admitted scope role seeds) :
    Name.Normal name.toList := by
  obtain ⟨_, -, offered, -, htaken⟩ := mem_admitted.1 h
  obtain ⟨hform, -⟩ := Option.filter_eq_some_iff.1 htaken
  obtain ⟨cs, hcs, rfl⟩ := Option.map_eq_some_iff.1 hform
  rw [String.toList_ofList]
  exact Name.normal_of_normalChars? hcs

theorem normal_of_mem_introspectable (h : name ∈ (ofSeeds scope seeds).introspectable) :
    Name.Normal name.toList :=
  (NameSet.mem_union.1 h).elim normal_of_mem_admitted normal_of_mem_admitted

/-! ## Selections -/

instance : Decidable (Declared own name) :=
  inferInstanceAs (Decidable (∃ decl ∈ own, decl.name = name))

/-- A selection that types can be compiled for, over what a build declares and what comes from
    outside. -/
structure WellFormed (own external : List Declaration) (selection : Selection) : Prop where
  /-- Names are in their normal form. -/
  normal : ∀ name ∈ selection.introspectable, Name.normalForm? name = some name
  /-- A type can be compiled for each. -/
  generatable : ∀ name ∈ selection.introspectable, Name.isGeneratable name = true
  /-- None is built in. -/
  not_primitive : ∀ name ∈ selection.introspectable, Primitive.ofName? name = none
  /-- None is an array. -/
  not_array : ∀ name ∈ selection.introspectable, Name.component? name = none
  /-- What can have stand-ins is introspected, too. -/
  subset : ∀ name ∈ selection.proxyable, name ∈ selection.introspectable
  /-- Stand-ins are for interfaces. -/
  interfaces : ∀ name ∈ selection.proxyable, KnownInterface own external name
  /-- Unresolved is what the build does not declare, in the order of introspection. -/
  unresolved_eq : selection.unresolved.toList =
    selection.introspectable.toList.filter fun name => decide (¬ Declared own name)

/-- **Every selection is well formed**, whatever names, supertypes and signatures the
    declarations and the seeds hold. -/
theorem wellFormed_ofSeeds {own external : List Declaration} (scope : Scope)
    (hown : Catalog.ofList own = .ok scope.catalog)
    (hexternal : Catalog.ofList external = .ok scope.external) (seeds : List Seed) :
    (ofSeeds scope seeds).WellFormed own external := by
  have h : scope.Of own external := ⟨hown, hexternal⟩
  have hgeneratable : ∀ name ∈ (ofSeeds scope seeds).introspectable,
      Name.isGeneratable name = true :=
    fun name hmem => (normal_of_mem_introspectable hmem).isGeneratable
  exact {
    normal := fun name hmem => (normal_of_mem_introspectable hmem).normalForm?_eq
    generatable := hgeneratable
    not_primitive := fun name hmem => (Name.ordinary_of_isGeneratable (hgeneratable name hmem)).2.1
    not_array := fun name hmem => (Name.ordinary_of_isGeneratable (hgeneratable name hmem)).2.2
    subset := fun name hmem => NameSet.mem_union.2 (Or.inr hmem)
    interfaces := fun name hmem => (isInterface_iff h).1 (isInterface_of_mem_proxyable hmem)
    unresolved_eq := by
      have hkept : (fun name => !scope.catalog.contains name) =
          fun name => decide (¬ Declared own name) := by
        funext name
        simp only [← h.contains_iff, Bool.not_eq_true, Bool.decide_eq_false]
      exact congrArg ((ofSeeds scope seeds).introspectable.toList.filter ·) hkept }

/-- A class whose interfaces are spelled as arrays of an interface and of a primitive, and as a
    blank. -/
def strange : Declaration :=
  { Declaration.ofName "a.Leaf" .cls with interfaces := ["[[Llib.Marker;", "int[]", " "] }

/-- What is selected has none of the spellings of the seeds and of the supertypes. -/
theorem wellFormed_ofSeeds_strange : ∃ scope : Scope,
    Catalog.ofList [strange] = .ok scope.catalog ∧ Catalog.ofList [marker] = .ok scope.external ∧
    let selection := ofSeeds scope [⟨"a.Leaf", .reflective, .ofList [.directSupertypes]⟩,
      ⟨" [Llib.Marker;[] ", .proxy, .ofList []⟩]
    selection.introspectable.toList = ["a.Leaf", "lib.Marker"] ∧
      selection.proxyable.toList = ["lib.Marker"] ∧
      selection.unresolved.toList = ["lib.Marker"] ∧ selection.WellFormed [strange] [marker] :=
  ⟨⟨_, _⟩, rfl, rfl, by decide +kernel, by decide +kernel, by decide +kernel,
    wellFormed_ofSeeds ⟨_, _⟩ rfl rfl _⟩

end Selection

end TypeAtlas
