/-
  Selections of lists of seeds taken together.

  Every seed offers its names on its own, whatever the seeds before it brought.  So
  the sets of a selection are made of those of its seeds, one by one.

  * `Selection.Part` and `Selection.part`: the three sets of a selection;
  * `Selection.mem_part_iff`: a name is selected if and only if some seed alone
    selects it;
  * `Selection.part_append`: the selection of two lists joined is the union of their
    selections, and a list that is repeated selects what it selects once, in the same
    order.
-/
import TypeAtlas.Proofs.Build.Selection

namespace TypeAtlas

/-! ## Insertions that change nothing -/

namespace NameSet

variable {set : NameSet} {names others : List String}

theorem insertAll_append :
    set.insertAll (names ++ others) = (set.insertAll names).insertAll others :=
  List.foldl_append

theorem insertAll_of_subset (h : ∀ name ∈ names, name ∈ set) : set.insertAll names = set := by
  induction names with
  | nil => rfl
  | cons name rest ih =>
    obtain ⟨hname, hrest⟩ := List.forall_mem_cons.1 h
    have hinsert : set.insert name = set := dif_pos hname
    rw [insertAll, List.foldl_cons, hinsert]
    exact ih hrest

/-- What was inserted once is not inserted again. -/
theorem insertAll_twice : set.insertAll (names ++ names) = set.insertAll names := by
  rw [insertAll_append]
  exact insertAll_of_subset fun name hname => mem_insertAll.2 (Or.inr hname)

end NameSet

/-! ## The sets of a selection -/

namespace Selection

/-- One of the three sets of a selection. -/
inductive Part where
  | introspectable
  | proxyable
  | unresolved

def part (selection : Selection) : Part → NameSet
  | .introspectable => selection.introspectable
  | .proxyable => selection.proxyable
  | .unresolved => selection.unresolved

/-- Every set of a selection lies in that of another. -/
def Within (selection other : Selection) : Prop :=
  ∀ part name, name ∈ selection.part part → name ∈ other.part part

/-- Two selections with the same sets, in whatever order. -/
def Alike (selection other : Selection) : Prop :=
  ∀ part name, name ∈ selection.part part ↔ name ∈ other.part part

variable {scope : Scope} {seeds others : List Seed} {name : String}

theorem Alike.of_within {selection other : Selection} (h : selection.Within other)
    (h' : other.Within selection) : selection.Alike other :=
  fun part name => ⟨h part name, h' part name⟩

/-! ## Seed by seed -/

/-- A seed brings a name in a role. -/
def Brings (scope : Scope) (role : Role) (seed : Seed) (name : String) : Prop :=
  ∃ offered ∈ offers scope role seed, admit? scope role offered = some name

/-- A seed selects a name for one of the three sets. -/
def Selects (scope : Scope) (seed : Seed) (name : String) : Part → Prop
  | .introspectable => Brings scope .reflective seed name ∨ Brings scope .proxy seed name
  | .proxyable => Brings scope .proxy seed name
  | .unresolved =>
    (Brings scope .reflective seed name ∨ Brings scope .proxy seed name) ∧
      scope.catalog.contains name = false

/-- **A name is selected if and only if one of the seeds selects it by itself.** -/
theorem mem_part_iff (part : Part) :
    name ∈ (ofSeeds scope seeds).part part ↔ ∃ seed ∈ seeds, Selects scope seed name part := by
  have hintrospectable : name ∈ (ofSeeds scope seeds).introspectable ↔
      ∃ seed ∈ seeds, Brings scope .reflective seed name ∨ Brings scope .proxy seed name := by
    simp only [ofSeeds, NameSet.mem_union, mem_admitted, Brings, and_or_left, exists_or]
  cases part with
  | introspectable => exact hintrospectable
  | proxyable => exact mem_admitted
  | unresolved =>
    have hunresolved : name ∈ (ofSeeds scope seeds).unresolved ↔
        name ∈ (ofSeeds scope seeds).introspectable ∧ scope.catalog.contains name = false := by
      simp only [ofSeeds, NameSet.mem_filter, Bool.not_eq_true']
    refine hunresolved.trans ?_
    rw [hintrospectable]
    constructor
    · rintro ⟨⟨seed, hseed, hbrings⟩, hforeign⟩
      exact ⟨seed, hseed, hbrings, hforeign⟩
    · rintro ⟨seed, hseed, hbrings, hforeign⟩
      exact ⟨⟨seed, hseed, hbrings⟩, hforeign⟩

/-- More seeds select no less. -/
theorem within_of_selects
    (h : ∀ seed ∈ seeds, ∃ seed' ∈ others, ∀ part name,
      Selects scope seed name part → Selects scope seed' name part) :
    (ofSeeds scope seeds).Within (ofSeeds scope others) := by
  intro part name hname
  obtain ⟨seed, hseed, hselects⟩ := (mem_part_iff part).1 hname
  obtain ⟨seed', hseed', hmore⟩ := h seed hseed
  exact (mem_part_iff part).2 ⟨seed', hseed', hmore part name hselects⟩

theorem within_of_subset (h : seeds ⊆ others) :
    (ofSeeds scope seeds).Within (ofSeeds scope others) :=
  within_of_selects fun seed hseed => ⟨seed, h hseed, fun _ _ => id⟩

/-! ## More directives -/

/-- A seed with more directives brings no less. -/
theorem Brings.mono {role asked : Role} {start : String} {directives more : DirectiveSet}
    (h : Brings scope role ⟨start, asked, directives⟩ name)
    (hmore : ∀ directive ∈ directives, directive ∈ more) :
    Brings scope role ⟨start, asked, more⟩ name := by
  obtain ⟨offered, hoffered, hadmitted⟩ := h
  refine ⟨offered, ?_, hadmitted⟩
  by_cases hrole : asked = role
  · simp only [offers, hrole, if_true, List.mem_cons, List.mem_flatMap] at hoffered ⊢
    rcases hoffered with hname | ⟨directive, hmem, hwiden⟩
    · exact Or.inl hname
    · exact Or.inr ⟨directive, hmore directive hmem, hwiden⟩
  · simpa only [offers, hrole, if_false] using hoffered

theorem Selects.mono {asked : Role} {start : String} {directives more : DirectiveSet} {part : Part}
    (h : Selects scope ⟨start, asked, directives⟩ name part)
    (hmore : ∀ directive ∈ directives, directive ∈ more) :
    Selects scope ⟨start, asked, more⟩ name part := by
  cases part with
  | introspectable => exact h.imp (·.mono hmore) (·.mono hmore)
  | proxyable => exact Brings.mono h hmore
  | unresolved => exact ⟨h.1.imp (·.mono hmore) (·.mono hmore), h.2⟩

/-- A seed with one more directive. -/
def withDirective (seed : Seed) (directive : Directive) : Seed :=
  { seed with directives := seed.directives.insert directive }

theorem within_withDirective (before after : List Seed) (seed : Seed) (directive : Directive) :
    (ofSeeds scope (before ++ seed :: after)).Within
      (ofSeeds scope (before ++ withDirective seed directive :: after)) := by
  refine within_of_selects fun seed' hseed' => ?_
  rcases List.mem_append.1 hseed' with hbefore | hrest
  · exact ⟨seed', List.mem_append_left _ hbefore, fun _ _ => id⟩
  · rcases List.mem_cons.1 hrest with rfl | hafter
    · exact ⟨withDirective seed' directive, List.mem_append_right _ List.mem_cons_self,
        fun _ _ hselects => hselects.mono fun _ hmem => DirectiveSet.mem_insert.2 (Or.inr hmem)⟩
    · exact ⟨seed', List.mem_append_right _ (List.mem_cons_of_mem _ hafter), fun _ _ => id⟩

/-! ## Lists of seeds joined -/

theorem admitted_twice (role : Role) :
    admitted scope role (seeds ++ seeds) = admitted scope role seeds := by
  rw [admitted, List.flatMap_append, List.filterMap_append]
  exact NameSet.insertAll_twice

theorem ofSeeds_twice (scope : Scope) (seeds : List Seed) :
    ofSeeds scope (seeds ++ seeds) = ofSeeds scope seeds := by
  simp only [ofSeeds, admitted_twice]

/-- **The selection of two lists of seeds joined is the union of their selections**, set by set.
    So it does not matter in which order seeds come and how often, more seeds and more directives
    never select less, and a list that is repeated selects what it selects once, in the same
    order. -/
theorem part_append (scope : Scope) (seeds others : List Seed) :
    (∀ part name, name ∈ (ofSeeds scope (seeds ++ others)).part part ↔
      name ∈ (ofSeeds scope seeds).part part ∨ name ∈ (ofSeeds scope others).part part) ∧
    ((∀ seed, seed ∈ seeds ↔ seed ∈ others) →
      (ofSeeds scope seeds).Alike (ofSeeds scope others)) ∧
    (seeds ⊆ others → (ofSeeds scope seeds).Within (ofSeeds scope others)) ∧
    (∀ seed directive, (ofSeeds scope (seeds ++ seed :: others)).Within
      (ofSeeds scope (seeds ++ withDirective seed directive :: others))) ∧
    ofSeeds scope (seeds ++ seeds) = ofSeeds scope seeds := by
  refine ⟨fun part name => ?_, fun hsame => ?_, within_of_subset,
    within_withDirective seeds others, ofSeeds_twice scope seeds⟩
  · simp only [mem_part_iff, List.mem_append, or_and_right, exists_or]
  · exact .of_within (within_of_subset fun seed => (hsame seed).1)
      (within_of_subset fun seed => (hsame seed).2)

/-- A class and the interface above it, asked for in one order, and in the other with the first
    of them asked for twice. -/
theorem part_append_turned : ∃ scope : Scope,
    Catalog.ofList [marker, leaf] = .ok scope.catalog ∧ Catalog.ofList [] = .ok scope.external ∧
    (ofSeeds scope [⟨"lib.Marker", .reflective, .ofList [.allSubtypes]⟩,
        ⟨"a.Leaf", .proxy, .ofList [.directSupertypes]⟩]).Alike
      (ofSeeds scope [⟨"a.Leaf", .proxy, .ofList [.directSupertypes]⟩,
        ⟨"lib.Marker", .reflective, .ofList [.allSubtypes]⟩,
        ⟨"a.Leaf", .proxy, .ofList [.directSupertypes]⟩]) := by
  obtain ⟨catalog, hcatalog⟩ : ∃ catalog, Catalog.ofList [marker, leaf] = .ok catalog := ⟨_, rfl⟩
  obtain ⟨outside, houtside⟩ : ∃ catalog, Catalog.ofList [] = .ok catalog := ⟨_, rfl⟩
  refine ⟨⟨catalog, outside⟩, hcatalog, houtside, (part_append _ _ _).2.1 fun seed => ?_⟩
  simp only [List.mem_cons, List.not_mem_nil, or_false]
  exact ⟨Or.inr, fun h => h.elim Or.inr id⟩

end Selection

end TypeAtlas
