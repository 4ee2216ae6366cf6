/-
  A build does not depend on the order of its declarations.

  The order of the declarations is the order of their numbers, of the links of a
  catalog, of the seeds and of the names that are taken up.  What a build looks
  up, selects and compiles does not show it.

  * `Scope.Reorders`: two scopes of the same declarations in two orders;
  * `Reorders.find?_eq`, `Reorders.next_graph_eq`: names are looked up alike, so walks
    up the supertypes are the same walks, and stand-ins answer the same methods in the
    same order (`Reorders.proxyMethods_eq`);
  * `Selection.mem_widen_iff_of_reorders`: walks down meet the same names, in some order;
  * `Seed.exists_scan`, `Selection.agrees_ofSeeds`: the seeds are the same in some order,
    and they come to the same names;
  * `Build.outcome_eq`: the outcome of a name is the same, an error included, but for how
    the lineage is laid out;
  * `Build.agrees_of_perm`: so both builds end or none, and they agree in what they report.
-/
import TypeAtlas.Proofs.Build.Coherence
import TypeAtlas.Proofs.Build.Outcomes
import TypeAtlas.Proofs.Build.Scanning
import TypeAtlas.Proofs.Host.Judgement

namespace TypeAtlas

/-! ## Two orders -/

/-- Two scopes of the same declarations in two orders. -/
structure Scope.Reorders (scope scope' : Scope) (own own' external : List Declaration) :
    Prop where
  left : scope.Of own external
  right : scope'.Of own' external
  perm : own.Perm own'

variable {scope scope' : Scope} {own own' external : List Declaration} {a b name : String}
  {role : Role} {decl : Declaration} {seeds seeds' : List Seed}

namespace Scope.Reorders

theorem symm (h : scope.Reorders scope' own own' external) :
    scope'.Reorders scope own' own external :=
  ⟨h.right, h.left, h.perm.symm⟩

theorem decls_perm (h : scope.Reorders scope' own own' external) :
    scope.catalog.decls.toList.Perm scope'.catalog.decls.toList := by
  rw [(Catalog.sound_of_ofList h.left.catalog).2, (Catalog.sound_of_ofList h.right.catalog).2]
  exact h.perm

/-! ## Looking up -/

theorem declared_iff (h : scope.Reorders scope' own own' external) :
    Declared own name ↔ Declared own' name := by
  simp only [Declared, h.perm.mem_iff]

theorem below_iff (h : scope.Reorders scope' own own' external) :
    Below own role a b ↔ Below own' role a b := by
  simp only [Below, h.perm.mem_iff]

theorem contains_eq (h : scope.Reorders scope' own own' external) :
    scope.catalog.contains name = scope'.catalog.contains name := by
  rw [Bool.eq_iff_iff, h.left.contains_iff, h.right.contains_iff, h.declared_iff]

theorem known_iff (h : scope.Reorders scope' own own' external) :
    Known own external name decl ↔ Known own' external name decl := by
  simp only [Known, h.declared_iff, h.perm.mem_iff]

/-- A name is looked up alike. -/
theorem find?_eq (h : scope.Reorders scope' own own' external) :
    scope.find? name = scope'.find? name := by
  ext decl
  rw [h.left.find?_eq_some_iff, h.right.find?_eq_some_iff, h.known_iff]

/-- What is made of a declaration is reached alike. -/
theorem next_graph_eq (h : scope.Reorders scope' own own' external)
    (f : Declaration → List String) :
    (scope.graph f).next a = (scope'.graph f).next a := by
  rw [h.left.next_graph, h.right.next_graph, h.find?_eq]

theorem proxyMethods_eq (h : scope.Reorders scope' own own' external) :
    scope.proxyMethods decl = scope'.proxyMethods decl := by
  have hfind : scope.find? = scope'.find? := funext fun _ => h.find?_eq
  have hinterfaces : scope.interfacesOf = scope'.interfacesOf := by
    funext decl
    rw [interfacesOf, interfacesOf, hfind]
  have hwalk : (scope.graph scope'.interfacesOf).visitFrom [decl.name] (scope'.interfacesOf decl) =
      (scope'.graph scope'.interfacesOf).visitFrom [decl.name] (scope'.interfacesOf decl) :=
    Graph.visitFrom_congr fun _ => h.next_graph_eq scope'.interfacesOf
  rw [proxyMethods, proxyMethods, withInterfacesAbove, withInterfacesAbove, interfaceGraph,
    interfaceGraph, hfind, hinterfaces, hwalk]

end Scope.Reorders

/-! ## Selections -/

namespace Selection

theorem directlyAbove_eq (h : scope.Reorders scope' own own' external) :
    directlyAbove scope role a = directlyAbove scope' role a := by
  unfold directlyAbove
  rw [h.find?_eq]

theorem allAbove_eq (h : scope.Reorders scope' own own' external) :
    allAbove scope a = allAbove scope' a := by
  have hnext : ∀ a, (parentGraph scope).next a = (parentGraph scope').next a :=
    fun _ => h.next_graph_eq normalParents
  have hreverse : ∀ a, (parentGraph scope).reverseLists.next a =
      (parentGraph scope').reverseLists.next a := by
    intro a
    rw [Graph.next_reverseLists, Graph.next_reverseLists, hnext]
  rw [allAbove, allAbove, funext hnext]
  cases Name.normalForm? a with
  | none => rfl
  | some start => simp only [Graph.visit, Graph.visitFrom_congr hreverse]

theorem publicApi_eq (h : scope.Reorders scope' own own' external) :
    publicApi scope a = publicApi scope' a := by
  rw [publicApi, publicApi, h.find?_eq]

theorem mem_subtypesBelow_iff (h : scope.Reorders scope' own own' external) :
    b ∈ subtypesBelow scope role a ↔ b ∈ subtypesBelow scope' role a := by
  rw [mem_subtypesBelow h.left, mem_subtypesBelow h.right, h.declared_iff, h.below_iff]

/-- Walks down meet the same names, but for the name that they start from. -/
theorem mem_allBelow_iff (h : scope.Reorders scope' own own' external) :
    b = a ∨ b ∈ allBelow scope role a ↔ b = a ∨ b ∈ allBelow scope' role a := by
  have hbelow : Below own role = Below own' role := by
    funext m n
    exact propext h.below_iff
  rw [mem_allBelow h.left, mem_allBelow h.right, h.declared_iff, hbelow]

/-- **A directive leads to the same names**, but for the name that it starts from. -/
theorem mem_widen_iff_of_reorders (h : scope.Reorders scope' own own' external)
    (directive : Directive) :
    b = a ∨ b ∈ widen scope role a directive ↔ b = a ∨ b ∈ widen scope' role a directive := by
  cases directive with
  | directSubtypes => rw [widen, widen, mem_subtypesBelow_iff h]
  | allSubtypes => exact mem_allBelow_iff h
  | directSupertypes => rw [widen, widen, directlyAbove_eq h]
  | allSupertypes => rw [widen, widen, allAbove_eq h]
  | publicApi => rw [widen, widen, publicApi_eq h]
  | publicApiSupertypes =>
    have habove : allAbove scope = allAbove scope' := funext fun _ => allAbove_eq h
    rw [widen, widen, publicApi_eq h, habove]
  | publicApiSubtypes =>
    rw [widen, widen, publicApi_eq h,
      mem_append_flatMap_iff (fun _ => Iff.rfl) fun _ _ => mem_allBelow_iff h,
      mem_append_flatMap_iff (fun _ => Iff.rfl) fun _ _ => Iff.rfl]

theorem mem_offers_iff (h : scope.Reorders scope' own own' external) {seed : Seed} :
    b ∈ offers scope role seed ↔ b ∈ offers scope' role seed := by
  unfold offers
  split
  · -- the name of the seed is offered in any case, so it does not matter what leads to it
    by_cases hb : b = seed.name
    · simp [hb]
    · have hwiden : ∀ directive, b ∈ widen scope role seed.name directive ↔
          b ∈ widen scope' role seed.name directive := by
        intro directive
        simpa only [hb, false_or] using
          mem_widen_iff_of_reorders (b := b) (a := seed.name) h directive
      simp only [List.mem_cons, List.mem_flatMap, hb, hwiden]
  · rfl

theorem admit?_eq (h : scope.Reorders scope' own own' external) :
    admit? scope role a = admit? scope' role a := by
  have hinterface : isInterface scope = isInterface scope' := by
    funext name
    rw [isInterface, isInterface, h.find?_eq]
  rw [admit?, admit?, hinterface]

theorem mem_admitted_iff (h : scope.Reorders scope' own own' external)
    (hseeds : seeds.Perm seeds') :
    name ∈ admitted scope role seeds ↔ name ∈ admitted scope' role seeds' := by
  simp only [mem_admitted, hseeds.mem_iff, mem_offers_iff h, admit?_eq h]

/-- Selections of the same names. -/
structure Agrees (selection selection' : Selection) : Prop where
  introspectable : ∀ name, name ∈ selection.introspectable ↔ name ∈ selection'.introspectable
  proxyable : ∀ name, name ∈ selection.proxyable ↔ name ∈ selection'.proxyable
  unresolved : ∀ name, name ∈ selection.unresolved ↔ name ∈ selection'.unresolved

/-- **The same seeds come to the same names**, whatever the order of declarations and seeds. -/
theorem agrees_ofSeeds (h : scope.Reorders scope' own own' external)
    (hseeds : seeds.Perm seeds') : (ofSeeds scope seeds).Agrees (ofSeeds scope' seeds') := by
  have hintrospectable : ∀ name, name ∈ (ofSeeds scope seeds).introspectable ↔
      name ∈ (ofSeeds scope' seeds').introspectable := by
    intro name
    simp only [ofSeeds, NameSet.mem_union, mem_admitted_iff h hseeds]
  refine ⟨hintrospectable, fun name => mem_admitted_iff h hseeds, fun name => ?_⟩
  have hfilter : ∀ (scope : Scope) (seeds : List Seed), name ∈ (ofSeeds scope seeds).unresolved ↔
      name ∈ (ofSeeds scope seeds).introspectable ∧ (!scope.catalog.contains name) = true :=
    fun _ _ => NameSet.mem_filter
  rw [hfilter, hfilter, hintrospectable, h.contains_eq]

end Selection

/-! ## Seeds -/

namespace Seed

variable {catalog catalog' : Catalog} {marker : String} {markers : Markers}

theorem occurrences_perm (h : catalog.decls.toList.Perm catalog'.decls.toList) :
    (occurrences catalog marker).Perm (occurrences catalog' marker) := by
  rw [occurrences_eq, occurrences_eq]
  exact h.flatMap_right _

theorem exists_direct (h : catalog.decls.toList.Perm catalog'.decls.toList)
    (hdirect : direct catalog role marker = .ok seeds) :
    ∃ seeds', direct catalog' role marker = .ok seeds' ∧ seeds.Perm seeds' :=
  exists_mapM_of_perm (occurrences_perm h) hdirect

theorem exists_listed (h : catalog.decls.toList.Perm catalog'.decls.toList)
    (hlisted : listed catalog role marker = .ok seeds) :
    ∃ seeds', listed catalog' role marker = .ok seeds' ∧ seeds.Perm seeds' := by
  obtain ⟨lists, hlists, rfl⟩ := map_eq_ok.1 hlisted
  obtain ⟨lists', hlists', hperm⟩ := exists_mapM_of_perm (occurrences_perm h) hlists
  exact ⟨lists'.flatten, map_eq_ok.2 ⟨lists', hlists', rfl⟩, hperm.flatten⟩

/-- **The seeds of the same declarations are the same**, in some order. -/
theorem exists_scan (h : catalog.decls.toList.Perm catalog'.decls.toList)
    (hscan : scan markers catalog = .ok seeds) :
    ∃ seeds', scan markers catalog' = .ok seeds' ∧ seeds.Perm seeds' := by
  simp only [scan, bind_eq_ok, pure_eq_ok] at hscan ⊢
  obtain ⟨marked, hmarked, targets, htargets, included, hincluded, others, hothers, rfl⟩ := hscan
  obtain ⟨marked', hmarked', hperm₁⟩ := exists_direct h hmarked
  obtain ⟨targets', htargets', hperm₂⟩ := exists_direct h htargets
  obtain ⟨included', hincluded', hperm₃⟩ := exists_listed h hincluded
  obtain ⟨others', hothers', hperm₄⟩ := exists_listed h hothers
  exact ⟨_, ⟨marked', hmarked', targets', htargets', included', hincluded', others', hothers', rfl⟩,
    ((hperm₁.append hperm₂).append hperm₃).append hperm₄⟩

end Seed

/-! ## Compiled types -/

/-- The lineages of two orders give the same answers. -/
theorem Lineage.accepts?_eq_of_reorders (h : scope.Reorders scope' own own' external)
    (name target : String) :
    (ofScope scope).accepts? name target = (ofScope scope').accepts? name target := by
  have habove : Above own external = Above own' external := by
    funext a b
    simp only [Above, h.known_iff]
  ext answer
  rw [accepts?_eq_some_iff h.left, accepts?_eq_some_iff h.right, h.declared_iff, Fits, Fits, habove]

/-- Compiled types that differ at most in how their lineages are laid out. -/
structure Compiled.Agrees (compiled compiled' : Compiled) : Prop where
  blob : compiled.blob = compiled'.blob
  table : compiled.table.withLineage none = compiled'.table.withLineage none
  /-- Objects are judged alike. -/
  lineage : ∀ name target, (compiled.table.lineage.bind (·.accepts? name target)) =
    compiled'.table.lineage.bind (·.accepts? name target)

theorem Declaration.describe_eq (h : scope.Reorders scope' own own' external) (proxyable : Bool) :
    decl.describe scope proxyable = decl.describe scope' proxyable := by
  have hshape : decl.shape scope proxyable = decl.shape scope' proxyable := by
    rw [shape, shape, h.proxyMethods_eq]
  rw [describe, describe, hshape]

namespace Build

variable {settings : Settings} {registry : Registry} {build build' : Build}

def Outcome.withLineage (lineage : Option Lineage) : Outcome → Outcome
  | .skipped reason => .skipped reason
  | .compiled shape made => .compiled shape (made.withLineage lineage)

/-- **The outcome of a name does not depend on the order**, but for the lineage that is kept. -/
theorem outcome_eq (h : scope.Reorders scope' own own' external) (hseeds : seeds.Perm seeds') :
    outcome settings scope' registry seeds' name =
      Outcome.withLineage (some (.ofScope scope')) <$>
        outcome settings scope registry seeds name := by
  have hproxyable : (Selection.ofSeeds scope' seeds').proxyable.contains name =
      (Selection.ofSeeds scope seeds).proxyable.contains name := by
    rw [NameSet.contains, NameSet.contains]
    exact decide_eq_decide.2 ((Selection.agrees_ofSeeds h hseeds).proxyable name).symm
  unfold outcome process
  split
  swap
  · rfl
  rw [hproxyable, ← h.find?_eq]
  cases scope.find? name with
  | none => rfl
  | some decl =>
    simp only [← Declaration.describe_eq h, map_bind, map_pure,
      Shape.compile_eq_withLineage (some (.ofScope scope)) (some (.ofScope scope')), bind_map_left]
    rfl

theorem map_withLineage_eq_skipped {lineage : Option Lineage} {reason : Skip}
    {found : Except BuildError Outcome} :
    Outcome.withLineage lineage <$> found = .ok (.skipped reason) ↔
      found = .ok (.skipped reason) := by
  rw [map_eq_ok]
  constructor
  · rintro ⟨_ | _, hfound, hsame⟩ <;> cases hsame
    exact hfound
  · intro hfound
    exact ⟨_, hfound, rfl⟩

theorem map_withLineage_eq_compiled {lineage : Option Lineage} {shape : Shape} {made : Compiled}
    {found : Except BuildError Outcome} :
    Outcome.withLineage lineage <$> found = .ok (.compiled shape made) ↔
      ∃ before, found = .ok (.compiled shape before) ∧ before.withLineage lineage = made := by
  rw [map_eq_ok]
  constructor
  · rintro ⟨_ | ⟨_, before⟩, hfound, hsame⟩ <;> cases hsame
    exact ⟨before, hfound, rfl⟩
  · rintro ⟨before, hfound, rfl⟩
    exact ⟨_, hfound, rfl⟩

/-- The lineage that is kept is that of the scope. -/
theorem lineage_of_outcome (hof : scope.Of own external) {shape : Shape} {made : Compiled}
    (h : outcome settings scope registry seeds name = .ok (.compiled shape made)) :
    made.table.lineage = some (.ofScope scope) := by
  rw [outcome_eq ⟨hof, hof, .refl own⟩ (.refl seeds), map_withLineage_eq_compiled] at h
  obtain ⟨before, -, rfl⟩ := h
  rfl

/-! ## Builds -/

/-- Builds that report the same. -/
structure Agrees (build build' : Build) : Prop where
  selection : build.selection.Agrees build'.selection
  skipped : ∀ name reason, (name, reason) ∈ build.skipped ↔ (name, reason) ∈ build'.skipped
  shapes : ∀ name, build.shapes.find? name = build'.shapes.find? name
  blobs : ∀ name, build.blobs.find? name = build'.blobs.find? name
  /-- Every name is answered with the same compiled type, or not at all. -/
  directory : ∀ name,
    Option.Rel Compiled.Agrees (build.directory.find? name) (build'.directory.find? name)

/-- A build of one order ends if that of the other does. -/
theorem exists_run_of_reorders (h : scope.Reorders scope' own own' external)
    (hrun : ∃ build, run settings scope registry = .ok build) :
    ∃ build', run settings scope' registry = .ok build' := by
  rw [exists_run_iff h.left] at hrun
  rw [exists_run_iff h.right]
  obtain ⟨seeds, hscan, hall⟩ := hrun
  obtain ⟨seeds', hscan', hseeds⟩ := Seed.exists_scan h.decls_perm hscan
  refine ⟨seeds', hscan', fun name hmem => ?_⟩
  obtain ⟨found, hfound⟩ :=
    hall name (((Selection.agrees_ofSeeds h hseeds).introspectable name).2 hmem)
  rw [outcome_eq h hseeds, hfound]
  exact ⟨_, rfl⟩

/-- **Builds of two orders agree.** -/
theorem agrees_of_reorders (h : scope.Reorders scope' own own' external)
    (hrun : run settings scope registry = .ok build)
    (hrun' : run settings scope' registry = .ok build') : build.Agrees build' := by
  obtain ⟨seeds, hscan, hselection, hreports⟩ := reports_of_run h.left hrun
  obtain ⟨seeds', hscan', hselection', hreports'⟩ := reports_of_run h.right hrun'
  have hseeds : seeds.Perm seeds' := by
    obtain ⟨found, hfound, hperm⟩ := Seed.exists_scan h.decls_perm hscan
    rw [hscan', Except.ok.injEq] at hfound
    exact hfound ▸ hperm
  have hagrees := Selection.agrees_ofSeeds h hseeds
  rw [← hselection, ← hselection'] at hagrees
  have hdirectory : ∀ name, build'.directory.find? name =
      (build.directory.find? name).map (·.withLineage (some (.ofScope scope'))) := by
    intro name
    ext made'
    simp only [hreports'.directory, ← hagrees.introspectable, outcome_eq h hseeds,
      map_withLineage_eq_compiled, Option.map_eq_some_iff, hreports.directory]
    constructor
    · rintro ⟨hmem, shape, made, hmade, rfl⟩
      exact ⟨made, ⟨hmem, shape, hmade⟩, rfl⟩
    · rintro ⟨made, ⟨hmem, shape, hmade⟩, rfl⟩
      exact ⟨hmem, shape, made, hmade, rfl⟩
  refine ⟨hagrees, fun name reason => ?_, fun name => ?_, fun name => ?_, fun name => ?_⟩
  · rw [hreports.skipped, hreports'.skipped, hagrees.introspectable, outcome_eq h hseeds,
      map_withLineage_eq_skipped]
  · ext shape
    rw [hreports.shapes, hreports'.shapes, hagrees.introspectable]
    simp only [outcome_eq h hseeds, map_withLineage_eq_compiled]
    constructor
    · rintro ⟨hmem, made, hmade⟩
      exact ⟨hmem, _, made, hmade, rfl⟩
    · rintro ⟨hmem, _, made, hmade, -⟩
      exact ⟨hmem, made, hmade⟩
  · ext blob
    rw [hreports.blobs, hreports'.blobs, hagrees.introspectable]
    simp only [outcome_eq h hseeds, map_withLineage_eq_compiled]
    constructor
    · rintro ⟨hmem, shape, made, hmade, rfl⟩
      exact ⟨hmem, shape, _, ⟨made, hmade, rfl⟩, rfl⟩
    · rintro ⟨hmem, shape, _, ⟨made, hmade, rfl⟩, rfl⟩
      exact ⟨hmem, shape, made, hmade, rfl⟩
  · rw [hdirectory]
    cases hmade : build.directory.find? name with
    | none => exact .none
    | some made =>
      obtain ⟨-, shape, houtcome⟩ := (hreports.directory name made).1 hmade
      refine .some ⟨rfl, rfl, fun name target => ?_⟩
      rw [lineage_of_outcome h.left houtcome]
      exact Lineage.accepts?_eq_of_reorders h name target

/-- **A build does not depend on the order of its declarations.**  Two orders both have a
    catalog or neither has one; then a build of both ends or of neither, and the two builds
    select and skip the same names, hold the same shapes and blobs under every name, and answer
    every name with the same compiled type or not at all. -/
theorem agrees_of_perm (hperm : own.Perm own') {outside : Catalog}
    (hexternal : Catalog.ofList external = .ok outside) (settings : Settings)
    (registry : Registry) :
    ((∃ catalog, Catalog.ofList own = .ok catalog) ↔
        ∃ catalog', Catalog.ofList own' = .ok catalog') ∧
      ∀ catalog catalog', Catalog.ofList own = .ok catalog → Catalog.ofList own' = .ok catalog' →
        ((∃ build, run settings ⟨catalog, outside⟩ registry = .ok build) ↔
          ∃ build', run settings ⟨catalog', outside⟩ registry = .ok build') ∧
        ∀ build build', run settings ⟨catalog, outside⟩ registry = .ok build →
          run settings ⟨catalog', outside⟩ registry = .ok build' → build.Agrees build' := by
  refine ⟨?_, fun catalog catalog' hown hown' => ?_⟩
  · rw [Catalog.exists_ofList_iff, Catalog.exists_ofList_iff]
    exact (hperm.map Declaration.name).nodup_iff
  · have h : Scope.Reorders ⟨catalog, outside⟩ ⟨catalog', outside⟩ own own' external :=
      ⟨⟨hown, hexternal⟩, ⟨hown', hexternal⟩, hperm⟩
    exact ⟨⟨exists_run_of_reorders h, exists_run_of_reorders h.symm⟩,
      fun build build' => agrees_of_reorders h⟩

/-- The two classes the other way round: the same class is compiled, the same name skipped. -/
theorem agrees_of_perm_pinned : ∃ catalog' build build',
    [board, pin].Perm [pin, board] ∧
    Catalog.ofList [board, pin] = .ok pinned.catalog ∧ Catalog.ofList [pin, board] = .ok catalog' ∧
    run {} pinned .empty = .ok build ∧ run {} ⟨catalog', .empty⟩ .empty = .ok build' ∧
    build.Agrees build' ∧ "a.Pin" ∈ build'.shapes.keys ∧
    ("lib.Gone", .undeclared) ∈ build'.skipped := by
  have hperm : [board, pin].Perm [pin, board] := .swap pin board []
  have hown : Catalog.ofList [board, pin] = .ok pinned.catalog := rfl
  obtain ⟨build, hrun, hkeys, hskipped⟩ := exists_run_pinned
  obtain ⟨hcatalog, hbuilds⟩ := agrees_of_perm hperm (show Catalog.ofList [] = .ok .empty from rfl)
    {} .empty
  obtain ⟨catalog', hown'⟩ := hcatalog.1 ⟨_, hown⟩
  obtain ⟨hends, hagrees⟩ := hbuilds _ catalog' hown hown'
  obtain ⟨build', hrun'⟩ := hends.1 ⟨build, hrun⟩
  have hagree := hagrees build build' hrun hrun'
  refine ⟨catalog', build, build', hperm, hown, hown', hrun, hrun', hagree, ?_, ?_⟩
  · have hpin : "a.Pin" ∈ build.shapes.keys := by simp [hkeys]
    by_contra hnone
    rw [← Table.find?_eq_none_iff, ← hagree.shapes, Table.find?_eq_none_iff] at hnone
    exact hnone hpin
  · rw [← hagree.skipped, hskipped]
    exact List.mem_singleton_self _

end Build

end TypeAtlas
