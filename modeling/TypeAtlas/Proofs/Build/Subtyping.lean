/-
  Subtyping while a build runs and after it.

  A build asks its lineage whether a type fits where another is asked for.  After it
  an engine of the compiled types alone answers from their shapes, and a name that was
  not compiled ends a branch of its walk.

  * `Build.ascent` is the graph that this walk goes through: its steps are those steps
    up that start at compiled types (`leads_ascent_iff`);
  * `Build.Lists.climbs_provided`: the engine resolves every name to the supertypes that the
    graph gives, whatever it remembers;
  * `Build.subtyping_agrees`: so what the engine accepts the lineage accepts, and they
    agree if every described type above the one in question was compiled.
-/
import TypeAtlas.Proofs.Build.Coherence
import TypeAtlas.Proofs.Build.Outcomes
import TypeAtlas.Proofs.Engine.Walk
import TypeAtlas.Proofs.Host.Judgement

namespace TypeAtlas

/-- A handle that an engine finds for a name, whatever it remembers. -/
def Engine.Finds (engine : Engine) (name : String) (handle : Handle) : Prop :=
  ∃ depth memo memo', memo.Fits engine.chain [] ∧
    (Request.find name).serve engine depth memo = some (.ok (some handle), memo')

namespace Build

open LookupM

variable {scope : Scope} {own external : List Declaration} {settings : Settings}
  {registry : Registry} {build : Build} {name target a b : String}

/-! ## The engine of the compiled types -/

/-- The engine that knows the compiled types of a build and nothing else. -/
def provided (build : Build) : Engine := .ofProviders [.ofDirectory build.directory]

theorem chain_provided (build : Build) : build.provided.chain = [.ofDirectory build.directory] := by
  rw [provided, Engine.chain_ofProviders, List.mergeSort_singleton]

theorem steady_provided (build : Build) : ∀ provider ∈ build.provided.chain, provider.Steady := by
  rw [chain_provided]
  exact List.forall_mem_singleton.2 (Provider.steady_ofDirectory _)

theorem fresh_provided (build : Build) (depth : Nat) (name : String) :
    build.provided.chain.fresh (depth + 1) [] name =
      some (.ok ((build.directory.find? name).map fun found => .mk 0 (.compiled found))) := by
  rw [chain_provided, Chain.fresh_succ, if_neg (by simp), if_neg List.not_mem_nil]
  simp only [Chain.answerWith, Provider.ofDirectory]
  cases build.directory.find? name <;> rfl

theorem ends_find_provided (build : Build) (name : String) (depth : Nat) {memo : Memo}
    (hfits : memo.Fits build.provided.chain []) :
    ((Request.find name).run build.provided depth).Ends memo (depth < 1) fun answer memo' =>
      memo'.Fits build.provided.chain [] ∧
        Answer.Alike answer ((build.directory.find? name).elim (.error (.unknown name))
          fun found => .ok (some (.mk 0 (.compiled found)))) := by
  refine Request.ends_run_of_fresh build.steady_provided ?_ depth hfits
  rw [Request.fresh, fresh_provided]
  cases build.directory.find? name <;> rfl

theorem ends_findOrPlaceholder_provided (build : Build) (name : String) (depth : Nat) {memo : Memo}
    (hfits : memo.Fits build.provided.chain []) :
    (build.provided.findOrPlaceholder depth name).Ends memo (depth < 1) fun outcome memo' =>
      memo'.Fits build.provided.chain [] ∧ ∃ handle, outcome = .ok handle ∧
        handle.unmarked = (Handle.mk 0
          ((build.directory.find? name).elim (.placeholder name) .compiled)).unmarked := by
  refine Engine.ends_findOrPlaceholder build.steady_provided ?_ depth hfits
  rw [Request.fresh, fresh_provided]
  cases build.directory.find? name <;> rfl

/-- A handle that the engine finds for a name is that of the compiled type. -/
theorem exists_compiled_of_finds {handle : Handle} (h : build.provided.Finds name handle) :
    ∃ id compiled, build.directory.find? name = some compiled ∧
      handle = .mk id (.compiled compiled) := by
  obtain ⟨depth, memo, memo', hfits, hserve⟩ := h
  obtain ⟨-, halike⟩ := (build.ends_find_provided name depth hfits).of_eq_some hserve
  cases hfind : build.directory.find? name with
  | none =>
    rw [hfind] at halike
    cases halike
  | some compiled =>
    rw [hfind] at halike
    cases halike with
    | some hhandle =>
      obtain ⟨id, rfl⟩ := exists_eq_compiled hhandle
      exact ⟨id, compiled, rfl, rfl⟩

theorem fits_empty (build : Build) : Memo.empty.Fits build.provided.chain [] :=
  .of_open fun _ => Memo.slot?_empty _

/-- For the name of a compiled type it finds one. -/
theorem Lists.exists_finds {products : List (Product build.selection)} (h : build.Lists products)
    (hname : name ∈ build.shapes.keys) : ∃ handle, build.provided.Finds name handle := by
  rw [h.keys_shapes, List.mem_map] at hname
  obtain ⟨product, hmem, rfl⟩ := hname
  have hends := build.ends_find_provided product.name 1 build.fits_empty
  obtain ⟨answer, memo', hserve, -, halike⟩ := hends.exists_run (by omega)
  rw [h.find?_compiled.2 ⟨product, hmem, rfl, rfl⟩] at halike
  cases halike with
  | @some handle _ hhandle => exact ⟨handle, 1, .empty, memo', build.fits_empty, hserve⟩

/-! ## The graph of its walks -/

/-- The graph that leads from every compiled type to its supertypes, last first. -/
def ascent (build : Build) : Graph where
  edges := ⟨build.shapes.entries.map fun entry => (entry.1, entry.2.supertypes.reverse), by
    rw [List.map_map]; exact build.shapes.nodup⟩

theorem next_ascent (build : Build) (name : String) :
    build.ascent.next name =
      ((build.shapes.find? name).map fun shape => shape.supertypes.reverse).getD [] := by
  have hfind : build.ascent.edges.find? name =
      (build.shapes.find? name).map fun shape => shape.supertypes.reverse :=
    Table.lookupName_map (fun shape : Shape => shape.supertypes.reverse) build.shapes.entries name
  rw [Graph.next, hfind]

/-- The shape of a compiled type has the supertypes of its declaration. -/
theorem exists_known_of_find?_shapes (hof : scope.Of own external)
    (hrun : run settings scope registry = .ok build) {shape : Shape}
    (hshape : build.shapes.find? name = some shape) :
    ∃ decl, Known own external name decl ∧ shape.supertypes = decl.supertypes := by
  obtain ⟨seeds, -, -, hreports⟩ := reports_of_run hof hrun
  obtain ⟨-, compiled, houtcome⟩ := (hreports.shapes name shape).1 hshape
  obtain ⟨-, decl, hfind, rfl, -⟩ := exists_decl_of_process houtcome
  exact ⟨decl, hof.find?_eq_some_iff.1 hfind, rfl⟩

/-- Its steps are the steps up from compiled types. -/
theorem leads_ascent_iff (hof : scope.Of own external)
    (hrun : run settings scope registry = .ok build) :
    build.ascent.Leads a b ↔ a ∈ build.shapes.keys ∧ Above own external a b := by
  rw [Graph.Leads, next_ascent]
  cases hshape : build.shapes.find? a with
  | none => simp [Table.find?_eq_none_iff.1 hshape]
  | some shape =>
    have hmem : a ∈ build.shapes.keys := Table.mem_keys_of_find? hshape
    obtain ⟨decl, hknown, hsame⟩ := exists_known_of_find?_shapes hof hrun hshape
    simp only [Option.map_some, Option.getD_some, List.mem_reverse, hsame, hmem, true_and]
    constructor
    · exact fun hb => ⟨decl, hknown, hb⟩
    · rintro ⟨other, hother, hb⟩
      have hfind := hof.find?_eq_some_iff.2 hother
      rw [hof.find?_eq_some_iff.2 hknown] at hfind
      cases hfind
      exact hb

theorem transGen_above_of_leads (hof : scope.Of own external)
    (hrun : run settings scope registry = .ok build)
    (h : Relation.TransGen build.ascent.Leads name target) :
    Relation.TransGen (Above own external) name target :=
  Relation.TransGen.mono (fun _ _ hstep => ((leads_ascent_iff hof hrun).1 hstep).2) _ _ h

/-- All that is above a type is reached if every described name above it was compiled. -/
theorem transGen_leads_of_above (hof : scope.Of own external)
    (hrun : run settings scope registry = .ok build) (hname : name ∈ build.shapes.keys)
    (hall : ∀ u, Relation.TransGen (Above own external) name u → Described own external u →
      u ∈ build.shapes.keys)
    (h : Relation.TransGen (Above own external) name target) :
    Relation.TransGen build.ascent.Leads name target := by
  induction h with
  | single hstep => exact .single ((leads_ascent_iff hof hrun).2 ⟨hname, hstep⟩)
  | tail habove hstep ih =>
    have hmem := hall _ habove (Extends.described_of_above hstep)
    exact ih.tail ((leads_ascent_iff hof hrun).2 ⟨hmem, hstep⟩)

/-! ## What the engine answers -/

/-- **Every name resolves to a handle with the supertypes that the graph gives.** -/
theorem Lists.climbs_provided {products : List (Product build.selection)} (h : build.Lists products) :
    build.provided.Climbs build.ascent (fun memo => memo.Fits build.provided.chain []) 1 where
  looks handle memo hfits := hfits.of_slots fun _ => Memo.slot?_look _ _ _
  finds name depth memo hfits := by
    refine (build.ends_findOrPlaceholder_provided name depth hfits).imp id ?_
    rintro _ memo' ⟨hfits', handle, rfl, hhandle⟩
    refine ⟨hfits', handle, ?_⟩
    rw [next_ascent, ← handle.shape_unmarked, hhandle, Handle.shape_unmarked]
    cases hfind : build.directory.find? name with
    | none =>
      have hnone : build.shapes.find? name = none := by
        refine Option.eq_none_iff_forall_ne_some.2 fun shape hshape => ?_
        obtain ⟨product, hmem, hname, -⟩ := h.find?_shapes.1 hshape
        rw [h.find?_compiled.2 ⟨product, hmem, hname, rfl⟩] at hfind
        cases hfind
      rw [hnone]
      exact ⟨_, rfl, rfl, rfl⟩
    | some compiled =>
      obtain ⟨product, hmem, hname, rfl⟩ := h.find?_compiled.1 hfind
      rw [h.find?_shapes.2 ⟨product, hmem, hname, rfl⟩]
      exact ⟨product.shape, rfl, product.shape_handle 0, rfl⟩

/-- What the engine finds for a name is the compiled type of this name, with its shape. -/
theorem Lists.shape_of_finds {products : List (Product build.selection)} (h : build.Lists products)
    {handle : Handle} (hfinds : build.provided.Finds name handle) :
    handle.name = name ∧ handle.isPrimitive = false ∧ ∃ shape, handle.shape = .ok shape ∧
      shape.name = name ∧ shape.supertypes.reverse = build.ascent.next name := by
  obtain ⟨id, compiled, hcompiled, rfl⟩ := exists_compiled_of_finds hfinds
  obtain ⟨product, hmem, rfl, rfl⟩ := h.find?_compiled.1 hcompiled
  refine ⟨product.typeName, rfl, product.shape, product.shape_handle id, product.shape_name, ?_⟩
  rw [next_ascent, h.find?_shapes.2 ⟨product, hmem, rfl, rfl⟩]
  rfl

/-- **The engine accepts a type where another is asked for if they are the same, or the other
    is the class of all objects, or one or more steps of the graph lead to it.** -/
theorem Lists.ends_accepts_provided {products : List (Product build.selection)}
    (h : build.Lists products) {handle other : Handle}
    (hhandle : build.provided.Finds target handle) (hother : build.provided.Finds name other) :
    ∃ (answer : Bool) (enough : Nat),
      (answer = true ↔ name = target ∨ target = Name.object ∨
        Relation.TransGen build.ascent.Leads name target) ∧
      ∀ depth memo, memo.Fits build.provided.chain [] →
        (build.provided.accepts depth handle other).Ends memo (depth < enough)
          fun outcome memo' => memo'.Fits build.provided.chain [] ∧ outcome = .ok answer := by
  obtain ⟨htarget, hprimitive, -⟩ := h.shape_of_finds hhandle
  obtain ⟨hname, hprimitive', shape, hshape, hshapeName, hnext⟩ := h.shape_of_finds hother
  have haccepts : ∀ depth, build.provided.accepts depth handle other =
      if target = name then pure true
      else if target = Name.object then pure true
      else build.provided.isBelow depth other target := by
    intro depth
    rw [Engine.accepts, htarget, hname, hprimitive, hprimitive']
    rfl
  by_cases hsame : target = name
  · refine ⟨true, 0, by simp [hsame], fun depth memo hfits => ?_⟩
    rw [haccepts, if_pos hsame]
    exact ⟨hfits, rfl⟩
  by_cases hobject : target = Name.object
  · refine ⟨true, 0, by simp [hobject], fun depth memo hfits => ?_⟩
    rw [haccepts, if_neg hsame, if_pos hobject]
    exact ⟨hfits, rfl⟩
  rw [← hshapeName] at hnext
  obtain ⟨answer, enough, hanswer, hends⟩ := h.climbs_provided.ends_isBelow target hshape hnext
  rw [hshapeName] at hanswer
  refine ⟨answer, enough, by simp [hanswer, Ne.symm hsame, hobject], fun depth memo hfits => ?_⟩
  rw [haccepts, if_neg hsame, if_neg hobject]
  exact hends depth memo hfits

/-! ## What both answer -/

/-- **What the engine of the compiled types accepts the lineage of the build accepts.**  The
    engine has one answer, in every depth that is enough and with every memo that fits, such as
    that of a new engine.  Both give the same answer if every described type above the one in
    question was compiled, be it above itself, or above it on several ways, or below names that
    nobody describes. -/
theorem subtyping_agrees (hown : Catalog.ofList own = .ok scope.catalog)
    (hexternal : Catalog.ofList external = .ok scope.external)
    (hrun : run settings scope registry = .ok build) (hdeclared : Declared own name)
    (hname : name ∈ build.shapes.keys) (htarget : target ∈ build.shapes.keys) :
    (∃ handle other, build.provided.Finds target handle ∧ build.provided.Finds name other) ∧
    ∀ handle other, build.provided.Finds target handle → build.provided.Finds name other →
      ∃ (answer : Bool) (enough : Nat),
        (∀ depth memo, memo.Fits build.provided.chain [] →
          (build.provided.accepts depth handle other).Ends memo (depth < enough)
            fun outcome memo' => memo'.Fits build.provided.chain [] ∧ outcome = .ok answer) ∧
        (answer = true → (Lineage.ofScope scope).accepts? name target = some true) ∧
        ((∀ u, Relation.TransGen (Above own external) name u → Described own external u →
            u ∈ build.shapes.keys) →
          (Lineage.ofScope scope).accepts? name target = some answer) := by
  have hof : scope.Of own external := ⟨hown, hexternal⟩
  obtain ⟨products, hlists⟩ := exists_products hof hrun
  refine ⟨?_, fun handle other hhandle hother => ?_⟩
  · obtain ⟨handle, hhandle⟩ := hlists.exists_finds htarget
    obtain ⟨other, hother⟩ := hlists.exists_finds hname
    exact ⟨handle, other, hhandle, hother⟩
  obtain ⟨answer, enough, hanswer, hends⟩ := hlists.ends_accepts_provided hhandle hother
  refine ⟨answer, enough, hends, fun htrue => ?_, fun hall => ?_⟩
  · refine (Lineage.accepts?_eq_some_iff hof).2 ⟨hdeclared, iff_of_true rfl ?_⟩
    exact (hanswer.1 htrue).imp_right (Or.imp_right (transGen_above_of_leads hof hrun))
  · refine (Lineage.accepts?_eq_some_iff hof).2 ⟨hdeclared, hanswer.trans ?_⟩
    exact or_congr_right (or_congr_right ⟨transGen_above_of_leads hof hrun,
      transGen_leads_of_above hof hrun hname hall⟩)

/-! ## Two classes each of which extends the other -/

/-- A request for both. -/
def ringRequest : Annotation :=
  Annotation.ofType "tech.kaffa.portrait.Reflective$Include" |>.withProperty "classes"
    (.list [.text "a.Egg", .text "a.Hen"])

/-- A class that extends `hen`, and implements an interface that nobody describes. -/
def egg : Declaration :=
  { Declaration.ofName "a.Egg" .cls with
    superclass := some "a.Hen", interfaces := ["lib.Gone"], annotations := [ringRequest] }

/-- A class that extends `egg`. -/
def hen : Declaration := { Declaration.ofName "a.Hen" .cls with superclass := some "a.Egg" }

def ringScope : Scope := ⟨(Catalog.empty.push egg).push hen, .empty⟩

def ringSeeds : List Seed :=
  [⟨"a.Egg", .reflective, .ofList []⟩, ⟨"a.Hen", .reflective, .ofList []⟩]

theorem scan_ring : Seed.scan {} ringScope.catalog = .ok ringSeeds := rfl

theorem mem_introspectable_ring :
    name ∈ (Selection.ofSeeds ringScope ringSeeds).introspectable ↔
      name = "a.Egg" ∨ name = "a.Hen" := by
  have hegg : Name.normalForm? "a.Egg" = some "a.Egg" :=
    Name.Normal.normalForm?_eq (by constructor <;> decide +kernel)
  have hhen : Name.normalForm? "a.Hen" = some "a.Hen" :=
    Name.Normal.normalForm?_eq (by constructor <;> decide +kernel)
  have hproxy : Selection.admitted ringScope .proxy ringSeeds = .empty := rfl
  have hreflective : Selection.admitted ringScope .reflective ringSeeds =
      ⟨["a.Egg", "a.Hen"], by decide⟩ := by
    simp [Selection.admitted, Selection.offers, Selection.admit?, ringSeeds, hegg, hhen]
    rfl
  rw [Selection.ofSeeds, hproxy, hreflective, NameSet.mem_union]
  simp [NameSet.mem_def, NameSet.empty]

theorem exists_outcome_ring (h : name = "a.Egg" ∨ name = "a.Hen") : ∃ shape compiled,
    outcome {} ringScope .empty ringSeeds name = .ok (.compiled shape compiled) := by
  rcases h with rfl | rfl
  · refine ⟨egg.shape ringScope false, exists_process_eq (by decide +kernel) rfl rfl ?_⟩
    exact Shape.exists_compile
      (Shape.exists_toBase64 (by decide +kernel) rfl (by decide +kernel)) ⟨_, rfl⟩
  · refine ⟨hen.shape ringScope false, exists_process_eq (by decide +kernel) rfl rfl ?_⟩
    exact Shape.exists_compile
      (Shape.exists_toBase64 (by decide +kernel) rfl (by decide +kernel)) ⟨_, rfl⟩

theorem exists_run_ring : ∃ build, run {} ringScope .empty = .ok build ∧
    "a.Egg" ∈ build.shapes.keys ∧ "a.Hen" ∈ build.shapes.keys := by
  have hof : ringScope.Of [egg, hen] [] := ⟨rfl, rfl⟩
  obtain ⟨build, hrun⟩ : ∃ build, run {} ringScope .empty = .ok build := by
    refine (exists_run_iff hof).2 ⟨ringSeeds, scan_ring, fun name hname => ?_⟩
    obtain ⟨shape, compiled, houtcome⟩ := exists_outcome_ring (mem_introspectable_ring.1 hname)
    exact ⟨_, houtcome⟩
  obtain ⟨seeds, hscan, hselection, hreports⟩ := reports_of_run hof hrun
  obtain rfl : ringSeeds = seeds := Except.ok.inj (scan_ring.symm.trans hscan)
  have hkeys : ∀ name, name = "a.Egg" ∨ name = "a.Hen" → name ∈ build.shapes.keys := by
    intro name hname
    obtain ⟨shape, compiled, houtcome⟩ := exists_outcome_ring hname
    have hmem := mem_introspectable_ring.2 hname
    rw [← hselection] at hmem
    exact Table.mem_keys_of_find? ((hreports.shapes name shape).2 ⟨hmem, compiled, houtcome⟩)
  exact ⟨build, hrun, hkeys _ (Or.inl rfl), hkeys _ (Or.inr rfl)⟩

/-- The engine and the lineage accept one of them where the other is asked for; that nobody
    describes an interface above them does no harm. -/
theorem subtyping_agrees_ring : ∃ build handle other,
    run {} ringScope .empty = .ok build ∧ build.provided.Finds "a.Hen" handle ∧
    build.provided.Finds "a.Egg" other ∧
    (∃ depth memo', (build.provided.accepts depth handle other).run.run .empty =
      some (.ok true, memo')) ∧
    (Lineage.ofScope ringScope).accepts? "a.Egg" "a.Hen" = some true := by
  obtain ⟨build, hrun, hegg, hhen⟩ := exists_run_ring
  have hown : Catalog.ofList [egg, hen] = .ok ringScope.catalog := rfl
  have hexternal : Catalog.ofList [] = .ok ringScope.external := rfl
  have hdeclared : Declared [egg, hen] "a.Egg" := ⟨egg, List.mem_cons_self, rfl⟩
  obtain ⟨⟨handle, other, hhandle, hother⟩, hagree⟩ :=
    subtyping_agrees hown hexternal hrun hdeclared hegg hhen
  obtain ⟨answer, enough, hends, -, hsame⟩ := hagree handle other hhandle hother
  have hall : ∀ u, Described [egg, hen] [] u → u ∈ build.shapes.keys := by
    rintro u (⟨decl, hmem, rfl⟩ | ⟨_, hmem, -⟩)
    · rcases List.mem_pair.1 hmem with rfl | rfl
      · exact hegg
      · exact hhen
    · cases hmem
  have hlineage : (Lineage.ofScope ringScope).accepts? "a.Egg" "a.Hen" = some true := by
    have habove : Above [egg, hen] [] "a.Egg" "a.Hen" :=
      ⟨egg, Or.inl ⟨List.mem_cons_self, rfl⟩, List.mem_cons_self⟩
    exact (Lineage.accepts?_eq_some_iff ⟨hown, hexternal⟩).2
      ⟨hdeclared, iff_of_true rfl (Or.inr (Or.inr (.single habove)))⟩
  obtain rfl : answer = true :=
    Option.some.inj ((hsame fun u _ hu => hall u hu).symm.trans hlineage)
  obtain ⟨outcome, memo', hanswer, -, rfl⟩ :=
    (hends enough .empty build.fits_empty).exists_run (Nat.lt_irrefl enough)
  exact ⟨build, handle, other, hrun, hhandle, hother, ⟨enough, memo', hanswer⟩, hlineage⟩

end Build

end TypeAtlas
