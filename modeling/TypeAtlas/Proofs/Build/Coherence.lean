/-
  The parts of a build agree.

  * `Build.Coherent` says which names the parts of a build hold and what belongs to
    one name in all of them;
  * `Build.engine` is the engine of a build's directory and the built-in types;
  * `Build.coherent_of_run`: every build that ends is coherent, and its engine knows
    the compiled types by their shapes and no other names, whatever was asked before.
-/
import TypeAtlas.Proofs.Blob.Writable
import TypeAtlas.Proofs.Build.Products
import TypeAtlas.Proofs.Engine.Transparency

namespace TypeAtlas.Build

variable {scope : Scope} {own external : List Declaration} {settings : Settings}
  {registry : Registry} {build : Build} {name : String}

/-! ## What a build lists -/

/-- A build of given products. -/
structure Lists (build : Build) (products : List (Product build.selection)) : Prop where
  shapes : build.shapes.entries = products.map fun product => (product.name, product.shape)
  blobs : build.blobs.entries = products.map fun product => (product.name, product.compiled.blob)
  directory : build.directory =
    .ofEntries (products.map fun product => (product.name, product.compiled)) generatedPriority
  all : (products.map Product.name ++ build.skipped.map Prod.fst).Perm
    build.selection.introspectable.toList
  made_order : (products.map Product.name).Sublist build.selection.introspectable.toList
  skipped_order : (build.skipped.map Prod.fst).Sublist build.selection.introspectable.toList

/-- A build that ends is a build of products. -/
theorem exists_products (hof : scope.Of own external)
    (h : run settings scope registry = .ok build) :
    ∃ products, build.Lists products := by
  simp only [run, bind_eq_ok, pure_eq_ok] at h
  obtain ⟨seeds, -, progress, hprogress, rfl⟩ := h
  obtain ⟨products, hfits⟩ := exists_products_foldlM hof
    (by simpa using (Selection.ofSeeds scope seeds).introspectable.nodup) Progress.Fits.start
    hprogress
  rw [List.nil_append] at hfits
  refine ⟨products, hfits.shapes, hfits.blobs, ?_, hfits.all, hfits.made_order,
    hfits.skipped_order⟩
  rw [← hfits.compiled]
  rfl

namespace Lists

variable {products : List (Product build.selection)}

theorem keys_shapes (h : build.Lists products) :
    build.shapes.keys = products.map Product.name := by
  rw [Table.keys, h.shapes, List.map_map]
  rfl

theorem keys_blobs (h : build.Lists products) :
    build.blobs.keys = products.map Product.name := by
  rw [Table.keys, h.blobs, List.map_map]
  rfl

theorem nodup (h : build.Lists products) : (products.map Product.name).Nodup :=
  build.selection.introspectable.nodup.sublist h.made_order

/-- What is listed of products under a name is of the product of that name. -/
theorem lookupName_products {α : Type} (h : build.Lists products)
    (part : Product build.selection → α) {value : α} :
    lookupName name (products.map fun product => (product.name, part product)) = some value ↔
      ∃ product ∈ products, product.name = name ∧ part product = value := by
  have hkeys : ((products.map fun product => (product.name, part product)).map Prod.fst).Nodup := by
    rw [List.map_map]
    exact h.nodup
  rw [Table.lookupName_eq_some_iff hkeys, List.mem_map]
  simp only [Prod.mk.injEq]

theorem find?_shapes (h : build.Lists products) {shape : Shape} :
    build.shapes.find? name = some shape ↔
      ∃ product ∈ products, product.name = name ∧ product.shape = shape := by
  rw [Table.find?, h.shapes, h.lookupName_products Product.shape]

theorem find?_blobs (h : build.Lists products) {blob : String} :
    build.blobs.find? name = some blob ↔
      ∃ product ∈ products, product.name = name ∧ product.compiled.blob = blob := by
  rw [Table.find?, h.blobs, h.lookupName_products fun product => product.compiled.blob]

theorem name_ne_empty (product : Product build.selection) : product.name ≠ "" :=
  Text.ne_empty_of_not_blank (Name.ordinary_of_isGeneratable product.generatable).1

theorem find?_compiled (h : build.Lists products) {compiled : Compiled} :
    build.directory.find? name = some compiled ↔
      ∃ product ∈ products, product.name = name ∧ product.compiled = compiled := by
  rw [h.directory, Directory.find?_ofEntries]
  by_cases hname : name = ""
  · rw [if_pos hname]
    constructor
    · exact fun hnone => nomatch hnone
    · rintro ⟨product, -, hsame, -⟩
      exact absurd (hsame.trans hname) (name_ne_empty product)
  · rw [if_neg hname, h.lookupName_products Product.compiled]

theorem names_directory (h : build.Lists products) :
    build.directory.names.Perm (products.map Product.name) := by
  have hnamed : ∀ entry ∈ products.map (fun product => (product.name, product.compiled)),
      entry.1 ≠ "" := by
    intro entry hentry
    obtain ⟨product, -, rfl⟩ := List.mem_map.1 hentry
    exact name_ne_empty product
  have hnames := (Directory.entries_ofEntries_perm_of_named hnamed generatedPriority).map Prod.fst
  rwa [← h.directory, List.map_map] at hnames

end Lists

/-! ## Coherence -/

/-- The parts of a build hold the same names, and what belongs to one name fits together. -/
structure Coherent (build : Build) : Prop where
  /-- The selected names are those that are compiled and those that are skipped. -/
  all : (build.shapes.keys ++ build.skipped.map Prod.fst).Perm
    build.selection.introspectable.toList
  /-- None of them is listed twice. -/
  once : (build.shapes.keys ++ build.skipped.map Prod.fst).Nodup
  shapes_order : build.shapes.keys.Sublist build.selection.introspectable.toList
  skipped_order : (build.skipped.map Prod.fst).Sublist build.selection.introspectable.toList
  blobs_names : build.blobs.keys = build.shapes.keys
  directory_names : build.directory.names.Perm build.shapes.keys
  /-- The shape of a name, its blob and its compiled type are of one type of that name. -/
  parts : ∀ name shape, build.shapes.find? name = some shape →
    shape.name = name ∧
      (shape.proxyMethods.isSome = true ↔ name ∈ build.selection.proxyable) ∧
      ∃ compiled, build.directory.find? name = some compiled ∧
        compiled.table.typeName = name ∧ build.blobs.find? name = some compiled.blob ∧
        Shape.ofBase64 compiled.blob = .ok shape

theorem Lists.coherent {products : List (Product build.selection)} (h : build.Lists products) :
    build.Coherent where
  all := by
    rw [h.keys_shapes]
    exact h.all
  once := by
    rw [h.keys_shapes]
    exact h.all.nodup_iff.2 build.selection.introspectable.nodup
  shapes_order := by
    rw [h.keys_shapes]
    exact h.made_order
  skipped_order := h.skipped_order
  blobs_names := h.keys_blobs.trans h.keys_shapes.symm
  directory_names := by
    rw [h.keys_shapes]
    exact h.names_directory
  parts := by
    intro name shape hshape
    obtain ⟨product, hmem, rfl, rfl⟩ := h.find?_shapes.1 hshape
    exact ⟨product.shape_name, product.proxied, product.compiled,
      h.find?_compiled.2 ⟨product, hmem, rfl, rfl⟩, product.typeName,
      h.find?_blobs.2 ⟨product, hmem, rfl, rfl⟩, product.readable⟩

/-! ## The engine of a build -/

/-- The engine that knows the compiled types of a build and the built-in types. -/
def engine (build : Build) : Engine :=
  .ofProviders [.ofDirectory build.directory, .wellKnown]

/-- The built-in types come first, since their priority is higher. -/
theorem Lists.chain_engine {products : List (Product build.selection)} (h : build.Lists products) :
    build.engine.chain = [.wellKnown, .ofDirectory build.directory] := by
  have hpriority : build.directory.priority = generatedPriority := by
    rw [h.directory]
    rfl
  have hlater : (Provider.ofDirectory build.directory).mayPrecede .wellKnown = false := by
    rw [Provider.mayPrecede, Provider.ofDirectory, hpriority]
    rfl
  rw [engine, Engine.chain_ofProviders]
  simp [List.mergeSort, List.MergeSort.Internal.splitInTwo, hlater]

theorem Lists.steady_engine {products : List (Product build.selection)} (h : build.Lists products) :
    ∀ provider ∈ build.engine.chain, provider.Steady := by
  intro provider hmem
  rw [h.chain_engine, List.mem_cons, List.mem_singleton] at hmem
  rcases hmem with rfl | rfl
  · exact Provider.steady_wellKnown
  · exact Provider.steady_ofDirectory _

/-- A name that is neither primitive nor an array is what the directory says. -/
theorem Lists.fresh_engine {products : List (Product build.selection)} (h : build.Lists products)
    (hprimitive : Primitive.ofName? name = none) (harray : Name.component? name = none)
    (depth : Nat) :
    build.engine.chain.fresh (depth + 1) [] name =
      some (.ok ((build.directory.find? name).map fun found => .mk 0 (.compiled found))) := by
  rw [h.chain_engine, Chain.fresh_succ, if_neg (by simp), if_neg List.not_mem_nil]
  simp only [Chain.answerWith, Provider.wellKnown, Provider.ofDirectory, hprimitive, harray]
  cases build.directory.find? name <;> rfl

theorem exists_eq_compiled {handle : Handle} {compiled : Compiled}
    (h : handle.unmarked = (Handle.mk 0 (.compiled compiled)).unmarked) :
    ∃ id, handle = .mk id (.compiled compiled) := by
  obtain ⟨id, kind⟩ := handle
  cases kind <;> simp [Handle.unmarked, HandleKind.unmarked] at h
  exact ⟨id, by rw [h]⟩

/-- What the engine answers for such a name, whatever was asked before. -/
theorem Lists.serve_find {products : List (Product build.selection)} (h : build.Lists products)
    (hprimitive : Primitive.ofName? name = none) (harray : Name.component? name = none)
    {memo : Memo} (hserved : build.engine.Served memo) (depth : Nat) :
    ∃ memo',
      match build.directory.find? name with
      | some compiled => ∃ id, (Request.find name).serve build.engine (depth + 1) memo =
          some (.ok (some (.mk id (.compiled compiled))), memo')
      | none => (Request.find name).serve build.engine (depth + 1) memo =
          some (.error (.unknown name), memo') := by
  have hfresh : (Request.find name).fresh build.engine.chain 1 = some _ :=
    congrArg (Option.map _) (h.fresh_engine hprimitive harray 0)
  have hends := Request.ends_run_of_fresh h.steady_engine hfresh (depth + 1)
    (hserved.fits h.steady_engine)
  obtain ⟨answer, memo', hserve, -, halike⟩ := hends.exists_run (by omega)
  refine ⟨memo', ?_⟩
  cases hfind : build.directory.find? name with
  | none =>
    rw [hfind] at halike
    cases halike
    exact hserve
  | some compiled =>
    rw [hfind] at halike
    cases halike with
    | some hhandle =>
      obtain ⟨id, rfl⟩ := exists_eq_compiled hhandle
      exact ⟨id, hserve⟩

/-! ## A build of one type -/

/-- A class that is asked for. -/
def pin : Declaration := .ofName "a.Pin" .cls

/-- The request for `pin` and for a class that nobody declares. -/
def request : Annotation :=
  Annotation.ofType "tech.kaffa.portrait.Reflective$Include" |>.withProperty "classes"
    (.list [.text "a.Pin", .text "lib.Gone"])

/-- A class that carries the request. -/
def board : Declaration := { Declaration.ofName "a.Board" .cls with annotations := [request] }

def pinned : Scope := ⟨(Catalog.empty.push board).push pin, .empty⟩

def pinnedSeeds : List Seed :=
  [⟨"a.Pin", .reflective, .ofList []⟩, ⟨"lib.Gone", .reflective, .ofList []⟩]

def pinnedSelection : Selection :=
  ⟨⟨["a.Pin", "lib.Gone"], by decide⟩, .empty, ⟨["lib.Gone"], by decide⟩⟩

def pinnedMode : CompileMode := ⟨false, some (.ofScope pinned)⟩

theorem scan_pinned : Seed.scan {} pinned.catalog = .ok pinnedSeeds := rfl

theorem selection_pinned : Selection.ofSeeds pinned pinnedSeeds = pinnedSelection := by
  have hpin : Name.normalForm? "a.Pin" = some "a.Pin" :=
    Name.Normal.normalForm?_eq (by constructor <;> decide +kernel)
  have hgone : Name.normalForm? "lib.Gone" = some "lib.Gone" :=
    Name.Normal.normalForm?_eq (by constructor <;> decide +kernel)
  have hreflective : Selection.admitted pinned .reflective pinnedSeeds =
      pinnedSelection.introspectable := by
    simp [Selection.admitted, Selection.offers, Selection.admit?, pinnedSeeds, hpin, hgone]
    rfl
  have hproxy : Selection.admitted pinned .proxy pinnedSeeds = .empty := rfl
  rw [Selection.ofSeeds, hreflective, hproxy]
  rfl

theorem exists_compile_pin (lineage : Option Lineage) :
    ∃ compiled, (pin.shape pinned false).compile ⟨false, lineage⟩ (.ofName "a.Pin") =
      .ok compiled :=
  Shape.exists_compile (Shape.exists_toBase64 (by decide +kernel) rfl (by decide +kernel)) ⟨_, rfl⟩

theorem exists_run_pinned : ∃ build, run {} pinned .empty = .ok build ∧
    build.shapes.keys = ["a.Pin"] ∧ build.skipped = [("lib.Gone", .undeclared)] := by
  obtain ⟨compiled, hpin⟩ : ∃ compiled,
      process {} pinned .empty pinnedMode pinnedSelection "a.Pin" =
        .ok (.compiled (pin.shape pinned false) compiled) :=
    exists_process_eq (by decide +kernel) rfl rfl (exists_compile_pin _)
  obtain ⟨-, -, -, -, _, hcompile⟩ := exists_decl_of_process hpin
  have hname : compiled.table.typeName = "a.Pin" :=
    (Shape.proxyMethods_of_compileTable (Shape.compile_eq_ok hcompile).2).1
  have hgone : process {} pinned .empty pinnedMode pinnedSelection "lib.Gone" =
      .ok (.skipped .undeclared) := by
    have hwants : wants {} "lib.Gone" = true := by decide +kernel
    rw [process, if_pos hwants]
    rfl
  have hadd : Assembly.empty.add "a.Pin" compiled = .ok ⟨Table.empty.insert "a.Pin" compiled⟩ := rfl
  unfold run
  rw [scan_pinned, ok_bind, selection_pinned]
  simp only [pinnedMode, pinnedSelection] at hpin hgone ⊢
  simp only [List.foldlM_cons, List.foldlM_nil, hpin, hgone, ok_bind, Progress.add, hname, hadd]
  exact ⟨_, rfl, rfl, rfl⟩

/-! ## Builds that end -/

/-- **Every build that ends is coherent**, and the engine of its directory and the built-in
    types knows the compiled types by their shapes and no other names. -/
theorem coherent_of_run {own external : List Declaration} {scope : Scope}
    (hown : Catalog.ofList own = .ok scope.catalog)
    (hexternal : Catalog.ofList external = .ok scope.external) {settings : Settings}
    {registry : Registry} {build : Build} (h : run settings scope registry = .ok build) :
    build.Coherent ∧ ∀ memo, build.engine.Served memo → ∀ depth name,
      (∀ shape, build.shapes.find? name = some shape → ∃ handle memo',
        (Request.find name).serve build.engine (depth + 1) memo =
            some (.ok (some handle), memo') ∧
          handle.name = name ∧ handle.shape = .ok shape) ∧
      (name ∉ build.shapes.keys → Primitive.ofName? name = none → Name.component? name = none →
        ∃ memo', (Request.find name).serve build.engine (depth + 1) memo =
          some (.error (.unknown name), memo')) := by
  obtain ⟨products, hlists⟩ := exists_products ⟨hown, hexternal⟩ h
  refine ⟨hlists.coherent, fun memo hserved depth name => ⟨fun shape hshape => ?_,
    fun hother hprimitive harray => ?_⟩⟩
  · obtain ⟨product, hmem, rfl, rfl⟩ := hlists.find?_shapes.1 hshape
    obtain ⟨-, hprimitive, harray⟩ := Name.ordinary_of_isGeneratable product.generatable
    obtain ⟨memo', hserve⟩ := hlists.serve_find hprimitive harray hserved depth
    rw [hlists.find?_compiled.2 ⟨product, hmem, rfl, rfl⟩] at hserve
    obtain ⟨id, hserve⟩ := hserve
    refine ⟨_, memo', hserve, product.typeName, ?_⟩
    rw [Handle.shape, Handle.shapeOfBlob, product.readable]
  · obtain ⟨memo', hserve⟩ := hlists.serve_find hprimitive harray hserved depth
    have hnone : build.directory.find? name = none := by
      refine Option.eq_none_iff_forall_ne_some.2 fun compiled hcompiled => hother ?_
      obtain ⟨product, hmem, rfl, -⟩ := hlists.find?_compiled.1 hcompiled
      rw [hlists.keys_shapes]
      exact List.mem_map_of_mem hmem
    rw [hnone] at hserve
    exact ⟨memo', hserve⟩

/-- Of the two classes that are asked for one is compiled and found, the other is skipped and
    unknown. -/
theorem coherent_of_run_pinned : ∃ build, run {} pinned .empty = .ok build ∧ build.Coherent ∧
    build.shapes.keys = ["a.Pin"] ∧ build.skipped = [("lib.Gone", .undeclared)] ∧
    (∃ handle memo', (Request.find "a.Pin").serve build.engine 1 .empty =
      some (.ok (some handle), memo') ∧ handle.name = "a.Pin") ∧
    ∃ memo', (Request.find "lib.Gone").serve build.engine 1 .empty =
      some (.error (.unknown "lib.Gone"), memo') := by
  obtain ⟨build, hrun, hkeys, hskipped⟩ := exists_run_pinned
  have hown : Catalog.ofList [board, pin] = .ok pinned.catalog := rfl
  have hexternal : Catalog.ofList [] = .ok pinned.external := rfl
  obtain ⟨hcoherent, hserve⟩ := coherent_of_run hown hexternal hrun
  have hserve := hserve .empty .empty 0
  refine ⟨build, hrun, hcoherent, hkeys, hskipped, ?_, ?_⟩
  · have hmem : "a.Pin" ∈ build.shapes.keys := by simp [hkeys]
    obtain ⟨shape, hshape⟩ := Option.ne_none_iff_exists'.1
      fun hnone => Table.find?_eq_none_iff.1 hnone hmem
    obtain ⟨handle, memo', hanswer, hname, -⟩ := (hserve "a.Pin").1 shape hshape
    exact ⟨handle, memo', hanswer, hname⟩
  · exact (hserve "lib.Gone").2 (by simp [hkeys]) (by decide) (by decide +kernel)

end TypeAtlas.Build
