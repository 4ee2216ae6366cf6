/-
  Objects that are refused.

  A slot refuses an object of a type of the build where nothing that is declared
  leads from its type to the type that is asked for.

  * `Fits` is what the declarations say of a type and a type that is asked for,
    `Extends` allows more declarations from outside, of names that had none;
  * `Lineage.accepts?_eq_some_iff`: a lineage answers what the declarations say;
  * `Slot.refusal_lasts_iff`: a refusal stands, whatever is declared later, if and
    only if every name above the type of the object is described.  A name above it
    that is not described may turn out to lead to the type that is asked for
    (`Slot.refusal_lasts_described`, `Slot.not_refusal_lasts`).
-/
import TypeAtlas.Proofs.Build.Selection
import TypeAtlas.Proofs.Host.Slot

namespace TypeAtlas

/-! ## What the declarations say -/

section

variable (own external : List Declaration)

/-- A name that is declared, by the build or from outside. -/
def Described (name : String) : Prop := Declared own name ∨ Declared external name

/-- A value of the type `name` fits where `target` is asked for: it is the same type, or the
    class of all objects, or above it. -/
def Fits (name target : String) : Prop :=
  name = target ∨ target = Name.object ∨ Relation.TransGen (Above own external) name target

/-- More declarations from outside, all of names that were not described. -/
structure Extends (wider : List Declaration) : Prop where
  /-- Nothing is taken away. -/
  kept : external ⊆ wider
  /-- What is new had no description. -/
  fresh : ∀ decl ∈ wider, decl ∈ external ∨ ¬ Described own external decl.name

end

variable {scope : Scope} {own external wider : List Declaration} {name target a b : String}

namespace Extends

/-- Names that were described keep their declaration. -/
theorem known_iff (h : Extends own external wider) (ha : Described own external a)
    {decl : Declaration} : Known own wider a decl ↔ Known own external a decl := by
  constructor
  · rintro (hown | ⟨hnot, hmem, rfl⟩)
    · exact Or.inl hown
    · exact Or.inr ⟨hnot, (h.fresh decl hmem).resolve_right (not_not.2 ha), rfl⟩
  · rintro (hown | ⟨hnot, hmem, hname⟩)
    · exact Or.inl hown
    · exact Or.inr ⟨hnot, h.kept hmem, hname⟩

theorem above_iff (h : Extends own external wider) (ha : Described own external a) :
    Above own wider a b ↔ Above own external a b :=
  exists_congr fun _ => and_congr_left' (h.known_iff ha)

theorem described_of_above (hab : Above own external a b) : Described own external a := by
  obtain ⟨decl, hknown, -⟩ := hab
  rcases hknown with ⟨hmem, hname⟩ | ⟨-, hmem, hname⟩
  · exact Or.inl ⟨decl, hmem, hname⟩
  · exact Or.inr ⟨decl, hmem, hname⟩

/-- What was above a name stays above it. -/
theorem transGen_above (h : Extends own external wider)
    (hab : Relation.TransGen (Above own external) a b) :
    Relation.TransGen (Above own wider) a b := by
  induction hab with
  | single hstep => exact .single ((h.above_iff (described_of_above hstep)).2 hstep)
  | tail _ hstep ih => exact ih.tail ((h.above_iff (described_of_above hstep)).2 hstep)

/-- Nothing more gets above a name all of whose ancestors are described. -/
theorem transGen_above_of_described (h : Extends own external wider)
    (hname : Described own external name)
    (hall : ∀ u, Relation.TransGen (Above own external) name u → Described own external u)
    (hab : Relation.TransGen (Above own wider) name b) :
    Relation.TransGen (Above own external) name b := by
  induction hab with
  | single hstep => exact .single ((h.above_iff hname).1 hstep)
  | tail _ hstep ih => exact ih.tail ((h.above_iff (hall _ ih)).1 hstep)

end Extends

/-! ## What a lineage answers -/

namespace Lineage

theorem reaches_supertypes_iff (h : scope.Of own external) :
    scope.supertypeGraph.Reaches a b ↔ Relation.ReflTransGen (Above own external) a b := by
  have hsame : scope.supertypeGraph.Leads = Above own external :=
    funext₂ fun _ _ => propext h.mem_next_graph
  rw [Graph.reaches_iff, hsame]

theorem accepts?_eq (scope : Scope) (name target : String) :
    (ofScope scope).accepts? name target =
      if name ∈ scope.catalog.names then
        some (name == target || target == Name.object ||
          (above scope.supertypeGraph name).contains target)
      else none := by
  have hfind := Table.find?_ofList_filterMap scope.catalog.names
    (fun n => some (above scope.supertypeGraph n)) name
  simp only [Option.map_some, List.filterMap_eq_map'] at hfind
  unfold accepts? ofScope
  rw [hfind]
  split <;> rfl

theorem mem_names_iff (h : scope.Of own external) :
    name ∈ scope.catalog.names ↔ Declared own name := by
  obtain ⟨-, hdecls⟩ := Catalog.sound_of_ofList h.catalog
  rw [Catalog.names, hdecls, List.mem_map]
  rfl

theorem mem_above_iff (h : scope.Of own external) :
    target ∈ above scope.supertypeGraph name ↔
      Relation.TransGen (Above own external) name target ∧ target ≠ name := by
  have hreaches : target ∈ scope.supertypeGraph.visit [name] ↔
      Relation.ReflTransGen (Above own external) name target := by
    rw [Graph.mem_visit, ← reaches_supertypes_iff h]
    simp
  rw [above, List.mem_filter, hreaches, Relation.reflTransGen_iff_eq_or_transGen, decide_eq_true_eq]
  constructor
  · rintro ⟨heq | hgen, hne⟩
    · exact absurd heq hne
    · exact ⟨hgen, hne⟩
  · exact fun ⟨hgen, hne⟩ => ⟨Or.inr hgen, hne⟩

/-- **A lineage knows the types of the build and answers what the declarations say.** -/
theorem accepts?_eq_some_iff (h : scope.Of own external) {answer : Bool} :
    (ofScope scope).accepts? name target = some answer ↔
      Declared own name ∧ (answer = true ↔ Fits own external name target) := by
  have hfits : (name == target || target == Name.object ||
      (above scope.supertypeGraph name).contains target) = true ↔
        Fits own external name target := by
    simp only [Bool.or_eq_true, beq_iff_eq, List.contains_iff_mem, mem_above_iff h, Fits, or_assoc]
    by_cases hname : name = target
    · simp [hname]
    · simp [hname, Ne.symm hname]
  rw [accepts?_eq, ← hfits, ← mem_names_iff h]
  by_cases hname : name ∈ scope.catalog.names
  · rw [if_pos hname, Option.some.injEq]
    cases answer <;> simp [hname]
  · simp [hname]

end Lineage

/-! ## How long a refusal lasts -/

namespace Slot

/-- A class of which nothing is declared but what it implements. -/
def link (name target : String) : Declaration :=
  { Declaration.ofName name .cls with interfaces := [target] }

theorem extends_link (target : String) (hname : ¬ Described own external name) :
    Extends own external (external ++ [link name target]) := by
  refine ⟨List.subset_append_left _ _, fun decl hdecl => ?_⟩
  rcases List.mem_append.1 hdecl with hdecl | hdecl
  · exact Or.inl hdecl
  · rw [List.mem_singleton.1 hdecl]
    exact Or.inr hname

theorem above_link (hname : ¬ Described own external name) :
    Above own (external ++ [link name target]) name target := by
  refine ⟨link name target, Or.inr ⟨fun hown => hname (Or.inl hown), by simp, rfl⟩, ?_⟩
  simp [link, Declaration.supertypes, Declaration.ofName]

theorem exists_ofList_link (target : String) {catalog : Catalog}
    (hexternal : Catalog.ofList external = .ok catalog)
    (hname : ¬ Described own external name) :
    ∃ wider, Catalog.ofList (external ++ [link name target]) = .ok wider := by
  rw [Catalog.exists_ofList_iff, List.map_append, List.nodup_append]
  refine ⟨Catalog.exists_ofList_iff.1 ⟨catalog, hexternal⟩, by simp, ?_⟩
  intro found hfound other hother
  obtain ⟨decl, hdecl, rfl⟩ := List.mem_map.1 hfound
  rw [List.map_singleton, List.mem_singleton] at hother
  rintro rfl
  exact hname (Or.inr ⟨decl, hdecl, hother⟩)

theorem refuses_iff {lineage : Lineage} {ref : ObjectRef} :
    (reference target).accept (some lineage) (.object ref) =
        .error (.wrongType target ref.typeName) ↔
      lineage.accepts? ref.typeName target = some false := by
  unfold accept admits Value.typeName
  cases hanswer : lineage.accepts? ref.typeName target with
  | none => simp [hanswer]
  | some answer => cases answer <;> simp [hanswer]

/-- **A refusal is right as far as the declarations go, and it stands for good if and only if
    every name above the type of the object is described.** -/
theorem refusal_lasts_iff (h : scope.Of own external) (ref : ObjectRef) (target : String) :
    ((reference target).accept (some (.ofScope scope)) (.object ref) =
        .error (.wrongType target ref.typeName) ↔
      Declared own ref.typeName ∧ ¬ Fits own external ref.typeName target) ∧
    ((Lineage.ofScope scope).accepts? ref.typeName target = some false →
      ((∀ wider catalog, Catalog.ofList wider = .ok catalog → Extends own external wider →
          ¬ Fits own wider ref.typeName target) ↔
        ∀ u, Relation.TransGen (Above own external) ref.typeName u →
          Described own external u)) := by
  have hrefused : (Lineage.ofScope scope).accepts? ref.typeName target = some false ↔
      Declared own ref.typeName ∧ ¬ Fits own external ref.typeName target := by
    rw [Lineage.accepts?_eq_some_iff h]
    simp
  refine ⟨refuses_iff.trans hrefused, fun hfalse => ?_⟩
  obtain ⟨hdeclared, hnot⟩ := hrefused.1 hfalse
  constructor
  · intro hlasts u hu
    by_contra hundescribed
    obtain ⟨catalog, hcatalog⟩ := exists_ofList_link target h.external hundescribed
    have hextends := extends_link target hundescribed
    exact hlasts _ catalog hcatalog hextends
      (Or.inr (Or.inr ((hextends.transGen_above hu).tail (above_link hundescribed))))
  · rintro hall wider catalog - hextends (hsame | hobject | habove)
    · exact hnot (Or.inl hsame)
    · exact hnot (Or.inr (Or.inl hobject))
    · exact hnot (Or.inr (Or.inr
        (hextends.transGen_above_of_described (Or.inl hdeclared) hall habove)))

/-- A class of the build that extends a class from a library. -/
def heir : Declaration := { Declaration.ofName "a.Leaf" .cls with superclass := some "lib.Base" }

/-- The class from the library, if it is declared. -/
def base : Declaration := .ofName "lib.Base" .cls

/-- An object of `heir`. -/
def heirloom : ObjectRef := ⟨0, "a.Leaf"⟩

/-- The build of `heir` with the given declarations from outside. -/
def heirScope (external : Catalog) : Scope := ⟨Catalog.empty.push heir, external⟩

theorem eq_of_above_heir (hbase : ∀ b, ¬ Above [heir] external "lib.Base" b)
    (h : Relation.TransGen (Above [heir] external) "a.Leaf" a) : a = "lib.Base" := by
  induction h with
  | single hstep =>
    obtain ⟨decl, ⟨hmem, -⟩ | ⟨hnot, -⟩, habove⟩ := hstep
    · rw [List.mem_singleton.1 hmem] at habove
      exact List.mem_singleton.1 habove
    · exact absurd ⟨heir, List.mem_singleton_self _, rfl⟩ hnot
  | tail _ hstep ih => exact absurd (ih ▸ hstep) (hbase _)

theorem accepts?_heir (h : scope.Of [heir] external)
    (hbase : ∀ b, ¬ Above [heir] external "lib.Base" b) :
    (Lineage.ofScope scope).accepts? "a.Leaf" "lib.Handler" = some false := by
  refine (Lineage.accepts?_eq_some_iff h).2 ⟨⟨heir, List.mem_singleton_self _, rfl⟩, ?_⟩
  refine iff_of_false Bool.false_ne_true ?_
  rintro (hsame | hobject | habove)
  · exact absurd hsame (by decide)
  · exact absurd hobject (by decide)
  · exact absurd (eq_of_above_heir hbase habove) (by decide)

/-- An object of a class of which all is known. -/
theorem refusal_lasts_described :
    let described := heirScope (Catalog.empty.push base)
    described.Of [heir] [base] ∧
      (reference "lib.Handler").accept (some (.ofScope described)) (.object heirloom) =
        .error (.wrongType "lib.Handler" "a.Leaf") ∧
      ∀ wider catalog, Catalog.ofList wider = .ok catalog → Extends [heir] [base] wider →
        ¬ Fits [heir] wider "a.Leaf" "lib.Handler" := by
  intro described
  have h : described.Of [heir] [base] := ⟨rfl, rfl⟩
  have hbase : ∀ b, ¬ Above [heir] [base] "lib.Base" b := by
    rintro b ⟨decl, ⟨hmem, hname⟩ | ⟨-, hmem, -⟩, habove⟩
    · rw [List.mem_singleton.1 hmem] at hname
      exact absurd hname (by decide)
    · rw [List.mem_singleton.1 hmem] at habove
      cases habove
  obtain ⟨-, hlasts⟩ := refusal_lasts_iff h heirloom "lib.Handler"
  have hfalse := accepts?_heir h hbase
  refine ⟨h, refuses_iff.2 hfalse, (hlasts hfalse).2 fun u hu => ?_⟩
  rw [eq_of_above_heir hbase hu]
  exact Or.inr ⟨base, List.mem_singleton_self _, rfl⟩

/-- **A class from a library of which nothing is declared counts for nothing**: the object is
    refused where it fits as soon as more is declared. -/
theorem not_refusal_lasts :
    (heirScope .empty).Of [heir] [] ∧
      (Lineage.ofScope (heirScope .empty)).accepts? "a.Leaf" "lib.Handler" = some false ∧
      (reference "lib.Handler").accept (some (.ofScope (heirScope .empty))) (.object heirloom) =
        .error (.wrongType "lib.Handler" "a.Leaf") ∧
      ∃ wider catalog, Catalog.ofList wider = .ok catalog ∧ Extends [heir] [] wider ∧
        Fits [heir] wider "a.Leaf" "lib.Handler" := by
  have h : (heirScope .empty).Of [heir] [] := ⟨rfl, rfl⟩
  have hundescribed : ¬ Described [heir] [] "lib.Base" := by
    simp [Described, Declared, heir, Declaration.ofName]
  have hfalse := accepts?_heir h fun b hb => hundescribed (Extends.described_of_above hb)
  obtain ⟨catalog, hcatalog⟩ : ∃ catalog,
      Catalog.ofList ([] ++ [link "lib.Base" "lib.Handler"]) = .ok catalog :=
    exists_ofList_link _ h.external hundescribed
  have habove : Above [heir] ([] ++ [link "lib.Base" "lib.Handler"]) "a.Leaf" "lib.Base" :=
    ⟨heir, Or.inl ⟨List.mem_singleton_self _, rfl⟩, List.mem_singleton_self _⟩
  exact ⟨h, hfalse, refuses_iff.2 hfalse, _, catalog, hcatalog, extends_link _ hundescribed,
    Or.inr (Or.inr (.tail (.single habove) (above_link hundescribed)))⟩

end Slot

end TypeAtlas
