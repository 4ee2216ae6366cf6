/-
  Everything above a type, found twice.

  The lineage of a build and the selection of a seed that asks for all supertypes go up
  the same declarations, each with a walk of its own: the one drops the type that it
  starts from, the other the parents that are the type itself.

  * `Selection.mem_introspectable_upward`: what a seed that asks for all supertypes
    comes to;
  * `Lineage.accepts?_iff_selected`: both find the same names, on cyclic declarations
    and above names that nobody declares as well.
-/
import TypeAtlas.Proofs.Host.Judgement

namespace TypeAtlas

variable {scope : Scope} {own external : List Declaration} {name target : String}

/-- A type that is asked for with all types above it. -/
def Seed.upward (name : String) : Seed := ⟨name, .reflective, .ofList [.allSupertypes]⟩

theorem Seed.mem_upward {directive : Directive} :
    directive ∈ (upward name).directives ↔ directive = .allSupertypes := by
  rw [upward, DirectiveSet.mem_ofList, List.mem_singleton]

namespace Selection

/-- The seed comes to the type and what is above it. -/
theorem mem_introspectable_upward (h : scope.Of own external)
    (hn : NormalNames (own ++ external)) (hname : Name.normalForm? name = some name) :
    target ∈ (ofSeeds scope [.upward name]).introspectable ↔
      name = target ∨ Relation.TransGen (Above own external) name target := by
  have hseeds : ∀ seed ∈ [Seed.upward name], Name.normalForm? seed.name = some seed.name :=
    List.forall_mem_singleton.2 hname
  rw [mem_introspectable h hn hseeds]
  constructor
  · rintro (⟨seed, hseed, rfl⟩ | hproxy | ⟨seed, hseed, -, directive, hdirective, hwidens⟩)
    · rw [List.mem_singleton.1 hseed]
      exact Or.inl rfl
    · exact absurd hproxy (not_mem_proxyable (List.forall_mem_singleton.2 rfl))
    · obtain rfl := List.mem_singleton.1 hseed
      rw [Seed.mem_upward.1 hdirective] at hwidens
      exact Or.inr hwidens
  · rintro (rfl | habove)
    · exact Or.inl ⟨_, List.mem_singleton_self _, rfl⟩
    · exact Or.inr (Or.inr ⟨_, List.mem_singleton_self _, rfl, _, Seed.mem_upward.2 rfl, habove⟩)

end Selection

namespace Lineage

/-- **The lineage and the selection agree on supertypes**: a type of the build fits where another
    is asked for if that is the class of all objects or is selected by a seed that asks for all
    supertypes, and nothing is said of types that the build does not declare. -/
theorem accepts?_iff_selected (hown : Catalog.ofList own = .ok scope.catalog)
    (hexternal : Catalog.ofList external = .ok scope.external)
    (hnormal : ∀ decl ∈ own ++ external, ∀ name ∈ decl.name :: decl.supertypes,
      Name.normalForm? name = some name) (name target : String) :
    (Declared own name →
      ((ofScope scope).accepts? name target = some true ↔
        target = Name.object ∨
          target ∈ (Selection.ofSeeds scope [.upward name]).introspectable)) ∧
    ((ofScope scope).accepts? name target = none ↔ ¬ Declared own name) := by
  have h : scope.Of own external := ⟨hown, hexternal⟩
  refine ⟨fun hdeclared => ?_, ?_⟩
  · have hname : Name.normalForm? name = some name := by
      obtain ⟨decl, hmem, rfl⟩ := hdeclared
      exact hnormal decl (List.mem_append_left _ hmem) _ List.mem_cons_self
    rw [accepts?_eq_some_iff h, Selection.mem_introspectable_upward h hnormal hname, Fits]
    simp only [hdeclared, true_and, true_iff]
    exact or_left_comm
  · rw [accepts?_eq, ← mem_names_iff h]
    split <;> simp [*]

/-! ## A class above itself -/

/-- What is declared from outside of the class that `heir` extends: it extends `heir`, and
    implements an interface of which nothing is declared. -/
def ring : Declaration :=
  { Slot.link "lib.Base" "lib.Gone" with superclass := some "a.Leaf" }

/-- The interface is found above `heir`, and nothing is known of the class from outside. -/
theorem accepts?_iff_selected_ring : ∃ scope : Scope,
    Catalog.ofList [Slot.heir] = .ok scope.catalog ∧ Catalog.ofList [ring] = .ok scope.external ∧
    "lib.Gone" ∈ (Selection.ofSeeds scope [.upward "a.Leaf"]).introspectable ∧
    (ofScope scope).accepts? "a.Leaf" "lib.Gone" = some true ∧
    (ofScope scope).accepts? "lib.Base" "lib.Gone" = none := by
  have hleaf : Name.normalForm? "a.Leaf" = some "a.Leaf" := Selection.normalForm?_leaf
  have hbase : Name.normalForm? "lib.Base" = some "lib.Base" :=
    Name.Normal.normalForm?_eq (by constructor <;> decide +kernel)
  have hgone : Name.normalForm? "lib.Gone" = some "lib.Gone" :=
    Name.Normal.normalForm?_eq (by constructor <;> decide +kernel)
  have hnormal : ∀ decl ∈ [Slot.heir] ++ [ring], ∀ name ∈ decl.name :: decl.supertypes,
      Name.normalForm? name = some name := by
    simp [Slot.heir, ring, Slot.link, Declaration.ofName, Declaration.supertypes, or_imp,
      forall_and, hleaf, hbase, hgone]
  have h : Scope.Of ⟨Catalog.empty.push Slot.heir, Catalog.empty.push ring⟩ [Slot.heir] [ring] :=
    ⟨rfl, rfl⟩
  have hheir : Declared [Slot.heir] "a.Leaf" := ⟨_, List.mem_singleton_self _, rfl⟩
  have hring : ¬ Declared [Slot.heir] "lib.Base" := by
    rintro ⟨decl, hmem, hname⟩
    rw [List.mem_singleton.1 hmem] at hname
    exact absurd hname (by decide)
  have habove : Relation.TransGen (Above [Slot.heir] [ring]) "a.Leaf" "lib.Gone" :=
    .tail (.single ⟨_, Or.inl ⟨List.mem_singleton_self _, rfl⟩, List.mem_singleton_self _⟩)
      ⟨ring, Or.inr ⟨hring, List.mem_singleton_self _, rfl⟩, by decide⟩
  have hselected := (Selection.mem_introspectable_upward h hnormal hleaf).2 (Or.inr habove)
  obtain ⟨hsame, -⟩ := accepts?_iff_selected h.catalog h.external hnormal "a.Leaf" "lib.Gone"
  obtain ⟨-, hnone⟩ := accepts?_iff_selected h.catalog h.external hnormal "lib.Base" "lib.Gone"
  exact ⟨_, h.catalog, h.external, hselected, (hsame hheir).2 (Or.inr hselected), hnone.2 hring⟩

end Lineage

end TypeAtlas
