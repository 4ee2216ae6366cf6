/-
  Lineages.

  The lineage of a build lists, for each of its types, everything above it:
  superclasses and interfaces, their supertypes, and so on through the
  declarations of the build and from outside, up to names that nobody declares.

  * `Lineage.ofScope` goes through the graph of supertypes once for each type;
  * `Lineage.accepts? name target` answers whether a value of a type of the build
    fits where `target` is asked for, and nothing for other types.
-/
import TypeAtlas.Build.Catalog

namespace TypeAtlas

/-- The graph that leads from every declared type to its supertypes. -/
def Scope.supertypeGraph (scope : Scope) : Graph := scope.graph Declaration.supertypes

/-- What is above each type of a build. -/
structure Lineage where
  ancestors : Table (List String)

namespace Lineage

def above (graph : Graph) (name : String) : List String :=
  (graph.visit [name]).filter (· ≠ name)

/-- The lineage of the types of a catalog. -/
def ofScope (scope : Scope) : Lineage where
  ancestors := .ofList (scope.catalog.names.map fun name =>
    (name, above scope.supertypeGraph name))

/-- Whether a name belongs to a type of the build. -/
def knows (lineage : Lineage) (name : String) : Bool := lineage.ancestors.contains name

/-- Whether a value of the type `name` fits where `target` is asked for. -/
def accepts? (lineage : Lineage) (name target : String) : Option Bool :=
  (lineage.ancestors.find? name).map fun above =>
    name == target || target == Name.object || above.contains target

end Lineage

end TypeAtlas
