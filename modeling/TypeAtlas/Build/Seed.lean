/-
  Seeds.

  A build starts from seeds: types that are asked for, each with directives that
  widen the request.  Seeds are found as annotations in the catalog, of four
  types whose names are settings: two that mark the annotated type itself, and
  two that stand on any type and list further classes.

  * `Seed.scan` finds the seeds: types marked for introspection, types marked for
    stand-ins, then the listed classes of both roles; within each in the order
    of the catalog, of annotations and of lists;
  * `Annotation.directives` reads the directives of one annotation and refuses
    a text that names none.
-/
import TypeAtlas.Build.Catalog
import TypeAtlas.Build.Directive
import TypeAtlas.Text.Affix

namespace TypeAtlas

/-- What a type is asked for. -/
inductive Role where
  | reflective
  | proxy
  deriving DecidableEq, Repr

/-- A type that is asked for. -/
structure Seed where
  name : String
  role : Role
  directives : DirectiveSet
  deriving DecidableEq

/-- The names of the annotation types that make seeds. -/
structure Markers where
  reflective : String := "tech.kaffa.portrait.Reflective"
  proxyTarget : String := "tech.kaffa.portrait.ProxyTarget"
  reflectiveInclude : String := "tech.kaffa.portrait.Reflective$Include"
  proxyTargetInclude : String := "tech.kaffa.portrait.ProxyTarget$Include"
  deriving DecidableEq, Repr

/-! ## Reading annotations -/

/-- The texts in a property of an annotation; a single value counts as a list. -/
def Annotation.textsOf (note : Annotation) (name : String) : List String :=
  match note.property? name with
  | some value => value.items.filterMap AnnotationValue.asText?
  | none => []

def Annotation.directives (note : Annotation) : Except BuildError DirectiveSet :=
  DirectiveSet.ofList <$> (note.textsOf "including").mapM Directive.parse

/-- A class as it is listed, without the ending of a class literal. -/
def listedClass (text : String) : String :=
  match Text.before? ".class".toList text.toList with
  | some name => String.ofList name
  | none => text

/-- The classes that an annotation lists. -/
def Annotation.classes (note : Annotation) : List String :=
  ((note.textsOf "classes").map listedClass).filter (· ≠ "")

/-! ## Scanning -/

namespace Seed

/-- The annotations of one type in a catalog, with the types that carry them. -/
def occurrences (catalog : Catalog) (marker : String) : List (Declaration × Annotation) :=
  (catalog.annotatedWith marker).flatMap fun entry =>
    (entry.2.annotationsOf marker).map fun note => (entry.2, note)

/-- The seeds for the types that carry a marker. -/
def direct (catalog : Catalog) (role : Role) (marker : String) :
    Except BuildError (List Seed) :=
  (occurrences catalog marker).mapM fun occurrence => do
    return ⟨occurrence.1.name, role, ← occurrence.2.directives⟩

/-- The seeds for the classes that a marker lists. -/
def listed (catalog : Catalog) (role : Role) (marker : String) :
    Except BuildError (List Seed) :=
  List.flatten <$> (occurrences catalog marker).mapM fun occurrence => do
    let directives ← occurrence.2.directives
    return occurrence.2.classes.map fun name => ⟨name, role, directives⟩

def scan (markers : Markers) (catalog : Catalog) : Except BuildError (List Seed) := do
  let marked ← direct catalog .reflective markers.reflective
  let targets ← direct catalog .proxy markers.proxyTarget
  let included ← listed catalog .reflective markers.reflectiveInclude
  let includedTargets ← listed catalog .proxy markers.proxyTargetInclude
  return marked ++ targets ++ included ++ includedTargets

end Seed

end TypeAtlas
