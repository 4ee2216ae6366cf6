/-
  A build.

  A build finds the seeds of a catalog, selects the types that they come to, and
  describes and compiles every selected type that can be compiled.

  * a selected name is skipped if no type of that name can be compiled or
    nothing is declared under it; `Skip` is the reason;
  * `Build.run` ends at the first error;
  * `Build.listing` is the written lookup of the build's blobs.
-/
import TypeAtlas.Build.Assembly
import TypeAtlas.Build.Compile
import TypeAtlas.Build.Description
import TypeAtlas.Build.Listing
import TypeAtlas.Build.Selection
import TypeAtlas.Build.Settings

namespace TypeAtlas

/-- Why a selected name is skipped. -/
inductive Skip where
  /-- No type of this name can be compiled. -/
  | notGeneratable
  /-- Nothing is declared under the name. -/
  | undeclared
  deriving DecidableEq, Repr

def Skip.text : Skip → String
  | notGeneratable => "not generatable"
  | undeclared => "no type information"

/-- The result of a build. -/
structure Build where
  /-- The types that were selected. -/
  selection : Selection
  /-- The shapes of the compiled types, in order. -/
  shapes : Table Shape
  /-- The blobs of the compiled types, in order. -/
  blobs : Table String
  /-- The compiled types. -/
  directory : Directory Compiled
  /-- The names that were skipped, in order. -/
  skipped : List (String × Skip)
  /-- The name of the module that is written. -/
  moduleName : String

namespace Build

/-- Whether a type of this name is compiled. -/
def wants (settings : Settings) (name : String) : Bool :=
  Name.isGeneratable name && (!settings.requirePackage || name.toList.contains '.')

/-- What is done with a selected name. -/
inductive Outcome where
  | skipped (reason : Skip)
  | compiled (shape : Shape) (compiled : Compiled)

/-- Describes and compiles the type of a selected name. -/
def process (settings : Settings) (scope : Scope) (registry : Registry) (mode : CompileMode)
    (selection : Selection) (name : String) : Except BuildError Outcome :=
  if wants settings name then
    match scope.find? name with
    | none => .ok (.skipped .undeclared)
    | some decl => do
      let shape ← decl.describe scope (selection.proxyable.contains name)
      let bindings := (registry.find? name).getD (.ofName name)
      return .compiled shape (← shape.compile mode bindings)
  else .ok (.skipped .notGeneratable)

/-- What the build has come to so far. -/
structure Progress where
  assembly : Assembly Compiled
  shapes : Table Shape
  blobs : Table String
  skipped : List (String × Skip)

/-- Adds what was done with a name. -/
def Progress.add (progress : Progress) (name : String) : Outcome → Except BuildError Progress
  | .skipped reason => .ok { progress with skipped := progress.skipped ++ [(name, reason)] }
  | .compiled shape compiled => do
    return { progress with
      assembly := ← progress.assembly.add compiled.table.typeName compiled
      shapes := progress.shapes.insert name shape
      blobs := progress.blobs.insert name compiled.blob }

def run (settings : Settings) (scope : Scope) (registry : Registry) :
    Except BuildError Build := do
  let seeds ← Seed.scan settings.markers scope.catalog
  let selection := Selection.ofSeeds scope seeds
  let mode := { strict := settings.strictBindings, lineage := some (Lineage.ofScope scope) }
  let start : Progress := ⟨.empty, .empty, .empty, []⟩
  let progress ← selection.introspectable.toList.foldlM (fun progress name => do
    progress.add name (← process settings scope registry mode selection name)) start
  return {
    selection := selection
    shapes := progress.shapes
    blobs := progress.blobs
    directory := progress.assembly.directory none
    skipped := progress.skipped
    moduleName := settings.moduleName }

/-- The written lookup of the blobs. -/
def listing (build : Build) : Except BuildError Listing :=
  build.blobs.entries.foldlM (fun listing entry => listing.add entry.1 entry.2)
    (.empty build.moduleName)

def summary (build : Build) : String :=
  let skipped := build.skipped.map fun entry =>
    "(" ++ Text.quoteText entry.1 ++ ", " ++ Text.quoteText entry.2.text ++ ")"
  "GeneratedOutput \x7b resolution: " ++ build.selection.summary ++
    s!", generated: {build.shapes.size}, skipped: " ++ Text.listing "[" "]" skipped ++
    ", module_name: " ++ Text.quoteText build.moduleName ++ " \x7d"

end Build

end TypeAtlas
