/-
  The settings of a build.

  Settings are read from a TOML document.  A key that is missing has a default,
  a key that is unknown does not count, and a value of the wrong kind is an
  error, as is a document that is not well formed.

  * `Settings.ofText?` reads settings and answers nothing in case of an error;
  * the names of the marker annotations may be given as a table or, in their
    order, as a list.
-/
import TypeAtlas.Build.Seed
import TypeAtlas.Toml.Document

namespace TypeAtlas

open TypeAtlas.Toml (Item Tab)

/-- The settings of a build. -/
structure Settings where
  /-- The annotations that make seeds. -/
  markers : Markers := {}
  /-- Whether every concrete member must have a host body. -/
  strictBindings : Bool := false
  /-- Whether types outside of packages are left out. -/
  requirePackage : Bool := true
  /-- The name of the module that is written. -/
  moduleName : String := "portrait_generated"
  /-- Where the module is written to. -/
  outputDirectory : String := "target/portrait"
  deriving DecidableEq, Repr

namespace Settings

/-! ## Values -/

def text? : Item → Option String
  | .text s => some s
  | _ => none

def flag? : Item → Option Bool
  | .flag b => some b
  | _ => none

/-- The value of a key, or its default. -/
def read? {α : Type} (kind? : Item → Option α) (table : Tab) (key : String) (default : α) :
    Option α :=
  match table.find? key with
  | some item => kind? item
  | none => some default

/-! ## Markers -/

def markersOfTable? (table : Tab) : Option Markers := do
  let base : Markers := {}
  return {
    reflective := ← read? text? table "reflective" base.reflective
    proxyTarget := ← read? text? table "proxy_target" base.proxyTarget
    reflectiveInclude := ← read? text? table "reflective_include" base.reflectiveInclude
    proxyTargetInclude := ← read? text? table "proxy_target_include" base.proxyTargetInclude }

/-- An item of a list, or its default. -/
def itemAt? (items : List Item) (i : Nat) (default : String) : Option String :=
  match items[i]? with
  | some item => text? item
  | none => some default

/-- The markers of a list; what goes beyond them does not count. -/
def markersOfList? (items : List Item) : Option Markers := do
  let base : Markers := {}
  return {
    reflective := ← itemAt? items 0 base.reflective
    proxyTarget := ← itemAt? items 1 base.proxyTarget
    reflectiveInclude := ← itemAt? items 2 base.reflectiveInclude
    proxyTargetInclude := ← itemAt? items 3 base.proxyTargetInclude }

/-- The markers of a value.  A date or time counts as a table without any of
    the keys. -/
def markers? : Item → Option Markers
  | .table table | .inline table => markersOfTable? table
  | .array items => markersOfList? items
  | .tables tables => markersOfList? (tables.map Item.table)
  | .moment _ => some {}
  | _ => none

/-! ## Settings -/

def ofTable? (table : Tab) : Option Settings := do
  let base : Settings := {}
  return {
    markers := ← read? markers? table "annotations" base.markers
    strictBindings := ← read? flag? table "strict_bindings" base.strictBindings
    requirePackage := ← read? flag? table "require_package" base.requirePackage
    moduleName := ← read? text? table "module_name" base.moduleName
    outputDirectory := ← read? text? table "output_dir" base.outputDirectory }

def ofText? (text : String) : Option Settings := (Tab.ofText? text).bind ofTable?

end Settings

end TypeAtlas
