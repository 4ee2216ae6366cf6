/-
  Assembling a directory.

  The compiled types of a build are collected under their names and laid out as
  a directory.  A blank name and a name that is taken are refused; what was
  collected before stays as it is.
-/
import TypeAtlas.Build.Error
import TypeAtlas.Directory.Basic
import TypeAtlas.Text.Blank
import TypeAtlas.Table

namespace TypeAtlas

/-! ## Priorities -/

/-- The priority of the built-in types. -/
def wellKnownPriority : Int := 200

def generatedPriority : Int := 150

def nativePriority : Int := 100

/-! ## Collecting -/

/-- What is collected for a directory. -/
structure Assembly (α : Type) where
  entries : Table α

namespace Assembly

variable {α : Type}

def empty : Assembly α := ⟨.empty⟩

/-- Adds what belongs to a name. -/
def add (assembly : Assembly α) (name : String) (value : α) : Except BuildError (Assembly α) :=
  if Text.isBlankText name then .error (.unknownType name)
  else if assembly.entries.contains name then .error (.duplicateType name)
  else .ok ⟨assembly.entries.insert name value⟩

/-- The directory of what was collected. -/
def directory (assembly : Assembly α) (priority : Option Int) : Directory α :=
  .ofEntries assembly.entries.entries (priority.getD generatedPriority)

end Assembly

end TypeAtlas
