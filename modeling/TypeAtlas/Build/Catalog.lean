/-
  The catalog of a build.

  A catalog numbers the declarations of a build in the order in which they are
  added and knows, for each, which of the others name it as a supertype.  A
  declaration may name supertypes that are added later, or never: until then the
  link waits under the supertype's name.

  * `Catalog.add` refuses a name that is taken and leaves the catalog as it was;
  * `Catalog.subtypes` is read off the stored links; the links follow the order
    of the numbers;
  * a `Scope` is a catalog with the declarations that come from outside; a name
    is looked up in the catalog first.

  Numbers have no bound here.  Where they are kept in 32 bits and cut off without
  a check, this is the catalog of fewer than 2^32 declarations.
-/
import TypeAtlas.Build.Declaration
import TypeAtlas.Build.Error
import TypeAtlas.Graph.Basic

namespace TypeAtlas

/-- The declarations of a build. -/
structure Catalog where
  /-- The declarations by number. -/
  decls : Array Declaration
  /-- The numbers of the direct subtypes of each declaration. -/
  links : Array (List Nat)
  /-- The number of each name. -/
  numbers : Table Nat
  /-- The numbers of the subtypes of names that are not declared yet. -/
  waiting : Table (List Nat)

namespace Catalog

def empty : Catalog := ⟨#[], #[], .empty, .empty⟩

def number? (catalog : Catalog) (name : String) : Option Nat := catalog.numbers.find? name

def find? (catalog : Catalog) (name : String) : Option Declaration :=
  (catalog.number? name).bind fun i => catalog.decls[i]?

def contains (catalog : Catalog) (name : String) : Bool := (catalog.number? name).isSome

def size (catalog : Catalog) : Nat := catalog.decls.size

/-- The supertypes of a declaration other than itself, each once. -/
def parents (decl : Declaration) : List String :=
  (NameSet.empty.insertAll (decl.supertypes.filter (· ≠ decl.name))).toList

/-- Links the declaration numbered `i` to one supertype. -/
def link (catalog : Catalog) (i : Nat) (parent : String) : Catalog :=
  match catalog.number? parent with
  | some p => { catalog with links := catalog.links.modify p (· ++ [i]) }
  | none =>
    let before := (catalog.waiting.find? parent).getD []
    { catalog with waiting := catalog.waiting.insert parent (before ++ [i]) }

/-- Numbers a declaration and links it. -/
def push (catalog : Catalog) (decl : Declaration) : Catalog :=
  let i := catalog.size
  let linked := (parents decl).foldl (fun c parent => c.link i parent) catalog
  { decls := linked.decls.push decl
    links := linked.links.push ((linked.waiting.find? decl.name).getD [])
    numbers := linked.numbers.insert decl.name i
    waiting := linked.waiting.erase decl.name }

/-- Adds a declaration; answers its number. -/
def add (catalog : Catalog) (decl : Declaration) : Except BuildError (Nat × Catalog) :=
  if catalog.contains decl.name then .error (.duplicateType decl.name)
  else .ok (catalog.size, catalog.push decl)

def addAll (catalog : Catalog) (decls : List Declaration) : Except BuildError Catalog :=
  decls.foldlM (fun c decl => Prod.snd <$> c.add decl) catalog

/-- The catalog of a list of declarations. -/
def ofList (decls : List Declaration) : Except BuildError Catalog := empty.addAll decls

/-- The numbers of the direct subtypes of a declaration, in order. -/
def subtypes (catalog : Catalog) (i : Nat) : List Nat := (catalog.links[i]?).getD []

/-- The direct subtypes of a name, in order. -/
def subtypesOf (catalog : Catalog) (name : String) : List Declaration :=
  match catalog.number? name with
  | some i => (catalog.subtypes i).filterMap fun j => catalog.decls[j]?
  | none => []

def toList (catalog : Catalog) : List (Nat × Declaration) :=
  catalog.decls.toList.zipIdx.map fun entry => (entry.2, entry.1)

/-- The declarations that carry an annotation of the given type. -/
def annotatedWith (catalog : Catalog) (typeName : String) : List (Nat × Declaration) :=
  catalog.toList.filter fun entry => entry.2.annotations.any fun note => note.typeName == typeName

/-- The names that are declared, in order. -/
def names (catalog : Catalog) : List String := catalog.decls.toList.map Declaration.name

end Catalog

/-- A catalog and the declarations from outside. -/
structure Scope where
  catalog : Catalog
  external : Catalog

namespace Scope

/-- The declaration of a name, of the build if there is one. -/
def find? (scope : Scope) (name : String) : Option Declaration :=
  (scope.catalog.find? name).or (scope.external.find? name)

/-- The names that are declared, those of the build first. -/
def names (scope : Scope) : List String := scope.catalog.names ++ scope.external.names

/-- The graph that leads from every declared name to what `next` makes of its
    declaration. -/
def graph (scope : Scope) (next : Declaration → List String) : Graph where
  edges := .ofList (scope.names.filterMap fun name =>
    (scope.find? name).map fun decl => (name, next decl))

end Scope

end TypeAtlas
