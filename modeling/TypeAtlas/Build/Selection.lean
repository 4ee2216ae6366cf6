/-
  Selections.

  A selection is what a list of seeds comes to: the types to introspect, the
  interfaces among them that can have stand-ins, and the types to introspect
  that the build does not declare.

  Each seed offers names: its own, and those that its directives lead to.  Names
  are taken in their normal form.  For introspection every name is admitted and
  widening follows superclasses and interfaces alike; for stand-ins only
  interfaces are admitted, one step up follows interfaces only, and steps down
  pass through interfaces only.

  * `Selection.offers` lists the names that one seed offers in one role;
  * `Selection.ofSeeds` admits them in the order of the seeds;
  * every walk is one of the two of `Graph`, so cyclic declarations are no
    trouble.
-/
import TypeAtlas.Build.Seed
import TypeAtlas.Name.Normal

namespace TypeAtlas

/-- What a list of seeds comes to. -/
structure Selection where
  introspectable : NameSet
  proxyable : NameSet
  /-- The types to introspect that the build does not declare. -/
  unresolved : NameSet
  deriving DecidableEq

namespace Selection

/-! ## Names -/

/-- Whether a name is declared as an interface. -/
def isInterface (scope : Scope) (name : String) : Bool :=
  (scope.find? name).any Declaration.isInterface

/-- The normal form of an offered name, if the role admits it. -/
def admit? (scope : Scope) (role : Role) (name : String) : Option String :=
  (Name.normalForm? name).filter fun normal =>
    match role with
    | .reflective => true
    | .proxy => isInterface scope normal

/-! ## Widening -/

/-- Whether widening in a role may step down to a type. -/
def admitsSubtype (role : Role) (decl : Declaration) : Bool :=
  match role with
  | .reflective => true
  | .proxy => decl.isInterface

/-- The direct subtypes of a name that a role steps down to. -/
def subtypesBelow (scope : Scope) (role : Role) (name : String) : List String :=
  ((scope.catalog.subtypesOf name).filter (admitsSubtype role)).map Declaration.name

/-- The graph of the steps down. -/
def subtypeGraph (scope : Scope) (role : Role) : Graph where
  edges := .ofList (scope.catalog.names.map fun name => (name, subtypesBelow scope role name))

def allBelow (scope : Scope) (role : Role) (name : String) : List String :=
  (subtypeGraph scope role).discover name

/-- The names one step above a name. -/
def directlyAbove (scope : Scope) (role : Role) (name : String) : List String :=
  match scope.find? name, role with
  | some decl, .reflective => decl.supertypes
  | some decl, .proxy => decl.interfaces
  | none, _ => []

/-- The normal forms of the supertypes of a declaration, without itself. -/
def normalParents (decl : Declaration) : List String :=
  (decl.supertypes.filterMap Name.normalForm?).filter (· ≠ decl.name)

/-- The graph of the steps up, between normal forms. -/
def parentGraph (scope : Scope) : Graph := scope.graph normalParents

/-- All names above a name.  Of two supertypes the later is followed first; the
    supertypes of a type are offered when it is reached. -/
def allAbove (scope : Scope) (name : String) : List String :=
  match Name.normalForm? name with
  | some start =>
    ((parentGraph scope).reverseLists.visit [start]).flatMap (parentGraph scope).next
  | none => []

/-- The normal forms of the types that the public members of a type mention. -/
def publicApi (scope : Scope) (name : String) : List String :=
  match scope.find? name with
  | some decl =>
    (NameSet.empty.insertAll
      ((TypeExpr.classesOfAll decl.publicTypes).filterMap Name.normalForm?)).toList
  | none => []

/-- The names that one directive leads to. -/
def widen (scope : Scope) (role : Role) (name : String) : Directive → List String
  | .directSubtypes => subtypesBelow scope role name
  | .allSubtypes => allBelow scope role name
  | .directSupertypes => directlyAbove scope role name
  | .allSupertypes => allAbove scope name
  | .publicApi => publicApi scope name
  | .publicApiSupertypes =>
    publicApi scope name ++ (publicApi scope name).flatMap (allAbove scope)
  | .publicApiSubtypes =>
    publicApi scope name ++ (publicApi scope name).flatMap (allBelow scope role)

/-- The names that a seed offers in a role: its own, and in its own role those
    that its directives lead to. -/
def offers (scope : Scope) (role : Role) (seed : Seed) : List String :=
  if seed.role = role then
    seed.name :: seed.directives.toList.flatMap (widen scope role seed.name)
  else if role = .reflective then [seed.name]
  else []

/-- The names that are admitted in a role, in order. -/
def admitted (scope : Scope) (role : Role) (seeds : List Seed) : NameSet :=
  NameSet.empty.insertAll ((seeds.flatMap (offers scope role)).filterMap (admit? scope role))

/-- The selection that a list of seeds comes to. -/
def ofSeeds (scope : Scope) (seeds : List Seed) : Selection :=
  let proxyable := admitted scope .proxy seeds
  let introspectable := (admitted scope .reflective seeds).union proxyable
  { introspectable, proxyable
    unresolved := introspectable.filter fun name => !scope.catalog.contains name }

def isEmpty (selection : Selection) : Bool := selection.introspectable.isEmpty

/-- A set of names in summaries. -/
def setSummary (set : NameSet) : String :=
  Text.listing "\x7b" "\x7d" (set.toList.map Text.quoteText)

def summary (selection : Selection) : String :=
  "Resolution \x7b introspectable: " ++ setSummary selection.introspectable ++
    ", proxyable: " ++ setSummary selection.proxyable ++
    ", unresolved: " ++ setSummary selection.unresolved ++ " \x7d"

end Selection

end TypeAtlas
