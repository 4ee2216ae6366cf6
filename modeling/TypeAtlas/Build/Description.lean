/-
  The shape of a declaration.

  A build describes each selected type by a shape: its public members in order
  of declaration with their types erased, and, for an interface that is to have
  stand-ins, the methods that a stand-in answers.

  * a stand-in answers the three methods of the root first, and then the public
    abstract methods of the interface and of every interface above it, depth
    first from left to right; of two with one signature the first counts;
  * `Declaration.describe` refuses a shape that breaks a rule of shapes.
-/
import TypeAtlas.Build.Catalog

namespace TypeAtlas

/-! ## Members -/

/-- The annotations of parameters; nothing if no parameter has any. -/
def annotationsOfParameters (parameters : List ParameterDecl) : List (List Annotation) :=
  if parameters.all fun parameter => parameter.annotations.isEmpty then []
  else parameters.map ParameterDecl.annotations

def ConstructorDecl.describe (declaring : String) (ctor : ConstructorDecl) : Constructor where
  declaring := declaring
  parameters := erasedTypes ctor.parameters
  modifiers := {}
  annotations := ctor.annotations
  parameterAnnotations := annotationsOfParameters ctor.parameters

def MethodDecl.describe (declaring : String) (method : MethodDecl) : Method where
  name := method.name
  declaring := declaring
  parameters := erasedTypes method.parameters
  returns := method.returns.erasure
  modifiers := method.modifiers
  annotations := method.annotations
  parameterAnnotations := annotationsOfParameters method.parameters
  genericReturns := method.returns

def FieldDecl.describe (declaring : String) (field : FieldDecl) : Field where
  name := field.name
  declaring := declaring
  typeName := field.type.erasure
  modifiers := field.modifiers
  annotations := field.annotations

/-! ## The methods of stand-ins -/

def rootMethod (name : String) (parameters : List String) (returns : String) : Method where
  name := name
  declaring := Name.object
  parameters := parameters
  returns := returns
  modifiers := {}
  annotations := []
  parameterAnnotations := []
  genericReturns := .named returns

/-- The methods that every stand-in answers. -/
def rootMethods : List Method :=
  [rootMethod "equals" [Name.object] "boolean", rootMethod "hashCode" [] "int",
    rootMethod "toString" [] Name.string]

/-- Whether a stand-in answers a declared method. -/
def MethodDecl.isAnswered (method : MethodDecl) : Bool :=
  method.visibility.isPublic && !method.modifiers.isStatic && method.modifiers.isAbstract

/-- The methods of a declaration that a stand-in answers. -/
def Declaration.answeredMethods (decl : Declaration) : List Method :=
  (decl.methods.filter MethodDecl.isAnswered).map (MethodDecl.describe decl.name)

/-- Adds a method unless there is one of its signature. -/
def addBySignature (methods : List Method) (method : Method) : List Method :=
  if methods.any fun other => other.signature == method.signature then methods
  else methods ++ [method]

namespace Scope

/-- The declarations of the interfaces of a declaration. -/
def interfacesOf (scope : Scope) (decl : Declaration) : List String :=
  (decl.interfaces.filterMap scope.find?).map Declaration.name

/-- The graph that leads from every declared type to its declared interfaces. -/
def interfaceGraph (scope : Scope) : Graph := scope.graph scope.interfacesOf

/-- A declaration and the declarations of all interfaces above it, depth first
    from left to right. -/
def withInterfacesAbove (scope : Scope) (decl : Declaration) : List Declaration :=
  decl :: ((scope.interfaceGraph.visitFrom [decl.name] (scope.interfacesOf decl)).drop 1).filterMap
    scope.find?

/-- The methods that a stand-in of an interface answers. -/
def proxyMethods (scope : Scope) (decl : Declaration) : List Method :=
  ((scope.withInterfacesAbove decl).flatMap Declaration.answeredMethods).foldl addBySignature
    rootMethods

end Scope

/-! ## Shapes -/

/-- The shape of a declaration, before it is checked. -/
def Declaration.shape (decl : Declaration) (scope : Scope) (proxyable : Bool) : Shape where
  simpleName := Name.simpleName decl.name
  name := decl.name
  kind := decl.kind
  modifiers := { decl.modifiers with
    isAbstract := decl.modifiers.isAbstract || decl.isInterface }
  superclass := decl.superclass
  interfaces := decl.interfaces
  annotations := decl.annotations
  constructors := decl.publicConstructors.map (ConstructorDecl.describe decl.name)
  methods := decl.publicMethods.map (MethodDecl.describe decl.name)
  fields := decl.publicFields.map (FieldDecl.describe decl.name)
  proxyMethods := if proxyable && decl.isInterface then some (scope.proxyMethods decl) else none

def Declaration.describe (decl : Declaration) (scope : Scope) (proxyable : Bool) :
    Except BuildError Shape :=
  let shape := decl.shape scope proxyable
  match shape.check with
  | .ok () => .ok shape
  | .error fault => .error (.blob (.unwritable (.faulty fault)))

end TypeAtlas
