/-
  Declarations.

  A `Declaration` is everything that is known of a type while a build runs: its
  supertypes, its annotations, and its members with their visibility and their
  generic types.

  * `supertypes` lists the superclass and then the interfaces;
  * `publicTypes` lists the generic types that the public members mention: those
    of fields, then of methods, then of constructors.
-/
import TypeAtlas.Shape.Basic

namespace TypeAtlas

/-- From where a member can be used. -/
inductive Visibility where
  | everywhere
  | subtypes
  | package
  | itself
  deriving DecidableEq, Repr

def Visibility.isPublic (visibility : Visibility) : Bool := visibility == .everywhere

/-- A declared parameter. -/
structure ParameterDecl where
  type : TypeExpr
  annotations : List Annotation
  deriving DecidableEq

/-- A declared constructor. -/
structure ConstructorDecl where
  visibility : Visibility
  parameters : List ParameterDecl
  throws : List TypeExpr
  annotations : List Annotation
  deriving DecidableEq

/-- A declared method. -/
structure MethodDecl where
  name : String
  visibility : Visibility
  modifiers : MemberModifiers
  parameters : List ParameterDecl
  returns : TypeExpr
  throws : List TypeExpr
  annotations : List Annotation
  deriving DecidableEq

/-- A declared field. -/
structure FieldDecl where
  name : String
  visibility : Visibility
  modifiers : MemberModifiers
  type : TypeExpr
  annotations : List Annotation
  deriving DecidableEq

/-- A declared type. -/
structure Declaration where
  name : String
  kind : TypeKind
  modifiers : TypeModifiers
  superclass : Option String
  interfaces : List String
  annotations : List Annotation
  constructors : List ConstructorDecl
  methods : List MethodDecl
  fields : List FieldDecl
  deriving DecidableEq

/-- The erased types of a list of parameters. -/
def erasedTypes (parameters : List ParameterDecl) : List String :=
  parameters.map fun parameter => parameter.type.erasure

/-- The name of a method with the erased types of its parameters. -/
def MethodDecl.erasedSignature (method : MethodDecl) : String :=
  Name.joinSignature method.name (erasedTypes method.parameters)

/-- The types that a field mentions. -/
def FieldDecl.mentions (field : FieldDecl) : List TypeExpr := [field.type]

/-- The types that a method mentions: result, parameters, exceptions. -/
def MethodDecl.mentions (method : MethodDecl) : List TypeExpr :=
  method.returns :: (method.parameters.map ParameterDecl.type ++ method.throws)

/-- The types that a constructor mentions: parameters, exceptions. -/
def ConstructorDecl.mentions (ctor : ConstructorDecl) : List TypeExpr :=
  ctor.parameters.map ParameterDecl.type ++ ctor.throws

namespace Declaration

/-- A type of which no more than its name and kind is declared. -/
def ofName (name : String) (kind : TypeKind) : Declaration where
  name := name
  kind := kind
  modifiers := .ofKind kind
  superclass := none
  interfaces := []
  annotations := []
  constructors := []
  methods := []
  fields := []

/-- Whether the type is an interface. -/
def isInterface (decl : Declaration) : Bool := decl.kind == .interface

/-- The supertypes: the superclass, then the interfaces. -/
def supertypes (decl : Declaration) : List String := decl.superclass.toList ++ decl.interfaces

def annotationsOf (decl : Declaration) (typeName : String) : List Annotation :=
  decl.annotations.filter fun note => note.typeName == typeName

def publicConstructors (decl : Declaration) : List ConstructorDecl :=
  decl.constructors.filter fun ctor => ctor.visibility.isPublic

def publicMethods (decl : Declaration) : List MethodDecl :=
  decl.methods.filter fun method => method.visibility.isPublic

def publicFields (decl : Declaration) : List FieldDecl :=
  decl.fields.filter fun field => field.visibility.isPublic

/-- The generic types that the public members mention. -/
def publicTypes (decl : Declaration) : List TypeExpr :=
  decl.publicFields.flatMap FieldDecl.mentions ++
    decl.publicMethods.flatMap MethodDecl.mentions ++
    decl.publicConstructors.flatMap ConstructorDecl.mentions

end Declaration

end TypeAtlas
