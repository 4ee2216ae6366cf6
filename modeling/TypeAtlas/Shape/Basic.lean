/-
  Shapes.

  The shape of a type is what others may know of it: its names, its kind and
  modifiers, its supertypes, its annotations and its public members in the order
  of declaration.  Other types are mentioned by name only.

  * `Shape.ofName` is the empty shape of a kind;
  * `Shape.check` looks for the first broken rule: a name, and `abstract` on
    what is sealed and on every interface (`check_eq_ok_iff`);
  * `Shape.agrees` compares shapes with numbers compared as numbers.
-/
import TypeAtlas.Shape.Annotation
import TypeAtlas.Shape.TypeExpr

namespace TypeAtlas

/-! ## Kinds and modifiers -/

/-- What kind of type a shape describes. -/
inductive TypeKind where
  | cls
  | interface
  | enum
  | object
  deriving DecidableEq, Repr

/-- The modifiers of a type. -/
structure TypeModifiers where
  isAbstract : Bool := false
  isSealed : Bool := false
  isData : Bool := false
  isCompanion : Bool := false
  deriving DecidableEq, Repr

/-- The modifiers of a type of a kind that is declared without any: an
    interface is abstract. -/
def TypeModifiers.ofKind (kind : TypeKind) : TypeModifiers :=
  { isAbstract := kind == .interface }

/-- The modifiers of a member. -/
structure MemberModifiers where
  /-- Belongs to the type and not to an instance. -/
  isStatic : Bool := false
  isFinal : Bool := false
  isAbstract : Bool := false
  deriving DecidableEq, Repr

/-! ## Members -/

/-- A public constructor. -/
structure Constructor where
  declaring : String
  parameters : List String
  modifiers : MemberModifiers
  annotations : List Annotation
  /-- The annotations of its parameters, or nothing if no parameter has any. -/
  parameterAnnotations : List (List Annotation)
  deriving DecidableEq

/-- A public method. -/
structure Method where
  name : String
  declaring : String
  parameters : List String
  returns : String
  modifiers : MemberModifiers
  annotations : List Annotation
  /-- The annotations of its parameters, or nothing if no parameter has any. -/
  parameterAnnotations : List (List Annotation)
  genericReturns : TypeExpr
  deriving DecidableEq

/-- A public field. -/
structure Field where
  name : String
  declaring : String
  typeName : String
  modifiers : MemberModifiers
  annotations : List Annotation
  deriving DecidableEq

/-- The name and the parameter types of a constructor. -/
def Constructor.signature (ctor : Constructor) : String :=
  Name.joinSignature Name.constructorName ctor.parameters

/-- The name and the parameter types of a method. -/
def Method.signature (method : Method) : String :=
  Name.joinSignature method.name method.parameters

/-- Whether a method has a given name and given parameter types. -/
def Method.matches (method : Method) (name : String) (parameters : List String) : Bool :=
  method.name == name && method.parameters == parameters

/-! ## Shapes -/

/-- The shape of a type. -/
structure Shape where
  simpleName : String
  name : String
  kind : TypeKind
  modifiers : TypeModifiers
  superclass : Option String
  interfaces : List String
  annotations : List Annotation
  constructors : List Constructor
  methods : List Method
  fields : List Field
  /-- The methods that a stand-in answers; nothing if there can be none. -/
  proxyMethods : Option (List Method)
  deriving DecidableEq

/-- The rules that a shape can break. -/
inductive ShapeFault where
  | unnamed
  | concreteSealed (name : String)
  | concreteInterface (name : String)
  deriving DecidableEq, Repr

/-- The wording of a broken rule. -/
def ShapeFault.message : ShapeFault → String
  | unnamed => "qualified name is empty"
  | concreteSealed name => s!"{name}: sealed type must be abstract"
  | concreteInterface name => s!"{name}: interface must be abstract"

namespace Shape

/-- The shape of a type of which no more than its name and kind is known. -/
def ofName (name : String) (kind : TypeKind) : Shape where
  simpleName := Name.simpleName name
  name := name
  kind := kind
  modifiers := .ofKind kind
  superclass := none
  interfaces := []
  annotations := []
  constructors := []
  methods := []
  fields := []
  proxyMethods := none

/-- The first rule that the shape breaks. -/
def check (shape : Shape) : Except ShapeFault Unit :=
  if shape.name = "" then .error .unnamed
  else if shape.modifiers.isSealed && !shape.modifiers.isAbstract then
    .error (.concreteSealed shape.name)
  else if shape.kind == .interface && !shape.modifiers.isAbstract then
    .error (.concreteInterface shape.name)
  else .ok ()

theorem check_eq_ok_iff {shape : Shape} :
    shape.check = .ok () ↔ shape.name ≠ "" ∧
      (shape.modifiers.isSealed = true → shape.modifiers.isAbstract = true) ∧
      (shape.kind = .interface → shape.modifiers.isAbstract = true) := by
  unfold check
  by_cases hn : shape.name = ""
  · simp [hn]
  · cases hs : shape.modifiers.isSealed <;> cases ha : shape.modifiers.isAbstract <;>
      by_cases hk : shape.kind = .interface <;> simp [hn, hk]

/-- The supertypes: the superclass, then the interfaces. -/
def supertypes (shape : Shape) : List String := shape.superclass.toList ++ shape.interfaces

/-- The number of constructors, methods and fields. -/
def memberCount (shape : Shape) : Nat :=
  shape.constructors.length + shape.methods.length + shape.fields.length

/-- The first annotation of a type. -/
def annotation? (shape : Shape) (typeName : String) : Option Annotation :=
  shape.annotations.find? fun note => note.typeName == typeName

/-! ## Finding members -/

/-- The first member that satisfies `p`, with its index. -/
def findIndexed? {α : Type} (p : α → Bool) (members : List α) : Option (Nat × α) :=
  members.zipIdx.find? (fun entry => p entry.1) |>.map fun entry => (entry.2, entry.1)

/-- The constructor with given parameter types, with its index. -/
def constructor? (shape : Shape) (parameters : List String) : Option (Nat × Constructor) :=
  findIndexed? (fun ctor => ctor.parameters == parameters) shape.constructors

/-- The method with a given name and given parameter types, with its index. -/
def method? (shape : Shape) (name : String) (parameters : List String) :
    Option (Nat × Method) :=
  findIndexed? (fun method => method.matches name parameters) shape.methods

/-- The field with a given name, with its index. -/
def field? (shape : Shape) (name : String) : Option (Nat × Field) :=
  findIndexed? (fun field => field.name == name) shape.fields

/-! ## Comparing as numbers -/

/-- Whether two lists have the same length and agree item by item. -/
def agreesBy {α : Type} (same : α → α → Bool) : List α → List α → Bool
  | [], [] => true
  | x :: xs, y :: ys => same x y && agreesBy same xs ys
  | _, _ => false

/-- Whether two lists of annotations agree. -/
def annotationsAgree : List Annotation → List Annotation → Bool :=
  agreesBy Annotation.agrees

def constructorsAgree (a b : Constructor) : Bool :=
  a.declaring == b.declaring && a.parameters == b.parameters && a.modifiers == b.modifiers &&
    annotationsAgree a.annotations b.annotations &&
    agreesBy annotationsAgree a.parameterAnnotations b.parameterAnnotations

def methodsAgree (a b : Method) : Bool :=
  a.name == b.name && a.declaring == b.declaring && a.parameters == b.parameters &&
    a.returns == b.returns && a.modifiers == b.modifiers &&
    annotationsAgree a.annotations b.annotations &&
    agreesBy annotationsAgree a.parameterAnnotations b.parameterAnnotations &&
    a.genericReturns == b.genericReturns

def fieldsAgree (a b : Field) : Bool :=
  a.name == b.name && a.declaring == b.declaring && a.typeName == b.typeName &&
    a.modifiers == b.modifiers && annotationsAgree a.annotations b.annotations

/-- Whether two shapes are equal, numbers compared as numbers. -/
def agrees (a b : Shape) : Bool :=
  a.simpleName == b.simpleName && a.name == b.name && a.kind == b.kind &&
    a.modifiers == b.modifiers && a.superclass == b.superclass &&
    a.interfaces == b.interfaces && annotationsAgree a.annotations b.annotations &&
    agreesBy constructorsAgree a.constructors b.constructors &&
    agreesBy methodsAgree a.methods b.methods && agreesBy fieldsAgree a.fields b.fields &&
    match a.proxyMethods, b.proxyMethods with
    | none, none => true
    | some xs, some ys => agreesBy methodsAgree xs ys
    | _, _ => false

end Shape

end TypeAtlas
