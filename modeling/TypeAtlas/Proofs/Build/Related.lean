/-
  How the types of a build are related.

  The relations are stated over the lists of declarations of a build and from
  outside, without the tables that a build keeps.

  * `Known` is the declaration of a name, of the build if there is one;
  * `Below`, `Above` and `Exposes` are one step down, one step up, and the step
    to what public members mention;
  * `Widens` says what each directive leads to from a name: one step, or one or
    more of them.
-/
import Mathlib.Logic.Relation
import TypeAtlas.Build.Seed
import TypeAtlas.Name.Normal

namespace TypeAtlas

/-! ## What a type mentions -/

/-- A class that is written somewhere in a type: its own name, or one in an owner, an argument,
    a bound or a component, at any depth. -/
inductive TypeExpr.Mentions : TypeExpr → String → Prop
  /-- A name alone. -/
  | named (name : String) : Mentions (.named name) name
  /-- The class that is applied. -/
  | raw (name : String) (owner : Option TypeExpr) (args : List TypeExpr) :
    Mentions (.applied name owner args) name
  /-- In the owner. -/
  | owner {raw name : String} {owner : TypeExpr} {args : List TypeExpr} :
    Mentions owner name → Mentions (.applied raw (some owner) args) name
  /-- In an argument. -/
  | arg {raw name : String} {owner : Option TypeExpr} {args : List TypeExpr} {arg : TypeExpr} :
    arg ∈ args → Mentions arg name → Mentions (.applied raw owner args) name
  /-- In a bound of a variable. -/
  | bound {letter name : String} {bounds : List TypeExpr} {bound : TypeExpr} :
    bound ∈ bounds → Mentions bound name → Mentions (.typeVar letter bounds) name
  /-- In an upper bound of a wildcard. -/
  | upper {name : String} {upper lower : List TypeExpr} {bound : TypeExpr} :
    bound ∈ upper → Mentions bound name → Mentions (.wildcard upper lower) name
  /-- In a lower bound of a wildcard. -/
  | lower {name : String} {upper lower : List TypeExpr} {bound : TypeExpr} :
    bound ∈ lower → Mentions bound name → Mentions (.wildcard upper lower) name
  /-- In a component. -/
  | component {name : String} {component : TypeExpr} :
    Mentions component name → Mentions (.array component) name

/-- A type in the signature of a public member. -/
inductive Declaration.Signs (decl : Declaration) : TypeExpr → Prop
  /-- The type of a field. -/
  | field {field : FieldDecl} :
    field ∈ decl.fields → field.visibility = .everywhere → Signs decl field.type
  /-- The result of a method. -/
  | returns {method : MethodDecl} :
    method ∈ decl.methods → method.visibility = .everywhere → Signs decl method.returns
  /-- A parameter of a method. -/
  | parameter {method : MethodDecl} {parameter : ParameterDecl} :
    method ∈ decl.methods → method.visibility = .everywhere → parameter ∈ method.parameters →
      Signs decl parameter.type
  /-- An exception of a method. -/
  | throws {method : MethodDecl} {expr : TypeExpr} :
    method ∈ decl.methods → method.visibility = .everywhere → expr ∈ method.throws →
      Signs decl expr
  /-- A parameter of a constructor. -/
  | ctorParameter {ctor : ConstructorDecl} {parameter : ParameterDecl} :
    ctor ∈ decl.constructors → ctor.visibility = .everywhere → parameter ∈ ctor.parameters →
      Signs decl parameter.type
  /-- An exception of a constructor. -/
  | ctorThrows {ctor : ConstructorDecl} {expr : TypeExpr} :
    ctor ∈ decl.constructors → ctor.visibility = .everywhere → expr ∈ ctor.throws →
      Signs decl expr

/-! ## Steps -/

variable (own external : List Declaration)

/-- A name that the build declares. -/
def Declared (name : String) : Prop := ∃ decl ∈ own, decl.name = name

/-- The declaration of a name, of the build if there is one, else from outside. -/
def Known (name : String) (decl : Declaration) : Prop :=
  decl ∈ own ∧ decl.name = name ∨ ¬ Declared own name ∧ decl ∈ external ∧ decl.name = name

/-- A name that is known to be that of an interface. -/
def KnownInterface (name : String) : Prop :=
  ∃ decl, Known own external name decl ∧ decl.kind = .interface

/-- One step down: a type of the build names `a` as its superclass or as an interface.  For
    stand-ins only interfaces count. -/
def Below (role : Role) (a b : String) : Prop :=
  ∃ decl ∈ own, decl.name = b ∧ a ∈ decl.supertypes ∧ (role = .proxy → decl.kind = .interface)

/-- One step up. -/
def Above (a b : String) : Prop := ∃ decl, Known own external a decl ∧ b ∈ decl.supertypes

/-- One step up by itself: for stand-ins only to an interface of the type. -/
def DirectlyAbove (role : Role) (a b : String) : Prop :=
  ∃ decl, Known own external a decl ∧
    match role with
    | .reflective => b ∈ decl.supertypes
    | .proxy => b ∈ decl.interfaces

/-- The step to the normal form of what a public member mentions. -/
def Exposes (a b : String) : Prop :=
  ∃ decl, Known own external a decl ∧ ∃ expr, decl.Signs expr ∧ ∃ written, expr.Mentions written ∧
    Name.normalForm? written = some b

/-- What a directive leads to.  Steps down start at names that the build declares. -/
def Widens (role : Role) (directive : Directive) (a b : String) : Prop :=
  match directive with
  | .directSubtypes => Declared own a ∧ Below own role a b
  | .allSubtypes => Declared own a ∧ Relation.TransGen (Below own role) a b
  | .directSupertypes => DirectlyAbove own external role a b
  | .allSupertypes => Relation.TransGen (Above own external) a b
  | .publicApi => Exposes own external a b
  | .publicApiSupertypes =>
    Exposes own external a b ∨
      ∃ found, Exposes own external a found ∧ Relation.TransGen (Above own external) found b
  | .publicApiSubtypes =>
    Exposes own external a b ∨
      ∃ found, Exposes own external a found ∧ Declared own found ∧
        Relation.TransGen (Below own role) found b

end TypeAtlas
