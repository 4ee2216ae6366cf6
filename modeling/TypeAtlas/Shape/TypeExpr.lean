/-
  Generic types.

  A `TypeExpr` is a type as it is written in a declaration: a class, a class
  applied to arguments, a type variable or a wildcard with bounds, or an array.

  * `erasure` is the name that is left when arguments and bounds are dropped; a
    variable or a wildcard erases to its first upper bound, or to the root of
    the class hierarchy if it has none;
  * `depth` counts the levels of nesting;
  * `names` lists every name that is written in it, from left to right,
    `classes` those of them that are no type variables.
-/
import TypeAtlas.Name.Basic

namespace TypeAtlas

/-- A generic type. -/
inductive TypeExpr where
  /-- A class, or any other type known by its name. -/
  | named (name : String)
  /-- A class applied to arguments, with the type it is nested in if that is
      generic as well. -/
  | applied (raw : String) (owner : Option TypeExpr) (args : List TypeExpr)
  /-- A type variable with its upper bounds. -/
  | typeVar (name : String) (bounds : List TypeExpr)
  /-- A wildcard with its upper and its lower bounds. -/
  | wildcard (upper lower : List TypeExpr)
  /-- An array of a component. -/
  | array (component : TypeExpr)
  deriving Repr

instance : Inhabited TypeExpr := ⟨.named Name.object⟩

namespace TypeExpr

/-! ## Erasure -/

mutual

/-- The name that is left without arguments and bounds. -/
def erasure : TypeExpr → String
  | named name => name
  | applied raw _ _ => raw
  | typeVar _ bounds => erasureOfBounds bounds
  | wildcard upper _ => erasureOfBounds upper
  | array component => component.erasure ++ "[]"

/-- The erasure of the first bound. -/
def erasureOfBounds : List TypeExpr → String
  | [] => Name.object
  | bound :: _ => bound.erasure

end

/-! ## Depth -/

mutual

/-- The levels of nesting; a name alone has one. -/
def depth : TypeExpr → Nat
  | named _ => 1
  | applied _ owner args => 1 + max (depthOfOwner owner) (depthOfAll args)
  | typeVar _ bounds => 1 + depthOfAll bounds
  | wildcard upper lower => 1 + max (depthOfAll upper) (depthOfAll lower)
  | array component => 1 + component.depth

/-- The levels of nesting of an owner, none if there is no owner. -/
def depthOfOwner : Option TypeExpr → Nat
  | none => 0
  | some owner => owner.depth

/-- The most levels of nesting in a list. -/
def depthOfAll : List TypeExpr → Nat
  | [] => 0
  | expr :: rest => max expr.depth (depthOfAll rest)

end

/-! ## Names -/

mutual

/-- Every name in the type, from left to right. -/
def names : TypeExpr → List String
  | named name => [name]
  | applied raw owner args => raw :: (namesOfOwner owner ++ namesOfAll args)
  | typeVar name bounds => name :: namesOfAll bounds
  | wildcard upper lower => namesOfAll upper ++ namesOfAll lower
  | array component => component.names

def namesOfOwner : Option TypeExpr → List String
  | none => []
  | some owner => owner.names

/-- Every name in a list of types. -/
def namesOfAll : List TypeExpr → List String
  | [] => []
  | expr :: rest => expr.names ++ namesOfAll rest

end

/-! ## Classes -/

mutual

/-- The names of the classes that are mentioned, from left to right; a type
    variable is no class, its bounds may mention some. -/
def classes : TypeExpr → List String
  | named name => [name]
  | applied raw owner args => raw :: (classesOfOwner owner ++ classesOfAll args)
  | typeVar _ bounds => classesOfAll bounds
  | wildcard upper lower => classesOfAll upper ++ classesOfAll lower
  | array component => component.classes

/-- The names of the classes that an owner mentions. -/
def classesOfOwner : Option TypeExpr → List String
  | none => []
  | some owner => owner.classes

/-- The names of the classes that a list of types mentions. -/
def classesOfAll : List TypeExpr → List String
  | [] => []
  | expr :: rest => expr.classes ++ classesOfAll rest

end

/-! ## Equality -/

mutual

/-- Decides whether two types are the same. -/
def decEq : (x y : TypeExpr) → Decidable (x = y)
  | named a, named b => decidable_of_iff (a = b) (by simp)
  | applied a o xs, applied b p ys =>
    have := decEqOwner o p
    have := decEqAll xs ys
    decidable_of_iff (a = b ∧ o = p ∧ xs = ys) (by simp)
  | typeVar a xs, typeVar b ys =>
    have := decEqAll xs ys
    decidable_of_iff (a = b ∧ xs = ys) (by simp)
  | wildcard us ls, wildcard vs ms =>
    have := decEqAll us vs
    have := decEqAll ls ms
    decidable_of_iff (us = vs ∧ ls = ms) (by simp)
  | array x, array y =>
    have := decEq x y
    decidable_of_iff (x = y) (by simp)
  | named _, applied .. | named _, typeVar .. | named _, wildcard .. | named _, array _
  | applied .., named _ | applied .., typeVar .. | applied .., wildcard .. | applied .., array _
  | typeVar .., named _ | typeVar .., applied .. | typeVar .., wildcard .. | typeVar .., array _
  | wildcard .., named _ | wildcard .., applied .. | wildcard .., typeVar .. | wildcard .., array _
  | array _, named _ | array _, applied .. | array _, typeVar .. | array _, wildcard .. =>
    .isFalse (by simp)

/-- Decides whether two owners are the same. -/
def decEqOwner : (x y : Option TypeExpr) → Decidable (x = y)
  | none, none => .isTrue rfl
  | some x, some y =>
    have := decEq x y
    decidable_of_iff (x = y) (by simp)
  | none, some _ | some _, none => .isFalse (by simp)

/-- Decides whether two lists of types are the same. -/
def decEqAll : (xs ys : List TypeExpr) → Decidable (xs = ys)
  | [], [] => .isTrue rfl
  | x :: xs, y :: ys =>
    have := decEq x y
    have := decEqAll xs ys
    decidable_of_iff (x = y ∧ xs = ys) (by simp)
  | [], _ :: _ | _ :: _, [] => .isFalse (by simp)

end

instance : DecidableEq TypeExpr := decEq

theorem one_le_depth (expr : TypeExpr) : 1 ≤ expr.depth := by
  cases expr <;> simp [depth]

end TypeExpr

end TypeAtlas
