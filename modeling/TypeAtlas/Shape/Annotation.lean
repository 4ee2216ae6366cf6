/-
  Annotations.

  An annotation names its type and carries properties in the order in which
  they were first given.  A property's value is a constant, a list of values, or
  a value of another kind kept as text.

  * `Annotation.ofType` is the annotation of a type without properties;
  * `AnnotationValue.depth` counts the levels of nesting: a list is one deeper
    than its deepest item, all else, the empty list too, is one deep;
  * `AnnotationValue.agrees` and `Annotation.agrees` compare values as numbers
    where they are numbers, so nothing that holds a not-a-number agrees with
    itself.
-/
import TypeAtlas.Binary
import TypeAtlas.Name.Basic
import TypeAtlas.Table

namespace TypeAtlas

/-- The value of an annotation property. -/
inductive AnnotationValue where
  | null
  | text (s : String)
  | flag (b : Bool)
  /-- An integer of 32 bits or fewer, or a character. -/
  | int (n : Int32)
  | long (n : Int64)
  | float (x : Binary32)
  | double (x : Binary64)
  | list (items : List AnnotationValue)
  | other (s : String)

instance : Inhabited AnnotationValue := ⟨.null⟩

namespace AnnotationValue

/-- The text of a value that is kept as text. -/
def asText? : AnnotationValue → Option String
  | text s | other s => some s
  | _ => none

def asList? : AnnotationValue → Option (List AnnotationValue)
  | list items => some items
  | _ => none

/-- The values that stand where a list is expected: a single value counts as
    the list of itself. -/
def items : AnnotationValue → List AnnotationValue
  | list items => items
  | single => [single]

/-! ## Depth -/

mutual

def depth : AnnotationValue → Nat
  | list items => 1 + depthOfAll items
  | _ => 1

/-- The most levels of nesting in a list. -/
def depthOfAll : List AnnotationValue → Nat
  | [] => 0
  | value :: rest => max value.depth (depthOfAll rest)

end

/-! ## Texts -/

mutual

/-- Every text in the value, from left to right. -/
def texts : AnnotationValue → List String
  | text s | other s => [s]
  | list items => textsOfAll items
  | _ => []

/-- Every text in a list of values. -/
def textsOfAll : List AnnotationValue → List String
  | [] => []
  | value :: rest => value.texts ++ textsOfAll rest

end

/-! ## Equality -/

mutual

/-- Decides whether two values are the same, numbers bit by bit. -/
def decEq : (x y : AnnotationValue) → Decidable (x = y)
  | null, null => .isTrue rfl
  | text a, text b => decidable_of_iff (a = b) (by simp)
  | flag a, flag b => decidable_of_iff (a = b) (by simp)
  | int a, int b => decidable_of_iff (a = b) (by simp)
  | long a, long b => decidable_of_iff (a = b) (by simp)
  | float a, float b => decidable_of_iff (a = b) (by simp)
  | double a, double b => decidable_of_iff (a = b) (by simp)
  | list xs, list ys =>
    have := decEqAll xs ys
    decidable_of_iff (xs = ys) (by simp)
  | other a, other b => decidable_of_iff (a = b) (by simp)
  | null, text _ | null, flag _ | null, int _ | null, long _ | null, float _
  | null, double _ | null, list _ | null, other _
  | text _, null | text _, flag _ | text _, int _ | text _, long _ | text _, float _
  | text _, double _ | text _, list _ | text _, other _
  | flag _, null | flag _, text _ | flag _, int _ | flag _, long _ | flag _, float _
  | flag _, double _ | flag _, list _ | flag _, other _
  | int _, null | int _, text _ | int _, flag _ | int _, long _ | int _, float _
  | int _, double _ | int _, list _ | int _, other _
  | long _, null | long _, text _ | long _, flag _ | long _, int _ | long _, float _
  | long _, double _ | long _, list _ | long _, other _
  | float _, null | float _, text _ | float _, flag _ | float _, int _ | float _, long _
  | float _, double _ | float _, list _ | float _, other _
  | double _, null | double _, text _ | double _, flag _ | double _, int _ | double _, long _
  | double _, float _ | double _, list _ | double _, other _
  | list _, null | list _, text _ | list _, flag _ | list _, int _ | list _, long _
  | list _, float _ | list _, double _ | list _, other _
  | other _, null | other _, text _ | other _, flag _ | other _, int _ | other _, long _
  | other _, float _ | other _, double _ | other _, list _ => .isFalse (by simp)

/-- Decides whether two lists of values are the same. -/
def decEqAll : (xs ys : List AnnotationValue) → Decidable (xs = ys)
  | [], [] => .isTrue rfl
  | x :: xs, y :: ys =>
    have := decEq x y
    have := decEqAll xs ys
    decidable_of_iff (x = y ∧ xs = ys) (by simp)
  | [], _ :: _ | _ :: _, [] => .isFalse (by simp)

end

instance : DecidableEq AnnotationValue := decEq

mutual

/-- Whether two values are equal, numbers compared as numbers. -/
def agrees : AnnotationValue → AnnotationValue → Bool
  | null, null => true
  | text a, text b => a == b
  | flag a, flag b => a == b
  | int a, int b => a == b
  | long a, long b => a == b
  | float a, float b => a.numEq b
  | double a, double b => a.numEq b
  | list xs, list ys => agreesAll xs ys
  | other a, other b => a == b
  | _, _ => false

/-- Whether two lists of values are equal, numbers compared as numbers. -/
def agreesAll : List AnnotationValue → List AnnotationValue → Bool
  | [], [] => true
  | x :: xs, y :: ys => agrees x y && agreesAll xs ys
  | _, _ => false

end

end AnnotationValue

/-! ## Annotations -/

/-- An annotation on a type, a member or a parameter. -/
structure Annotation where
  typeName : String
  simpleName : String
  qualifiedName : Option String
  properties : Table AnnotationValue
  deriving DecidableEq

namespace Annotation

/-- The annotation of a type without properties. -/
def ofType (typeName : String) : Annotation where
  typeName := typeName
  simpleName := Name.simpleName typeName
  qualifiedName := some typeName
  properties := Table.empty

def property? (note : Annotation) (name : String) : Option AnnotationValue :=
  note.properties.find? name

/-- The annotation with a property set. -/
def withProperty (note : Annotation) (name : String) (value : AnnotationValue) :
    Annotation :=
  { note with properties := note.properties.insert name value }

/-- Every text in the annotation, from left to right. -/
def texts (note : Annotation) : List String :=
  [note.typeName, note.simpleName] ++ note.qualifiedName.toList ++
    note.properties.entries.flatMap fun entry => entry.1 :: entry.2.texts

/-- Whether two annotations are equal, numbers compared as numbers. -/
def agrees (a b : Annotation) : Bool :=
  a.typeName == b.typeName && a.simpleName == b.simpleName &&
    a.qualifiedName == b.qualifiedName && a.properties.keys == b.properties.keys &&
    AnnotationValue.agreesAll a.properties.values b.properties.values

end Annotation

end TypeAtlas
