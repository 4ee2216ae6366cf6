/-
  The primitive types.

  Nine types are built in, `void` among them.  Each has a name, a class that
  wraps its values, and a letter by which array names refer to it.

  * `Primitive.ofName?` and `Primitive.ofCode?` find a primitive again from its
    name and from its letter (`ofName?_name`, `ofCode?_code`);
  * `isPrimitiveName` says whether a name is taken by a primitive.
-/

namespace TypeAtlas

/-- A built-in type. -/
inductive Primitive where
  | boolean
  | byte
  | char
  | short
  | int
  | long
  | float
  | double
  | void
  deriving DecidableEq, Repr

namespace Primitive

/-- All primitives, in the order in which they are tried. -/
def all : List Primitive :=
  [boolean, byte, char, short, int, long, float, double, void]

def name : Primitive → String
  | boolean => "boolean"
  | byte => "byte"
  | char => "char"
  | short => "short"
  | int => "int"
  | long => "long"
  | float => "float"
  | double => "double"
  | void => "void"

/-- The class that wraps the values of a primitive. -/
def wrapper : Primitive → String
  | boolean => "java.lang.Boolean"
  | byte => "java.lang.Byte"
  | char => "java.lang.Character"
  | short => "java.lang.Short"
  | int => "java.lang.Integer"
  | long => "java.lang.Long"
  | float => "java.lang.Float"
  | double => "java.lang.Double"
  | void => "java.lang.Void"

/-- The letter for a primitive in array names. -/
def code : Primitive → Char
  | boolean => 'Z'
  | byte => 'B'
  | char => 'C'
  | short => 'S'
  | int => 'I'
  | long => 'J'
  | float => 'F'
  | double => 'D'
  | void => 'V'

/-- Whether the wrapper is a number. -/
def isNumeric : Primitive → Bool
  | boolean | char | void => false
  | _ => true

def ofName? (name : String) : Option Primitive := all.find? fun p => p.name == name

def ofCode? (code : Char) : Option Primitive := all.find? fun p => p.code == code

theorem ofName?_name (p : Primitive) : ofName? p.name = some p := by cases p <;> decide

theorem ofCode?_code (p : Primitive) : ofCode? p.code = some p := by cases p <;> decide

theorem name_of_ofName? {name : String} {p : Primitive} (h : ofName? name = some p) :
    p.name = name := by
  simpa using List.find?_some h

end Primitive

/-- Whether a name is the name of a primitive. -/
def isPrimitiveName (name : String) : Bool := (Primitive.ofName? name).isSome

end TypeAtlas
