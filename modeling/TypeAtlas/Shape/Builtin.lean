/-
  The shapes of primitives and arrays.

  Neither is ever compiled.  A primitive has a name and nothing else; an array
  has the root as its superclass and can be copied and written out.
-/
import TypeAtlas.Name.Primitive
import TypeAtlas.Shape.Basic

namespace TypeAtlas

def Primitive.shape (primitive : Primitive) : Shape :=
  { Shape.ofName primitive.name .cls with modifiers := { isAbstract := true } }

/-- The shape of the array called `name` whose component goes by `component`. -/
def Shape.ofArray (name component : String) : Shape :=
  { Shape.ofName name .cls with
    simpleName := component ++ "[]"
    modifiers := { isAbstract := true }
    superclass := some Name.object
    interfaces := [Name.cloneable, Name.serializable] }

end TypeAtlas
