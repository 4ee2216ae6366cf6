/-
  Qualified names.

  A type is known by its qualified name, a text such as `geo.Shapes$Point`
  whose segments end at dots and dollar signs.  Names are plain texts: any text
  is a name, also the empty one.

  * `simpleName` is the last segment;
  * `lastPart` is what follows the last dot alone;
  * `joinSignature` writes a member's name with its parameter types,
    `put(java.lang.String,int)`.
-/

namespace TypeAtlas.Name

/-- The characters after the last one that satisfies `p`, or all of them. -/
def afterLast (p : Char → Bool) (cs : List Char) : List Char :=
  (cs.reverse.takeWhile fun c => !p c).reverse

/-- The last segment of a qualified name. -/
def simpleName (name : String) : String :=
  String.ofList (afterLast (fun c => c == '.' || c == '$') name.toList)

/-- What follows the last dot of a name. -/
def lastPart (name : String) : String :=
  String.ofList (afterLast (· == '.') name.toList)

/-- A member's name with the types of its parameters. -/
def joinSignature (name : String) (parameters : List String) : String :=
  name ++ "(" ++ String.intercalate "," parameters ++ ")"

/-- The name that constructors go by. -/
def constructorName : String := "<init>"

/-! ## Names with a fixed meaning -/

/-- The root of the class hierarchy. -/
def object : String := "java.lang.Object"

def string : String := "java.lang.String"

/-- The interface of everything that can be written out. -/
def serializable : String := "java.io.Serializable"

def comparable : String := "java.lang.Comparable"

/-- The interface of readable character sequences. -/
def charSequence : String := "java.lang.CharSequence"

/-- The interface of everything that can be copied. -/
def cloneable : String := "java.lang.Cloneable"

/-- The class above the wrappers of the numeric primitives. -/
def number : String := "java.lang.Number"

/-! ## Small laws -/

theorem afterLast_append_cons {p : Char → Bool} {c : Char} (h : p c = true)
    (xs ys : List Char) : afterLast p (xs ++ c :: ys) = afterLast p ys := by
  simp only [afterLast, List.reverse_append, List.reverse_cons, List.append_assoc]
  congr 1
  rw [List.takeWhile_append]
  split
  · next heq =>
    simp [h]
    exact (List.takeWhile_prefix _).eq_of_length heq |>.symm
  · rfl

end TypeAtlas.Name
