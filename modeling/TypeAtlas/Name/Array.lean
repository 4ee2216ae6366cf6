/-
  Array names.

  An array type is named after its component, in one of two spellings: the
  component followed by `[]` (`int[]`, `geo.Point[][]`), or a bracket in front
  of a letter for a primitive (`[I`), of a class between `L` and `;`
  (`[Lgeo.Point;`), or of another array in this spelling (`[[I`).

  * `component?` takes one dimension off and is `none` for all other names.
-/
import TypeAtlas.Name.Primitive
import TypeAtlas.Text.Affix

namespace TypeAtlas.Name

/-- The brackets that end an array name. -/
def brackets : List Char := ['[', ']']

/-- The text before the brackets that end it. -/
def dropBrackets? (cs : List Char) : Option (List Char) := Text.before? brackets cs

/-- The text before a semicolon that ends it. -/
def dropSemicolon? (cs : List Char) : Option (List Char) := Text.before? [';'] cs

/-- The component behind the opening bracket of the second spelling. -/
def codedComponent? : List Char → Option (List Char)
  | '[' :: rest => some ('[' :: rest)
  | 'L' :: rest => (dropSemicolon? rest).filter (· ≠ [])
  | [code] => ((Primitive.ofCode? code).filter (· ≠ .void)).map fun p => p.name.toList
  | _ => none

/-- The component of an array name, as characters. -/
def componentChars? (cs : List Char) : Option (List Char) :=
  match dropBrackets? cs with
  | some component => if component = [] then none else some component
  | none =>
    match cs with
    | '[' :: rest => codedComponent? rest
    | _ => none

/-- The component of an array name. -/
def component? (name : String) : Option String :=
  (componentChars? name.toList).map String.ofList

end TypeAtlas.Name
