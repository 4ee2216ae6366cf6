/-
  Reading a TOML document.

  A document is a sequence of lines: blank ones, comments, headers and keys with
  their values.  Keys and values before the first header belong to the document
  itself, those behind a header to the header's table.

  * `Tab.ofText?` reads a whole document and answers nothing if any part of it
    is not well formed or says something twice;
  * keys and values may be nested less than `nestingLimit` deep;
  * `Reading` holds the document so far and the table that is being filled.
-/
import TypeAtlas.Toml.Literal
import TypeAtlas.Toml.Scalar

namespace TypeAtlas.Toml

open Literal (isSpace isPlain)

/-- The depth that dotted keys, arrays and inline tables do not reach. -/
def nestingLimit : Nat := 80

/-! ## Blanks and comments -/

/-- A text without the spaces and tabs at its start. -/
def dropSpaces (cs : List Char) : List Char := cs.dropWhile isSpace

def afterBreak? : List Char → Option (List Char)
  | '\n' :: rest => some rest
  | '\r' :: '\n' :: rest => some rest
  | _ => none

/-- What follows the end of a line, which may be the end of the text. -/
def afterLine? : List Char → Option (List Char)
  | [] => some []
  | cs => afterBreak? cs

/-- What follows blanks, a comment if there is one, and the end of the line. -/
def endLine? (cs : List Char) : Option (List Char) :=
  match dropSpaces cs with
  | '#' :: rest => afterLine? (rest.dropWhile isPlain)
  | rest => afterLine? rest

/-- A text without the blanks, line breaks and comments at its start.  A comment
    ends with its line. -/
def dropGap (comment : Bool) : List Char → Option (List Char)
  | [] => if comment then none else some []
  | '\r' :: '\n' :: rest => dropGap false rest
  | c :: rest =>
    if c = '\n' then dropGap false rest
    else if comment then if isPlain c then dropGap true rest else none
    else if isSpace c then dropGap false rest
    else if c = '#' then dropGap true rest
    else some (c :: rest)

/-! ## Keys -/

/-- Whether a character can stand in a key without quotes. -/
def isBareChar (c : Char) : Bool := c.isAlphanum || c == '_' || c == '-'

/-- One key, and what follows it. -/
def simpleKey? : List Char → Option (String × List Char)
  | [] => none
  | c :: rest =>
    if c = '"' ∨ c = '\'' then
      (Literal.onOneLine (c :: rest)).map fun scanned => (String.ofList scanned.1, scanned.2)
    else if isBareChar c then
      some (String.ofList ((c :: rest).takeWhile isBareChar), (c :: rest).dropWhile isBareChar)
    else none

/-- At most `room` keys with dots between them, and what follows. -/
def dottedKeys? : Nat → List Char → Option (List String × List Char)
  | 0, _ => none
  | room + 1, cs => do
    let (key, rest) ← simpleKey? (dropSpaces cs)
    match dropSpaces rest with
    | '.' :: rest =>
      let (keys, rest) ← dottedKeys? room rest
      return (key :: keys, rest)
    | rest => return ([key], rest)

/-- A key, as its path and its last part, and what follows. -/
def key? (cs : List Char) : Option (List String × String × List Char) := do
  let (keys, rest) ← dottedKeys? (nestingLimit - 1) cs
  return (keys.dropLast, ← keys.getLast?, rest)

/-! ## Values -/

/-- A value without further values in it, and what follows. -/
def scalar? (cs : List Char) : Option (Item × List Char) :=
  match cs with
  | '"' :: _ | '\'' :: _ =>
    (Literal.scan cs).map fun scanned => (.text (String.ofList scanned.1), scanned.2)
  | _ =>
    let (word, rest) := Scalar.splitWord cs
    (Scalar.ofWord? word).map fun item => (item, rest)

mutual

/-- A value, and what follows.  `room` bounds the nesting, `fuel` the steps. -/
def value? (room : Nat) : Nat → List Char → Option (Item × List Char)
  | 0, _ => none
  | fuel + 1, '[' :: rest => if room = 0 then none else items? (room - 1) [] fuel rest
  | fuel + 1, '\x7b' :: rest =>
    if room = 0 then none
    else
      match dropSpaces rest with
      | '\x7d' :: rest => some (.inline .empty, rest)
      | rest => pairs? (room - 1) .empty fuel rest
  | _ + 1, cs => scalar? cs

/-- The items of an array up to its end; `done` holds those before, last first. -/
def items? (room : Nat) (done : List Item) : Nat → List Char → Option (Item × List Char)
  | 0, _ => none
  | fuel + 1, cs => do
    match ← dropGap false cs with
    | ']' :: rest => return (.array done.reverse, rest)
    | cs =>
      let (item, rest) ← value? room fuel cs
      match ← dropGap false rest with
      | ',' :: rest => items? room (item :: done) fuel rest
      | ']' :: rest => return (.array (item :: done).reverse, rest)
      | _ => none

/-- The keys of an inline table up to its end; `table` holds those before. -/
def pairs? (room : Nat) (table : Tab) : Nat → List Char → Option (Item × List Char)
  | 0, _ => none
  | fuel + 1, cs => do
    let (path, key, rest) ← key? cs
    match rest with
    | '=' :: rest =>
      let (item, rest) ← value? room fuel (dropSpaces rest)
      let table ← table.put path key item
      match dropSpaces rest with
      | ',' :: rest => pairs? room table fuel rest
      | '\x7d' :: rest => return (.inline table, rest)
      | _ => none
    | _ => none

end

/-! ## Lines -/

/-- Where the table that is being filled belongs. -/
inductive Place where
  /-- It is the document. -/
  | document
  /-- It is the table of a key. -/
  | table (path : List String) (key : String)
  /-- It is the last of the tables of a key. -/
  | element (path : List String) (key : String)

/-- The state of reading. -/
structure Reading where
  /-- The document without the table that is being filled. -/
  document : Tab
  place : Place
  current : Tab

namespace Reading

/-- The state before the first line. -/
def start : Reading := ⟨.empty, .document, .empty⟩

/-- The document with the table that is being filled in its place. -/
def settle (reading : Reading) : Option Tab :=
  match reading.place with
  | .document => some reading.current
  | .table path key => Tab.close path key reading.current reading.document
  | .element path key => Tab.closeArray path key reading.current reading.document

/-- The state behind a header for a table. -/
def openTable (reading : Reading) (path : List String) (key : String) : Option Reading := do
  let (table, document) ← Tab.open? path key (← reading.settle)
  return ⟨document, .table path key, table⟩

/-- The state behind a header for a table of an array. -/
def openElement (reading : Reading) (path : List String) (key : String) : Option Reading := do
  let document ← Tab.openArray path key (← reading.settle)
  return ⟨document, .element path key, .empty⟩

/-- The state behind a key with its value. -/
def put (reading : Reading) (path : List String) (key : String) (item : Item) :
    Option Reading := do
  return { reading with current := ← Tab.put path key item reading.current }

/-- Reads one line that is neither blank nor a comment. -/
def line (reading : Reading) (cs : List Char) : Option (Reading × List Char) :=
  match cs with
  | '[' :: '[' :: rest => do
    let (path, key, rest) ← key? rest
    match rest with
    | ']' :: ']' :: rest => return (← reading.openElement path key, ← endLine? rest)
    | _ => none
  | '[' :: rest => do
    let (path, key, rest) ← key? rest
    match rest with
    | ']' :: rest => return (← reading.openTable path key, ← endLine? rest)
    | _ => none
  | _ => do
    let (path, key, rest) ← key? cs
    match rest with
    | '=' :: rest =>
      let (item, rest) ← value? (nestingLimit - 1) (2 * rest.length + 2) (dropSpaces rest)
      return (← reading.put path key item, ← endLine? rest)
    | _ => none

/-- Reads lines until the text ends; each takes at least one character, so as
    many steps as there are characters are enough. -/
def lines (reading : Reading) : Nat → List Char → Option Reading
  | _, [] => some reading
  | 0, _ => none
  | steps + 1, cs =>
    match endLine? cs with
    | some rest => lines reading steps rest
    | none => do
      let (reading, rest) ← reading.line (dropSpaces cs)
      lines reading steps rest

end Reading

/-- A text without the mark of byte order at its start. -/
def dropMark : List Char → List Char
  | '\ufeff' :: rest => rest
  | cs => cs

def Tab.ofText? (text : String) : Option Tab :=
  let cs := dropMark text.toList
  (Reading.start.lines cs.length cs).bind Reading.settle

end TypeAtlas.Toml
