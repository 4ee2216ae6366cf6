/-
  The contents of a TOML document.

  A document is a table; a table maps keys to values, to further tables and to
  arrays of tables, in the order in which the keys were given.  While a document
  is read, a table also knows how it came about: whether only keys or headers
  below it mentioned it so far (`implicit`), and whether a dotted key did
  (`dotted`).  Both decide what may still be added to it.

  * `Tab.descend` follows a path of keys, makes the tables that are missing, and
    fails at anything that cannot be extended;
  * `Tab.put` adds a key below a dotted path;
  * `Tab.open?` and `Tab.close` take a table out for a header and put it back.
-/

namespace TypeAtlas.Toml

mutual

/-- What a key can stand for. -/
inductive Item where
  | text (s : String)
  | flag (b : Bool)
  | integer (n : Int)
  | float (written : String)
  /-- A date, a time or both, as it is written. -/
  | moment (written : String)
  | array (items : List Item)
  /-- A table written as a value; nothing can be added to it. -/
  | inline (table : Tab)
  | table (table : Tab)
  | tables (tables : List Tab)

/-- A table. -/
inductive Tab where
  /-- How the table came about, and its keys in order. -/
  | mk (implicit dotted : Bool) (entries : List (String × Item))

end

namespace Tab

/-- Whether the table was only mentioned by what is below it. -/
def implicit : Tab → Bool
  | mk implicit _ _ => implicit

/-- Whether the table was made by a dotted key. -/
def dotted : Tab → Bool
  | mk _ dotted _ => dotted

/-- The keys with what they stand for. -/
def entries : Tab → List (String × Item)
  | mk _ _ entries => entries

/-- The table that a header starts, or the whole document. -/
def empty : Tab := mk false false []

instance : Inhabited Tab := ⟨empty⟩

def find? (table : Tab) (key : String) : Option Item :=
  (table.entries.find? fun entry => entry.1 == key).map Prod.snd

/-- The table with a key set; a key that is there keeps its place. -/
def set (table : Tab) (key : String) (item : Item) : Tab :=
  match table.find? key with
  | some _ =>
    mk table.implicit table.dotted (table.entries.map fun entry =>
      if entry.1 == key then (key, item) else entry)
  | none => mk table.implicit table.dotted (table.entries ++ [(key, item)])

def erase (table : Tab) (key : String) : Tab :=
  mk table.implicit table.dotted (table.entries.filter fun entry => entry.1 != key)

/-- Changes the table at the end of a path.  Missing tables are made, as dotted
    ones if the path is part of a dotted key; then a table that was given by a
    header may not be entered. -/
def descend (dotted : Bool) (change : Tab → Option Tab) : List String → Tab → Option Tab
  | [], table => change table
  | key :: path, table =>
    match table.find? key with
    | none => do
      let child ← descend dotted change path (mk true dotted [])
      return table.set key (.table child)
    | some (.table child) => do
      if dotted && !child.implicit then none
      let child ← descend dotted change path child
      return table.set key (.table child)
    | some (.tables children) => do
      let last ← children.getLast?
      let last ← descend dotted change path last
      return table.set key (.tables (children.dropLast ++ [last]))
    | some _ => none

/-- Adds a key below a dotted path.  The last table of the path must have been
    made by dotted keys, and the key must be new. -/
def put (path : List String) (key : String) (item : Item) : Tab → Option Tab :=
  descend true (fun table =>
    if table.dotted == path.isEmpty || (table.find? key).isSome then none
    else some (table.set key item)) path

/-- Takes the table of a header out of a document: a new one, or one that was
    only mentioned so far. -/
def open? (path : List String) (key : String) (document : Tab) : Option (Tab × Tab) := do
  let mut found := Tab.empty
  let parent ← Option.some document
  let parent ← descend false some path parent
  let rec look : List String → Tab → Option (Option Item)
    | [], table => some (table.find? key)
    | step :: rest, table =>
      match table.find? step with
      | some (.table child) => look rest child
      | some (.tables children) => children.getLast?.bind (look rest)
      | _ => none
  match ← look path parent with
  | none => pure ()
  | some (.table table) =>
    if table.implicit && !table.dotted then found := mk false false table.entries else none
  | some _ => none
  let rest ← descend false (fun table => some (table.erase key)) path parent
  return (found, rest)

/-- Puts the table of a header into a document.  A table that was mentioned in
    the meantime gives way. -/
def close (path : List String) (key : String) (table : Tab) : Tab → Option Tab :=
  descend false (fun parent =>
    match parent.find? key with
    | none => some (parent.set key (.table table))
    | some (.table old) => if old.implicit then some (parent.set key (.table table)) else none
    | some _ => none) path

/-- Looks whether a header for an array of tables is allowed. -/
def openArray (path : List String) (key : String) : Tab → Option Tab :=
  descend false (fun parent =>
    match parent.find? key with
    | none | some (.tables _) => some parent
    | some _ => none) path

/-- Adds a table at the end of an array of tables. -/
def closeArray (path : List String) (key : String) (table : Tab) : Tab → Option Tab :=
  descend false (fun parent =>
    match parent.find? key with
    | none => some (parent.set key (.tables [table]))
    | some (.tables before) => some (parent.set key (.tables (before ++ [table])))
    | some _ => none) path

end Tab

end TypeAtlas.Toml
