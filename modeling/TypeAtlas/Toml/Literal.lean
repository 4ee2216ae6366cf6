/-
  Texts in quotes.

  A text stands between double quotes, where a backslash starts an escape, or
  between single quotes, where every character stands for itself.  Three quotes
  instead of one let it run over several lines: a line break right behind the
  opening quotes does not count, one behind a backslash is skipped with the
  blanks that follow, and up to two quotes may stand in front of the closing
  three.

  * each scanner starts behind the opening quotes and answers the text and what
    follows the closing quotes, or nothing if the text is not well formed.
-/
namespace TypeAtlas.Toml.Literal

/-- Whether a character may stand in a line as it is: no control character but
    the tab. -/
def isPlain (c : Char) : Bool := c == '\t' || (32 ≤ c.toNat && c.toNat != 127)

/-- Whether a character is a space or a tab. -/
def isSpace (c : Char) : Bool := c == ' ' || c == '\t'

/-- The character of a code point in hexadecimal digits. -/
def codePoint? (digits : List Char) : Option Char := do
  let n ← digits.foldlM (fun n c =>
    if c.isDigit then some (16 * n + (c.toNat - '0'.toNat))
    else if 'a' ≤ c ∧ c ≤ 'f' then some (16 * n + (c.toNat - 'a'.toNat + 10))
    else if 'A' ≤ c ∧ c ≤ 'F' then some (16 * n + (c.toNat - 'A'.toNat + 10))
    else none) 0
  if n.isValidChar then some (Char.ofNat n) else none

/-- The character of an escape with one letter. -/
def escaped? : Char → Option Char
  | 'b' => some '\x08'
  | 't' => some '\t'
  | 'n' => some '\n'
  | 'f' => some '\x0c'
  | 'r' => some '\r'
  | '"' => some '"'
  | '\\' => some '\\'
  | _ => none

/-- A text and what follows it. -/
abbrev Scanned := Option (List Char × List Char)

/-- What a scanner answers at the end of a text; `done` holds its characters,
    last first. -/
def finish (done rest : List Char) : Scanned := some (done.reverse, rest)

/-! ## Texts on one line -/

def single (done : List Char) : List Char → Scanned
  | [] => none
  | '\'' :: rest => finish done rest
  | c :: rest => if isPlain c then single (c :: done) rest else none

def double (done : List Char) : List Char → Scanned
  | [] => none
  | '"' :: rest => finish done rest
  | '\\' :: 'u' :: a :: b :: c :: d :: rest =>
    match codePoint? [a, b, c, d] with
    | some x => double (x :: done) rest
    | none => none
  | '\\' :: 'U' :: a :: b :: c :: d :: e :: f :: g :: h :: rest =>
    match codePoint? [a, b, c, d, e, f, g, h] with
    | some x => double (x :: done) rest
    | none => none
  | '\\' :: c :: rest =>
    match escaped? c with
    | some x => double (x :: done) rest
    | none => none
  | c :: rest => if isPlain c && c != '\\' then double (c :: done) rest else none

/-! ## Texts on several lines -/

/-- A text without a line break at its start. -/
def dropFirstBreak : List Char → List Char
  | '\n' :: rest => rest
  | '\r' :: '\n' :: rest => rest
  | cs => cs

/-- Whether a line ends after blanks. -/
def endsLine (cs : List Char) : Bool :=
  match cs.dropWhile isSpace with
  | '\n' :: _ => true
  | '\r' :: '\n' :: _ => true
  | _ => false

/-- What three quotes in a text and what follows them come to: further quotes
    belong to the text. -/
def closing (quote : Char) (done : List Char) : List Char → Scanned
  | a :: b :: rest =>
    if a = quote ∧ b = quote then finish (quote :: quote :: done) rest
    else if a = quote then finish (quote :: done) (b :: rest)
    else finish done (a :: b :: rest)
  | [a] => if a = quote then finish (quote :: done) [] else finish done [a]
  | [] => finish done []

/-- A text between three single quotes. -/
def singleLines (done : List Char) : List Char → Scanned
  | [] => none
  | '\'' :: '\'' :: '\'' :: rest => closing '\'' done rest
  | '\r' :: '\n' :: rest => singleLines ('\n' :: done) rest
  | c :: rest => if isPlain c || c == '\n' then singleLines (c :: done) rest else none

/-- A text between three double quotes; `skipping` holds behind a backslash at
    the end of a line. -/
def doubleLines (skipping : Bool) (done : List Char) : List Char → Scanned
  | [] => none
  | '"' :: '"' :: '"' :: rest => closing '"' done rest
  | '\r' :: '\n' :: rest => doubleLines skipping (if skipping then done else '\n' :: done) rest
  | '\\' :: 'u' :: a :: b :: c :: d :: rest =>
    match codePoint? [a, b, c, d] with
    | some x => doubleLines false (x :: done) rest
    | none => none
  | '\\' :: 'U' :: a :: b :: c :: d :: e :: f :: g :: h :: rest =>
    match codePoint? [a, b, c, d, e, f, g, h] with
    | some x => doubleLines false (x :: done) rest
    | none => none
  | '\\' :: c :: rest =>
    match escaped? c with
    | some x => doubleLines false (x :: done) rest
    | none => if endsLine (c :: rest) then doubleLines true done (c :: rest) else none
  | c :: rest =>
    if skipping && (isSpace c || c == '\n') then doubleLines true done rest
    else if (isPlain c && c != '\\') || c == '\n' then doubleLines false (c :: done) rest
    else none

/-! ## Texts of any kind -/

/-- A text on one line, from its opening quote on. -/
def onOneLine : List Char → Scanned
  | '"' :: rest => double [] rest
  | '\'' :: rest => single [] rest
  | _ => none

/-- A text of any kind, from its opening quotes on. -/
def scan : List Char → Scanned
  | '"' :: '"' :: '"' :: rest => doubleLines false [] (dropFirstBreak rest)
  | '\'' :: '\'' :: '\'' :: rest => singleLines [] (dropFirstBreak rest)
  | cs => onOneLine cs

end TypeAtlas.Toml.Literal
