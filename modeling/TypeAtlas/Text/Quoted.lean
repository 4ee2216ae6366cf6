/-
  Quoted literals and hexadecimal numbers.

  A literal is a text between two quotes (`"` for texts, `'` for characters).
  Inside it the quote and the backslash carry a backslash, NUL, tab, line feed
  and carriage return have letters of their own, any other character without a
  visible form, and any that extends the one before it, is written as its code
  point `\u{…}`; all else is copied.

  * `escape quote c` is the written form of one character;
  * `quoteText` and `quoteChar` write whole literals;
  * `hex` and `hexPadded` write numbers to base sixteen.
-/
import TypeAtlas.Text.Printable

namespace TypeAtlas.Text

/-! ## Hexadecimal numbers -/

/-- The digits of a number to base sixteen, lower case. -/
def hexDigits (n : Nat) : List Char := Nat.toDigits 16 n

/-- A number to base sixteen without leading zeros. -/
def hex (n : Nat) : String := String.ofList (hexDigits n)

/-- A number to base sixteen, filled with zeros to at least `width` digits. -/
def hexPadded (width n : Nat) : String :=
  let digits := hexDigits n
  String.ofList (List.replicate (width - digits.length) '0' ++ digits)

/-! ## Literals -/

/-- The written form of a character inside a literal closed by `quote`. -/
def escape (quote c : Char) : List Char :=
  if c = '\x00' then ['\\', '0']
  else if c = '\t' then ['\\', 't']
  else if c = '\r' then ['\\', 'r']
  else if c = '\n' then ['\\', 'n']
  else if c = '\\' then ['\\', '\\']
  else if c = quote then ['\\', c]
  else if isGraphemeExtend c || !isPrintable c then
    ['\\', 'u', '{'] ++ hexDigits c.toNat ++ ['}']
  else [c]

/-- A text as a literal between double quotes. -/
def quoteText (s : String) : String :=
  String.ofList ('"' :: (s.toList.flatMap (escape '"') ++ ['"']))

/-- A character as a literal between single quotes. -/
def quoteChar (c : Char) : String :=
  String.ofList ('\'' :: (escape '\'' c ++ ['\'']))

/-- A list of texts between brackets, separated by commas. -/
def listing (opening closing : String) (items : List String) : String :=
  opening ++ String.intercalate ", " items ++ closing

end TypeAtlas.Text
