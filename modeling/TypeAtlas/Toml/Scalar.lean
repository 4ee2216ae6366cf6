/-
  Values that are written as one word.

  A word is a run of letters, digits and the signs `+ - . _ :`.  It stands for a
  truth value, a number, or a date and time.

  * digits may be separated by single underscores (`digitRun?`); a decimal
    number has no leading zero;
  * an integer fits into 64 bits with a sign; bases other than ten take none;
  * a floating-point number has a fraction or an exponent, and the positive ones
    stay below the largest that 64 bits can hold;
  * a date follows the calendar, a time may have a leap second.
-/
import TypeAtlas.Toml.Value

namespace TypeAtlas.Toml.Scalar

/-! ## Digits -/

/-- The digits of a run in which single underscores may stand between digits. -/
def digitRun? (isDigit : Char → Bool) : List Char → Option (List Char)
  | [] => none
  | [c] => if isDigit c then some [c] else none
  | c :: '_' :: d :: rest =>
    if isDigit c then (digitRun? isDigit (d :: rest)).map (c :: ·) else none
  | c :: d :: rest => if isDigit c then (digitRun? isDigit (d :: rest)).map (c :: ·) else none

/-- The digits of a decimal number without a leading zero. -/
def decimalRun? (cs : List Char) : Option (List Char) :=
  (digitRun? Char.isDigit cs).filter fun digits => digits.length ≤ 1 || digits.head? != some '0'

/-- The value of a digit of any base. -/
def digitValue (c : Char) : Nat :=
  if c.isDigit then c.toNat - '0'.toNat else c.toLower.toNat - 'a'.toNat + 10

/-- The number of a list of digits. -/
def ofDigits (base : Nat) (digits : List Char) : Nat :=
  digits.foldl (fun n c => base * n + digitValue c) 0

/-- Whether a character is a digit of a base up to sixteen. -/
def isDigitOf (base : Nat) (c : Char) : Bool :=
  (c.isDigit || ('a' ≤ c && c ≤ 'f') || ('A' ≤ c && c ≤ 'F')) && digitValue c < base

/-- Whether there is a minus sign, and what follows the sign. -/
def splitSign : List Char → Bool × List Char
  | '-' :: rest => (true, rest)
  | '+' :: rest => (false, rest)
  | cs => (false, cs)

/-! ## Numbers -/

/-- The base of a number that starts with a letter for it. -/
def base? : List Char → Option (Nat × List Char)
  | '0' :: 'x' :: rest => some (16, rest)
  | '0' :: 'o' :: rest => some (8, rest)
  | '0' :: 'b' :: rest => some (2, rest)
  | _ => none

def integer? (cs : List Char) : Option Int :=
  match base? cs with
  | some (base, rest) => do
    let n := ofDigits base (← digitRun? (isDigitOf base) rest)
    if n < 1 <<< 63 then some n else none
  | none => do
    let (negative, rest) := splitSign cs
    let n := ofDigits 10 (← decimalRun? rest)
    if negative then if n ≤ 1 <<< 63 then some (-n) else none
    else if n < 1 <<< 63 then some n else none

/-- The least number that is nearer to the power 2^1024 than to the largest
    number of 64 bits, or as near to both. -/
def overflowBound : Nat := (1 <<< 1024) - (1 <<< 970)

/-- Whether `digits`, of which `places` follow the point, times ten to the power
    `exponent` is beyond the numbers of 64 bits. -/
def overflows (digits : List Char) (places : Nat) (exponent : Int) : Bool :=
  let significant := digits.dropWhile (· == '0')
  let magnitude := significant.length + exponent - places
  if significant.isEmpty || magnitude < 300 then false
  else if 400 < magnitude then true
  else
    let shift := exponent - places
    let n := ofDigits 10 significant
    if 0 ≤ shift then overflowBound ≤ n * Nat.pow 10 shift.toNat
    else overflowBound * Nat.pow 10 (-shift).toNat ≤ n

/-- The exponent of a floating-point number. -/
def exponent? (cs : List Char) : Option Int := do
  let (negative, rest) := splitSign cs
  let n := ofDigits 10 (← digitRun? Char.isDigit rest)
  return if negative then -n else n

/-- Whether a word, without its sign, is a floating-point number in digits. -/
def isDecimalFloat (negative : Bool) (cs : List Char) : Bool :=
  let isMark := fun c => c == 'e' || c == 'E'
  let mantissa := cs.takeWhile fun c => !isMark c
  let exponent := (cs.dropWhile fun c => !isMark c).drop 1
  let whole := mantissa.takeWhile (· != '.')
  let hasPoint := mantissa.contains '.'
  let fraction := (mantissa.dropWhile (· != '.')).drop 1
  let hasMark := cs.any isMark
  match decimalRun? whole,
      if hasPoint then digitRun? Char.isDigit fraction else some [],
      if hasMark then exponent? exponent else some 0 with
  | some whole, some fraction, some e =>
    (hasPoint || hasMark) && (negative || !overflows (whole ++ fraction) fraction.length e)
  | _, _, _ => false

/-- Whether a word is a floating-point number. -/
def isFloat (cs : List Char) : Bool :=
  let (negative, rest) := splitSign cs
  rest == "inf".toList || rest == "nan".toList || isDecimalFloat negative rest

/-! ## Dates and times -/

/-- A number of exactly two digits that is at most `most`. -/
def twoDigits? (most : Nat) : List Char → Option Nat
  | [a, b] =>
    if a.isDigit && b.isDigit then (some (ofDigits 10 [a, b])).filter (· ≤ most) else none
  | _ => none

/-- The number of days of a month. -/
def daysOf (year month : Nat) : Nat :=
  if month = 2 then
    if year % 4 = 0 ∧ (year % 100 ≠ 0 ∨ year % 400 = 0) then 29 else 28
  else if month = 4 ∨ month = 6 ∨ month = 9 ∨ month = 11 then 30
  else 31

/-- Whether a word is a date of the calendar, `1979-05-27`. -/
def isDate : List Char → Bool
  | [a, b, c, d, '-', e, f, '-', g, h] =>
    match twoDigits? 12 [e, f], twoDigits? 31 [g, h] with
    | some month, some day =>
      [a, b, c, d].all Char.isDigit && 1 ≤ month && 1 ≤ day &&
        day ≤ daysOf (ofDigits 10 [a, b, c, d]) month
    | _, _ => false
  | _ => false

/-- What follows the time at the start of a word, `07:32:00.999`. -/
def afterTime? : List Char → Option (List Char)
  | a :: b :: ':' :: c :: d :: ':' :: e :: f :: rest => do
    let _ ← twoDigits? 23 [a, b]
    let _ ← twoDigits? 59 [c, d]
    let _ ← twoDigits? 60 [e, f]
    match rest with
    | '.' :: fraction =>
      if fraction.head?.any Char.isDigit then some (fraction.dropWhile Char.isDigit) else none
    | _ => some rest
  | _ => none

/-- Whether a word is an offset from universal time, `Z` or `-07:00`. -/
def isOffset : List Char → Bool
  | ['Z'] | ['z'] => true
  | [sign, a, b, ':', c, d] =>
    (sign == '+' || sign == '-') && (twoDigits? 23 [a, b]).isSome &&
      (twoDigits? 59 [c, d]).isSome
  | _ => false

/-- Whether a word is a date, a time, or a date and a time. -/
def isMoment (cs : List Char) : Bool :=
  isDate cs || afterTime? cs == some [] ||
    isDate (cs.take 10) &&
      match cs.drop 10 with
      | delimiter :: time =>
        (delimiter == 'T' || delimiter == 't' || delimiter == ' ') &&
          (afterTime? time).any fun offset => offset.isEmpty || isOffset offset
      | [] => false

/-! ## Words -/

/-- Whether a character can stand in a word. -/
def isWordChar (c : Char) : Bool :=
  c.isAlphanum || c == '+' || c == '-' || c == '.' || c == '_' || c == ':'

def ofWord? (cs : List Char) : Option Item :=
  if cs = "true".toList then some (.flag true)
  else if cs = "false".toList then some (.flag false)
  else if isMoment cs then some (.moment (String.ofList cs))
  else if isFloat cs then some (.float (String.ofList cs))
  else (integer? cs).map .integer

/-- The word at the start of a text, and what follows.  A blank between a date
    and a time is part of the word. -/
def splitWord (cs : List Char) : List Char × List Char :=
  let word := cs.takeWhile isWordChar
  match cs.dropWhile isWordChar with
  | ' ' :: c :: rest =>
    if isDate word && c.isDigit then
      (word ++ ' ' :: (c :: rest).takeWhile isWordChar, (c :: rest).dropWhile isWordChar)
    else (word, ' ' :: c :: rest)
  | rest => (word, rest)

end TypeAtlas.Toml.Scalar
