/-
  Reading literals back.

  A scanner that knows the escapes reads a written literal up to the quote that closes it,
  whatever comes behind, so two literals are the same only if they are of the same text.

  * `hexValue?` reads a number to base sixteen: `hexValue?_hexPadded`;
  * `scan` reads the characters of a literal from behind its opening quote, with
    `scan_escape` for one character;
  * `readText?_quoteText` and `readChar?_quoteChar`: a literal is read back.
-/
import Mathlib.Tactic.SplitIfs
import TypeAtlas.Text.Quoted

namespace TypeAtlas.Text

/-! ## Hexadecimal numbers -/

/-- The value of a digit to base sixteen, lower case. -/
def hexDigit? (c : Char) : Option Nat :=
  if c.isDigit then some (c.toNat - '0'.toNat)
  else if 'a' ≤ c ∧ c ≤ 'f' then some (c.toNat - 'a'.toNat + 10)
  else none

/-- The number of a list of digits to base sixteen. -/
def hexValue? (digits : List Char) : Option Nat :=
  digits.foldlM (fun n c => (hexDigit? c).map (16 * n + ·)) 0

theorem hexDigit?_digitChar : ∀ d < 16, hexDigit? (Nat.digitChar d) = some d := by decide

theorem hexValue?_append_digit {digits : List Char} {n d : Nat} (h : hexValue? digits = some n)
    (hd : d < 16) : hexValue? (digits ++ [Nat.digitChar d]) = some (16 * n + d) := by
  rw [hexValue?] at h ⊢
  rw [List.foldlM_append, h, Option.bind_eq_bind, Option.bind_some, List.foldlM_cons,
    hexDigit?_digitChar d hd]
  rfl

/-- The digits of a number are those of its sixteenth part and one more. -/
theorem hexDigits_cases (n : Nat) :
    n < 16 ∧ hexDigits n = [Nat.digitChar n] ∨
      n / 16 < n ∧ hexDigits n = hexDigits (n / 16) ++ [Nat.digitChar (n % 16)] := by
  by_cases hn : n < 16
  · exact Or.inl ⟨hn, Nat.toDigits_of_lt_base hn⟩
  · exact Or.inr ⟨by omega, Nat.toDigits_of_base_le (by decide) (by omega)⟩

theorem hexValue?_hexDigits (n : Nat) : hexValue? (hexDigits n) = some n := by
  induction n using Nat.strongRecOn with
  | _ n ih =>
    rcases hexDigits_cases n with ⟨hn, hdigits⟩ | ⟨hlt, hdigits⟩
    · rw [hdigits]
      have hnone : hexValue? [] = some 0 := rfl
      have hdigit := hexValue?_append_digit hnone hn
      rwa [List.nil_append, Nat.mul_zero, Nat.zero_add] at hdigit
    · rw [hdigits, hexValue?_append_digit (ih _ hlt) (Nat.mod_lt n (by decide)), Nat.div_add_mod]

/-- Zeros in front do not count. -/
theorem hexValue?_hexPadded (width n : Nat) : hexValue? (hexPadded width n).toList = some n := by
  have hzeros : ∀ k, hexValue? (List.replicate k '0' ++ hexDigits n) = some n := by
    intro k
    induction k with
    | zero => exact hexValue?_hexDigits n
    | succ k ih => exact ih
  rw [hexPadded, String.toList_ofList]
  exact hzeros _

theorem exists_of_mem_hexDigits {n : Nat} {c : Char} (h : c ∈ hexDigits n) :
    ∃ d < 16, c = Nat.digitChar d := by
  induction n using Nat.strongRecOn with
  | _ n ih =>
    rcases hexDigits_cases n with ⟨hn, hdigits⟩ | ⟨hlt, hdigits⟩
    · rw [hdigits, List.mem_singleton] at h
      exact ⟨n, hn, h⟩
    · rw [hdigits, List.mem_append, List.mem_singleton] at h
      rcases h with hmem | rfl
      · exact ih _ hlt hmem
      · exact ⟨n % 16, Nat.mod_lt n (by decide), rfl⟩

theorem ne_of_mem_hexDigits {n : Nat} {c other : Char} (h : c ∈ hexDigits n)
    (hother : ∀ d < 16, Nat.digitChar d ≠ other) : c ≠ other := by
  obtain ⟨d, hd, rfl⟩ := exists_of_mem_hexDigits h
  exact hother d hd

theorem ne_of_mem_hexPadded {width n : Nat} {c other : Char} (h : c ∈ (hexPadded width n).toList)
    (hother : ∀ d < 16, Nat.digitChar d ≠ other) : c ≠ other := by
  rw [hexPadded, String.toList_ofList, List.mem_append] at h
  rcases h with hzero | hdigit
  · rw [List.eq_of_mem_replicate hzero]
    exact hother 0 (by decide)
  · exact ne_of_mem_hexDigits hdigit hother

/-! ## Literals -/

/-- The character of an escape with one letter. -/
def escaped? : Char → Option Char
  | '0' => some '\x00'
  | 't' => some '\t'
  | 'r' => some '\r'
  | 'n' => some '\n'
  | '\\' => some '\\'
  | '\'' => some '\''
  | '"' => some '"'
  | _ => none

/-- The character of a code point in digits to base sixteen. -/
def codePoint? (digits : List Char) : Option Char := do
  let n ← hexValue? digits
  if n.isValidChar then some (Char.ofNat n) else none

/-- Where a scanner stands in a literal. -/
inductive Place where
  | plain
  /-- Behind a backslash. -/
  | escape
  /-- Before the brace of a code point. -/
  | brace
  /-- Inside the braces, behind some digits, last first. -/
  | code (digits : List Char)

/-- The characters of a literal and what follows the quote that closes it. -/
def scan (quote : Char) : Place → List Char → Option (List Char × List Char)
  | _, [] => none
  | .plain, c :: rest =>
    if c = quote then some ([], rest)
    else if c = '\\' then scan quote .escape rest
    else (scan quote .plain rest).map (Prod.map (c :: ·) id)
  | .escape, c :: rest =>
    if c = 'u' then scan quote .brace rest
    else (escaped? c).bind fun x => (scan quote .plain rest).map (Prod.map (x :: ·) id)
  | .brace, c :: rest => if c = '{' then scan quote (.code []) rest else none
  | .code digits, c :: rest =>
    if c = '}' then
      (codePoint? digits.reverse).bind fun x => (scan quote .plain rest).map (Prod.map (x :: ·) id)
    else scan quote (.code (c :: digits)) rest

/-- A text literal at the beginning, and what follows it. -/
def readText? : List Char → Option (String × List Char)
  | '"' :: rest => (scan '"' .plain rest).map (Prod.map String.ofList id)
  | _ => none

/-- A character literal at the beginning, and what follows it. -/
def readChar? : List Char → Option (Char × List Char)
  | '\'' :: rest =>
    match scan '\'' .plain rest with
    | some ([c], rest) => some (c, rest)
    | _ => none
  | _ => none

theorem codePoint?_hexDigits (c : Char) : codePoint? (hexDigits c.toNat) = some c := by
  have hvalid : c.toNat.isValidChar := c.valid
  rw [codePoint?, hexValue?_hexDigits, Option.bind_eq_bind, Option.bind_some, if_pos hvalid,
    Char.ofNat_toNat]

theorem scan_code (quote : Char) (digits : List Char) {more : List Char} (h : '}' ∉ more)
    (rest : List Char) :
    scan quote (.code digits) (more ++ '}' :: rest) =
      (codePoint? (digits.reverse ++ more)).bind fun x =>
        (scan quote .plain rest).map (Prod.map (x :: ·) id) := by
  induction more generalizing digits with
  | nil => rw [List.nil_append, List.append_nil, scan, if_pos rfl]
  | cons c more ih =>
    have hc : c ≠ '}' := (List.ne_of_not_mem_cons h).symm
    rw [List.cons_append, scan, if_neg hc, ih _ (List.not_mem_of_not_mem_cons h),
      List.reverse_cons, List.append_assoc, List.singleton_append]

variable {quote : Char}

/-- The written form of a character is an escape of one letter, a code point, or the character
    itself, which then neither closes the literal nor starts an escape. -/
theorem escape_cases (hquote : quote = '"' ∨ quote = '\'') (c : Char) :
    (∃ letter, letter ≠ 'u' ∧ letter ≠ '\n' ∧ escaped? letter = some c ∧
      escape quote c = ['\\', letter]) ∨
      escape quote c = ['\\', 'u', '{'] ++ hexDigits c.toNat ++ ['}'] ∨
        c ≠ quote ∧ c ≠ '\\' ∧ c ≠ '\n' ∧ escape quote c = [c] := by
  rw [escape]
  split_ifs with hnul htab hreturn hfeed hslash hclose hhidden
  · subst hnul
    exact Or.inl ⟨_, by decide, by decide, rfl, rfl⟩
  · subst htab
    exact Or.inl ⟨_, by decide, by decide, rfl, rfl⟩
  · subst hreturn
    exact Or.inl ⟨_, by decide, by decide, rfl, rfl⟩
  · subst hfeed
    exact Or.inl ⟨_, by decide, by decide, rfl, rfl⟩
  · subst hslash
    exact Or.inl ⟨_, by decide, by decide, rfl, rfl⟩
  · subst hclose
    refine Or.inl ⟨c, ?_, ?_, ?_, rfl⟩ <;> rcases hquote with rfl | rfl <;> decide
  · exact Or.inr (Or.inl rfl)
  · exact Or.inr (Or.inr ⟨hclose, hslash, hfeed, rfl⟩)

/-- The written form of a character is read as the character. -/
theorem scan_escape (hquote : quote = '"' ∨ quote = '\'') (c : Char) (rest : List Char) :
    scan quote .plain (escape quote c ++ rest) =
      (scan quote .plain rest).map (Prod.map (c :: ·) id) := by
  have hslash : '\\' ≠ quote := by rcases hquote with rfl | rfl <;> decide
  rcases escape_cases hquote c with
    ⟨letter, hu, -, hescaped, hform⟩ | hform | ⟨hclose, hc, -, hform⟩
  · rw [hform, List.cons_append, List.cons_append, List.nil_append, scan, if_neg hslash, if_pos rfl,
      scan, if_neg hu, hescaped, Option.bind_some]
  · have hbrace : '}' ∉ hexDigits c.toNat := fun hmem => ne_of_mem_hexDigits hmem (by decide) rfl
    rw [hform, List.append_assoc, List.append_assoc, List.singleton_append, List.cons_append,
      List.cons_append, List.cons_append, List.nil_append, scan, if_neg hslash, if_pos rfl, scan,
      if_pos rfl, scan, if_pos rfl, scan_code quote [] hbrace, List.reverse_nil, List.nil_append,
      codePoint?_hexDigits, Option.bind_some]
  · rw [hform, List.singleton_append, scan, if_neg hclose, if_neg hc]

/-- A text in its written form is read as the text. -/
theorem scan_flatMap_escape (hquote : quote = '"' ∨ quote = '\'') (cs rest : List Char) :
    scan quote .plain (cs.flatMap (escape quote) ++ quote :: rest) = some (cs, rest) := by
  induction cs with
  | nil => rw [List.flatMap_nil, List.nil_append, scan, if_pos rfl]
  | cons c cs ih =>
    rw [List.flatMap_cons, List.append_assoc, scan_escape hquote, ih]
    rfl

theorem readText?_quoteText (s : String) (rest : List Char) :
    readText? ((quoteText s).toList ++ rest) = some (s, rest) := by
  rw [quoteText, String.toList_ofList, List.cons_append, List.append_assoc, List.singleton_append,
    readText?, scan_flatMap_escape (Or.inl rfl), Option.map_some]
  simp only [Prod.map, String.ofList_toList, id]

theorem readChar?_quoteChar (c : Char) (rest : List Char) :
    readChar? ((quoteChar c).toList ++ rest) = some (c, rest) := by
  have hscan := scan_flatMap_escape (Or.inr rfl) [c] rest
  rw [List.flatMap_singleton] at hscan
  rw [quoteChar, String.toList_ofList, List.cons_append, List.append_assoc, List.singleton_append,
    readChar?, hscan]

/-- Different texts have different literals. -/
theorem quoteText_injective : Function.Injective quoteText := by
  intro s s' h
  have hread := readText?_quoteText s []
  rw [h, readText?_quoteText] at hread
  cases hread
  rfl

/-- A literal stands on one line. -/
theorem not_mem_escape (hquote : quote = '"' ∨ quote = '\'') (c : Char) :
    '\n' ∉ escape quote c := by
  rcases escape_cases hquote c with ⟨letter, -, hletter, -, hform⟩ | hform | ⟨-, -, hc, hform⟩
  · rw [hform]
    simpa using hletter.symm
  · have hdigits : '\n' ∉ hexDigits c.toNat := fun hmem => ne_of_mem_hexDigits hmem (by decide) rfl
    rw [hform]
    simpa using hdigits
  · rw [hform]
    simpa using hc.symm

theorem not_mem_quoteText (s : String) : '\n' ∉ (quoteText s).toList := by
  have hinner : '\n' ∉ s.toList.flatMap (escape '"') := by
    intro hmem
    obtain ⟨c, -, hc⟩ := List.mem_flatMap.1 hmem
    exact not_mem_escape (Or.inl rfl) c hc
  rw [quoteText, String.toList_ofList]
  simpa using hinner

theorem not_mem_quoteChar (c : Char) : '\n' ∉ (quoteChar c).toList := by
  rw [quoteChar, String.toList_ofList]
  simpa using not_mem_escape (Or.inr rfl) c

end TypeAtlas.Text
