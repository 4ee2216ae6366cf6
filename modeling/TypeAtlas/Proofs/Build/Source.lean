/-
  Reading a written lookup.

  The text of a module is read line by line.  Comments and empty lines do not count; a constant
  is declared on one line; the branches of the function are nested as their lines are indented.
  What is not written in this way is not read at all.  This is about the text alone: a compiler
  may refuse more, such as a carriage return by itself in the comment of a name.

  * `Source` is what a text declares, `Source.metadataFor?` the function that it declares;
  * `blocks?` takes indented lines apart, `readNames` and `readBranches` what stands in a branch;
  * `Source.ofText?` reads a text.
-/
import Mathlib.Data.List.Basic
import TypeAtlas.Name.Hash
import TypeAtlas.Proofs.Text.Quoted

namespace TypeAtlas

open TypeAtlas.Text (readText? readChar? hexValue?)

/-- What the text of a written lookup declares. -/
structure Source where
  /-- The constants and their texts. -/
  constants : List (String × String)
  /-- The branches of the function: first characters, in each of them hashes, and in each of these
      names with their constants. -/
  arms : List (Char × List (Nat × List (String × String)))
  deriving DecidableEq

namespace Source

/-- The constant that the branches lead to for a name.  Of branches for one value the first
    counts. -/
def follow? (source : Source) (name : String) : Option String := do
  let first ← name.toList.head?
  let hashes ← source.arms.lookup first
  let names ← hashes.lookup (Name.hash name).toNat
  names.lookup name

/-- The function that a text declares. -/
def metadataFor? (source : Source) (name : String) : Option String := do
  let constant ← source.follow? name
  source.constants.lookup constant

/-! ## Lines -/

/-- The characters of a line. -/
abbrev Line := List Char

namespace Line

/-- How far a line is indented. -/
def width (line : Line) : Nat := (line.takeWhile (· == ' ')).length

/-- A line without its indentation. -/
def content (line : Line) : Line := line.dropWhile (· == ' ')

/-- Whether a line is neither empty nor a comment. -/
def isCode (line : Line) : Bool :=
  match line.content with
  | [] | '/' :: '/' :: _ => false
  | _ => true

/-- What follows a text at the beginning of a line. -/
def after? (text : String) (line : Line) : Option Line := text.toList.isPrefixOf? line

end Line

/-- A line without its indentation, and the lines that stand in it. -/
abbrev Block := Line × List Line

/-- Each of the lines that are indented so far, with those up to the next of them; and the lines
    before the first. -/
def blocks (width : Nat) : List Line → List Line × List Block
  | [] => ([], [])
  | line :: rest =>
    let (inner, found) := blocks width rest
    if line.width = width then ([], (line.content, inner) :: found) else (line :: inner, found)

def blocks? (width : Nat) (lines : List Line) : Option (List Block) :=
  match blocks width lines with
  | ([], found) => some found
  | _ => none

/-! ## Single lines -/

/-- Whether a character may stand in the name of a constant. -/
def inIdentifier (c : Char) : Bool := c.isAlphanum || c == '_'

/-- The declaration of a constant. -/
def constant? (line : Line) : Option (String × String) := do
  let declared ← line.after? "pub const "
  let value ← Line.after? ": &str = " (declared.dropWhile inIdentifier)
  let (text, rest) ← readText? value
  if rest = [';'] then some (String.ofList (declared.takeWhile inIdentifier), text) else none

/-- The character of a branch. -/
def first? (line : Line) : Option Char := do
  let (first, rest) ← readChar? line
  if rest = " => match hash \x7b".toList then some first else none

/-- The hash of a branch. -/
def hash? (line : Line) : Option Nat := do
  let digits ← line.after? "0x"
  let hash ← hexValue? (digits.takeWhile (· != ' '))
  if digits.dropWhile (· != ' ') = " => match name \x7b".toList then some hash else none

/-- The name of a branch, and the constant that it answers with. -/
def name? (line : Line) : Option (String × String) := do
  let (name, rest) ← readText? line
  let constant ← Line.after? " => Some(" rest
  if constant.dropWhile inIdentifier = "),".toList then
    some (name, String.ofList (constant.takeWhile inIdentifier))
  else none

/-! ## Branches -/

/-- The branch for all other values. -/
def otherwise : Block := ("_ => None,".toList, [])

/-- The end of a branch that stands on more than one line. -/
def closing : Block := ("\x7d,".toList, [])

/-- The branches for names, up to the one for all others. -/
def readNames : List Block → Option (List (String × String))
  | [] => none
  | block :: rest =>
    if block = otherwise then if rest = [] then some [] else none
    else if block.2 = [] then do
      let name ← name? block.1
      let names ← readNames rest
      some (name :: names)
    else none

/-- Branches that stand on more than one line, up to the one for all other values. -/
def readBranches {α : Type} (read : Block → Option α) : List Block → Option (List α)
  | [] => none
  | [block] => if block = otherwise then some [] else none
  | block :: next :: rest =>
    if next = closing then do
      let branch ← read block
      let branches ← readBranches read rest
      some (branch :: branches)
    else none

/-- The branch of a hash. -/
def readHash (block : Block) : Option (Nat × List (String × String)) := do
  let hash ← hash? block.1
  let names ← readNames (← blocks? 16 block.2)
  some (hash, names)

/-- The branch of a first character. -/
def readFirst (block : Block) : Option (Char × List (Nat × List (String × String))) := do
  let first ← first? block.1
  let hashes ← readBranches readHash (← blocks? 12 block.2)
  some (first, hashes)

/-! ## Texts -/

/-- The lines of a function that knows no name. -/
def knowsNothing : List Block := [("let _ = name;".toList, []), ("None".toList, [])]

/-- The lines of a function with branches. -/
def decides (branches : List Line) : List Block :=
  [("let first = name.chars().next()?;".toList, []),
    ("let hash = portrait_runtime::name_hash(name);".toList, []),
    ("match first \x7b".toList, branches), ("\x7d".toList, [])]

/-- The branches of the function. -/
def readBody (lines : List Line) :
    Option (List (Char × List (Nat × List (String × String)))) := do
  let body ← blocks? 4 lines
  if body = knowsNothing then some []
  else do
    let (_, branches) ← body[2]?
    if body = decides branches then readBranches readFirst (← blocks? 8 branches) else none

/-- The first line of the function. -/
def signature : String := "pub fn metadata_for(name: &str) -> Option<&'static str> \x7b"

/-- The constants and, at the end, the function. -/
def readItems : List Block → Option Source
  | [] => none
  | block :: rest =>
    if block.1 = signature.toList then
      if rest = [("\x7d".toList, [])] then (readBody block.2).map (⟨[], ·⟩) else none
    else if block.2 = [] then do
      let constant ← constant? block.1
      let source ← readItems rest
      some { source with constants := constant :: source.constants }
    else none

/-- What a text declares.  Nothing is asked of its comments. -/
def ofText? (text : String) : Option Source := do
  readItems (← blocks? 0 ((text.toList.splitOn '\n').filter Line.isCode))

/-! ## Indented lines -/

/-- A line that is indented at least so far is code and does not run on. -/
structure Stands (width : Nat) (line : Line) : Prop where
  code : line.isCode = true
  deep : width ≤ line.width
  single : '\n' ∉ line

theorem Stands.mono {width width' : Nat} {line : Line} (h : Stands width line)
    (hle : width' ≤ width) : Stands width' line :=
  ⟨h.code, Nat.le_trans hle h.deep, h.single⟩

/-- A line without indentation begins with neither a blank nor a slash and does not run on. -/
structure IsStatement (text : Line) : Prop where
  begins : ∃ c, text.head? = some c ∧ c ≠ ' ' ∧ c ≠ '/'
  single : '\n' ∉ text

/-- The lines of a block are indented further than itself. -/
structure IsNested (width : Nat) (block : Block) : Prop where
  statement : IsStatement block.1
  inner : ∀ line ∈ block.2, Stands (width + 1) line

/-- A block as it is written. -/
def written (width : Nat) (block : Block) : List Line :=
  (List.replicate width ' ' ++ block.1) :: block.2

namespace IsStatement

variable {text : Line} (h : IsStatement text) (width : Nat)

include h

theorem content_indented : Line.content (List.replicate width ' ' ++ text) = text := by
  obtain ⟨⟨c, hhead, hblank, -⟩, -⟩ := h
  obtain ⟨rest, rfl⟩ := List.head?_eq_some_iff.1 hhead
  have hall : ∀ c ∈ List.replicate width ' ', (c == ' ') = true := by
    intro c hc
    rw [List.eq_of_mem_replicate hc, beq_self_eq_true]
  rw [Line.content, List.dropWhile_append_of_pos hall, List.dropWhile_cons_of_neg]
  simpa using hblank

theorem width_indented : Line.width (List.replicate width ' ' ++ text) = width := by
  obtain ⟨⟨c, hhead, hblank, -⟩, -⟩ := h
  obtain ⟨rest, rfl⟩ := List.head?_eq_some_iff.1 hhead
  have hall : ∀ c ∈ List.replicate width ' ', (c == ' ') = true := by
    intro c hc
    rw [List.eq_of_mem_replicate hc, beq_self_eq_true]
  rw [Line.width, List.takeWhile_append_of_pos hall, List.takeWhile_cons_of_neg, List.append_nil,
    List.length_replicate]
  simpa using hblank

theorem stands : Stands width (List.replicate width ' ' ++ text) := by
  refine ⟨?_, Nat.le_of_eq (h.width_indented width).symm, ?_⟩
  · rw [Line.isCode, h.content_indented]
    obtain ⟨⟨c, hhead, -, hslash⟩, -⟩ := h
    obtain ⟨rest, rfl⟩ := List.head?_eq_some_iff.1 hhead
    split
    next heq => cases heq
    next heq => exact absurd (List.cons.inj heq).1 hslash
    next => rfl
  · rw [List.mem_append, not_or]
    exact ⟨fun hmem => absurd (List.eq_of_mem_replicate hmem) (by decide), h.single⟩

end IsStatement

theorem isStatement_of_head? {text : Line} {c : Char} (hhead : text.head? = some c)
    (hc : c ≠ ' ' ∧ c ≠ '/') (hsingle : '\n' ∉ text) : IsStatement text :=
  ⟨⟨c, hhead, hc⟩, hsingle⟩

theorem IsStatement.isCode {text : Line} (h : IsStatement text) : Line.isCode text = true :=
  (h.stands 0).code

theorem IsNested.intro {width : Nat} {text : Line} {inner : List Line} (h : IsStatement text)
    (hinner : ∀ line ∈ inner, Stands (width + 1) line) : IsNested width (text, inner) :=
  ⟨h, hinner⟩

theorem IsStatement.isNested {text : Line} (h : IsStatement text) (width : Nat) :
    IsNested width (text, []) :=
  ⟨h, nofun⟩

theorem written_nil (width : Nat) (text : Line) :
    written width (text, []) = [List.replicate width ' ' ++ text] := rfl

theorem written_zero (text : Line) : written 0 (text, []) = [text] := rfl

theorem isNested_otherwise (width : Nat) : IsNested width otherwise :=
  (isStatement_of_head? (c := '_') rfl (by decide) (by decide)).isNested width

theorem isNested_closing (width : Nat) : IsNested width closing :=
  (isStatement_of_head? (c := '\x7d') rfl (by decide) (by decide)).isNested width

/-- What is written of nested blocks is indented. -/
theorem stands_written {width : Nat} {found : List Block}
    (h : ∀ block ∈ found, IsNested width block) :
    ∀ line ∈ found.flatMap (written width), Stands width line := by
  intro line hline
  obtain ⟨block, hblock, hmem⟩ := List.mem_flatMap.1 hline
  rcases List.mem_cons.1 hmem with rfl | hinner
  · exact (h block hblock).statement.stands width
  · exact ((h block hblock).inner line hinner).mono (Nat.le_succ width)

/-- Lines that are indented otherwise stand in the block before them. -/
theorem blocks_append {width : Nat} {inner : List Line} (h : ∀ line ∈ inner, line.width ≠ width)
    (rest : List Line) :
    blocks width (inner ++ rest) = (inner ++ (blocks width rest).1, (blocks width rest).2) := by
  induction inner with
  | nil => rfl
  | cons line inner ih =>
    obtain ⟨hline, hinner⟩ := List.forall_mem_cons.1 h
    rw [List.cons_append, blocks, ih hinner]
    exact if_neg hline

/-- Written blocks are read back. -/
theorem blocks?_written {width : Nat} {found : List Block}
    (h : ∀ block ∈ found, IsNested width block) :
    blocks? width (found.flatMap (written width)) = some found := by
  suffices hblocks : blocks width (found.flatMap (written width)) = ([], found) by
    rw [blocks?, hblocks]
  induction found with
  | nil => rfl
  | cons block found ih =>
    obtain ⟨⟨hhead, hinner⟩, hfound⟩ := List.forall_mem_cons.1 h
    have hne : ∀ line ∈ block.2, line.width ≠ width := by
      intro line hline
      have hdeep := (hinner line hline).deep
      omega
    rw [List.flatMap_cons, written, List.cons_append, blocks, blocks_append hne, ih hfound,
      List.append_nil]
    simp only [hhead.width_indented width, hhead.content_indented width, if_true]

theorem after?_append (text : String) (rest : Line) :
    Line.after? text (text.toList ++ rest) = some rest :=
  List.isPrefixOf?_eq_some_iff_append_eq.2 rfl

/-! ## Reading blocks -/

section

variable {β : Type} {entries : List β} {text : β → Line}

theorem readNames_append {name : β → String × String}
    (h : ∀ entry ∈ entries, name? (text entry) = some (name entry)) :
    readNames (entries.map (fun entry => (text entry, [])) ++ [otherwise]) =
      some (entries.map name) := by
  induction entries with
  | nil => rfl
  | cons entry entries ih =>
    obtain ⟨hname, hentries⟩ := List.forall_mem_cons.1 h
    have hblock : ((text entry, []) : Block) ≠ otherwise := by
      intro heq
      have hnone : name? otherwise.1 = none := rfl
      rw [← congrArg Prod.fst heq, hname] at hnone
      cases hnone
    rw [List.map_cons, List.cons_append, readNames, if_neg hblock, if_pos rfl, hname, ih hentries]
    rfl

theorem readBranches_append {α : Type} {read : Block → Option α} {block : β → Block}
    {value : β → α} (h : ∀ entry ∈ entries, read (block entry) = some (value entry)) :
    readBranches read (entries.flatMap (fun entry => [block entry, closing]) ++ [otherwise]) =
      some (entries.map value) := by
  induction entries with
  | nil => rfl
  | cons entry entries ih =>
    obtain ⟨hentry, hentries⟩ := List.forall_mem_cons.1 h
    rw [List.flatMap_cons, List.cons_append, List.singleton_append, List.cons_append,
      List.cons_append, readBranches, if_pos rfl, hentry, ih hentries]
    rfl

theorem readItems_append {constant : β → String × String} {body : List Line}
    (h : ∀ entry ∈ entries, constant? (text entry) = some (constant entry)) :
    readItems (entries.map (fun entry => (text entry, [])) ++
      [(signature.toList, body), ("\x7d".toList, [])]) =
        (readBody body).map fun arms => ⟨entries.map constant, arms⟩ := by
  induction entries with
  | nil => rfl
  | cons entry entries ih =>
    obtain ⟨hconstant, hentries⟩ := List.forall_mem_cons.1 h
    have hother : text entry ≠ signature.toList := by
      intro heq
      have hnone : constant? signature.toList = none := rfl
      rw [← heq, hconstant] at hnone
      cases hnone
    rw [List.map_cons, List.cons_append, readItems, if_neg hother, if_pos rfl, hconstant,
      ih hentries]
    cases readBody body <;> rfl

end

theorem isStatement_signature : IsStatement signature.toList :=
  isStatement_of_head? (c := 'p') rfl (by decide) (by decide)

theorem isNested_knowsNothing : ∀ block ∈ knowsNothing, IsNested 4 block := by
  refine List.forall_mem_cons.2 ⟨?_, List.forall_mem_singleton.2 ?_⟩
  · exact (isStatement_of_head? (c := 'l') rfl (by decide) (by decide)).isNested 4
  · exact (isStatement_of_head? (c := 'N') rfl (by decide) (by decide)).isNested 4

theorem isNested_decides {branches : List Line} (h : ∀ line ∈ branches, Stands 8 line) :
    ∀ block ∈ decides branches, IsNested 4 block := by
  refine List.forall_mem_cons.2 ⟨?_, List.forall_mem_cons.2 ⟨?_, List.forall_mem_cons.2
    ⟨⟨?_, fun line hline => (h line hline).mono (by decide)⟩, List.forall_mem_singleton.2 ?_⟩⟩⟩
  · exact (isStatement_of_head? (c := 'l') rfl (by decide) (by decide)).isNested 4
  · exact (isStatement_of_head? (c := 'l') rfl (by decide) (by decide)).isNested 4
  · have hsingle : '\n' ∉ "match first \x7b".toList := by decide
    exact isStatement_of_head? (c := 'm') rfl (by decide) hsingle
  · exact (isStatement_of_head? (c := '\x7d') rfl (by decide) (by decide)).isNested 4

theorem readBody_knowsNothing : readBody (knowsNothing.flatMap (written 4)) = some [] := by
  rw [readBody, blocks?_written isNested_knowsNothing]
  rfl

theorem readBody_decides {found : List Block} (h : ∀ block ∈ found, IsNested 8 block) :
    readBody ((decides (found.flatMap (written 8))).flatMap (written 4)) =
      readBranches readFirst found := by
  have hne : decides (found.flatMap (written 8)) ≠ knowsNothing := nofun
  have hbranches : (decides (found.flatMap (written 8)))[2]? =
      some ("match first \x7b".toList, found.flatMap (written 8)) := rfl
  simp only [readBody, blocks?_written (isNested_decides (stands_written h)), Option.bind_eq_bind,
    Option.bind_some, if_neg hne, hbranches, if_true, blocks?_written h]

end Source

end TypeAtlas
