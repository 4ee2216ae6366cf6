/-
  The lines of a written lookup.

  Names and blobs come from outside, and the text that is written of them is compiled.  Each of
  them stands on a line of its own kind: in a comment, or in a literal that a scanner reads back.

  * `WrittenLine`: the lines that the text of a listing consists of;
  * `length_linesOf_render`: their number, which depends on the numbers of names, first characters
    and hashes, and on the line feeds in names;
  * `linesOf_render`: so if no name has a line feed, the number does not depend on the texts, and
    each line is of one of these kinds;
  * `linesOf_render_injected`: a name with line feeds adds lines of its own.
-/
import TypeAtlas.Proofs.Build.Written
import TypeAtlas.Proofs.Directory.Count

namespace TypeAtlas

open TypeAtlas.Text (readText? readChar? quoteText quoteChar hexPadded)

namespace Source

/-- The lines of a text in which each line is ended. -/
def linesOf (text : String) : List Line := (text.toList.splitOn '\n').dropLast

/-- A literal of a text on one line: a scanner reads the text and stops where the literal ends. -/
structure IsTextLiteral (text : String) (literal : Line) : Prop where
  single : '\n' ∉ literal
  read : ∀ rest, readText? (literal ++ rest) = some (text, rest)

/-- A literal of a character on one line. -/
structure IsCharLiteral (c : Char) (literal : Line) : Prop where
  single : '\n' ∉ literal
  read : ∀ rest, readChar? (literal ++ rest) = some (c, rest)

theorem isTextLiteral_quoteText (text : String) : IsTextLiteral text (quoteText text).toList :=
  ⟨Text.not_mem_quoteText text, Text.readText?_quoteText text⟩

theorem isCharLiteral_quoteChar (c : Char) : IsCharLiteral c (quoteChar c).toList :=
  ⟨Text.not_mem_quoteChar c, Text.readChar?_quoteChar c⟩

theorem length_splitOn (line : Line) : (line.splitOn '\n').length = line.count '\n' + 1 := by
  generalize hcount : line.count '\n' = n
  induction n generalizing line with
  | zero => rw [List.splitOn_eq_singleton (List.count_eq_zero.1 hcount), List.length_singleton]
  | succ n ih =>
    have hmem : '\n' ∈ line := List.count_pos_iff.1 (by omega)
    obtain ⟨before, after, rfl, hbefore⟩ := List.eq_append_cons_of_mem hmem
    rw [List.count_append, List.count_cons_self, List.count_eq_zero.2 hbefore] at hcount
    rw [List.splitOn_append_cons_self, List.length_append, List.splitOn_eq_singleton hbefore,
      List.length_singleton, ih after (by omega)]
    omega

end Source

namespace Listing

open Source (Line linesOf IsTextLiteral IsCharLiteral)
open Directory (firstsOf placesOf bucketsIn namedIn)

/-! ## Kinds of lines -/

/-- The lines that hold nothing of names and blobs. -/
def plainLines (moduleName : String) (size : Nat) : List String :=
  ["// @generated by portrait-codegen. Do not edit.", "// Module: " ++ moduleName,
    s!"// Types: {size}", "", "/// Base64 metadata of `name`, if it was compiled",
    "pub fn metadata_for(name: &str) -> Option<&'static str> \x7b",
    indent 1 "let _ = name;", indent 1 "None", indent 1 "let first = name.chars().next()?;",
    indent 1 "let hash = portrait_runtime::name_hash(name);", indent 1 "match first \x7b",
    otherwise 4, indent 3 "\x7d,", otherwise 3, indent 2 "\x7d,", otherwise 2, indent 1 "\x7d",
    "\x7d"]

/-- The lines of the text of some entries, and what they hold of the entries. -/
inductive WrittenLine (moduleName : String) (entries : List (String × String)) : Line → Prop
  | plain {line : String} :
    line ∈ plainLines moduleName entries.length → WrittenLine moduleName entries line.toList
  /-- A comment with a name. -/
  | comment {name : String} : name ∈ entries.map Prod.fst → '\n' ∉ name.toList →
      WrittenLine moduleName entries ("/// Metadata of `".toList ++ (name.toList ++ ['`']))
  /-- The declaration of a constant, with the literal of a blob. -/
  | constant {i : Nat} {blob : String} {literal : Line} : (entries.map Prod.snd)[i]? = some blob →
      IsTextLiteral blob literal →
      WrittenLine moduleName entries ("pub const ".toList ++ ((constantName i).toList ++
        (": &str = ".toList ++ (literal ++ [';']))))
  /-- The branch of the first character of a name, with its literal. -/
  | first {name : String} {first : Char} {literal : Line} : name ∈ entries.map Prod.fst →
      name.toList.head? = some first → IsCharLiteral first literal →
      WrittenLine moduleName entries
        (List.replicate 8 ' ' ++ (literal ++ " => match hash \x7b".toList))
  /-- The branch of the hash of a name. -/
  | hash {name : String} : name ∈ entries.map Prod.fst →
      WrittenLine moduleName entries (List.replicate 12 ' ' ++ ("0x".toList ++
        ((hexPadded 8 (Name.hash name).toNat).toList ++ " => match name \x7b".toList)))
  /-- The branch of a name, with its literal. -/
  | name {i : Nat} {name : String} {literal : Line} : (entries.map Prod.fst)[i]? = some name →
      IsTextLiteral name literal →
      WrittenLine moduleName entries (List.replicate 16 ' ' ++ (literal ++ (" => Some(".toList ++
        ((constantName i).toList ++ "),".toList))))

variable {listing : Listing}

/-! ## Line feeds -/

/-- The number of line feeds in some texts. -/
def lineFeeds (texts : List String) : Nat := (texts.map fun text => text.toList.count '\n').sum

theorem lineFeeds_append (texts more : List String) :
    lineFeeds (texts ++ more) = lineFeeds texts + lineFeeds more := by
  rw [lineFeeds, List.map_append, List.sum_append]
  rfl

theorem lineFeeds_eq_zero {texts : List String} (h : ∀ text ∈ texts, '\n' ∉ text.toList) :
    lineFeeds texts = 0 := by
  rw [lineFeeds, List.sum_eq_zero_iff]
  rintro _ hmem
  obtain ⟨text, htext, rfl⟩ := List.mem_map.1 hmem
  exact List.count_eq_zero.2 (h text htext)

theorem linesOf_render_eq (listing : Listing) :
    linesOf listing.render = listing.lines.flatMap fun line => line.toList.splitOn '\n' := by
  rw [linesOf, render, splitOn_join, List.dropLast_concat]

/-- Each line feed in a line makes one more of it. -/
theorem length_linesOf_eq (listing : Listing) :
    (linesOf listing.render).length = listing.lines.length + lineFeeds listing.lines := by
  rw [linesOf_render_eq, lineFeeds]
  induction listing.lines with
  | nil => rfl
  | cons line lines ih =>
    rw [List.flatMap_cons, List.length_append, ih, Source.length_splitOn, List.length_cons,
      List.map_cons, List.sum_cons]
    omega

theorem lineFeeds_constantLines (constants : List ((String × String) × Nat)) :
    lineFeeds (constants.flatMap constantLines) =
      lineFeeds (constants.map fun entry => entry.1.1) := by
  induction constants with
  | nil => rfl
  | cons entry rest ih =>
    have hcomment : (comment entry.1.1).toList.count '\n' = entry.1.1.toList.count '\n' := by
      simp [toList_comment]
    have hconstant : (constantText entry).toList.count '\n' = 0 :=
      List.count_eq_zero.2 (isStatement_constantText entry).single
    rw [List.flatMap_cons, lineFeeds_append, ih, constantLines_eq]
    simp only [lineFeeds, List.map_cons, List.map_nil, List.sum_cons, List.sum_nil, hcomment,
      hconstant]
    omega

theorem map_fst_fst_zipIdx (listing : Listing) :
    listing.entries.entries.zipIdx.map (fun entry => entry.1.1) = listing.entries.keys :=
  calc
    _ = (listing.entries.entries.zipIdx.map Prod.fst).map Prod.fst := by rw [List.map_map]; rfl
    _ = _ := by rw [List.zipIdx_map_fst]; rfl

/-- Of all that is written only the names can have line feeds. -/
theorem lineFeeds_lines {listing : Listing} (hmodule : '\n' ∉ listing.moduleName.toList) :
    lineFeeds listing.lines = lineFeeds listing.entries.keys := by
  have hheader : lineFeeds ["// @generated by portrait-codegen. Do not edit.",
      "// Module: " ++ listing.moduleName, s!"// Types: {listing.entries.size}", ""] = 0 :=
    lineFeeds_eq_zero (single_header hmodule)
  have hbody : lineFeeds listing.bodyLines = 0 :=
    lineFeeds_eq_zero fun line hline =>
      (stands_bodyLines listing _ (List.mem_map_of_mem hline)).single
  have hconstants : lineFeeds listing.allConstantLines = lineFeeds listing.entries.keys := by
    rw [allConstantLines]
    split
    · next hempty =>
      rw [Table.keys, List.isEmpty_iff.1 hempty]
      rfl
    · rw [lineFeeds_append, lineFeeds_constantLines, map_fst_fst_zipIdx]
      rfl
  simp only [lines, lineFeeds_append, hheader, hbody, hconstants]
  rw [Nat.zero_add, Nat.add_zero]
  rfl

/-! ## Their number -/

theorem length_flatMap_of_length {α β γ : Type} {k : Nat} {f : α → List β} {g : α → List γ}
    (h : ∀ item, (f item).length = k + (g item).length) (items : List α) :
    (items.flatMap f).length = k * items.length + (items.flatMap g).length := by
  induction items with
  | nil => rfl
  | cons item items ih =>
    rw [List.flatMap_cons, List.flatMap_cons, List.length_append, List.length_append, h, ih,
      List.length_cons, Nat.mul_succ]
    omega

theorem length_shardLines (arms : List (Shard Nat)) : (arms.flatMap shardLines).length =
    3 * arms.length + (3 * (bucketsIn arms).length + ((bucketsIn arms).flatMap Bucket.chain).length) := by
  have hbucket : ∀ bucket, (bucketLines bucket).length = 3 + bucket.chain.length := by
    intro bucket
    simp only [bucketLines, List.length_append, List.length_map, List.length_cons, List.length_nil]
    omega
  have hshard : ∀ shard, (shardLines shard).length =
      3 + (shard.buckets.toList.flatMap bucketLines).length := by
    intro shard
    simp only [shardLines, List.length_append, List.length_cons, List.length_nil]
    omega
  rw [length_flatMap_of_length hshard, ← List.flatMap_assoc]
  exact congrArg _ (length_flatMap_of_length hbucket (bucketsIn arms))

theorem length_arms (listing : Listing) : (listing.arms.flatMap shardLines).length =
    3 * (firstsOf listing.entries.keys).card + 3 * (placesOf listing.entries.keys).card +
      (listing.entries.keys.filter (· != "")).length := by
  have hnames : listing.numbered.map Prod.fst = listing.entries.keys := List.zipIdx_map_fst ..
  have hnamed : (namedIn listing.numbered).length =
      (listing.entries.keys.filter (· != "")).length := by
    rw [← hnames, List.filter_map, List.length_map]
    rfl
  rw [length_shardLines, arms, Directory.length_layout, Directory.length_buckets, hnames,
    (Directory.chains_perm listing.numbered).length_eq, hnamed]
  omega

/-- The number of lines that are written for some names, but for those that run on. -/
def lineCount (names : List String) : Nat :=
  if names = [] then 9
  else 13 + 2 * names.length + (names.filter (· != "")).length + 3 * (firstsOf names).card +
    3 * (placesOf names).card

theorem length_lines (listing : Listing) : listing.lines.length = lineCount listing.entries.keys := by
  have hempty : listing.entries.isEmpty = true ↔ listing.entries.keys = [] := by
    rw [Table.isEmpty, List.isEmpty_iff, Table.keys, List.map_eq_nil_iff]
  have hconstants : (listing.entries.entries.zipIdx.flatMap constantLines).length =
      2 * listing.entries.keys.length := by
    simp [List.length_flatMap, constantLines_eq, Table.keys, Nat.mul_comm]
  unfold lineCount lines allConstantLines bodyLines
  by_cases hnames : listing.entries.keys = []
  · simp only [if_pos (hempty.2 hnames), if_pos hnames]
    rfl
  · simp only [if_neg (mt hempty.1 hnames), if_neg hnames, List.length_append, length_arms,
      hconstants, List.length_cons, List.length_nil]
    omega

/-! ## Where the texts stand -/

theorem written_plain {lines : List String}
    (h : lines ⊆ plainLines listing.moduleName listing.entries.size) :
    ∀ line ∈ lines, WrittenLine listing.moduleName listing.entries.entries line.toList :=
  fun _ hline => .plain (h hline)

theorem written_constantLines {entry : (String × String) × Nat}
    (hentry : entry ∈ listing.entries.entries.zipIdx) (hname : '\n' ∉ entry.1.1.toList) :
    ∀ line ∈ constantLines entry,
      WrittenLine listing.moduleName listing.entries.entries line.toList := by
  have hget := List.mem_zipIdx_iff_getElem?.1 hentry
  rw [constantLines_eq]
  refine List.forall_mem_cons.2 ⟨?_, List.forall_mem_singleton.2 ?_⟩
  · rw [toList_comment]
    exact .comment (List.mem_map_of_mem (List.mem_of_getElem? hget)) hname
  · rw [toList_constantText]
    refine .constant ?_ (Source.isTextLiteral_quoteText _)
    rw [List.getElem?_map, hget, Option.map_some]

theorem written_bucketLines {bucket : Bucket Nat} (hbucket : bucket ∈ bucketsIn listing.arms) :
    ∀ line ∈ bucketLines bucket,
      WrittenLine listing.moduleName listing.entries.entries line.toList := by
  obtain ⟨shard, hshard, hmem⟩ := List.mem_flatMap.1 hbucket
  intro line hline
  rw [bucketLines, List.mem_append, List.mem_append, List.mem_singleton] at hline
  rcases hline with (rfl | hline) | hline
  · have hpair : (shard.first, bucket.hash) ∈ Directory.pairsIn listing.arms :=
      List.mem_flatMap.2 ⟨shard, hshard, List.mem_map_of_mem hmem⟩
    obtain ⟨entry, hentry, -, hhash⟩ := (Directory.mem_pairsIn_iff listing.numbered).1 hpair
    have hname := List.mem_of_getElem? (mem_numbered_iff.1 (List.mem_of_mem_filter hentry))
    rw [toList_indent, ← hhash]
    exact (toList_hashText (Name.hash entry.1)).symm ▸ .hash hname
  · obtain ⟨entry, hentry, rfl⟩ := List.mem_map.1 hline
    have hchain : entry ∈ (bucketsIn listing.arms).flatMap Bucket.chain :=
      List.mem_flatMap.2 ⟨bucket, hbucket, hentry⟩
    have hnumbered := List.mem_of_mem_filter
      ((Directory.chains_perm listing.numbered).mem_iff.1 hchain)
    rw [nameLine, toList_indent]
    exact (toList_nameText entry).symm ▸
      .name (mem_numbered_iff.1 hnumbered) (Source.isTextLiteral_quoteText _)
  · exact written_plain (by simp [plainLines]) line hline

theorem written_shardLines {shard : Shard Nat} (hshard : shard ∈ listing.arms) :
    ∀ line ∈ shardLines shard,
      WrittenLine listing.moduleName listing.entries.entries line.toList := by
  intro line hline
  rw [shardLines, List.mem_append, List.mem_append, List.mem_singleton] at hline
  rcases hline with (rfl | hline) | hline
  · obtain ⟨name, hname, hfirst⟩ := (Directory.mem_firsts_layout_iff listing.numbered).1
      (List.mem_map_of_mem hshard)
    rw [numbered, List.zipIdx_map_fst] at hname
    rw [toList_indent, String.toList_append]
    exact .first hname hfirst (Source.isCharLiteral_quoteChar _)
  · obtain ⟨bucket, hbucket, hmem⟩ := List.mem_flatMap.1 hline
    exact written_bucketLines (List.mem_flatMap.2 ⟨shard, hshard, hbucket⟩) line hmem
  · exact written_plain (by simp [plainLines]) line hline

theorem written_bodyLines (listing : Listing) : ∀ line ∈ listing.bodyLines,
    WrittenLine listing.moduleName listing.entries.entries line.toList := by
  intro line hline
  unfold bodyLines at hline
  split at hline
  · exact written_plain (by simp [plainLines]) line hline
  · rw [List.mem_append, List.mem_append] at hline
    rcases hline with (hline | hline) | hline
    · exact written_plain (by simp [plainLines]) line hline
    · obtain ⟨shard, hshard, hmem⟩ := List.mem_flatMap.1 hline
      exact written_shardLines hshard line hmem
    · exact written_plain (by simp [plainLines]) line hline

/-- Each line is of one of the kinds, if no name runs over several lines. -/
theorem written_lines (hnames : ∀ name ∈ listing.entries.keys, '\n' ∉ name.toList) :
    ∀ line ∈ listing.lines,
      WrittenLine listing.moduleName listing.entries.entries line.toList := by
  intro line hline
  simp only [lines, List.mem_append] at hline
  rcases hline with (((hline | hline) | hline) | hline) | hline
  · exact written_plain (by simp [plainLines]) line hline
  · unfold allConstantLines at hline
    split at hline
    · cases hline
    · rcases List.mem_append.1 hline with hline | hline
      · obtain ⟨entry, hentry, hmem⟩ := List.mem_flatMap.1 hline
        have hkey : entry.1.1 ∈ listing.entries.keys :=
          List.mem_map_of_mem (List.mem_of_getElem? (List.mem_zipIdx_iff_getElem?.1 hentry))
        exact written_constantLines hentry (hnames _ hkey) line hmem
      · exact written_plain (by simp [plainLines]) line hline
  · exact written_plain (by simp [plainLines]) line hline
  · exact written_bodyLines listing line hline
  · exact written_plain (by simp [plainLines]) line hline

/-- If nothing runs over several lines, the lines of the text are those that were written. -/
theorem linesOf_render_of_single (hmodule : '\n' ∉ listing.moduleName.toList)
    (hnames : ∀ name ∈ listing.entries.keys, '\n' ∉ name.toList) :
    linesOf listing.render = listing.lines.map String.toList := by
  have hnone : lineFeeds listing.lines = 0 := by
    rw [lineFeeds_lines hmodule, lineFeeds_eq_zero hnames]
  rw [lineFeeds, List.sum_eq_zero_iff] at hnone
  rw [linesOf_render_eq, ← List.flatMap_map]
  refine flatMap_splitOn fun line hline => ?_
  obtain ⟨text, htext, rfl⟩ := List.mem_map.1 hline
  exact List.count_eq_zero.1 (hnone _ (List.mem_map_of_mem htext))

/-! ## What names can do to a text -/

/-- Nothing but the accepted names has a say in the number of lines. -/
theorem length_linesOf_render {moduleName : String} (hmodule : '\n' ∉ moduleName.toList)
    (offers : List (String × String)) :
    let names := (accepted (.empty moduleName) offers).map Prod.fst
    (linesOf (ofOffers moduleName offers).render).length = lineCount names + lineFeeds names := by
  have hsame := moduleName_ofOffers moduleName offers
  have hkeys : (ofOffers moduleName offers).entries.keys =
      (accepted (.empty moduleName) offers).map Prod.fst :=
    congrArg _ (entries_ofOffers moduleName offers)
  rw [length_linesOf_eq, length_lines, lineFeeds_lines (hsame.symm ▸ hmodule), hkeys]

/-- **The lines of the text of a listing.**  Their number depends on how many names were accepted,
    how many of them are not empty, how many first characters and how many of these with hashes
    there are, and on the line feeds in the accepted names.  If there are none of these, each line
    is of one of the kinds above, so what it holds of a name or a blob is a comment or one
    literal; and two texts have as many lines if they are of as many names, first characters and
    first characters with hashes.  The names are counted with and without the empty one, which has
    a constant but no branch. -/
theorem linesOf_render {moduleName : String} (hmodule : '\n' ∉ moduleName.toList)
    (offers : List (String × String)) :
    let taken := accepted (.empty moduleName) offers
    let names := taken.map Prod.fst
    let found := linesOf (ofOffers moduleName offers).render
    found.length = lineCount names + lineFeeds names ∧
      ((∀ name ∈ names, '\n' ∉ name.toList) → ∀ line ∈ found, WrittenLine moduleName taken line) ∧
      ∀ (otherName : String) (others : List (String × String)), '\n' ∉ otherName.toList →
        let names' := (accepted (.empty otherName) others).map Prod.fst
        (∀ name ∈ names ++ names', '\n' ∉ name.toList) →
        names.length = names'.length →
        (names.filter (· != "")).length = (names'.filter (· != "")).length →
        (firstsOf names).card = (firstsOf names').card →
        (placesOf names).card = (placesOf names').card →
        found.length = (linesOf (ofOffers otherName others).render).length := by
  have hsame := moduleName_ofOffers moduleName offers
  have hentries := entries_ofOffers moduleName offers
  intro taken names found
  refine ⟨length_linesOf_render hmodule offers, fun hnames line hline => ?_, ?_⟩
  · have hkeys : ∀ name ∈ (ofOffers moduleName offers).entries.keys, '\n' ∉ name.toList := by
      rwa [Table.keys, hentries]
    have hwritten := written_lines hkeys
    rw [hsame, hentries] at hwritten
    rw [show found = _ from linesOf_render_of_single (hsame.symm ▸ hmodule) hkeys] at hline
    obtain ⟨text, htext, rfl⟩ := List.mem_map.1 hline
    exact hwritten text htext
  · intro otherName others hother names' hnames hsize hnamed hfirsts hplaces
    obtain ⟨hleft, hright⟩ := List.forall_mem_append.1 hnames
    have hnil : names = [] ↔ names' = [] := by
      rw [← List.length_eq_zero_iff, hsize, List.length_eq_zero_iff]
    rw [length_linesOf_render hmodule, length_linesOf_render hother]
    show lineCount names + lineFeeds names = lineCount names' + lineFeeds names'
    rw [lineFeeds_eq_zero hleft, lineFeeds_eq_zero hright, lineCount, lineCount,
      if_congr hnil rfl rfl, hsize, hnamed, hfirsts, hplaces]

/-- A quote and a backslash in a name and a line feed in a blob make no further line. -/
theorem linesOf_render_quoted :
    let offers := [("é.cuzx", "A\n\"=="), ("a.A\\\"", "QQ=="), ("é.12ad", ""), ("a.A\\\"", "Qw==")]
    let others := [("é.cuzx", ""), ("é.12ad", ""), ("b.B", "")]
    let found := linesOf (ofOffers "generated" offers).render
    found.length = 34 ∧ (∀ line ∈ found, WrittenLine "generated" (offers.take 3) line) ∧
      found.length = (linesOf (ofOffers "other" others).render).length := by
  intro offers others found
  have htaken : accepted (.empty "generated") offers = offers.take 3 := by decide +kernel
  have hothers : accepted (.empty "other") others = others := by decide +kernel
  have hmodule : '\n' ∉ "generated".toList := by decide
  obtain ⟨hlength, hwritten, hsame⟩ := linesOf_render hmodule offers
  rw [htaken] at hlength hwritten hsame
  have hcount : lineCount ((offers.take 3).map Prod.fst) = 34 := by decide +kernel
  have hfeeds : lineFeeds ((offers.take 3).map Prod.fst) = 0 := by decide +kernel
  refine ⟨?_, hwritten (by decide +kernel), hsame "other" others (by decide) ?_ ?_ ?_ ?_ ?_⟩
  · rw [show found.length = _ from hlength, hcount, hfeeds]
  · rw [hothers]
    decide +kernel
  · rw [hothers]
    rfl
  · rw [hothers]
    decide
  · rw [hothers]
    decide +kernel
  · rw [hothers]
    decide +kernel

/-- A name that runs over three lines, the second of which is a statement. -/
def injected : String := "a.A`\nuse x;\n// `"

/-- The text of this name has a line that is of none of the kinds, and two more than the text of a
    name with the same number of first characters and hashes. -/
theorem linesOf_render_injected :
    let offers := [(injected, "AA==")]
    let others := [("a.B", "AA==")]
    let found := linesOf (ofOffers "generated" offers).render
    accepted (.empty "generated") offers = offers ∧ accepted (.empty "generated") others = others ∧
      (firstsOf [injected]).card = (firstsOf ["a.B"]).card ∧
      (placesOf [injected]).card = (placesOf ["a.B"]).card ∧
      found.length = 24 ∧ (linesOf (ofOffers "generated" others).render).length = 22 ∧
      "use x;".toList ∈ found ∧ ¬ WrittenLine "generated" offers "use x;".toList := by
  intro offers others found
  have hmodule : '\n' ∉ "generated".toList := by decide
  refine ⟨by decide +kernel, by decide +kernel, by decide +kernel, by decide +kernel,
    (length_linesOf_render hmodule offers).trans (by decide +kernel),
    (length_linesOf_render hmodule others).trans (by decide +kernel), ?_,
    fun hwritten => ?_⟩
  · have hcomment : comment injected ∈ (ofOffers "generated" offers).lines := by
      simp only [lines, List.mem_append]
      exact Or.inl (Or.inl (Or.inl (Or.inr List.mem_cons_self)))
    rw [show found = _ from linesOf_render_eq _]
    exact List.mem_flatMap.2 ⟨_, hcomment, by decide +kernel⟩
  · -- the other kinds of lines begin with a slash, a blank or a `p`
    have hhead : ∀ {line : Line} {c : Char}, "use x;".toList = line → line.head? = some c →
        c = 'u' := by
      rintro _ c rfl hc
      exact (Option.some.inj hc).symm
    generalize hline : "use x;".toList = line at hwritten
    cases hwritten with
    | plain hmem =>
      obtain rfl := String.toList_inj.1 hline
      exact absurd hmem (by decide +kernel)
    | comment => exact absurd (hhead hline rfl) (by decide)
    | constant => exact absurd (hhead hline rfl) (by decide)
    | first => exact absurd (hhead hline rfl) (by decide)
    | hash => exact absurd (hhead hline rfl) (by decide)
    | name => exact absurd (hhead hline rfl) (by decide)

end Listing

end TypeAtlas
