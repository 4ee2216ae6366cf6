/-
  Written lookups.

  The text of a listing is read back as its constants, in order, and its branches.

  * `Listing.source` is what a text should declare, and `Listing.ofText?_render` says that it does
    if no name runs over several lines;
  * `Listing.spilled` is what otherwise becomes code of the comment of a name;
    `Listing.ofText?_render_of_spilled` says what is declared if these are constants.
-/
import TypeAtlas.Build.Listing
import TypeAtlas.Proofs.Build.Source
import TypeAtlas.Proofs.Directory.Lookup

namespace TypeAtlas

open TypeAtlas.Text (quoteText quoteChar hexPadded)

namespace Listing

open Source (Line IsStatement Stands Block)

/-! ## The texts of lines -/

/-- The constant of a number. -/
def constantName (i : Nat) : String := s!"TYPE_{i}"

theorem toList_constantName (i : Nat) :
    (constantName i).toList = "TYPE_".toList ++ Nat.toDigits 10 i := by
  rw [← Nat.toList_repr]
  exact String.toList_append

theorem constantName_injective : Function.Injective constantName := by
  intro i j h
  have hdigits : Nat.toDigits 10 i = Nat.toDigits 10 j := by
    have hchars := congrArg String.toList h
    rwa [toList_constantName, toList_constantName, List.append_cancel_left_eq] at hchars
  rw [← Nat.ofDigitChars_ten_toDigits (n := i), hdigits, Nat.ofDigitChars_ten_toDigits]

theorem inIdentifier_constantName (i : Nat) :
    ∀ c ∈ (constantName i).toList, Source.inIdentifier c = true := by
  have hprefix : "TYPE_".toList.all Source.inIdentifier = true := by decide
  intro c hc
  rw [toList_constantName, List.mem_append] at hc
  rcases hc with hc | hc
  · exact List.all_eq_true.1 hprefix c hc
  · have hdigit := Nat.isDigit_of_mem_toDigits (by decide) (by decide) hc
    simp only [Source.inIdentifier, Char.isAlphanum, hdigit, Bool.or_true, Bool.true_or]

/-- The name of a constant ends where the next character cannot stand in it. -/
theorem span_constantName (i : Nat) {c : Char} (hc : Source.inIdentifier c = false)
    (rest : List Char) (hrest : rest.head? = some c) :
    ((constantName i).toList ++ rest).takeWhile Source.inIdentifier = (constantName i).toList ∧
      ((constantName i).toList ++ rest).dropWhile Source.inIdentifier = rest := by
  obtain ⟨tail, rfl⟩ := List.head?_eq_some_iff.1 hrest
  have hstop : ¬ Source.inIdentifier c = true := by
    rw [hc]
    decide
  constructor
  · rw [List.takeWhile_append_of_pos (inIdentifier_constantName i),
      List.takeWhile_cons_of_neg hstop, List.append_nil]
  · rw [List.dropWhile_append_of_pos (inIdentifier_constantName i),
      List.dropWhile_cons_of_neg hstop]

def constantText (entry : (String × String) × Nat) : String :=
  s!"pub const TYPE_{entry.2}: &str = " ++ quoteText entry.1.2 ++ ";"

def nameText (entry : String × Nat) : String :=
  quoteText entry.1 ++ s!" => Some(TYPE_{entry.2}),"

def hashText (hash : UInt32) : String := "0x" ++ hexPadded 8 hash.toNat ++ " => match name \x7b"

def firstText (first : Char) : String := quoteChar first ++ " => match hash \x7b"

theorem toList_constantText (entry : (String × String) × Nat) :
    (constantText entry).toList = "pub const ".toList ++ ((constantName entry.2).toList ++
      (": &str = ".toList ++ ((quoteText entry.1.2).toList ++ [';']))) := by
  have hprefix : "pub const TYPE_".toList = "pub const ".toList ++ "TYPE_".toList := by decide
  show (((("pub const TYPE_" ++ Nat.repr entry.2) ++ ": &str = ") ++ quoteText entry.1.2) ++
    ";").toList = _
  simp only [String.toList_append, List.append_assoc, hprefix, toList_constantName,
    Nat.toList_repr]
  rfl

theorem toList_nameText (entry : String × Nat) :
    (nameText entry).toList = (quoteText entry.1).toList ++ (" => Some(".toList ++
      ((constantName entry.2).toList ++ "),".toList)) := by
  have hprefix : " => Some(TYPE_".toList = " => Some(".toList ++ "TYPE_".toList := by decide
  show (quoteText entry.1 ++ ((" => Some(TYPE_" ++ Nat.repr entry.2) ++ "),")).toList = _
  simp only [String.toList_append, List.append_assoc, hprefix, toList_constantName,
    Nat.toList_repr]

theorem toList_hashText (hash : UInt32) :
    (hashText hash).toList = "0x".toList ++ ((hexPadded 8 hash.toNat).toList ++
      " => match name \x7b".toList) := by
  simp only [hashText, String.toList_append, List.append_assoc]

theorem constant?_constantText (entry : (String × String) × Nat) :
    Source.constant? (constantText entry).toList = some (constantName entry.2, entry.1.2) := by
  obtain ⟨htake, hdrop⟩ := span_constantName entry.2 (c := ':') (by decide)
    (": &str = ".toList ++ ((quoteText entry.1.2).toList ++ [';'])) rfl
  simp only [Source.constant?, toList_constantText, Source.after?_append, Option.bind_eq_bind,
    Option.bind_some, htake, hdrop, Text.readText?_quoteText, if_true, String.ofList_toList]

theorem name?_nameText (entry : String × Nat) :
    Source.name? (nameText entry).toList = some (entry.1, constantName entry.2) := by
  obtain ⟨htake, hdrop⟩ := span_constantName entry.2 (c := ')') (by decide)
    "),".toList rfl
  simp only [Source.name?, toList_nameText, Source.after?_append, Option.bind_eq_bind,
    Option.bind_some, htake, hdrop, Text.readText?_quoteText, if_true, String.ofList_toList]

theorem hash?_hashText (hash : UInt32) : Source.hash? (hashText hash).toList = some hash.toNat := by
  have hdigits : ∀ c ∈ (hexPadded 8 hash.toNat).toList, (c != ' ') = true := by
    intro c hc
    rw [bne_iff_ne]
    exact Text.ne_of_mem_hexPadded hc (by decide)
  have htake : ((hexPadded 8 hash.toNat).toList ++ " => match name \x7b".toList).takeWhile
      (· != ' ') = (hexPadded 8 hash.toNat).toList := by
    rw [List.takeWhile_append_of_pos hdigits]
    exact List.append_nil _
  have hdrop : ((hexPadded 8 hash.toNat).toList ++ " => match name \x7b".toList).dropWhile
      (· != ' ') = " => match name \x7b".toList := by
    rw [List.dropWhile_append_of_pos hdigits]
    rfl
  simp only [Source.hash?, toList_hashText, Source.after?_append, Option.bind_eq_bind,
    Option.bind_some, htake, hdrop, Text.hexValue?_hexPadded, if_true]

theorem first?_firstText (first : Char) : Source.first? (firstText first).toList = some first := by
  have htext : (firstText first).toList =
      (quoteChar first).toList ++ " => match hash \x7b".toList := by
    simp only [firstText, String.toList_append]
  rw [Source.first?, htext, Text.readChar?_quoteChar]
  rfl

/-! ## Statements -/

theorem not_mem_constantName (i : Nat) : '\n' ∉ (constantName i).toList := by
  intro hmem
  have hnone : Source.inIdentifier '\n' = false := by decide
  rw [inIdentifier_constantName i _ hmem] at hnone
  cases hnone

theorem isStatement_constantText (entry : (String × String) × Nat) :
    IsStatement (constantText entry).toList := by
  refine Source.isStatement_of_head? (c := 'p') (by rw [toList_constantText]; rfl) (by decide) ?_
  rw [toList_constantText]
  simp only [List.mem_append, not_or]
  exact ⟨by decide, not_mem_constantName _, by decide, Text.not_mem_quoteText _, by decide⟩

theorem isStatement_nameText (entry : String × Nat) : IsStatement (nameText entry).toList := by
  refine Source.isStatement_of_head? (c := '"') ?_ (by decide) ?_
  · rw [toList_nameText, quoteText, String.toList_ofList]
    rfl
  rw [toList_nameText]
  simp only [List.mem_append, not_or]
  exact ⟨Text.not_mem_quoteText _, by decide, not_mem_constantName _, by decide⟩

theorem isStatement_hashText (hash : UInt32) : IsStatement (hashText hash).toList := by
  refine Source.isStatement_of_head? (c := '0') (by rw [toList_hashText]; rfl) (by decide) ?_
  rw [toList_hashText]
  simp only [List.mem_append, not_or]
  exact ⟨by decide, fun hmem => Text.ne_of_mem_hexPadded hmem (by decide) rfl, by decide⟩

theorem isStatement_firstText (first : Char) : IsStatement (firstText first).toList := by
  have htext : (firstText first).toList =
      (quoteChar first).toList ++ " => match hash \x7b".toList := by
    simp only [firstText, String.toList_append]
  refine Source.isStatement_of_head? (c := '\'') ?_ (by decide) ?_
  · rw [htext, quoteChar, String.toList_ofList]
    rfl
  rw [htext]
  simp only [List.mem_append, not_or]
  exact ⟨Text.not_mem_quoteChar _, by decide⟩

/-! ## Blocks -/

def nameBlock (entry : String × Nat) : Block := ((nameText entry).toList, [])

/-- The names of a bucket and the branch for all others. -/
def nameBlocks (bucket : Bucket Nat) : List Block :=
  bucket.chain.map nameBlock ++ [Source.otherwise]

def hashBlock (bucket : Bucket Nat) : Block :=
  ((hashText bucket.hash).toList, (nameBlocks bucket).flatMap (Source.written 16))

/-- The hashes of a shard and the branch for all others. -/
def hashBlocks (shard : Shard Nat) : List Block :=
  shard.buckets.toList.flatMap (fun bucket => [hashBlock bucket, Source.closing]) ++
    [Source.otherwise]

def firstBlock (shard : Shard Nat) : Block :=
  ((firstText shard.first).toList, (hashBlocks shard).flatMap (Source.written 12))

/-- The first characters and the branch for all others. -/
def firstBlocks (arms : List (Shard Nat)) : List Block :=
  arms.flatMap (fun shard => [firstBlock shard, Source.closing]) ++ [Source.otherwise]

theorem toList_indent (depth : Nat) (text : String) :
    (indent depth text).toList = List.replicate (4 * depth) ' ' ++ text.toList := by
  rw [indent, String.toList_append, String.toList_ofList]

/-- What holds of each branch and of what stands between them holds of all. -/
theorem forall_mem_branches {β : Type} {items : List β} {block : β → Block} {p : Block → Prop}
    (hitems : ∀ item ∈ items, p (block item)) (hclosing : p Source.closing)
    (hotherwise : p Source.otherwise) :
    ∀ found ∈ items.flatMap (fun item => [block item, Source.closing]) ++ [Source.otherwise],
      p found := by
  intro found hfound
  rcases List.mem_append.1 hfound with hbranch | hlast
  · obtain ⟨item, hitem, hmem⟩ := List.mem_flatMap.1 hbranch
    rcases List.mem_cons.1 hmem with rfl | hmem
    · exact hitems item hitem
    · exact List.eq_of_mem_singleton hmem ▸ hclosing
  · exact List.eq_of_mem_singleton hlast ▸ hotherwise

theorem isNested_nameBlocks (bucket : Bucket Nat) :
    ∀ block ∈ nameBlocks bucket, Source.IsNested 16 block := by
  intro block hblock
  rcases List.mem_append.1 hblock with hname | hlast
  · obtain ⟨entry, -, rfl⟩ := List.mem_map.1 hname
    exact (isStatement_nameText entry).isNested 16
  · exact List.eq_of_mem_singleton hlast ▸ Source.isNested_otherwise 16

theorem isNested_hashBlocks (shard : Shard Nat) :
    ∀ block ∈ hashBlocks shard, Source.IsNested 12 block := by
  refine forall_mem_branches (fun bucket _ => ?_) (Source.isNested_closing 12)
    (Source.isNested_otherwise 12)
  rw [hashBlock]
  exact .intro (isStatement_hashText _) fun line hline =>
    (Source.stands_written (isNested_nameBlocks bucket) line hline).mono (by decide)

theorem isNested_firstBlocks (arms : List (Shard Nat)) :
    ∀ block ∈ firstBlocks arms, Source.IsNested 8 block := by
  refine forall_mem_branches (fun shard _ => ?_) (Source.isNested_closing 8)
    (Source.isNested_otherwise 8)
  rw [firstBlock]
  exact .intro (isStatement_firstText _) fun line hline =>
    (Source.stands_written (isNested_hashBlocks shard) line hline).mono (by decide)

/-! ## Reading them back -/

/-- The branches that a bucket is read back as. -/
def readBucket (bucket : Bucket Nat) : Nat × List (String × String) :=
  (bucket.hash.toNat, bucket.chain.map fun entry => (entry.1, constantName entry.2))

/-- The branches that a shard is read back as. -/
def readShard (shard : Shard Nat) : Char × List (Nat × List (String × String)) :=
  (shard.first, shard.buckets.toList.map readBucket)

theorem map_fst_readBucket (bucket : Bucket Nat) :
    (readBucket bucket).2.map Prod.fst = bucket.chain.map Prod.fst := by
  rw [readBucket, List.map_map]
  rfl

theorem map_fst_readShard (shard : Shard Nat) : (readShard shard).2.map Prod.fst =
    shard.buckets.toList.map fun bucket => bucket.hash.toNat := by
  rw [readShard, List.map_map]
  rfl

theorem readNames_nameBlocks (bucket : Bucket Nat) :
    Source.readNames (nameBlocks bucket) = some (readBucket bucket).2 :=
  Source.readNames_append fun entry _ => name?_nameText entry

theorem readHash_hashBlock (bucket : Bucket Nat) :
    Source.readHash (hashBlock bucket) = some (readBucket bucket) := by
  simp only [Source.readHash, hashBlock, hash?_hashText, Option.bind_eq_bind, Option.bind_some,
    Source.blocks?_written (isNested_nameBlocks bucket), readNames_nameBlocks]
  rfl

theorem readFirst_firstBlock (shard : Shard Nat) :
    Source.readFirst (firstBlock shard) = some (readShard shard) := by
  have hhashes : Source.readBranches Source.readHash (hashBlocks shard) =
      some (readShard shard).2 :=
    Source.readBranches_append fun bucket _ => readHash_hashBlock bucket
  simp only [Source.readFirst, firstBlock, first?_firstText, Option.bind_eq_bind, Option.bind_some,
    Source.blocks?_written (isNested_hashBlocks shard), hhashes]
  rfl

theorem readBranches_firstBlocks (arms : List (Shard Nat)) :
    Source.readBranches Source.readFirst (firstBlocks arms) = some (arms.map readShard) :=
  Source.readBranches_append fun shard _ => readFirst_firstBlock shard

/-! ## Lines -/

theorem map_nameLine (chain : List (String × Nat)) :
    (chain.map nameLine).map String.toList = (chain.map nameBlock).flatMap (Source.written 16) := by
  have hname : ∀ entry, (nameLine entry).toList =
      List.replicate 16 ' ' ++ (nameText entry).toList :=
    fun entry => toList_indent 4 (nameText entry)
  simp only [List.map_map, Function.comp_def, hname, List.flatMap_map, nameBlock,
    Source.written_nil, ← List.map_eq_flatMap]

theorem map_bucketLines (bucket : Bucket Nat) :
    (bucketLines bucket).map String.toList =
      [hashBlock bucket, Source.closing].flatMap (Source.written 12) := by
  simp only [bucketLines, otherwise, List.map_append, map_nameLine, List.map_cons, List.map_nil,
    toList_indent, hashBlock, nameBlocks, List.flatMap_cons, List.flatMap_nil, List.flatMap_append,
    Source.written, List.append_assoc, List.cons_append, List.nil_append, List.append_nil]
  rfl

theorem map_shardLines (shard : Shard Nat) :
    (shardLines shard).map String.toList =
      [firstBlock shard, Source.closing].flatMap (Source.written 8) := by
  have hbuckets : (shard.buckets.toList.flatMap bucketLines).map String.toList =
      (shard.buckets.toList.flatMap fun bucket => [hashBlock bucket, Source.closing]).flatMap
        (Source.written 12) := by
    rw [List.map_flatMap, List.flatMap_assoc]
    exact List.flatMap_congr fun bucket _ => map_bucketLines bucket
  simp only [shardLines, otherwise, List.map_append, hbuckets, List.map_cons, List.map_nil,
    toList_indent, firstBlock, hashBlocks, List.flatMap_cons, List.flatMap_nil,
    List.flatMap_append, Source.written, List.append_assoc, List.cons_append, List.nil_append,
    List.append_nil]
  rfl

theorem map_bodyLines (listing : Listing) :
    listing.bodyLines.map String.toList =
      (if listing.entries.isEmpty then Source.knowsNothing
        else Source.decides ((firstBlocks listing.arms).flatMap (Source.written 8))).flatMap
          (Source.written 4) := by
  have harms : (listing.arms.flatMap shardLines).map String.toList =
      (listing.arms.flatMap fun shard => [firstBlock shard, Source.closing]).flatMap
        (Source.written 8) := by
    rw [List.map_flatMap, List.flatMap_assoc]
    exact List.flatMap_congr fun shard _ => map_shardLines shard
  rw [bodyLines]
  split
  · rfl
  · simp only [otherwise, List.map_append, harms, List.map_cons, List.map_nil, toList_indent,
      Source.decides, firstBlocks, List.flatMap_cons, List.flatMap_nil, List.flatMap_append,
      Source.written, List.append_assoc, List.cons_append, List.nil_append, List.append_nil]
    rfl

/-! ## The text -/

/-- What the text of a listing should declare. -/
def source (listing : Listing) : Source where
  constants := listing.entries.entries.zipIdx.map fun entry => (constantName entry.2, entry.1.2)
  arms := listing.arms.map readShard

theorem isNested_body (listing : Listing) :
    ∀ block ∈ (if listing.entries.isEmpty then Source.knowsNothing
      else Source.decides ((firstBlocks listing.arms).flatMap (Source.written 8))),
        Source.IsNested 4 block := by
  split
  · exact Source.isNested_knowsNothing
  · exact Source.isNested_decides (Source.stands_written (isNested_firstBlocks _))

theorem stands_bodyLines (listing : Listing) :
    ∀ line ∈ listing.bodyLines.map String.toList, Source.Stands 4 line := by
  rw [map_bodyLines]
  exact Source.stands_written (isNested_body listing)

theorem readBody_bodyLines (listing : Listing) :
    Source.readBody (listing.bodyLines.map String.toList) = some (listing.arms.map readShard) := by
  rw [map_bodyLines]
  split
  next hempty =>
    have hnone : listing.entries.entries = [] := List.isEmpty_iff.1 hempty
    have harms : listing.arms = [] := by
      simp only [arms, numbered, Table.keys, hnone, List.map_nil, List.zipIdx_nil,
        Directory.layout, List.filter_nil, groupBy, sortBy, List.eraseDups_nil,
        List.mergeSort_nil]
    rw [Source.readBody_knowsNothing, harms]
    rfl
  next => rw [Source.readBody_decides (isNested_firstBlocks _), readBranches_firstBlocks]

/-- The text of lines splits where they do. -/
theorem splitOn_join (lines : List String) :
    (String.join (lines.map fun line => line ++ "\n")).toList.splitOn '\n' =
      lines.flatMap (fun line => line.toList.splitOn '\n') ++ [[]] := by
  rw [String.toList_join]
  induction lines with
  | nil => rfl
  | cons line lines ih =>
    have hline : (line ++ "\n").toList = line.toList ++ ['\n'] := String.toList_append
    rw [List.map_cons, List.flatMap_cons, hline, List.append_assoc, List.singleton_append,
      List.splitOn_append_cons_self, ih, List.flatMap_cons, List.append_assoc]

/-- A comment on one line does not count. -/
theorem filter_splitOn_eq_nil {line : Line} (hsingle : '\n' ∉ line)
    (hcode : Line.isCode line = false) : (line.splitOn '\n').filter Line.isCode = [] := by
  rw [List.splitOn_eq_singleton hsingle, List.filter_singleton, hcode]
  rfl

/-- The comment of the constant of a name. -/
def comment (name : String) : String := "/// Metadata of `" ++ name ++ "`"

theorem toList_comment (name : String) : (comment name).toList =
    "/// Metadata of `".toList ++ (name.toList ++ ['`']) := by
  unfold comment
  rw [String.toList_append, String.toList_append, List.append_assoc]
  rfl

theorem constantLines_eq (entry : (String × String) × Nat) :
    constantLines entry = [comment entry.1.1, constantText entry] := rfl

/-- What follows in the code if the comment of a name runs over several lines. -/
def spilled (name : String) : List Line :=
  ((comment name).toList.splitOn '\n').filter Line.isCode

theorem spilled_eq_nil {name : String} (h : '\n' ∉ name.toList) : spilled name = [] := by
  rw [spilled, toList_comment]
  refine filter_splitOn_eq_nil ?_ rfl
  rw [List.mem_append, List.mem_append, not_or, not_or]
  exact ⟨by decide, h, by decide⟩

/-- The lines that stand in a text as they are. -/
theorem flatMap_splitOn {lines : List Line} (h : ∀ line ∈ lines, '\n' ∉ line) :
    lines.flatMap (·.splitOn '\n') = lines := by
  rw [List.flatMap_congr fun line hline => List.splitOn_eq_singleton (h line hline),
    ← List.map_eq_flatMap, List.map_id']

/-- Of the lines of the constants, the declarations are code, and what spills over. -/
theorem code_allConstantLines (listing : Listing) :
    (listing.allConstantLines.flatMap fun line => line.toList.splitOn '\n').filter Line.isCode =
      listing.entries.entries.zipIdx.flatMap fun entry =>
        spilled entry.1.1 ++ [(constantText entry).toList] := by
  have hentry : ∀ entry, ((constantLines entry).flatMap fun line =>
      line.toList.splitOn '\n').filter Line.isCode =
        spilled entry.1.1 ++ [(constantText entry).toList] := by
    intro entry
    have hstatement := isStatement_constantText entry
    rw [constantLines_eq, List.flatMap_cons, List.flatMap_singleton, List.filter_append,
      List.splitOn_eq_singleton hstatement.single, List.filter_cons_of_pos hstatement.isCode]
    rfl
  rw [allConstantLines]
  split
  next hempty =>
    have hnone : listing.entries.entries = [] := List.isEmpty_iff.1 hempty
    rw [hnone]
    rfl
  next =>
    rw [List.flatMap_append, List.filter_append, List.flatMap_assoc, List.filter_flatMap,
      List.flatMap_congr fun entry _ => hentry entry]
    exact List.append_nil _

/-- The lines before the constants do not run on. -/
theorem single_header {listing : Listing} (hmodule : '\n' ∉ listing.moduleName.toList) :
    ∀ line ∈ ["// @generated by portrait-codegen. Do not edit.", "// Module: " ++ listing.moduleName,
      s!"// Types: {listing.entries.size}", ""], '\n' ∉ line.toList := by
  have hsize : (s!"// Types: {listing.entries.size}").toList =
      "// Types: ".toList ++ Nat.toDigits 10 listing.entries.size := by
    rw [← Nat.toList_repr]
    exact String.toList_append
  have hdigits : '\n' ∉ Nat.toDigits 10 listing.entries.size := fun hmem =>
    absurd (Nat.isDigit_of_mem_toDigits (by decide) (by decide) hmem) (by decide)
  refine List.forall_mem_cons.2 ⟨by decide, List.forall_mem_cons.2 ⟨?_, List.forall_mem_cons.2
    ⟨?_, List.forall_mem_singleton.2 (by decide)⟩⟩⟩
  · rw [String.toList_append, List.mem_append, not_or]
    exact ⟨by decide, hmodule⟩
  · rw [hsize, List.mem_append, not_or]
    exact ⟨by decide, hdigits⟩

/-- The lines before the constants are no code. -/
theorem code_header {listing : Listing} (hmodule : '\n' ∉ listing.moduleName.toList) :
    (["// @generated by portrait-codegen. Do not edit.", "// Module: " ++ listing.moduleName,
      s!"// Types: {listing.entries.size}", ""].flatMap
        fun line => line.toList.splitOn '\n').filter Line.isCode = [] := by
  have hcomment : ∀ text, Line.isCode ("// Module: " ++ text).toList = false ∧
      Line.isCode ("// Types: " ++ text).toList = false := by
    intro text
    rw [String.toList_append, String.toList_append]
    exact ⟨rfl, rfl⟩
  rw [List.filter_flatMap, List.flatMap_eq_nil_iff]
  intro line hline
  refine filter_splitOn_eq_nil (single_header hmodule line hline) ?_
  simp only [List.mem_cons, List.not_mem_nil, or_false] at hline
  rcases hline with rfl | rfl | rfl | rfl
  · rfl
  · exact (hcomment _).1
  · exact (hcomment _).2
  · rfl

/-! ## Constants that spill over -/

/-- The declared constants and the function. -/
def itemBlocks (listing : Listing) (declared : List ((String × String) × Nat)) : List Block :=
  declared.map (fun entry => ((constantText entry).toList, [])) ++
    [(Source.signature.toList, listing.bodyLines.map String.toList), ("\x7d".toList, [])]

theorem isNested_itemBlocks (listing : Listing) (declared : List ((String × String) × Nat)) :
    ∀ block ∈ listing.itemBlocks declared, Source.IsNested 0 block := by
  rw [itemBlocks]
  refine List.forall_mem_append.2 ⟨fun block hblock => ?_, List.forall_mem_cons.2
    ⟨⟨Source.isStatement_signature, fun line hline => ?_⟩, List.forall_mem_singleton.2 ?_⟩⟩
  · obtain ⟨entry, -, rfl⟩ := List.mem_map.1 hblock
    exact (isStatement_constantText entry).isNested 0
  · exact (stands_bodyLines listing line hline).mono (by decide)
  · exact (Source.isStatement_of_head? (c := '\x7d') rfl (by decide) (by decide)).isNested 0

theorem readItems_itemBlocks (listing : Listing) (declared : List ((String × String) × Nat)) :
    Source.readItems (listing.itemBlocks declared) =
      some ⟨declared.map fun entry => (constantName entry.2, entry.1.2),
        listing.arms.map readShard⟩ := by
  rw [itemBlocks, Source.readItems_append fun entry _ => constant?_constantText entry,
    readBody_bodyLines]
  rfl

section

variable {listing : Listing} (hmodule : '\n' ∉ listing.moduleName.toList)
  (extra : String → List ((String × String) × Nat))
  (hspilled : ∀ name ∈ listing.entries.keys,
    spilled name = (extra name).map fun entry => (constantText entry).toList)

/-- The constants of the entries, each behind those that spill over from its comment. -/
def declared (listing : Listing) (extra : String → List ((String × String) × Nat)) :
    List ((String × String) × Nat) :=
  listing.entries.entries.zipIdx.flatMap fun entry => extra entry.1.1 ++ [entry]

include hspilled

theorem code_declared : (listing.allConstantLines.flatMap fun line =>
    line.toList.splitOn '\n').filter Line.isCode =
      (listing.declared extra).map fun entry => (constantText entry).toList := by
  rw [code_allConstantLines, declared, List.map_flatMap]
  refine List.flatMap_congr fun entry hentry => ?_
  have hname : entry.1.1 ∈ listing.entries.keys :=
    List.mem_map_of_mem (List.mem_of_getElem? (List.mem_zipIdx_iff_getElem?.1 hentry))
  rw [hspilled _ hname, List.map_append]
  rfl

include hmodule

/-- The code of a text. -/
theorem code_render : (listing.render.toList.splitOn '\n').filter Line.isCode =
    (listing.itemBlocks (listing.declared extra)).flatMap (Source.written 0) := by
  have hconstants : ((listing.declared extra).map fun entry =>
      ((constantText entry).toList, ([] : List Line))).flatMap (Source.written 0) =
        (listing.declared extra).map fun entry => (constantText entry).toList := by
    simp only [List.flatMap_map, Source.written_zero, ← List.map_eq_flatMap]
  have hbody : (listing.bodyLines.flatMap fun line => line.toList.splitOn '\n').filter Line.isCode =
      listing.bodyLines.map String.toList := by
    rw [← List.flatMap_map,
      flatMap_splitOn fun line hline => (stands_bodyLines listing line hline).single]
    exact List.filter_eq_self.2 fun line hline => (stands_bodyLines listing line hline).code
  rw [itemBlocks, List.flatMap_append, hconstants, render, splitOn_join, lines]
  simp only [List.flatMap_append, List.filter_append, code_header hmodule,
    code_declared extra hspilled, hbody, List.nil_append, List.append_assoc]
  rfl

/-- **What is read back of a text.**  If what spills over from the comments are constants
    themselves, they are declared as well. -/
theorem ofText?_render_of_spilled : Source.ofText? listing.render = some {
    constants := (listing.declared extra).map fun entry => (constantName entry.2, entry.1.2)
    arms := listing.arms.map readShard } := by
  rw [Source.ofText?, code_render hmodule extra hspilled,
    Source.blocks?_written (isNested_itemBlocks listing _), Option.bind_eq_bind, Option.bind_some,
    readItems_itemBlocks]

end

/-- **The text of a listing declares its constants, in order, and its branches**, if no name runs
    over several lines. -/
theorem ofText?_render {listing : Listing} (hmodule : '\n' ∉ listing.moduleName.toList)
    (hnames : ∀ name ∈ listing.entries.keys, '\n' ∉ name.toList) :
    Source.ofText? listing.render = some listing.source := by
  have hdeclared : listing.declared (fun _ => []) = listing.entries.entries.zipIdx := by
    simp only [declared, List.nil_append, List.flatMap_singleton']
  rw [ofText?_render_of_spilled hmodule (fun _ => []) fun name hname =>
    spilled_eq_nil (hnames name hname), hdeclared, source]

end Listing

end TypeAtlas
