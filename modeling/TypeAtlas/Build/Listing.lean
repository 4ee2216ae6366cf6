/-
  The written lookup.

  The blobs of a build are written out as a module of source text: one constant
  for each name, and a function that finds the constant of a name by its first
  character, its hash and the name itself, in the layout of a directory.

  * `Listing.add` refuses a name that is taken;
  * `Listing.arms` is the layout that the function is written from,
    `Listing.follow?` the way through it;
  * `Listing.render` is the text, `Listing.lines` its lines.
-/
import TypeAtlas.Build.Error
import TypeAtlas.Directory.Basic
import TypeAtlas.Table
import TypeAtlas.Text.Quoted

namespace TypeAtlas

open TypeAtlas.Text (quoteText quoteChar hexPadded)

/-- The blobs to be written out. -/
structure Listing where
  moduleName : String
  entries : Table String
  deriving DecidableEq

namespace Listing

def empty (moduleName : String) : Listing := ⟨moduleName, .empty⟩

/-- Adds the blob of a name. -/
def add (listing : Listing) (name blob : String) : Except BuildError Listing :=
  if listing.entries.contains name then .error (.duplicateType name)
  else .ok { listing with entries := listing.entries.insert name blob }

/-! ## The lookup -/

/-- The names with the numbers of their constants. -/
def numbered (listing : Listing) : List (String × Nat) := listing.entries.keys.zipIdx

def arms (listing : Listing) : List (Shard Nat) := Directory.layout listing.numbered

/-- The constant that the branches lead to for a name. -/
def follow? (arms : List (Shard Nat)) (name : String) : Option Nat := do
  let first ← name.toList.head?
  let shard ← arms.find? fun shard => shard.first == first
  let bucket ← shard.buckets.toList.find? fun bucket => bucket.hash == Name.hash name
  bucket.find? name

/-! ## The text -/

/-- A line at a depth of indentation. -/
def indent (depth : Nat) (line : String) : String :=
  String.ofList (List.replicate (4 * depth) ' ') ++ line

/-- The branch for all other values. -/
def otherwise (depth : Nat) : String := indent depth "_ => None,"

/-- The lines of the constant of a name. -/
def constantLines (entry : (String × String) × Nat) : List String :=
  ["/// Metadata of `" ++ entry.1.1 ++ "`",
    s!"pub const TYPE_{entry.2}: &str = " ++ quoteText entry.1.2 ++ ";"]

/-- The line of the branch of a name. -/
def nameLine (entry : String × Nat) : String :=
  indent 4 (quoteText entry.1 ++ s!" => Some(TYPE_{entry.2}),")

/-- The lines of the branch of a hash. -/
def bucketLines (bucket : Bucket Nat) : List String :=
  [indent 3 ("0x" ++ hexPadded 8 bucket.hash.toNat ++ " => match name \x7b")] ++
    bucket.chain.map nameLine ++ [otherwise 4, indent 3 "\x7d,"]

/-- The lines of the branch of a first character. -/
def shardLines (shard : Shard Nat) : List String :=
  [indent 2 (quoteChar shard.first ++ " => match hash \x7b")] ++
    shard.buckets.toList.flatMap bucketLines ++ [otherwise 3, indent 2 "\x7d,"]

/-- The lines of the body of the function. -/
def bodyLines (listing : Listing) : List String :=
  if listing.entries.isEmpty then [indent 1 "let _ = name;", indent 1 "None"]
  else
    [indent 1 "let first = name.chars().next()?;",
      indent 1 "let hash = portrait_runtime::name_hash(name);",
      indent 1 "match first \x7b"] ++
      listing.arms.flatMap shardLines ++ [otherwise 2, indent 1 "\x7d"]

/-- The lines of the constants, with an empty one behind them. -/
def allConstantLines (listing : Listing) : List String :=
  if listing.entries.isEmpty then []
  else listing.entries.entries.zipIdx.flatMap constantLines ++ [""]

def lines (listing : Listing) : List String :=
  ["// @generated by portrait-codegen. Do not edit.", "// Module: " ++ listing.moduleName,
    s!"// Types: {listing.entries.size}", ""] ++
    listing.allConstantLines ++
    ["/// Base64 metadata of `name`, if it was compiled",
      "pub fn metadata_for(name: &str) -> Option<&'static str> \x7b"] ++
    listing.bodyLines ++ ["\x7d"]

def render (listing : Listing) : String :=
  String.join (listing.lines.map fun line => line ++ "\n")

end Listing

end TypeAtlas
