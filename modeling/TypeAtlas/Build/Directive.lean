/-
  Inclusion directives.

  A type that is asked for may bring others with it: its subtypes, its
  supertypes, or the types that its public members mention.  A `Directive` names
  one such widening, a `DirectiveSet` holds those that go with one request.

  * `Directive.ofText?` reads a directive; what stands before the last dot does
    not count (`ofText?_text`);
  * a set lists its members in the order of `Directive.all`, so equal sets are
    equal lists (`mem_insert`).
-/
import TypeAtlas.Build.Error
import TypeAtlas.Name.Basic
import TypeAtlas.Text.Quoted

namespace TypeAtlas

/-- A widening of a request to related types. -/
inductive Directive where
  /-- The types that extend or implement the type directly. -/
  | directSubtypes
  /-- All types below the type. -/
  | allSubtypes
  /-- The superclass and the interfaces of the type. -/
  | directSupertypes
  /-- All types above the type. -/
  | allSupertypes
  /-- The types that public members mention. -/
  | publicApi
  /-- The types that public members mention and all types above these. -/
  | publicApiSupertypes
  /-- The types that public members mention and all types below these. -/
  | publicApiSubtypes
  deriving DecidableEq, Repr

namespace Directive

def all : List Directive :=
  [directSubtypes, allSubtypes, directSupertypes, allSupertypes, publicApi,
    publicApiSupertypes, publicApiSubtypes]

/-- The text of a directive in annotations. -/
def text : Directive → String
  | directSubtypes => "DIRECT_SUBTYPES"
  | allSubtypes => "ALL_SUBTYPES"
  | directSupertypes => "DIRECT_SUPERTYPES"
  | allSupertypes => "ALL_SUPERTYPES"
  | publicApi => "PUBLIC_API"
  | publicApiSupertypes => "PUBLIC_API_SUPERTYPES"
  | publicApiSubtypes => "PUBLIC_API_SUBTYPES"

/-- The name of a directive in summaries. -/
def label : Directive → String
  | directSubtypes => "DirectSubtypes"
  | allSubtypes => "AllSubtypes"
  | directSupertypes => "DirectSupertypes"
  | allSupertypes => "AllSupertypes"
  | publicApi => "PublicApi"
  | publicApiSupertypes => "PublicApiSupertypes"
  | publicApiSubtypes => "PublicApiSubtypes"

def ofText? (s : String) : Option Directive := all.find? fun d => d.text == Name.lastPart s

/-- The directive of a text, or why there is none. -/
def parse (s : String) : Except BuildError Directive :=
  match ofText? s with
  | some d => .ok d
  | none => .error (.unknownDirective s)

theorem mem_all (d : Directive) : d ∈ all := by cases d <;> decide

theorem ofText?_text (d : Directive) : ofText? d.text = some d := by cases d <;> decide

end Directive

/-- A set of directives. -/
structure DirectiveSet where
  /-- The members in the order of `Directive.all`. -/
  toList : List Directive
  /-- The order is right and no member occurs twice. -/
  ordered : toList = Directive.all.filter fun d => decide (d ∈ toList)
  deriving DecidableEq

namespace DirectiveSet

instance : Membership Directive DirectiveSet := ⟨fun set d => d ∈ set.toList⟩

instance (set : DirectiveSet) (d : Directive) : Decidable (d ∈ set) :=
  inferInstanceAs (Decidable (d ∈ set.toList))

/-- The set of the directives that satisfy `p`. -/
def filtered (p : Directive → Bool) : DirectiveSet where
  toList := Directive.all.filter p
  ordered := List.filter_congr fun d hd => by simp [hd]

def empty : DirectiveSet := filtered fun _ => false

/-- The set with a directive added. -/
def insert (set : DirectiveSet) (d : Directive) : DirectiveSet :=
  filtered fun other => decide (other = d) || decide (other ∈ set)

/-- The set of a list of directives. -/
def ofList (directives : List Directive) : DirectiveSet := directives.foldl insert empty

def isEmpty (set : DirectiveSet) : Bool := set.toList.isEmpty

/-- Whether the types that public members mention are included. -/
def includesPublicApi (set : DirectiveSet) : Bool :=
  decide (.publicApi ∈ set) || decide (.publicApiSupertypes ∈ set) ||
    decide (.publicApiSubtypes ∈ set)

/-- The members by their names in summaries. -/
def summary (set : DirectiveSet) : String :=
  Text.listing "\x7b" "\x7d" (set.toList.map Directive.label)

theorem mem_filtered {p : Directive → Bool} {d : Directive} :
    d ∈ filtered p ↔ p d = true := by
  have h : d ∈ filtered p ↔ d ∈ Directive.all.filter p := Iff.rfl
  rw [h, List.mem_filter]
  simp [Directive.mem_all]

theorem mem_insert {set : DirectiveSet} {d other : Directive} :
    other ∈ set.insert d ↔ other = d ∨ other ∈ set := by
  rw [insert, mem_filtered]
  simp

theorem not_mem_empty (d : Directive) : d ∉ empty := by
  rw [empty, mem_filtered]
  simp

theorem mem_ofList {directives : List Directive} {d : Directive} :
    d ∈ ofList directives ↔ d ∈ directives := by
  have general : ∀ (xs : List Directive) (set : DirectiveSet),
      d ∈ xs.foldl insert set ↔ d ∈ xs ∨ d ∈ set := by
    intro xs
    induction xs with
    | nil => simp
    | cons x rest ih =>
      intro set
      rw [List.foldl_cons, ih, mem_insert, List.mem_cons]
      constructor
      · rintro (h | h | h)
        · exact Or.inl (Or.inr h)
        · exact Or.inl (Or.inl h)
        · exact Or.inr h
      · rintro ((h | h) | h)
        · exact Or.inr (Or.inl h)
        · exact Or.inl h
        · exact Or.inr (Or.inr h)
  rw [ofList, general]
  simp [not_mem_empty]

end DirectiveSet

end TypeAtlas
