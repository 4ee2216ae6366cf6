/-
  What the members of a shape mention.

  A shape names the types of its members without arguments and bounds, while a seed that
  includes the public members selects every class that their types mention.  The two go
  through the same types on their own; what the one leaves the other has found, but for
  variables and wildcards without a bound.

  * `TypeExpr.Unbounded`: the types of which nothing written is left;
  * `TypeExpr.exists_mentions_of_erasure`: of any other type a class is left that it
    mentions, and arrays do not matter;
  * `Declaration.memberTypes_selected`: the type names of the constructors, methods and fields of
    a shape are selected;
  * `Declaration.proxyMethods_not_selected`: those of the methods that a stand-in inherits need
    not be.
-/
import TypeAtlas.Proofs.Build.Answered
import TypeAtlas.Proofs.Build.Products

namespace TypeAtlas

/-! ## What is left of a type -/

namespace TypeExpr

/-- A variable or a wildcard without an upper bound, also as the first bound of another, and
    arrays of them.  What is left is the class of all objects, which nobody wrote. -/
inductive Unbounded : TypeExpr → Prop
  | typeVar (letter : String) : Unbounded (.typeVar letter [])
  | wildcard (lower : List TypeExpr) : Unbounded (.wildcard [] lower)
  | bound {letter : String} {bound : TypeExpr} {rest : List TypeExpr} :
    Unbounded bound → Unbounded (.typeVar letter (bound :: rest))
  | upper {bound : TypeExpr} {rest lower : List TypeExpr} :
    Unbounded bound → Unbounded (.wildcard (bound :: rest) lower)
  | array {component : TypeExpr} : Unbounded component → Unbounded (.array component)

theorem normalForm?_object : Name.normalForm? Name.object = some Name.object :=
  Name.Normal.normalForm?_eq (by constructor <;> decide +kernel)

/-- What is left of them is the class of all objects, or an array of it. -/
theorem Unbounded.normalForm?_erasure {expr : TypeExpr} (h : expr.Unbounded) :
    Name.normalForm? expr.erasure = some Name.object := by
  induction h with
  | typeVar => exact normalForm?_object
  | wildcard => exact normalForm?_object
  | bound _ ih => exact ih
  | upper _ ih => exact ih
  | array _ ih => rw [erasure, Name.normalForm?_append_brackets, ih]

/-- **What is left of a type is mentioned in it**, or nothing written is left. -/
theorem exists_mentions_of_erasure : (expr : TypeExpr) →
    expr.Unbounded ∨ ∃ written, expr.Mentions written ∧
      Name.normalForm? written = Name.normalForm? expr.erasure
  | .named name => Or.inr ⟨name, .named name, rfl⟩
  | .applied raw owner args => Or.inr ⟨raw, .raw raw owner args, rfl⟩
  | .typeVar letter [] => Or.inl (.typeVar letter)
  | .typeVar _ (bound :: _) => by
    rcases exists_mentions_of_erasure bound with h | ⟨written, hmentions, hform⟩
    · exact Or.inl (.bound h)
    · exact Or.inr ⟨written, .bound List.mem_cons_self hmentions, hform⟩
  | .wildcard [] lower => Or.inl (.wildcard lower)
  | .wildcard (bound :: _) _ => by
    rcases exists_mentions_of_erasure bound with h | ⟨written, hmentions, hform⟩
    · exact Or.inl (.upper h)
    · exact Or.inr ⟨written, .upper List.mem_cons_self hmentions, hform⟩
  | .array component => by
    rcases exists_mentions_of_erasure component with h | ⟨written, hmentions, hform⟩
    · exact Or.inl (.array h)
    · refine Or.inr ⟨written, .component hmentions, ?_⟩
      rw [erasure, Name.normalForm?_append_brackets, hform]

end TypeExpr

/-! ## The types of members -/

/-- The type names of the members of a shape: those of constructors, of methods, of fields. -/
def Shape.memberTypes (shape : Shape) : List String :=
  shape.constructors.flatMap Constructor.parameters ++
    shape.methods.flatMap (fun method => method.parameters ++ [method.returns]) ++
    shape.fields.map Field.typeName

namespace Declaration

/-- The types of the public members of a declaration, in the same order. -/
def memberTypes (decl : Declaration) : List TypeExpr :=
  decl.publicConstructors.flatMap (fun ctor => ctor.parameters.map ParameterDecl.type) ++
    decl.publicMethods.flatMap (fun method =>
      method.parameters.map ParameterDecl.type ++ [method.returns]) ++
    decl.publicFields.map FieldDecl.type

variable {decl : Declaration} {expr : TypeExpr}

/-- A shape names what is left of the types of the public members. -/
theorem memberTypes_shape (decl : Declaration) (scope : Scope) (proxyable : Bool) :
    (decl.shape scope proxyable).memberTypes = decl.memberTypes.map TypeExpr.erasure := by
  simp [shape, Shape.memberTypes, memberTypes, ConstructorDecl.describe, MethodDecl.describe,
    FieldDecl.describe, erasedTypes, List.map_flatMap, List.flatMap_map, Function.comp_def]

theorem signs_of_mem_memberTypes (h : expr ∈ decl.memberTypes) : decl.Signs expr := by
  simp only [memberTypes, publicConstructors, publicMethods, publicFields, List.mem_append,
    List.mem_flatMap, List.mem_filter, List.mem_map, List.mem_singleton,
    Visibility.isPublic_iff] at h
  rcases h with (⟨ctor, ⟨hmem, hpublic⟩, parameter, hparameter, rfl⟩ |
    ⟨method, ⟨hmem, hpublic⟩, ⟨parameter, hparameter, rfl⟩ | rfl⟩) | ⟨field, ⟨hmem, hpublic⟩, rfl⟩
  · exact .ctorParameter hmem hpublic hparameter
  · exact .parameter hmem hpublic hparameter
  · exact .returns hmem hpublic
  · exact .field hmem hpublic

/-- What a stand-in answers and the type declares itself is a method of the shape. -/
theorem mem_methods_of_mem_answeredMethods {method : Method} (h : method ∈ decl.answeredMethods)
    (scope : Scope) (proxyable : Bool) : method ∈ (decl.shape scope proxyable).methods := by
  obtain ⟨declared, hmem, rfl⟩ := List.mem_map.1 h
  obtain ⟨hdeclared, hanswered⟩ := List.mem_filter.1 hmem
  have hpublic := Visibility.isPublic_iff.2 (MethodDecl.isAnswered_iff.1 hanswered).1
  exact List.mem_map_of_mem (List.mem_filter.2 ⟨hdeclared, hpublic⟩)

end Declaration

/-! ## What a seed selects of them -/

namespace Selection

variable {scope : Scope} {own external : List Declaration} {seeds : List Seed} {seed : Seed}
  {name : String}

/-- The directives that include the public members do so whatever else they lead to. -/
theorem exists_widen_of_exposes (h : scope.Of own external)
    (hpublic : seed.directives.includesPublicApi = true)
    (hexposes : Exposes own external seed.name name) :
    ∃ directive ∈ seed.directives, name ∈ widen scope .reflective seed.name directive := by
  have hmem : name ∈ publicApi scope seed.name := (mem_publicApi h).2 hexposes
  simp only [DirectiveSet.includesPublicApi, Bool.or_eq_true, decide_eq_true_eq] at hpublic
  rcases hpublic with (hdirective | hdirective) | hdirective
  · exact ⟨_, hdirective, hmem⟩
  · exact ⟨_, hdirective, List.mem_append_left _ hmem⟩
  · exact ⟨_, hdirective, List.mem_append_left _ hmem⟩

/-- What the public members of a seed mention is selected. -/
theorem mem_introspectable_of_exposes (h : scope.Of own external) (hseed : seed ∈ seeds)
    (hrole : seed.role = .reflective) (hpublic : seed.directives.includesPublicApi = true)
    (hexposes : Exposes own external seed.name name) :
    name ∈ (ofSeeds scope seeds).introspectable := by
  obtain ⟨directive, hdirective, hwiden⟩ := exists_widen_of_exposes h hpublic hexposes
  have hoffered : name ∈ offers scope .reflective seed := by
    rw [offers, if_pos hrole]
    exact List.mem_cons_of_mem _ (List.mem_flatMap.2 ⟨directive, hdirective, hwiden⟩)
  have htaken : admit? scope .reflective name = some name :=
    (admit?_eq_some_iff h (normal_of_exposes hexposes)).2 ⟨rfl, fun hproxy => by cases hproxy⟩
  rw [ofSeeds, NameSet.mem_union]
  exact Or.inl (mem_admitted.2 ⟨seed, hseed, name, hoffered, htaken⟩)

end Selection

/-! ## Shapes and seeds -/

namespace Declaration

open Selection

variable {scope : Scope} {own external : List Declaration}

/-- **The type names of the members of a shape are selected**: with a seed for a type of the build
    that includes its public members, the normal form of every type name of a constructor, a method
    or a field is to be introspected, but for the class of all objects where that is all that is
    left of a type without a bound.  The shape of an interface with stand-ins lists further methods:
    the root methods and what the interfaces above declare; without seeds for stand-ins there are
    none. -/
theorem memberTypes_selected (hown : Catalog.ofList own = .ok scope.catalog)
    (hexternal : Catalog.ofList external = .ok scope.external) {decl : Declaration}
    (hdecl : decl ∈ own) {seeds : List Seed} {seed : Seed} (hseed : seed ∈ seeds)
    (hname : seed.name = decl.name) (hrole : seed.role = .reflective)
    (hpublic : seed.directives.includesPublicApi = true) {proxyable : Bool} {shape : Shape}
    (hdescribe : decl.describe scope proxyable = .ok shape) :
    List.Forall₂ (fun expr typeName => typeName = expr.erasure ∧
        ((∀ normal, Name.normalForm? typeName = some normal →
            normal ∈ (ofSeeds scope seeds).introspectable) ∨
          expr.Unbounded ∧ Name.normalForm? typeName = some Name.object))
      decl.memberTypes shape.memberTypes ∧
    ((∀ seed ∈ seeds, seed.role = .reflective) →
      proxyable = (ofSeeds scope seeds).proxyable.contains decl.name →
        shape.proxyMethods = none) ∧
    ∀ methods, shape.proxyMethods = some methods → ∀ method ∈ methods,
      method ∈ shape.methods ∨ method ∈ rootMethods ∨
        ∃ upper, upper ≠ decl ∧ Relation.ReflTransGen (Inherits own external) decl upper ∧
          method ∈ upper.answeredMethods := by
  have h : scope.Of own external := ⟨hown, hexternal⟩
  obtain rfl := eq_shape_of_describe hdescribe
  refine ⟨?_, ?_, ?_⟩
  · rw [memberTypes_shape, List.forall₂_map_right_iff, List.forall₂_same]
    refine fun expr hexpr => ⟨rfl, ?_⟩
    rcases expr.exists_mentions_of_erasure with hunbounded | ⟨written, hmentions, hform⟩
    · exact Or.inr ⟨hunbounded, hunbounded.normalForm?_erasure⟩
    · refine Or.inl fun normal hnormal => ?_
      have hknown : Known own external seed.name decl := Or.inl ⟨hdecl, hname.symm⟩
      exact mem_introspectable_of_exposes h hseed hrole hpublic
        ⟨decl, hknown, expr, signs_of_mem_memberTypes hexpr, written, hmentions,
          hform.trans hnormal⟩
  · rintro hroles rfl
    have hnone : (ofSeeds scope seeds).proxyable.contains decl.name = false :=
      decide_eq_false (not_mem_proxyable hroles)
    rw [hnone]
    rfl
  · intro methods hmethods method hmethod
    obtain ⟨-, heq⟩ := Option.ite_none_right_eq_some.1 hmethods
    obtain rfl := Option.some.inj heq
    have hself : Known own external decl.name decl := Or.inl ⟨hdecl, rfl⟩
    rcases h.exists_mem_answeredMethods hself hmethod with hroot | ⟨upper, habove, hanswered⟩
    · exact Or.inr (Or.inl hroot)
    · by_cases hsame : upper = decl
      · exact Or.inl (mem_methods_of_mem_answeredMethods (hsame ▸ hanswered) scope proxyable)
      · exact Or.inr (Or.inr ⟨upper, hsame, habove, hanswered⟩)

/-- A class with an array of a variable that has a bound, and a method that returns a variable
    that has none. -/
def crate : Declaration :=
  { Declaration.ofName "a.Crate" .cls with
    methods := [⟨"open", .everywhere, {}, [⟨.applied "a.Key" none [.wildcard [] []], []⟩],
      .typeVar "R" [], [], []⟩]
    fields := [⟨"items", .everywhere, {}, .array (.typeVar "T" [.named "a.Item"]), []⟩] }

def crateScope : Scope := ⟨Catalog.empty.push crate, .empty⟩

def crateSeed : Seed := ⟨"a.Crate", .reflective, .ofList [.publicApi]⟩

/-- The element of the array is selected. -/
theorem memberTypes_selected_crate : ∃ shape,
    crate.describe crateScope ((ofSeeds crateScope [crateSeed]).proxyable.contains crate.name) =
      .ok shape ∧
    shape.memberTypes = ["a.Key", Name.object, "a.Item[]"] ∧
    "a.Item" ∈ (ofSeeds crateScope [crateSeed]).introspectable ∧ shape.proxyMethods = none := by
  obtain ⟨shape, hdescribe⟩ : ∃ shape, crate.describe crateScope
      ((ofSeeds crateScope [crateSeed]).proxyable.contains crate.name) = .ok shape := ⟨_, rfl⟩
  have hroles : ∀ seed ∈ [crateSeed], seed.role = .reflective := List.forall_mem_singleton.2 rfl
  have hown : Catalog.ofList [crate] = .ok crateScope.catalog := rfl
  have hexternal : Catalog.ofList [] = .ok crateScope.external := rfl
  obtain ⟨hselected, hnone, -⟩ := memberTypes_selected hown hexternal (List.mem_singleton_self _)
    (List.mem_singleton_self crateSeed) rfl rfl (by decide) hdescribe
  have hnames : shape.memberTypes = ["a.Key", Name.object, "a.Item[]"] := by
    rw [eq_shape_of_describe hdescribe, memberTypes_shape]
    rfl
  have htypes : crate.memberTypes = [.applied "a.Key" none [.wildcard [] []], .typeVar "R" [],
    .array (.typeVar "T" [.named "a.Item"])] := rfl
  simp only [hnames, htypes, List.forall₂_cons] at hselected
  obtain ⟨-, -, ⟨-, hitem⟩, -⟩ := hselected
  have hform : Name.normalForm? "a.Item[]" = some "a.Item" :=
    (Name.normalForm?_append_brackets "a.Item").trans
      (Name.Normal.normalForm?_eq (by constructor <;> decide +kernel))
  refine ⟨shape, hdescribe, hnames, ?_, hnone hroles rfl⟩
  rcases hitem with hitem | ⟨hunbounded, -⟩
  · exact hitem _ hform
  · -- the variable has a bound, and its bound is a name
    cases hunbounded with
    | array hvariable =>
    cases hvariable with
    | bound hbound => cases hbound

/-- An interface with a method that returns a key. -/
def lock : Declaration :=
  { Declaration.ofName "a.Lock" .interface with
    methods := [⟨"key", .everywhere, { isAbstract := true }, [], .named "a.Key", [], []⟩] }

/-- An interface below it that declares nothing. -/
def bolt : Declaration := { Declaration.ofName "a.Bolt" .interface with interfaces := ["a.Lock"] }

def boltScope : Scope := ⟨(Catalog.empty.push lock).push bolt, .empty⟩

/-- The lower interface is to be introspected with its public members, and to have stand-ins. -/
def boltSeeds : List Seed :=
  [⟨"a.Bolt", .reflective, .ofList [.publicApi]⟩, ⟨"a.Bolt", .proxy, .empty⟩]

theorem of_boltScope : boltScope.Of [lock, bolt] [] := ⟨rfl, rfl⟩

theorem proxyMethods_bolt : boltScope.proxyMethods bolt = rootMethods ++ lock.answeredMethods := by
  have hknown : ∀ {name decl}, boltScope.find? name = some decl →
      Known [lock, bolt] [] name decl := of_boltScope.find?_eq_some_iff.1
  have hlock : Climbs [lock, bolt] [] ["a.Bolt"] ["a.Lock"] [lock] :=
    .single (by decide) (hknown rfl) (.nil _)
  have hbolt : Climbs [lock, bolt] [] [] ["a.Bolt"] [bolt, lock] :=
    .single (by decide) (hknown rfl) hlock
  rw [Scope.proxyMethods,
    of_boltScope.climbs_unique (of_boltScope.climbs_withInterfacesAbove (hknown rfl)) hbolt]
  decide

/-- The shape of an interface with stand-ins names what a method from above returns, and what a
    root method returns; its seed includes the public members, and neither is selected. -/
theorem proxyMethods_not_selected : ∃ shape methods,
    Catalog.ofList [lock, bolt] = .ok boltScope.catalog ∧
    Catalog.ofList [] = .ok boltScope.external ∧
    (∃ seed ∈ boltSeeds, seed.name = bolt.name ∧ seed.role = .reflective ∧
      seed.directives.includesPublicApi = true) ∧
    bolt.describe boltScope ((ofSeeds boltScope boltSeeds).proxyable.contains bolt.name) =
      .ok shape ∧
    shape.proxyMethods = some methods ∧
    ∀ typeName ∈ ["a.Key", Name.string], (∃ method ∈ methods, method.returns = typeName) ∧
      Name.normalForm? typeName = some typeName ∧
      typeName ∉ (ofSeeds boltScope boltSeeds).introspectable := by
  have hproxyable : (ofSeeds boltScope boltSeeds).proxyable.contains bolt.name = true := by
    decide +kernel
  refine ⟨bolt.shape boltScope true, _, rfl, rfl, ?_, ?_, congrArg some proxyMethods_bolt, ?_⟩
  · exact ⟨_, List.mem_cons_self, rfl, rfl, by decide⟩
  · rw [hproxyable]
    rfl
  · decide +kernel

end Declaration

end TypeAtlas
