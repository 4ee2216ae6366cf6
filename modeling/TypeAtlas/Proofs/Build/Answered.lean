/-
  What stand-ins answer.

  The methods that a stand-in answers are collected on a walk through the interfaces above its own,
  and of two with one signature the first is kept.  Over the lists of declarations this can be said
  without the walk's stack and without the graph that it goes through.

  * `Climbs`: the declarations met depth first, from left to right, in order of declaration;
  * `Inherits`: one step to a known interface; any number of them is what the walk meets
    (`Of.mem_withInterfacesAbove_iff`);
  * `Collects`: the three root methods and then the first declaration of each other signature;
  * `Of.collects_proxyMethods`: this is the list of a declared interface, whatever cycles and
    diamonds there are above it.
-/
import TypeAtlas.Build.Description
import TypeAtlas.Proofs.Build.Selection
import TypeAtlas.Proofs.Graph.Preorder

namespace TypeAtlas

/-! ## The first of each signature -/

/-- The first method of a signature. -/
def firstWith? (methods : List Method) (signature : String) : Option Method :=
  methods.find? fun method => method.signature == signature

section

variable {base methods : List Method} {method : Method} {signature : String}

theorem firstWith?_append : firstWith? (base ++ methods) signature =
    (firstWith? base signature).or (firstWith? methods signature) :=
  List.find?_append

theorem signature_of_firstWith? (h : firstWith? methods signature = some method) :
    method.signature = signature := by
  simpa using List.find?_some h

theorem mem_of_firstWith? (h : firstWith? methods signature = some method) : method ∈ methods :=
  List.mem_of_find?_eq_some h

theorem isSome_firstWith?_iff :
    (firstWith? methods signature).isSome = true ↔ signature ∈ methods.map Method.signature := by
  rw [firstWith?, List.find?_isSome]
  simp only [List.mem_map, beq_iff_eq]

theorem prefix_foldl_addBySignature (methods base : List Method) :
    base <+: methods.foldl addBySignature base := by
  induction methods generalizing base with
  | nil => exact List.prefix_rfl
  | cons method rest ih =>
    refine List.IsPrefix.trans ?_ (ih (addBySignature base method))
    unfold addBySignature
    split
    · exact List.prefix_rfl
    · exact List.prefix_append ..

theorem mem_of_mem_foldl_addBySignature (h : method ∈ methods.foldl addBySignature base) :
    method ∈ base ∨ method ∈ methods := by
  induction methods generalizing base with
  | nil => exact Or.inl h
  | cons other rest ih =>
    rcases ih h with hmem | hmem
    · unfold addBySignature at hmem
      split at hmem
      · exact Or.inl hmem
      · rcases List.mem_append.1 hmem with hmem | hmem
        · exact Or.inl hmem
        · exact Or.inr (List.mem_cons.2 (Or.inl (List.mem_singleton.1 hmem)))
    · exact Or.inr (List.mem_cons_of_mem _ hmem)

/-- Of the methods of one signature the first is kept. -/
theorem firstWith?_foldl_addBySignature (methods base : List Method) (signature : String) :
    firstWith? (methods.foldl addBySignature base) signature =
      firstWith? (base ++ methods) signature := by
  induction methods generalizing base with
  | nil => rw [List.append_nil, List.foldl_nil]
  | cons method rest ih =>
    rw [List.foldl_cons, ih]
    unfold addBySignature
    split
    · next hknown =>
      -- a method that is left out stands behind one of its signature
      rw [firstWith?_append, firstWith?_append, firstWith?, firstWith?, firstWith?, List.find?_cons]
      cases hsame : method.signature == signature with
      | false => rfl
      | true =>
        have hfound : (base.find? fun other => other.signature == signature).isSome = true := by
          rwa [List.find?_isSome, ← eq_of_beq hsame, ← List.any_eq_true]
        obtain ⟨first, hfirst⟩ := Option.isSome_iff_exists.1 hfound
        rw [hfirst, Option.some_or, Option.some_or]
    · rw [List.append_assoc, List.singleton_append]

theorem nodup_foldl_addBySignature (methods : List Method)
    (h : (base.map Method.signature).Nodup) :
    ((methods.foldl addBySignature base).map Method.signature).Nodup := by
  induction methods generalizing base with
  | nil => exact h
  | cons method rest ih =>
    refine ih ?_
    unfold addBySignature
    split
    · exact h
    · next hnew =>
      rw [List.map_append, List.map_singleton, List.nodup_append]
      refine ⟨h, List.pairwise_singleton .., ?_⟩
      rintro _ hmem _ hother rfl
      obtain ⟨first, hfirst, hsame⟩ := List.mem_map.1 hmem
      refine hnew (List.any_eq_true.2 ⟨first, hfirst, beq_iff_eq.2 ?_⟩)
      exact hsame.trans (List.mem_singleton.1 hother)

end

theorem nodup_rootMethods : (rootMethods.map Method.signature).Nodup := by decide

/-! ## Going up -/

variable (own external : List Declaration)

/-- One step to an interface that is known. -/
def Inherits (lower upper : Declaration) : Prop :=
  ∃ name ∈ lower.interfaces, Known own external name upper

/-- What is met going through names from left to right, from each of them first through its own
    interfaces in the order in which they are declared; `marked` are the names that were met
    before, last first. -/
inductive Climbs : List String → List String → List Declaration → Prop
  | nil (marked : List String) : Climbs marked [] []
  /-- A name that was met is passed over, -/
  | pass {marked rest : List String} {met : List Declaration} {name : String} :
    name ∈ marked → Climbs marked rest met → Climbs marked (name :: rest) met
  /-- and so is one that nobody declares. -/
  | stranger {marked rest : List String} {met : List Declaration} {name : String} :
    (∀ decl, ¬ Known own external name decl) → Climbs marked rest met →
      Climbs marked (name :: rest) met
  /-- Any other is met, then what is above it, then what is left of the rest. -/
  | meet {marked rest : List String} {above after : List Declaration} {name : String}
    {decl : Declaration} :
    name ∉ marked → Known own external name decl →
      Climbs (name :: marked) decl.interfaces above →
      Climbs ((above.map Declaration.name).reverse ++ name :: marked) rest after →
      Climbs marked (name :: rest) (decl :: (above ++ after))

/-- A list holds the three root methods and then, of each other signature, what is met first. -/
structure Collects (decl : Declaration) (methods : List Method) : Prop where
  root : rootMethods <+: methods
  nodup : (methods.map Method.signature).Nodup
  /-- Its signatures are those of the root methods and of the public abstract methods, other than
      static ones, of all that is above the declaration. -/
  mem_signatures_iff : ∀ signature, signature ∈ methods.map Method.signature ↔
    signature ∈ rootMethods.map Method.signature ∨
      ∃ upper, Relation.ReflTransGen (Inherits own external) decl upper ∧
        ∃ method ∈ upper.methods, (method.visibility = .everywhere ∧
          method.modifiers.isStatic = false ∧ method.modifiers.isAbstract = true) ∧
          method.erasedSignature = signature
  /-- The way up is the only one, and what it meets first under a signature is kept. -/
  kept_first : ∃ met, (∀ met', Climbs own external [] [decl.name] met' ↔ met' = met) ∧
    ∀ signature, signature ∉ rootMethods.map Method.signature →
      firstWith? methods signature = firstWith? (met.flatMap Declaration.answeredMethods) signature

variable {own external} {scope : Scope} {decl : Declaration} {marked names met : List String}
  {decls decls' : List Declaration} {name : String}

/-- The way up from the last name. -/
theorem Climbs.single (hnew : name ∉ marked) (hknown : Known own external name decl)
    (habove : Climbs own external (name :: marked) decl.interfaces decls) :
    Climbs own external marked [name] (decl :: decls) := by
  simpa using Climbs.meet hnew hknown habove (.nil _)

theorem MethodDecl.isAnswered_iff {method : MethodDecl} :
    method.isAnswered = true ↔ method.visibility = .everywhere ∧
      method.modifiers.isStatic = false ∧ method.modifiers.isAbstract = true := by
  simp [isAnswered, Visibility.isPublic_iff, and_assoc]

namespace Scope.Of

theorem known_unique (hof : scope.Of own external) {other : Declaration}
    (hdecl : Known own external name decl) (hother : Known own external name other) :
    decl = other :=
  Option.some.inj ((hof.find?_eq_some_iff.2 hdecl).symm.trans (hof.find?_eq_some_iff.2 hother))

/-- There is no choice on the way up. -/
theorem climbs_unique (hof : scope.Of own external) (h : Climbs own external marked names decls)
    (h' : Climbs own external marked names decls') : decls = decls' := by
  induction h generalizing decls' with
  | nil marked =>
    cases h'
    rfl
  | pass hmarked _ ih =>
    cases h' with
    | pass _ hrest => exact ih hrest
    | stranger _ hrest => exact ih hrest
    | meet hnew => exact absurd hmarked hnew
  | stranger hunknown _ ih =>
    cases h' with
    | pass _ hrest => exact ih hrest
    | stranger _ hrest => exact ih hrest
    | meet _ hknown => exact absurd hknown (hunknown _)
  | meet hnew hknown _ _ ihAbove ihAfter =>
    cases h' with
    | pass hmarked => exact absurd hmarked hnew
    | stranger hunknown => exact absurd hknown (hunknown _)
    | meet _ hknown' habove hafter =>
      obtain rfl := hof.known_unique hknown hknown'
      obtain rfl := ihAbove habove
      rw [ihAfter hafter]

theorem known_of_climbs (h : Climbs own external marked names decls) :
    ∀ decl ∈ decls, Known own external decl.name decl := by
  induction h with
  | nil => exact nofun
  | pass _ _ ih => exact ih
  | stranger _ _ ih => exact ih
  | meet _ hknown _ _ ihAbove ihAfter =>
    refine List.forall_mem_cons.2 ⟨(Selection.known_name hknown).2.symm ▸ hknown, fun decl hmem => ?_⟩
    exact (List.mem_append.1 hmem).elim (ihAbove decl) (ihAfter decl)

/-- Names that nobody declares make no difference. -/
theorem climbs_of_filter (hof : scope.Of own external)
    (h : Climbs own external marked (names.filter fun name => (scope.find? name).isSome) decls) :
    Climbs own external marked names decls := by
  induction names generalizing marked decls with
  | nil => exact h
  | cons name rest ih =>
    cases hname : scope.find? name with
    | none =>
      rw [List.filter_cons_of_neg (by simp [hname])] at h
      refine .stranger (fun decl hknown => ?_) (ih h)
      rw [hof.find?_eq_some_iff.2 hknown] at hname
      cases hname
    | some decl =>
      rw [List.filter_cons_of_pos (by simp [hname])] at h
      cases h with
      | pass hmarked hrest => exact .pass hmarked (ih hrest)
      | stranger hunknown => exact absurd (hof.find?_eq_some_iff.1 hname) (hunknown decl)
      | meet hnew hknown habove hafter => exact .meet hnew hknown habove (ih hafter)

theorem interfacesOf_eq (hof : scope.Of own external) (decl : Declaration) :
    scope.interfacesOf decl = decl.interfaces.filter fun name => (scope.find? name).isSome := by
  unfold interfacesOf
  induction decl.interfaces with
  | nil => rfl
  | cons name rest ih =>
    cases hname : scope.find? name with
    | none => simp [hname, ih]
    | some upper =>
      have hsame := (Selection.known_name (hof.find?_eq_some_iff.1 hname)).2
      simp [hname, ih, hsame]

theorem next_interfaceGraph (hof : scope.Of own external) (hknown : Known own external name decl) :
    scope.interfaceGraph.next name =
      decl.interfaces.filter fun name => (scope.find? name).isSome := by
  rw [interfaceGraph, hof.next_graph, hof.find?_eq_some_iff.2 hknown, Option.map_some,
    Option.getD_some, hof.interfacesOf_eq]

/-- A walk by recursion through the graph of interfaces goes up through the declarations. -/
theorem exists_climbs_of_visits (hof : scope.Of own external)
    (h : scope.interfaceGraph.Visits marked names met)
    (hnames : ∀ name ∈ names, (scope.find? name).isSome = true) :
    ∃ decls, decls.map Declaration.name = met ∧ Climbs own external marked names decls := by
  induction h with
  | nil marked => exact ⟨[], rfl, .nil marked⟩
  | pass hmarked _ ih =>
    obtain ⟨decls, hdecls, hclimbs⟩ := ih (List.forall_mem_cons.1 hnames).2
    exact ⟨decls, hdecls, .pass hmarked hclimbs⟩
  | meet hnew _ _ ihBelow ihAfter =>
    obtain ⟨hname, hrest⟩ := List.forall_mem_cons.1 hnames
    obtain ⟨decl, hdecl⟩ := Option.isSome_iff_exists.1 hname
    have hknown := hof.find?_eq_some_iff.1 hdecl
    rw [hof.next_interfaceGraph hknown] at ihBelow
    obtain ⟨above, rfl, habove⟩ := ihBelow fun name hmem => (List.mem_filter.1 hmem).2
    obtain ⟨after, rfl, hafter⟩ := ihAfter hrest
    refine ⟨decl :: (above ++ after), ?_, .meet hnew hknown (hof.climbs_of_filter habove) hafter⟩
    rw [List.map_cons, List.map_append, (Selection.known_name hknown).2]

/-! ## All that is above -/

section

variable (hof : scope.Of own external) (hself : Known own external decl.name decl)

include hof hself

theorem withInterfacesAbove_eq : scope.withInterfacesAbove decl =
    (scope.interfaceGraph.visit [decl.name]).filterMap scope.find? := by
  have hnext : scope.interfaceGraph.next decl.name = scope.interfacesOf decl := by
    rw [hof.next_interfaceGraph hself, hof.interfacesOf_eq]
  obtain ⟨met, hmet⟩ :=
    scope.interfaceGraph.exists_visits [decl.name] (scope.interfacesOf decl)
  rw [withInterfacesAbove, Graph.visit, Graph.visitFrom, if_neg List.not_mem_nil, hnext,
    List.append_nil, hmet.visitFrom_eq]
  simp [hof.find?_eq_some_iff.2 hself]

/-- The declarations are met depth first, from left to right, in order of declaration. -/
theorem climbs_withInterfacesAbove :
    Climbs own external [] [decl.name] (scope.withInterfacesAbove decl) := by
  obtain ⟨decls, hdecls, hclimbs⟩ := hof.exists_climbs_of_visits
    (scope.interfaceGraph.visits_visit [decl.name])
    (List.forall_mem_singleton.2 (by rw [hof.find?_eq_some_iff.2 hself]; rfl))
  have hall : decls.filterMap (fun decl => scope.find? decl.name) = decls := by
    rw [List.filterMap_congr fun decl hmem =>
      hof.find?_eq_some_iff.2 (known_of_climbs hclimbs decl hmem), List.filterMap_some]
  rwa [hof.withInterfacesAbove_eq hself, ← hdecls, List.filterMap_map, Function.comp_def, hall]

/-- What is met is what can be reached from interface to interface. -/
theorem mem_withInterfacesAbove_iff {upper : Declaration} :
    upper ∈ scope.withInterfacesAbove decl ↔
      Relation.ReflTransGen (Inherits own external) decl upper := by
  have hleads : ∀ {lower upper : Declaration} {name other : String},
      Known own external name lower → Known own external other upper →
      (other ∈ scope.interfaceGraph.next name ↔ other ∈ lower.interfaces) := by
    intro lower upper name other hlower hupper
    rw [hof.next_interfaceGraph hlower, List.mem_filter, hof.find?_eq_some_iff.2 hupper]
    simp
  simp only [hof.withInterfacesAbove_eq hself, List.mem_filterMap, hof.find?_eq_some_iff,
    Graph.mem_visit, List.mem_singleton, exists_eq_left]
  constructor
  · rintro ⟨name, hreaches, hupper⟩
    induction hreaches generalizing upper with
    | refl =>
      obtain rfl := hof.known_unique hself hupper
      exact .refl
    | @step b c _ hstep ih =>
      obtain ⟨lower, hlower, -⟩ := hof.mem_next_graph.1 hstep
      exact (ih hlower).tail ⟨c, (hleads hlower hupper).1 hstep, hupper⟩
  · intro hreaches
    induction hreaches with
    | refl => exact ⟨decl.name, .refl _, hself⟩
    | tail _ hstep ih =>
      obtain ⟨name, hreached, hlower⟩ := ih
      obtain ⟨other, hother, hupper⟩ := hstep
      exact ⟨other, hreached.step ((hleads hlower hupper).2 hother), hupper⟩

/-- A stand-in answers nothing but the root methods and what is declared there or above. -/
theorem exists_mem_answeredMethods {method : Method} (h : method ∈ scope.proxyMethods decl) :
    method ∈ rootMethods ∨ ∃ upper, Relation.ReflTransGen (Inherits own external) decl upper ∧
      method ∈ upper.answeredMethods := by
  refine (mem_of_mem_foldl_addBySignature h).imp_right fun hmem => ?_
  obtain ⟨upper, hupper, hmethod⟩ := List.mem_flatMap.1 hmem
  exact ⟨upper, (hof.mem_withInterfacesAbove_iff hself).1 hupper, hmethod⟩

/-- **The list of a declared interface collects the first declaration of each signature.** -/
theorem collects_proxyMethods : Collects own external decl (scope.proxyMethods decl) where
  root := prefix_foldl_addBySignature ..
  nodup := nodup_foldl_addBySignature _ nodup_rootMethods
  mem_signatures_iff signature := by
    rw [proxyMethods, ← isSome_firstWith?_iff, firstWith?_foldl_addBySignature,
      isSome_firstWith?_iff, List.map_append, List.mem_append]
    refine or_congr_right ?_
    simp only [List.mem_map, List.mem_flatMap, Declaration.answeredMethods, List.mem_filter,
      hof.mem_withInterfacesAbove_iff hself, MethodDecl.isAnswered_iff]
    constructor
    · rintro ⟨_, ⟨upper, hupper, method, ⟨hmethod, hanswered⟩, rfl⟩, rfl⟩
      exact ⟨upper, hupper, method, hmethod, hanswered, rfl⟩
    · rintro ⟨upper, hupper, method, hmethod, hanswered, rfl⟩
      exact ⟨_, ⟨upper, hupper, method, ⟨hmethod, hanswered⟩, rfl⟩, rfl⟩
  kept_first := by
    have hclimbs := hof.climbs_withInterfacesAbove hself
    refine ⟨_, fun met' => ⟨fun h => hof.climbs_unique h hclimbs, fun h => h ▸ hclimbs⟩, ?_⟩
    intro signature hroot
    rw [← isSome_firstWith?_iff, Option.not_isSome_iff_eq_none] at hroot
    rw [proxyMethods, firstWith?_foldl_addBySignature, firstWith?_append, hroot, Option.none_or]

end

end Scope.Of

end TypeAtlas
