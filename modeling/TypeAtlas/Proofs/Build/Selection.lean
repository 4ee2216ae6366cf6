/-
  What is selected.

  * `mem_classes_iff`, `mem_publicTypes_iff`: what types and public members
    mention;
  * `Scope.Of`: a scope of declarations whose names are normal;
  * `mem_widen_iff`: a directive leads, but for the name that it starts from, to
    the names that it stands for;
  * `mem_ofSeeds`: the three sets of a selection, name by name.
-/
import TypeAtlas.Build.Selection
import TypeAtlas.Proofs.Build.Catalog
import TypeAtlas.Proofs.Build.Related
import TypeAtlas.Proofs.Graph
import TypeAtlas.Proofs.Name.Normal

namespace TypeAtlas

/-! ## What types and members mention -/

namespace TypeExpr

theorem classesOfAll_eq (exprs : List TypeExpr) : classesOfAll exprs = exprs.flatMap classes := by
  induction exprs with
  | nil => rfl
  | cons expr rest ih => rw [classesOfAll, List.flatMap_cons, ih]

theorem mem_classes_of_mentions {expr : TypeExpr} {name : String} (h : expr.Mentions name) :
    name ∈ expr.classes := by
  induction h with
  | named => exact List.mem_singleton_self _
  | raw => exact List.mem_cons_self
  | owner _ ih => exact List.mem_cons_of_mem _ (List.mem_append_left _ ih)
  | arg hmem _ ih =>
    refine List.mem_cons_of_mem _ (List.mem_append_right _ ?_)
    rw [classesOfAll_eq]
    exact List.mem_flatMap.2 ⟨_, hmem, ih⟩
  | bound hmem _ ih =>
    rw [classes, classesOfAll_eq]
    exact List.mem_flatMap.2 ⟨_, hmem, ih⟩
  | upper hmem _ ih =>
    rw [classes, classesOfAll_eq]
    exact List.mem_append_left _ (List.mem_flatMap.2 ⟨_, hmem, ih⟩)
  | lower hmem _ ih =>
    rw [classes, classesOfAll_eq, classesOfAll_eq]
    exact List.mem_append_right _ (List.mem_flatMap.2 ⟨_, hmem, ih⟩)
  | component _ ih => exact ih

mutual

theorem mentions_of_mem_classes {name : String} :
    (expr : TypeExpr) → name ∈ expr.classes → expr.Mentions name
  | .named other, h => List.mem_singleton.1 h ▸ .named other
  | .applied raw owner args, h => by
    rcases List.mem_cons.1 h with rfl | h
    · exact .raw name owner args
    · rcases List.mem_append.1 h with h | h
      · obtain ⟨expr, rfl, hexpr⟩ := mentions_of_mem_classesOfOwner owner h
        exact .owner hexpr
      · obtain ⟨expr, hmem, hexpr⟩ := mentions_of_mem_classesOfAll args h
        exact .arg hmem hexpr
  | .typeVar _ bounds, h => by
    obtain ⟨expr, hmem, hexpr⟩ := mentions_of_mem_classesOfAll bounds h
    exact .bound hmem hexpr
  | .wildcard upper lower, h => by
    rcases List.mem_append.1 h with h | h
    · obtain ⟨expr, hmem, hexpr⟩ := mentions_of_mem_classesOfAll upper h
      exact .upper hmem hexpr
    · obtain ⟨expr, hmem, hexpr⟩ := mentions_of_mem_classesOfAll lower h
      exact .lower hmem hexpr
  | .array component, h => .component (mentions_of_mem_classes component h)

theorem mentions_of_mem_classesOfOwner {name : String} :
    (owner : Option TypeExpr) → name ∈ classesOfOwner owner →
      ∃ expr, owner = some expr ∧ expr.Mentions name
  | none, h => absurd h List.not_mem_nil
  | some owner, h => ⟨owner, rfl, mentions_of_mem_classes owner h⟩

theorem mentions_of_mem_classesOfAll {name : String} :
    (exprs : List TypeExpr) → name ∈ classesOfAll exprs →
      ∃ expr ∈ exprs, expr.Mentions name
  | [], h => absurd h List.not_mem_nil
  | expr :: rest, h => by
    rcases List.mem_append.1 h with h | h
    · exact ⟨expr, List.mem_cons_self, mentions_of_mem_classes expr h⟩
    · obtain ⟨other, hmem, hother⟩ := mentions_of_mem_classesOfAll rest h
      exact ⟨other, List.mem_cons_of_mem _ hmem, hother⟩

end

theorem mem_classes_iff {expr : TypeExpr} {name : String} :
    name ∈ expr.classes ↔ expr.Mentions name :=
  ⟨mentions_of_mem_classes expr, mem_classes_of_mentions⟩

end TypeExpr

theorem Visibility.isPublic_iff {visibility : Visibility} :
    visibility.isPublic = true ↔ visibility = .everywhere := by
  cases visibility <;> decide

namespace Declaration

theorem signs_of_mem_publicTypes {decl : Declaration} {expr : TypeExpr}
    (h : expr ∈ decl.publicTypes) : decl.Signs expr := by
  simp only [publicTypes, publicFields, publicMethods, publicConstructors, List.mem_append,
    List.mem_flatMap, List.mem_filter, Visibility.isPublic_iff, FieldDecl.mentions,
    MethodDecl.mentions, ConstructorDecl.mentions, List.mem_cons, List.mem_map,
    List.not_mem_nil, or_false] at h
  rcases h with (⟨field, ⟨hmem, hpublic⟩, rfl⟩ | ⟨method, ⟨hmem, hpublic⟩, hexpr⟩) |
    ⟨ctor, ⟨hmem, hpublic⟩, hexpr⟩
  · exact .field hmem hpublic
  · rcases hexpr with rfl | ⟨parameter, hparameter, rfl⟩ | hexpr
    · exact .returns hmem hpublic
    · exact .parameter hmem hpublic hparameter
    · exact .throws hmem hpublic hexpr
  · rcases hexpr with ⟨parameter, hparameter, rfl⟩ | hexpr
    · exact .ctorParameter hmem hpublic hparameter
    · exact .ctorThrows hmem hpublic hexpr

theorem mem_publicTypes_of_signs {decl : Declaration} {expr : TypeExpr}
    (h : decl.Signs expr) : expr ∈ decl.publicTypes := by
  simp only [publicTypes, publicFields, publicMethods, publicConstructors, List.mem_append,
    List.mem_flatMap, List.mem_filter, Visibility.isPublic_iff, FieldDecl.mentions,
    MethodDecl.mentions, ConstructorDecl.mentions, List.mem_cons, List.mem_map,
    List.not_mem_nil, or_false]
  cases h with
  | field hmem hpublic => exact Or.inl (Or.inl ⟨_, ⟨hmem, hpublic⟩, rfl⟩)
  | returns hmem hpublic => exact Or.inl (Or.inr ⟨_, ⟨hmem, hpublic⟩, Or.inl rfl⟩)
  | parameter hmem hpublic hparameter =>
    exact Or.inl (Or.inr ⟨_, ⟨hmem, hpublic⟩, Or.inr (Or.inl ⟨_, hparameter, rfl⟩)⟩)
  | throws hmem hpublic hexpr =>
    exact Or.inl (Or.inr ⟨_, ⟨hmem, hpublic⟩, Or.inr (Or.inr hexpr)⟩)
  | ctorParameter hmem hpublic hparameter =>
    exact Or.inr ⟨_, ⟨hmem, hpublic⟩, Or.inl ⟨_, hparameter, rfl⟩⟩
  | ctorThrows hmem hpublic hexpr => exact Or.inr ⟨_, ⟨hmem, hpublic⟩, Or.inr hexpr⟩

theorem mem_publicTypes_iff {decl : Declaration} {expr : TypeExpr} :
    expr ∈ decl.publicTypes ↔ decl.Signs expr :=
  ⟨signs_of_mem_publicTypes, mem_publicTypes_of_signs⟩

end Declaration

/-! ## Scopes -/

/-- A scope of the given declarations. -/
structure Scope.Of (scope : Scope) (own external : List Declaration) : Prop where
  /-- Its catalog. -/
  catalog : Catalog.ofList own = .ok scope.catalog
  /-- What comes from outside. -/
  external : Catalog.ofList external = .ok scope.external

/-- Names of types and of their supertypes that are normal. -/
def NormalNames (decls : List Declaration) : Prop :=
  ∀ decl ∈ decls, ∀ name ∈ decl.name :: decl.supertypes, Name.normalForm? name = some name

namespace Scope

variable {scope : Scope} {own external : List Declaration} {name a b : String}
  {decl : Declaration} {role : Role}

theorem Of.find?_catalog_iff (h : scope.Of own external) :
    scope.catalog.find? name = some decl ↔ decl ∈ own ∧ decl.name = name := by
  obtain ⟨hsound, hdecls⟩ := Catalog.sound_of_ofList h.catalog
  rw [hsound.toNumbered.find?_eq_some_iff, hdecls]

theorem Of.find?_external_iff (h : scope.Of own external) :
    scope.external.find? name = some decl ↔ decl ∈ external ∧ decl.name = name := by
  obtain ⟨hsound, hdecls⟩ := Catalog.sound_of_ofList h.external
  rw [hsound.toNumbered.find?_eq_some_iff, hdecls]

theorem Of.contains_iff (h : scope.Of own external) :
    scope.catalog.contains name = true ↔ Declared own name := by
  obtain ⟨hsound, hdecls⟩ := Catalog.sound_of_ofList h.catalog
  rw [hsound.toNumbered.contains_iff, hdecls]
  rfl

/-- A name is looked up in the build first. -/
theorem Of.find?_eq_some_iff (h : scope.Of own external) :
    scope.find? name = some decl ↔ Known own external name decl := by
  unfold Scope.find? Known
  cases hfind : scope.catalog.find? name with
  | none =>
    have hnot : ¬ Declared own name := by
      rintro ⟨found, hfound⟩
      rw [h.find?_catalog_iff.2 hfound] at hfind
      cases hfind
    rw [Option.none_or, h.find?_external_iff]
    constructor
    · exact fun hdecl => Or.inr ⟨hnot, hdecl⟩
    · rintro (hdecl | hdecl)
      · exact absurd ⟨_, hdecl⟩ hnot
      · exact hdecl.2
  | some found =>
    rw [Option.some_or, ← hfind, h.find?_catalog_iff]
    constructor
    · exact Or.inl
    · rintro (hdecl | hdecl)
      · exact hdecl
      · exact absurd ⟨found, h.find?_catalog_iff.1 hfind⟩ hdecl.1

theorem Of.mem_names_of_known (h : scope.Of own external)
    (hknown : Known own external name decl) : name ∈ scope.names := by
  obtain ⟨-, hown⟩ := Catalog.sound_of_ofList h.catalog
  obtain ⟨-, hexternal⟩ := Catalog.sound_of_ofList h.external
  unfold names Catalog.names
  rw [hown, hexternal]
  rcases hknown with ⟨hmem, rfl⟩ | ⟨-, hmem, rfl⟩
  · exact List.mem_append_left _ (List.mem_map_of_mem hmem)
  · exact List.mem_append_right _ (List.mem_map_of_mem hmem)

/-- The graph of a scope leads from a name to what is made of its declaration. -/
theorem Of.next_graph (h : scope.Of own external) {f : Declaration → List String} :
    (scope.graph f).next a = ((scope.find? a).map f).getD [] := by
  have hfind := Table.find?_ofList_filterMap scope.names (fun n => (scope.find? n).map f) a
  simp only [Option.map_map, Function.comp_def] at hfind
  unfold Graph.next graph
  rw [hfind]
  split
  · rfl
  · next hnot =>
    have hnone : scope.find? a = none := Option.eq_none_iff_forall_ne_some.2 fun decl ha =>
      hnot (h.mem_names_of_known (h.find?_eq_some_iff.1 ha))
    rw [hnone]
    rfl

theorem Of.mem_next_graph (h : scope.Of own external) {f : Declaration → List String} :
    b ∈ (scope.graph f).next a ↔ ∃ decl, Known own external a decl ∧ b ∈ f decl := by
  simp only [h.next_graph, ← h.find?_eq_some_iff]
  cases scope.find? a <;> simp

end Scope

namespace Selection

variable {scope : Scope} {own external : List Declaration} {name a b : String}
  {decl : Declaration} {role : Role} {seeds : List Seed}

theorem isInterface_iff (h : scope.Of own external) :
    isInterface scope name = true ↔ KnownInterface own external name := by
  simp only [isInterface, Option.any_eq_true, h.find?_eq_some_iff, KnownInterface,
    Declaration.isInterface, beq_iff_eq]

/-! ## Steps up to loops -/

/-- Walks do not see the steps from a name to itself. -/
theorem reaches_iff {graph : Graph} {r : String → String → Prop}
    (h : ∀ a b, b ∈ graph.next a ↔ r a b ∧ a ≠ b) :
    graph.Reaches a b ↔ Relation.ReflTransGen r a b := by
  constructor
  · intro hr
    induction hr with
    | refl => exact .refl
    | step _ hs ih => exact ih.tail ((h _ _).1 hs).1
  · intro hr
    induction hr with
    | refl => exact .refl a
    | @tail m n _ hs ih =>
      by_cases hmn : m = n
      · exact hmn ▸ ih
      · exact ih.step ((h _ _).2 ⟨hs, hmn⟩)

/-! ## Steps down -/

theorem declared_of_below (h : Below own role a b) : Declared own b := by
  obtain ⟨decl, hmem, hname, -⟩ := h
  exact ⟨decl, hmem, hname⟩

theorem mem_subtypesBelow (h : scope.Of own external) :
    b ∈ subtypesBelow scope role a ↔ (Declared own a ∧ Below own role a b) ∧ a ≠ b := by
  obtain ⟨hsound, hdecls⟩ := Catalog.sound_of_ofList h.catalog
  unfold subtypesBelow
  rw [hsound.subtypesOf_eq, hdecls]
  by_cases ha : scope.catalog.contains a = true
  · rw [if_pos ha]
    have hdeclared := h.contains_iff.1 ha
    simp only [List.mem_map, List.mem_filter, decide_eq_true_eq, Catalog.mem_parents, Below]
    have htaken : ∀ decl : Declaration, admitsSubtype role decl = true ↔
        (role = .proxy → decl.kind = .interface) := by
      intro decl
      cases role <;> simp [admitsSubtype, Declaration.isInterface]
    constructor
    · rintro ⟨decl, ⟨⟨hmem, hsuper, hne⟩, hadmitted⟩, rfl⟩
      exact ⟨⟨hdeclared, decl, hmem, rfl, hsuper, (htaken decl).1 hadmitted⟩, hne⟩
    · rintro ⟨⟨-, decl, hmem, rfl, hsuper, hadmitted⟩, hne⟩
      exact ⟨decl, ⟨⟨hmem, hsuper, hne⟩, (htaken decl).2 hadmitted⟩, rfl⟩
  · rw [if_neg ha]
    have hnot : ¬ Declared own a := fun hd => ha (h.contains_iff.2 hd)
    simp [hnot]

theorem mem_next_subtypeGraph (h : scope.Of own external) :
    b ∈ (subtypeGraph scope role).next a ↔ (Declared own a ∧ Below own role a b) ∧ a ≠ b := by
  obtain ⟨-, hdecls⟩ := Catalog.sound_of_ofList h.catalog
  have hfind := Table.find?_ofList_filterMap scope.catalog.names
    (fun n => some (subtypesBelow scope role n)) a
  simp only [Option.map_some, List.filterMap_eq_map'] at hfind
  unfold Graph.next subtypeGraph
  rw [hfind]
  split
  · exact mem_subtypesBelow h
  · next hnot =>
    have hnone : ¬ Declared own a := by
      rintro ⟨decl, hmem, rfl⟩
      refine hnot ?_
      rw [Catalog.names, hdecls]
      exact List.mem_map_of_mem hmem
    simp [hnone]

/-- Steps down from declared names only are steps down from a declared name. -/
theorem transGen_below_iff :
    Relation.TransGen (fun a b => Declared own a ∧ Below own role a b) a b ↔
      Declared own a ∧ Relation.TransGen (Below own role) a b := by
  constructor
  · intro hr
    induction hr with
    | single hs => exact ⟨hs.1, .single hs.2⟩
    | tail _ hs ih => exact ⟨ih.1, ih.2.tail hs.2⟩
  · rintro ⟨ha, hr⟩
    induction hr with
    | single hs => exact .single ⟨ha, hs⟩
    | @tail m n hm hs ih =>
      have hdeclared : Declared own m := by
        cases hm with
        | single hs => exact declared_of_below hs
        | tail _ hs => exact declared_of_below hs
      exact ih.tail ⟨hdeclared, hs⟩

/-- All names below a declared name are found, and none below others. -/
theorem mem_allBelow (h : scope.Of own external) :
    b = a ∨ b ∈ allBelow scope role a ↔
      b = a ∨ Declared own a ∧ Relation.TransGen (Below own role) a b := by
  rw [allBelow, Graph.mem_discover, reaches_iff fun _ _ => mem_next_subtypeGraph h,
    Relation.reflTransGen_iff_eq_or_transGen, transGen_below_iff]

/-! ## Steps up -/

theorem mem_directlyAbove (h : scope.Of own external) :
    b ∈ directlyAbove scope role a ↔ DirectlyAbove own external role a b := by
  unfold directlyAbove DirectlyAbove
  constructor
  · intro hb
    cases ha : scope.find? a with
    | none =>
      rw [ha] at hb
      cases hb
    | some decl =>
      rw [ha] at hb
      refine ⟨decl, h.find?_eq_some_iff.1 ha, ?_⟩
      cases role <;> exact hb
  · rintro ⟨decl, hknown, hb⟩
    rw [h.find?_eq_some_iff.2 hknown]
    cases role <;> exact hb

/-- Supertypes with normal names are followed as they are written. -/
theorem mem_normalParents (hnormal : ∀ name ∈ decl.supertypes, Name.normalForm? name = some name) :
    b ∈ normalParents decl ↔ b ∈ decl.supertypes ∧ b ≠ decl.name := by
  have hsame : decl.supertypes.filterMap Name.normalForm? = decl.supertypes := by
    rw [List.filterMap_congr hnormal]
    exact List.filterMap_some
  simp [normalParents, hsame]

theorem known_name (hknown : Known own external name decl) :
    decl ∈ own ++ external ∧ decl.name = name := by
  rcases hknown with ⟨hmem, hname⟩ | ⟨-, hmem, hname⟩
  · exact ⟨List.mem_append_left _ hmem, hname⟩
  · exact ⟨List.mem_append_right _ hmem, hname⟩

theorem mem_next_parentGraph (h : scope.Of own external) (hn : NormalNames (own ++ external)) :
    b ∈ (parentGraph scope).next a ↔ Above own external a b ∧ a ≠ b := by
  unfold parentGraph
  rw [h.mem_next_graph]
  constructor
  · rintro ⟨decl, hknown, hb⟩
    obtain ⟨hmem, hname⟩ := known_name hknown
    rw [mem_normalParents (List.forall_mem_cons.1 (hn decl hmem)).2] at hb
    exact ⟨⟨decl, hknown, hb.1⟩, fun hab => hb.2 (hname.trans hab).symm⟩
  · rintro ⟨⟨decl, hknown, hb⟩, hab⟩
    obtain ⟨hmem, hname⟩ := known_name hknown
    refine ⟨decl, hknown, ?_⟩
    rw [mem_normalParents (List.forall_mem_cons.1 (hn decl hmem)).2]
    exact ⟨hb, fun hbn => hab (hname.symm.trans hbn.symm)⟩

/-- All names above a name are found. -/
theorem mem_allAbove (h : scope.Of own external) (hn : NormalNames (own ++ external))
    (ha : Name.normalForm? a = some a) :
    b = a ∨ b ∈ allAbove scope a ↔ b = a ∨ Relation.TransGen (Above own external) a b := by
  have hreaches : ∀ m, (parentGraph scope).reverseLists.Reaches a m ↔
      Relation.ReflTransGen (Above own external) a m := fun m =>
    reaches_iff fun _ _ => Graph.mem_next_reverseLists.trans (mem_next_parentGraph h hn)
  have hmem : b ∈ allAbove scope a ↔ ∃ m, Relation.ReflTransGen (Above own external) a m ∧
      Above own external m b ∧ m ≠ b := by
    simp only [allAbove, ha, List.mem_flatMap, Graph.mem_visit, List.mem_singleton,
      exists_eq_left, hreaches, mem_next_parentGraph h hn]
  rw [hmem]
  clear hmem
  constructor
  · rintro (rfl | ⟨m, hm, hs, -⟩)
    · exact Or.inl rfl
    · exact Or.inr (.tail' hm hs)
  · rintro (rfl | hr)
    · exact Or.inl rfl
    · induction hr with
      | @single b hs =>
        by_cases hab : a = b
        · exact Or.inl hab.symm
        · exact Or.inr ⟨a, .refl, hs, hab⟩
      | @tail m b hm hs ih =>
        by_cases hmb : m = b
        · exact hmb ▸ ih
        · exact Or.inr ⟨m, hm.to_reflTransGen, hs, hmb⟩

/-! ## Public members -/

theorem mem_publicApi (h : scope.Of own external) :
    b ∈ publicApi scope a ↔ Exposes own external a b := by
  have hclasses : ∀ decl : Declaration,
      b ∈ (NameSet.empty.insertAll
        ((TypeExpr.classesOfAll decl.publicTypes).filterMap Name.normalForm?)).toList ↔
      ∃ expr, decl.Signs expr ∧ ∃ written, expr.Mentions written ∧
        Name.normalForm? written = some b := by
    intro decl
    rw [← NameSet.mem_def, NameSet.mem_insertAll]
    simp only [NameSet.not_mem_empty, false_or, List.mem_filterMap, TypeExpr.classesOfAll_eq,
      List.mem_flatMap, Declaration.mem_publicTypes_iff, TypeExpr.mem_classes_iff]
    constructor
    · rintro ⟨written, ⟨expr, hsigns, hmentions⟩, hform⟩
      exact ⟨expr, hsigns, written, hmentions, hform⟩
    · rintro ⟨expr, hsigns, written, hmentions, hform⟩
      exact ⟨written, ⟨expr, hsigns, hmentions⟩, hform⟩
  unfold publicApi Exposes
  constructor
  · intro hb
    cases ha : scope.find? a with
    | none =>
      rw [ha] at hb
      cases hb
    | some decl =>
      rw [ha] at hb
      exact ⟨decl, h.find?_eq_some_iff.1 ha, (hclasses decl).1 hb⟩
  · rintro ⟨decl, hknown, hb⟩
    rw [h.find?_eq_some_iff.2 hknown]
    exact (hclasses decl).2 hb

theorem normal_of_exposes (h : Exposes own external a b) : Name.normalForm? b = some b := by
  obtain ⟨_, _, _, _, _, _, hform⟩ := h
  exact Name.normalForm?_of_normalForm? hform

/-! ## Directives -/

/-- Names found in public members, with what each of them leads to. -/
theorem mem_append_flatMap_iff {p : String → Prop} {q : String → String → Prop} {found : List String}
    {f : String → List String} (hfound : ∀ c, c ∈ found ↔ p c)
    (hf : ∀ c, p c → (b = c ∨ b ∈ f c ↔ b = c ∨ q c b)) :
    b ∈ found ++ found.flatMap f ↔ p b ∨ ∃ c, p c ∧ q c b := by
  rw [List.mem_append, List.mem_flatMap, hfound]
  constructor
  · rintro (hb | ⟨c, hc, hb⟩)
    · exact Or.inl hb
    · have hpc := (hfound c).1 hc
      rcases (hf c hpc).1 (Or.inr hb) with rfl | hq
      · exact Or.inl hpc
      · exact Or.inr ⟨c, hpc, hq⟩
  · rintro (hb | ⟨c, hpc, hq⟩)
    · exact Or.inl hb
    · rcases (hf c hpc).2 (Or.inr hq) with rfl | hb
      · exact Or.inl hpc
      · exact Or.inr ⟨c, (hfound c).2 hpc, hb⟩

/-- **A directive leads, but for the name that it starts from, to the names it stands for.** -/
theorem mem_widen_iff (h : scope.Of own external) (hn : NormalNames (own ++ external))
    (ha : Name.normalForm? a = some a) (directive : Directive) :
    b = a ∨ b ∈ widen scope role a directive ↔
      b = a ∨ Widens own external role directive a b := by
  cases directive with
  | directSubtypes =>
    rw [widen, mem_subtypesBelow h]
    constructor
    · rintro (rfl | hb)
      · exact Or.inl rfl
      · exact Or.inr hb.1
    · rintro (rfl | hb)
      · exact Or.inl rfl
      · by_cases hab : a = b
        · exact Or.inl hab.symm
        · exact Or.inr ⟨hb, hab⟩
  | allSubtypes => exact mem_allBelow h
  | directSupertypes => rw [widen, mem_directlyAbove h, Widens]
  | allSupertypes => exact mem_allAbove h hn ha
  | publicApi => rw [widen, mem_publicApi h, Widens]
  | publicApiSupertypes =>
    rw [widen, mem_append_flatMap_iff (fun _ => mem_publicApi h) fun c hc =>
      mem_allAbove h hn (normal_of_exposes hc)]
    rfl
  | publicApiSubtypes =>
    rw [widen, mem_append_flatMap_iff (fun _ => mem_publicApi h)
      (q := fun c b => Declared own c ∧ Relation.TransGen (Below own role) c b)
      fun c _ => mem_allBelow h]
    rfl

/-! ## Normal names -/

theorem normal_of_below (hn : NormalNames (own ++ external)) (h : Below own role a b) :
    Name.normalForm? b = some b := by
  obtain ⟨decl, hmem, rfl, -⟩ := h
  exact hn decl (List.mem_append_left _ hmem) _ List.mem_cons_self

theorem normal_of_above (hn : NormalNames (own ++ external)) (h : Above own external a b) :
    Name.normalForm? b = some b := by
  obtain ⟨decl, hknown, hb⟩ := h
  exact hn decl (known_name hknown).1 _ (List.mem_cons_of_mem _ hb)

theorem above_of_directlyAbove (h : DirectlyAbove own external role a b) :
    Above own external a b := by
  obtain ⟨decl, hknown, hb⟩ := h
  refine ⟨decl, hknown, ?_⟩
  cases role with
  | reflective => exact hb
  | proxy => exact List.mem_append_right _ hb

theorem target_of_transGen {r : String → String → Prop} {p : String → Prop}
    (hp : ∀ a b, r a b → p b) (h : Relation.TransGen r a b) : p b := by
  cases h with
  | single hs => exact hp _ _ hs
  | tail _ hs => exact hp _ _ hs

/-- What a directive leads to is normal. -/
theorem normal_of_widens (hn : NormalNames (own ++ external)) {directive : Directive}
    (h : Widens own external role directive a b) : Name.normalForm? b = some b := by
  have hbelow : ∀ a b, Below own role a b → Name.normalForm? b = some b :=
    fun _ _ => normal_of_below hn
  have habove : ∀ a b, Above own external a b → Name.normalForm? b = some b :=
    fun _ _ => normal_of_above hn
  cases directive with
  | directSubtypes => exact hbelow _ _ h.2
  | allSubtypes => exact target_of_transGen hbelow h.2
  | directSupertypes => exact habove _ _ (above_of_directlyAbove h)
  | allSupertypes => exact target_of_transGen habove h
  | publicApi => exact normal_of_exposes h
  | publicApiSupertypes =>
    rcases h with h | ⟨found, -, h⟩
    · exact normal_of_exposes h
    · exact target_of_transGen habove h
  | publicApiSubtypes =>
    rcases h with h | ⟨found, -, -, h⟩
    · exact normal_of_exposes h
    · exact target_of_transGen hbelow h

/-! ## Seeds -/

/-- What a seed offers in its own role. -/
theorem mem_offers_self (h : scope.Of own external) (hn : NormalNames (own ++ external))
    {seed : Seed} (hseed : Name.normalForm? seed.name = some seed.name) :
    b ∈ offers scope seed.role seed ↔ b = seed.name ∨
      ∃ directive ∈ seed.directives, Widens own external seed.role directive seed.name b := by
  simp only [offers, if_true, List.mem_cons, List.mem_flatMap]
  constructor
  · rintro (hb | ⟨directive, hd, hb⟩)
    · exact Or.inl hb
    · rcases (mem_widen_iff h hn hseed directive).1 (Or.inr hb) with hb | hb
      · exact Or.inl hb
      · exact Or.inr ⟨directive, hd, hb⟩
  · rintro (hb | ⟨directive, hd, hb⟩)
    · exact Or.inl hb
    · rcases (mem_widen_iff h hn hseed directive).2 (Or.inr hb) with hb | hb
      · exact Or.inl hb
      · exact Or.inr ⟨directive, hd, hb⟩

theorem mem_admitted : name ∈ admitted scope role seeds ↔
    ∃ seed ∈ seeds, ∃ offered ∈ offers scope role seed, admit? scope role offered = some name := by
  simp only [admitted, NameSet.mem_insertAll, NameSet.not_mem_empty, false_or,
    List.mem_filterMap, List.mem_flatMap]
  constructor
  · rintro ⟨offered, ⟨seed, hseed, hoffered⟩, htaken⟩
    exact ⟨seed, hseed, offered, hoffered, htaken⟩
  · rintro ⟨seed, hseed, offered, hoffered, htaken⟩
    exact ⟨offered, ⟨seed, hseed, hoffered⟩, htaken⟩

/-- Only interfaces can have stand-ins. -/
theorem isInterface_of_mem_proxyable (h : name ∈ (ofSeeds scope seeds).proxyable) :
    isInterface scope name = true := by
  obtain ⟨_, -, _, -, htaken⟩ := mem_admitted.1 h
  exact (Option.filter_eq_some_iff.1 htaken).2

/-- Seeds for introspection leave nothing to stand-ins. -/
theorem not_mem_proxyable (h : ∀ seed ∈ seeds, seed.role = .reflective) :
    name ∉ (ofSeeds scope seeds).proxyable := by
  intro hmem
  obtain ⟨seed, hseed, offered, hoffered, -⟩ := mem_admitted.1 hmem
  simp [offers, h seed hseed] at hoffered

/-- A normal name is admitted as it is. -/
theorem admit?_eq_some_iff (h : scope.Of own external) (ha : Name.normalForm? a = some a) :
    admit? scope role a = some name ↔
      a = name ∧ (role = .proxy → KnownInterface own external name) := by
  rw [admit?, ha, ← isInterface_iff h]
  cases role with
  | reflective => simp
  | proxy =>
    simp only [Option.filter_some, forall_const]
    constructor
    · intro htaken
      split at htaken
      · next hinterface =>
        cases htaken
        exact ⟨rfl, hinterface⟩
      · cases htaken
    · rintro ⟨rfl, hinterface⟩
      rw [if_pos hinterface]

/-- Of what a seed offers in its own role, what the role admits is taken. -/
theorem exists_offered_iff (h : scope.Of own external) (hn : NormalNames (own ++ external))
    {seed : Seed} (hseed : Name.normalForm? seed.name = some seed.name) :
    (∃ offered ∈ offers scope seed.role seed, admit? scope seed.role offered = some name) ↔
      (seed.role = .proxy → KnownInterface own external name) ∧ (seed.name = name ∨
        ∃ directive ∈ seed.directives,
          Widens own external seed.role directive seed.name name) := by
  constructor
  · rintro ⟨offered, hoffered, htaken⟩
    rw [mem_offers_self h hn hseed] at hoffered
    rcases hoffered with rfl | ⟨directive, hd, hw⟩
    · obtain ⟨rfl, hrole⟩ := (admit?_eq_some_iff h hseed).1 htaken
      exact ⟨hrole, Or.inl rfl⟩
    · obtain ⟨rfl, hrole⟩ := (admit?_eq_some_iff h (normal_of_widens hn hw)).1 htaken
      exact ⟨hrole, Or.inr ⟨directive, hd, hw⟩⟩
  · rintro ⟨hrole, rfl | ⟨directive, hd, hw⟩⟩
    · exact ⟨seed.name, (mem_offers_self h hn hseed).2 (Or.inl rfl),
        (admit?_eq_some_iff h hseed).2 ⟨rfl, hrole⟩⟩
    · exact ⟨name, (mem_offers_self h hn hseed).2 (Or.inr ⟨directive, hd, hw⟩),
        (admit?_eq_some_iff h (normal_of_widens hn hw)).2 ⟨rfl, hrole⟩⟩

theorem mem_admitted_proxy (h : scope.Of own external) (hn : NormalNames (own ++ external))
    (hseeds : ∀ seed ∈ seeds, Name.normalForm? seed.name = some seed.name) :
    name ∈ admitted scope .proxy seeds ↔
      KnownInterface own external name ∧ ∃ seed ∈ seeds, seed.role = .proxy ∧
        (seed.name = name ∨ ∃ directive ∈ seed.directives,
          Widens own external .proxy directive seed.name name) := by
  rw [mem_admitted]
  constructor
  · rintro ⟨seed, hseed, hoffered⟩
    by_cases hrole : seed.role = .proxy
    · rw [← hrole, exists_offered_iff h hn (hseeds seed hseed)] at hoffered
      exact ⟨hoffered.1 hrole, seed, hseed, hrole, hrole ▸ hoffered.2⟩
    · obtain ⟨offered, hoffered, -⟩ := hoffered
      simp [offers, hrole] at hoffered
  · rintro ⟨hinterface, seed, hseed, hrole, hname⟩
    refine ⟨seed, hseed, ?_⟩
    rw [← hrole, exists_offered_iff h hn (hseeds seed hseed)]
    exact ⟨fun _ => hinterface, hrole ▸ hname⟩

theorem mem_admitted_reflective (h : scope.Of own external) (hn : NormalNames (own ++ external))
    (hseeds : ∀ seed ∈ seeds, Name.normalForm? seed.name = some seed.name) :
    name ∈ admitted scope .reflective seeds ↔
      (∃ seed ∈ seeds, seed.name = name) ∨ ∃ seed ∈ seeds, seed.role = .reflective ∧
        ∃ directive ∈ seed.directives,
          Widens own external .reflective directive seed.name name := by
  rw [mem_admitted]
  constructor
  · rintro ⟨seed, hseed, hoffered⟩
    by_cases hrole : seed.role = .reflective
    · rw [← hrole, exists_offered_iff h hn (hseeds seed hseed)] at hoffered
      rcases hoffered.2 with hname | hw
      · exact Or.inl ⟨seed, hseed, hname⟩
      · exact Or.inr ⟨seed, hseed, hrole, hrole ▸ hw⟩
    · obtain ⟨offered, hoffered, htaken⟩ := hoffered
      simp only [offers, if_neg hrole, if_true, List.mem_singleton] at hoffered
      subst hoffered
      exact Or.inl ⟨seed, hseed, ((admit?_eq_some_iff h (hseeds seed hseed)).1 htaken).1⟩
  · rintro (⟨seed, hseed, hname⟩ | ⟨seed, hseed, hrole, hw⟩)
    · refine ⟨seed, hseed, seed.name, ?_, ?_⟩
      · unfold offers
        split
        · exact List.mem_cons_self
        · exact List.mem_singleton_self _
      · rw [admit?_eq_some_iff h (hseeds seed hseed)]
        exact ⟨hname, fun hproxy => by cases hproxy⟩
    · refine ⟨seed, hseed, ?_⟩
      rw [← hrole, exists_offered_iff h hn (hseeds seed hseed)]
      refine ⟨fun hproxy => ?_, Or.inr (hrole ▸ hw)⟩
      rw [hrole] at hproxy
      cases hproxy

/-- The names to introspect. -/
theorem mem_introspectable (h : scope.Of own external) (hn : NormalNames (own ++ external))
    (hseeds : ∀ seed ∈ seeds, Name.normalForm? seed.name = some seed.name) :
    name ∈ (ofSeeds scope seeds).introspectable ↔
      (∃ seed ∈ seeds, seed.name = name) ∨ name ∈ (ofSeeds scope seeds).proxyable ∨
        ∃ seed ∈ seeds, seed.role = .reflective ∧ ∃ directive ∈ seed.directives,
          Widens own external .reflective directive seed.name name := by
  rw [ofSeeds, NameSet.mem_union, mem_admitted_reflective h hn hseeds, or_assoc,
    or_comm (b := name ∈ _)]

/-! ## Selections -/

/-- A class that implements an interface from a library. -/
def leaf : Declaration := { Declaration.ofName "a.Leaf" .cls with interfaces := ["lib.Marker"] }

/-- The interface of the library, when the build declares it itself. -/
def marker : Declaration := .ofName "lib.Marker" .interface

theorem normalForm?_leaf : Name.normalForm? "a.Leaf" = some "a.Leaf" :=
  Name.Normal.normalForm?_eq (by constructor <;> decide +kernel)

theorem normalForm?_marker : Name.normalForm? "lib.Marker" = some "lib.Marker" :=
  Name.Normal.normalForm?_eq (by constructor <;> decide +kernel)

/-- **A selection holds what its seeds lead to.**  Introspected are the seeds, the interfaces
    that can have stand-ins, and what the directives of a seed for introspection lead to;
    stand-ins can have the interfaces among the seeds for stand-ins and what their directives
    lead to; unresolved is what the build does not declare. -/
theorem mem_ofSeeds {own external : List Declaration} (scope : Scope)
    (hown : Catalog.ofList own = .ok scope.catalog)
    (hexternal : Catalog.ofList external = .ok scope.external)
    (hnormal : ∀ decl ∈ own ++ external, ∀ name ∈ decl.name :: decl.supertypes,
      Name.normalForm? name = some name)
    {seeds : List Seed} (hseeds : ∀ seed ∈ seeds, Name.normalForm? seed.name = some seed.name)
    (name : String) :
    let selection := ofSeeds scope seeds
    (name ∈ selection.introspectable ↔
      (∃ seed ∈ seeds, seed.name = name) ∨ name ∈ selection.proxyable ∨
        ∃ seed ∈ seeds, seed.role = .reflective ∧ ∃ directive ∈ seed.directives,
          Widens own external .reflective directive seed.name name) ∧
      (name ∈ selection.proxyable ↔
        KnownInterface own external name ∧ ∃ seed ∈ seeds, seed.role = .proxy ∧
          (seed.name = name ∨ ∃ directive ∈ seed.directives,
            Widens own external .proxy directive seed.name name)) ∧
      (name ∈ selection.unresolved ↔
        name ∈ selection.introspectable ∧ ¬ Declared own name) := by
  have h : scope.Of own external := ⟨hown, hexternal⟩
  refine ⟨mem_introspectable h hnormal hseeds, mem_admitted_proxy h hnormal hseeds, ?_⟩
  simp only [ofSeeds, NameSet.mem_filter, ← h.contains_iff, Bool.not_eq_true', Bool.not_eq_true]

theorem mem_ofSeeds_declared : ∃ scope : Scope,
    Catalog.ofList [marker, leaf] = .ok scope.catalog ∧ Catalog.ofList [] = .ok scope.external ∧
    "a.Leaf" ∈ (ofSeeds scope
      [⟨"lib.Marker", .reflective, .ofList [.allSubtypes]⟩]).introspectable ∧
    "a.Leaf" ∉ (ofSeeds scope
      [⟨"lib.Marker", .reflective, .ofList [.allSubtypes]⟩]).unresolved := by
  obtain ⟨catalog, hcatalog⟩ : ∃ catalog, Catalog.ofList [marker, leaf] = .ok catalog := ⟨_, rfl⟩
  obtain ⟨outside, houtside⟩ : ∃ catalog, Catalog.ofList [] = .ok catalog := ⟨_, rfl⟩
  have hnormal : ∀ decl ∈ [marker, leaf] ++ [], ∀ name ∈ decl.name :: decl.supertypes,
      Name.normalForm? name = some name := by
    simp [marker, leaf, Declaration.ofName, Declaration.supertypes, normalForm?_marker,
      normalForm?_leaf]
  have hseeds : ∀ seed ∈ [(⟨"lib.Marker", .reflective, .ofList [.allSubtypes]⟩ : Seed)],
      Name.normalForm? seed.name = some seed.name := by simp [normalForm?_marker]
  obtain ⟨hin, -, hun⟩ :=
    mem_ofSeeds ⟨catalog, outside⟩ hcatalog houtside hnormal hseeds "a.Leaf"
  refine ⟨⟨catalog, outside⟩, hcatalog, houtside, hin.2 ?_, fun h => (hun.1 h).2 ?_⟩
  · refine Or.inr (Or.inr ⟨_, List.mem_singleton_self _, rfl, .allSubtypes, by decide, ?_⟩)
    exact ⟨⟨marker, by simp, rfl⟩, .single ⟨leaf, by simp, rfl, by decide, by simp⟩⟩
  · exact ⟨leaf, by simp, rfl⟩

/-- **Nothing below a name is found that the build does not declare**, though a type of the build
    names it as its interface. -/
theorem not_mem_ofSeeds_undeclared : ∃ scope : Scope,
    Catalog.ofList [leaf] = .ok scope.catalog ∧ Catalog.ofList [] = .ok scope.external ∧
    NormalNames [leaf] ∧ Name.normalForm? "lib.Marker" = some "lib.Marker" ∧
    Below [leaf] .reflective "lib.Marker" "a.Leaf" ∧
    "a.Leaf" ∉ (ofSeeds scope
      [⟨"lib.Marker", .reflective, .ofList [.directSubtypes]⟩]).introspectable := by
  obtain ⟨catalog, hcatalog⟩ : ∃ catalog, Catalog.ofList [leaf] = .ok catalog := ⟨_, rfl⟩
  obtain ⟨outside, houtside⟩ : ∃ catalog, Catalog.ofList [] = .ok catalog := ⟨_, rfl⟩
  have hnormal : NormalNames [leaf] := by
    simp [NormalNames, leaf, Declaration.ofName, Declaration.supertypes, normalForm?_marker,
      normalForm?_leaf]
  have hseeds : ∀ seed ∈ [(⟨"lib.Marker", .reflective, .ofList [.directSubtypes]⟩ : Seed)],
      Name.normalForm? seed.name = some seed.name := by simp [normalForm?_marker]
  have h : Scope.Of ⟨catalog, outside⟩ [leaf] [] := ⟨hcatalog, houtside⟩
  refine ⟨⟨catalog, outside⟩, hcatalog, houtside, hnormal, normalForm?_marker,
    ⟨leaf, by simp, rfl, by decide, by simp⟩, fun hmem => ?_⟩
  rcases (mem_introspectable h hnormal hseeds).1 hmem with ⟨seed, hseed, hname⟩ | hproxy |
    ⟨seed, hseed, -, directive, hd, hw⟩
  · rw [List.mem_singleton.1 hseed] at hname
    exact absurd hname (by decide)
  · obtain ⟨-, seed, hseed, hrole, -⟩ := (mem_admitted_proxy h hnormal hseeds).1 hproxy
    rw [List.mem_singleton.1 hseed] at hrole
    cases hrole
  · rw [List.mem_singleton.1 hseed] at hd hw
    obtain rfl : directive = .directSubtypes := by
      simpa using DirectiveSet.mem_ofList.1 hd
    obtain ⟨⟨decl, hdecl, hname⟩, -⟩ := hw
    rw [List.mem_singleton.1 hdecl] at hname
    exact absurd hname (by decide)

end Selection

end TypeAtlas
