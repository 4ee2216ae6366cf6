/-
  What a catalog knows.

  The links of a catalog are kept while declarations come in, and a link to a
  name that is not declared yet waits under that name.  `children` reads the
  links of a name wherever they are; a new declaration adds its number to the
  children of each of its parents and changes nothing else.

  * `Sound.push`: this is kept by every new declaration;
  * `sound_of_ofList`: so it holds of the catalog of a list of declarations;
  * `Sound.find?_eq_some_iff`, `Sound.subtypesOf_eq`: a name is looked up among
    the declarations, and the subtypes of a declared name are the declarations
    that name it as a supertype, in their order;
  * `exists_ofList_iff`: a list of declarations has a catalog if and only if their
    names differ.
-/
import TypeAtlas.Build.Catalog
import TypeAtlas.Proofs.Except
import TypeAtlas.Proofs.Table

namespace TypeAtlas.Catalog

variable {catalog : Catalog} {decl : Declaration} {decls : List Declaration} {name p q : String}
  {i : Nat}

theorem mem_parents : p ∈ parents decl ↔ p ∈ decl.supertypes ∧ p ≠ decl.name := by
  rw [parents, ← NameSet.mem_def, NameSet.mem_insertAll]
  simp

theorem nodup_parents (decl : Declaration) : (parents decl).Nodup :=
  (NameSet.empty.insertAll _).nodup

/-- The numbers that are linked to a name, declared or not. -/
def children (catalog : Catalog) (name : String) : List Nat :=
  match catalog.number? name with
  | some i => catalog.subtypes i
  | none => (catalog.waiting.find? name).getD []

/-- The numbers are those of the names and there are links for each. -/
structure Numbered (catalog : Catalog) : Prop where
  /-- A name has the number at which it is declared. -/
  number_iff : ∀ name i, catalog.number? name = some i ↔
    ∃ decl, catalog.decls[i]? = some decl ∧ decl.name = name
  /-- Every number has links. -/
  size_links : catalog.links.size = catalog.decls.size

/-! ## One link -/

theorem Numbered.link (h : catalog.Numbered) (i : Nat) (p : String) :
    (catalog.link i p).Numbered := by
  unfold Catalog.link
  split
  · exact ⟨h.number_iff, by simpa using h.size_links⟩
  · exact ⟨h.number_iff, h.size_links⟩

theorem number?_link : (catalog.link i p).number? q = catalog.number? q := by
  unfold Catalog.link
  split <;> rfl

theorem decls_link : (catalog.link i p).decls = catalog.decls := by
  unfold Catalog.link
  split <;> rfl

theorem Numbered.inj (h : catalog.Numbered) {k : Nat} (hp : catalog.number? p = some k)
    (hq : catalog.number? q = some k) : p = q := by
  obtain ⟨decl, hdecl, rfl⟩ := (h.number_iff p k).1 hp
  obtain ⟨decl', hdecl', rfl⟩ := (h.number_iff q k).1 hq
  rw [hdecl, Option.some.injEq] at hdecl'
  rw [hdecl']

theorem Numbered.children_link_known (h : catalog.Numbered) (i : Nat) {k : Nat}
    (hp : catalog.number? p = some k) (q : String) :
    (catalog.link i p).children q =
      if q = p then catalog.children q ++ [i] else catalog.children q := by
  have hlink : catalog.link i p = { catalog with links := catalog.links.modify k (· ++ [i]) } := by
    simp only [Catalog.link, hp]
  have hk : k < catalog.links.size := by
    obtain ⟨decl, hdecl, -⟩ := (h.number_iff p k).1 hp
    rw [h.size_links]
    exact (Array.getElem?_eq_some_iff.1 hdecl).1
  unfold children
  rw [number?_link]
  cases hq : catalog.number? q with
  | some j =>
    simp only [hlink, subtypes, Array.getElem?_modify]
    by_cases hqp : q = p
    · subst hqp
      rw [hp, Option.some.injEq] at hq
      subst hq
      simp [hk]
    · have hjk : ¬ k = j := by
        rintro rfl
        exact hqp (h.inj hq hp)
      simp [hqp, hjk]
  | none =>
    have hqp : ¬ q = p := by
      rintro rfl
      rw [hp] at hq
      cases hq
    simp [hlink, hqp]

theorem children_link_new (i : Nat) (hp : catalog.number? p = none) (q : String) :
    (catalog.link i p).children q =
      if q = p then catalog.children q ++ [i] else catalog.children q := by
  have hlink : catalog.link i p = { catalog with
      waiting := catalog.waiting.insert p ((catalog.waiting.find? p).getD [] ++ [i]) } := by
    simp only [Catalog.link, hp]
  unfold children
  rw [number?_link]
  cases hq : catalog.number? q with
  | some j =>
    have hqp : ¬ q = p := by
      rintro rfl
      rw [hp] at hq
      cases hq
    simp [hlink, hqp, subtypes]
  | none =>
    simp only [hlink, Table.find?_insert]
    by_cases hqp : q = p <;> simp [hqp]

/-- A link is added to its parent, wherever the links of the parent are. -/
theorem Numbered.children_link (h : catalog.Numbered) (i : Nat) (p q : String) :
    (catalog.link i p).children q =
      if q = p then catalog.children q ++ [i] else catalog.children q := by
  cases hp : catalog.number? p with
  | some k => exact h.children_link_known i hp q
  | none => exact children_link_new i hp q

/-! ## All links of a declaration -/

/-- A declaration's links are added to its parents. -/
theorem Numbered.linked (h : catalog.Numbered) (i : Nat) {ps : List String} (hps : ps.Nodup) :
    let linked := ps.foldl (fun c parent => c.link i parent) catalog
    linked.Numbered ∧ linked.decls = catalog.decls ∧
      (∀ q, linked.number? q = catalog.number? q) ∧
      ∀ q, linked.children q = catalog.children q ++ if q ∈ ps then [i] else [] := by
  induction ps generalizing catalog with
  | nil => exact ⟨h, rfl, fun _ => rfl, fun q => by simp⟩
  | cons p rest ih =>
    obtain ⟨hp, hrest⟩ := List.nodup_cons.1 hps
    obtain ⟨hnumbered, hdecls, hnumber, hchildren⟩ := ih (h.link i p) hrest
    refine ⟨hnumbered, hdecls.trans decls_link, fun q => (hnumber q).trans number?_link,
      fun q => ?_⟩
    rw [List.foldl_cons, hchildren, h.children_link]
    by_cases hqp : q = p
    · subst hqp
      simp [hp]
    · simp [hqp]

/-! ## New declarations -/

/-- What a catalog knows is what its declarations say. -/
structure Sound (catalog : Catalog) : Prop extends catalog.Numbered where
  /-- The numbers linked to a name are those of the declarations that name it as a parent. -/
  children_eq : ∀ p, catalog.children p =
    (catalog.toList.filter fun entry => decide (p ∈ parents entry.2)).map Prod.fst

theorem sound_empty : Catalog.empty.Sound where
  number_iff name i := by simp [empty, number?]
  size_links := rfl
  children_eq p := by simp [empty, children, number?, toList]

/-- The catalog with one more declaration, which is linked to no parent. -/
def put (catalog : Catalog) (decl : Declaration) : Catalog where
  decls := catalog.decls.push decl
  links := catalog.links.push ((catalog.waiting.find? decl.name).getD [])
  numbers := catalog.numbers.insert decl.name catalog.size
  waiting := catalog.waiting.erase decl.name

theorem Numbered.put (h : catalog.Numbered) (hnew : catalog.number? decl.name = none) :
    (catalog.put decl).Numbered := by
  refine ⟨fun name i => ?_, by simp only [Catalog.put, Array.size_push, h.size_links]⟩
  simp only [Catalog.put, number?, Table.find?_insert, Array.getElem?_push]
  by_cases hname : name = decl.name
  · subst hname
    rw [if_pos rfl, Option.some.injEq]
    constructor
    · rintro rfl
      exact ⟨decl, if_pos rfl, rfl⟩
    · rintro ⟨d, hd, hdname⟩
      split at hd
      · next hi => exact hi.symm
      · -- the name is new, so no declaration has it yet
        rw [(h.number_iff _ i).2 ⟨d, hd, hdname⟩] at hnew
        cases hnew
  · rw [if_neg hname, show catalog.numbers.find? name = catalog.number? name from rfl,
      h.number_iff]
    by_cases hi : i = catalog.decls.size
    · subst hi
      simp [Ne.symm hname]
    · rw [if_neg hi]

/-- The links that waited for the declaration become its own. -/
theorem Numbered.children_put (h : catalog.Numbered) (hnew : catalog.number? decl.name = none)
    (p : String) : (catalog.put decl).children p = catalog.children p := by
  unfold children
  simp only [Catalog.put, number?, Table.find?_insert, subtypes]
  by_cases hp : p = decl.name
  · subst hp
    rw [show catalog.numbers.find? decl.name = none from hnew]
    simp [size, ← h.size_links]
  · simp only [if_neg hp, Table.find?_erase]
    cases hq : catalog.numbers.find? p with
    | none => rfl
    | some j =>
      obtain ⟨d, hd, -⟩ := (h.number_iff p j).1 hq
      have hj := (Array.getElem?_eq_some_iff.1 hd).1
      rw [← h.size_links] at hj
      simp only [Array.getElem?_push]
      rw [if_neg (by omega)]

/-- What a new declaration does to the catalog. -/
theorem Numbered.push (h : catalog.Numbered) (hnew : catalog.number? decl.name = none) :
    (catalog.push decl).Numbered ∧ (catalog.push decl).decls = catalog.decls.push decl ∧
      ∀ p, (catalog.push decl).children p =
        catalog.children p ++ if p ∈ parents decl then [catalog.size] else [] := by
  obtain ⟨linked, hl⟩ : ∃ linked, linked =
    (parents decl).foldl (fun c parent => c.link catalog.size parent) catalog := ⟨_, rfl⟩
  obtain ⟨hlinked, hdecls, hnumber, hchildren⟩ := h.linked catalog.size (nodup_parents decl)
  rw [← hl] at hlinked hdecls hnumber hchildren
  have hnone : linked.number? decl.name = none := (hnumber _).trans hnew
  have hsize : linked.size = catalog.size := congrArg Array.size hdecls
  have hpush : catalog.push decl = linked.put decl := by
    rw [Catalog.put, hsize, hl]
    rfl
  rw [hpush]
  refine ⟨hlinked.put hnone, congrArg (·.push decl) hdecls, fun p => ?_⟩
  rw [hlinked.children_put hnone, hchildren]

theorem Numbered.toList_push (h : catalog.Numbered) (hnew : catalog.number? decl.name = none) :
    (catalog.push decl).toList = catalog.toList ++ [(catalog.size, decl)] := by
  simp [toList, (h.push hnew).2.1, List.zipIdx_append, size]

/-- **A new declaration is known with its number, and linked to its parents.** -/
theorem Sound.push (h : catalog.Sound) (hnew : catalog.number? decl.name = none) :
    (catalog.push decl).Sound := by
  obtain ⟨hnumbered, -, hchildren⟩ := h.toNumbered.push hnew
  refine ⟨hnumbered, fun p => ?_⟩
  rw [hchildren, h.children_eq, h.toNumbered.toList_push hnew, List.filter_append, List.map_append]
  by_cases hp : p ∈ parents decl <;> simp [hp]

/-- Declarations that are added are numbered in their order, and all is known of them. -/
theorem Sound.addAll {after : Catalog} (h : catalog.Sound)
    (hadd : catalog.addAll decls = .ok after) :
    after.Sound ∧ after.decls.toList = catalog.decls.toList ++ decls := by
  induction decls generalizing catalog with
  | nil =>
    cases hadd
    exact ⟨h, (List.append_nil _).symm⟩
  | cons decl rest ih =>
    simp only [Catalog.addAll, List.foldlM_cons, bind_eq_ok, map_eq_ok] at hadd
    obtain ⟨next, ⟨pair, hpair, rfl⟩, hrest⟩ := hadd
    unfold add at hpair
    split at hpair
    · cases hpair
    · next hnew =>
      cases hpair
      have hnone : catalog.number? decl.name = none := by
        simpa [contains] using hnew
      obtain ⟨hsound, hdecls⟩ := ih (h.push hnone) hrest
      refine ⟨hsound, ?_⟩
      rw [hdecls, (h.toNumbered.push hnone).2.1]
      simp

/-- **The catalog of a list of declarations holds them and knows their links.** -/
theorem sound_of_ofList (h : ofList decls = .ok catalog) :
    catalog.Sound ∧ catalog.decls.toList = decls :=
  sound_empty.addAll h

/-! ## Looking up -/

theorem Numbered.find?_eq_some_iff (h : catalog.Numbered) :
    catalog.find? name = some decl ↔ decl ∈ catalog.decls.toList ∧ decl.name = name := by
  unfold find?
  constructor
  · intro hfind
    obtain ⟨i, hi, hdecl⟩ := Option.bind_eq_some_iff.1 hfind
    obtain ⟨decl', hdecl', hname⟩ := (h.number_iff name i).1 hi
    rw [hdecl, Option.some.injEq] at hdecl'
    subst hdecl'
    exact ⟨Array.mem_toList_iff.2 (Array.mem_of_getElem? hdecl), hname⟩
  · rintro ⟨hmem, hname⟩
    obtain ⟨i, hi⟩ := Array.getElem?_of_mem (Array.mem_toList_iff.1 hmem)
    rw [(h.number_iff name i).2 ⟨decl, hi, hname⟩]
    exact hi

theorem Numbered.contains_iff (h : catalog.Numbered) :
    catalog.contains name = true ↔ ∃ decl ∈ catalog.decls.toList, decl.name = name := by
  unfold contains
  rw [Option.isSome_iff_exists]
  constructor
  · rintro ⟨i, hi⟩
    obtain ⟨decl, hdecl, hname⟩ := (h.number_iff name i).1 hi
    exact ⟨decl, Array.mem_toList_iff.2 (Array.mem_of_getElem? hdecl), hname⟩
  · rintro ⟨decl, hmem, hname⟩
    obtain ⟨i, hi⟩ := Array.getElem?_of_mem (Array.mem_toList_iff.1 hmem)
    exact ⟨i, (h.number_iff name i).2 ⟨decl, hi, hname⟩⟩

theorem Numbered.number?_eq_none_iff (h : catalog.Numbered) :
    catalog.number? name = none ↔ ∀ decl ∈ catalog.decls.toList, decl.name ≠ name := by
  have hcontains : catalog.contains name = true ↔ _ := h.contains_iff
  unfold contains at hcontains
  rw [← Option.not_isSome_iff_eq_none, hcontains]
  simp only [not_exists, not_and, ne_eq]

theorem map_snd_toList (catalog : Catalog) : catalog.toList.map Prod.snd = catalog.decls.toList := by
  simp [toList, List.map_map, Function.comp_def]

theorem getElem?_of_mem_toList {entry : Nat × Declaration} (h : entry ∈ catalog.toList) :
    catalog.decls[entry.1]? = some entry.2 := by
  simp only [toList, List.mem_map] at h
  obtain ⟨⟨decl, i⟩, hmem, rfl⟩ := h
  simpa using List.mem_zipIdx_iff_getElem?.1 hmem

/-- **The subtypes of a declared name are the declarations that name it as a supertype.** -/
theorem Sound.subtypesOf_eq (h : catalog.Sound) (p : String) :
    catalog.subtypesOf p =
      if catalog.contains p then catalog.decls.toList.filter fun decl => decide (p ∈ parents decl)
      else [] := by
  have hchildren := h.children_eq p
  unfold children at hchildren
  unfold subtypesOf contains
  cases hp : catalog.number? p with
  | none => rfl
  | some i =>
    simp only [hp] at hchildren
    simp only [hchildren, Option.isSome_some, if_true]
    calc
      _ = (catalog.toList.filter fun entry => decide (p ∈ parents entry.2)).filterMap
            fun entry => catalog.decls[entry.1]? := List.filterMap_map
      _ = (catalog.toList.filter fun entry => decide (p ∈ parents entry.2)).filterMap
            fun entry => some entry.2 :=
          List.filterMap_congr fun entry hmem =>
            getElem?_of_mem_toList (List.mem_of_mem_filter hmem)
      _ = (catalog.toList.filter fun entry => decide (p ∈ parents entry.2)).map Prod.snd :=
          congrFun List.filterMap_eq_map _
      _ = (catalog.toList.map Prod.snd).filter fun decl => decide (p ∈ parents decl) :=
          by rw [List.filter_map]; rfl
      _ = _ := by rw [map_snd_toList]

/-! ## Adding -/

/-- Declarations are added as long as no name is taken. -/
theorem Sound.exists_addAll_iff (h : catalog.Sound)
    (hnodup : (catalog.decls.toList.map Declaration.name).Nodup) :
    (∃ after, catalog.addAll decls = .ok after) ↔
      ((catalog.decls.toList ++ decls).map Declaration.name).Nodup := by
  induction decls generalizing catalog with
  | nil =>
    rw [List.append_nil]
    exact ⟨fun _ => hnodup, fun _ => ⟨catalog, rfl⟩⟩
  | cons decl rest ih =>
    have hstep : catalog.addAll (decl :: rest) =
        (Prod.snd <$> catalog.add decl) >>= fun next => next.addAll rest := List.foldlM_cons
    rw [hstep, add]
    cases hdecl : catalog.contains decl.name with
    | true =>
      obtain ⟨other, hother, hname⟩ := h.toNumbered.contains_iff.1 hdecl
      have htaken : ¬ ((catalog.decls.toList ++ decl :: rest).map Declaration.name).Nodup := by
        rw [List.map_append, List.nodup_append]
        exact fun hall => hall.2.2 _ (List.mem_map_of_mem hother) _ List.mem_cons_self hname
      rw [if_pos rfl]
      constructor
      · rintro ⟨after, hafter⟩
        cases hafter
      · exact fun hall => absurd hall htaken
    | false =>
      have hnone : catalog.number? decl.name = none := by simpa [contains] using hdecl
      have hdecls : (catalog.push decl).decls.toList = catalog.decls.toList ++ [decl] := by
        rw [(h.toNumbered.push hnone).2.1, Array.toList_push]
      have hnew := h.toNumbered.number?_eq_none_iff.1 hnone
      rw [if_neg Bool.false_ne_true]
      show (∃ after, (catalog.push decl).addAll rest = .ok after) ↔ _
      rw [ih (h.push hnone), hdecls, List.append_assoc, List.singleton_append]
      rw [hdecls, List.map_append, List.nodup_append]
      refine ⟨hnodup, by simp, ?_⟩
      intro name hmem other hother
      obtain ⟨found, hfound, rfl⟩ := List.mem_map.1 hmem
      exact List.mem_singleton.1 hother ▸ hnew found hfound

/-- A list of declarations has a catalog if and only if no name is declared twice. -/
theorem exists_ofList_iff :
    (∃ catalog, ofList decls = .ok catalog) ↔ (decls.map Declaration.name).Nodup :=
  sound_empty.exists_addAll_iff List.nodup_nil

end TypeAtlas.Catalog
