/-
  The links of a catalog.

  A catalog is filled by offering it one declaration after another; an offer whose name is taken is
  refused.  The stored links never show in which order parents and children came: at every point
  they say what the declarations say.

  * `Catalog.firsts`: the declarations that a list of offers leaves, told without a catalog;
  * `Catalog.Sound.offer`: an offer keeps what a catalog knows;
  * `Catalog.Indexes`: numbers, names and links are those of a list of declarations;
  * `Catalog.indexes_ofOffers`: after any offers a catalog indexes the first declaration of each
    name, and a further offer is refused, and changes nothing, exactly if its name is among them.
-/
import Mathlib.Data.List.Induction
import TypeAtlas.Proofs.Build.Catalog

namespace TypeAtlas.Catalog

variable {catalog : Catalog} {decl parent : Declaration} {offers taken : List Declaration}
  {name : String} {i j : Nat}

/-! ## Offers -/

/-- The catalog after an offer, which may be refused. -/
def offer (catalog : Catalog) (decl : Declaration) : Catalog :=
  match catalog.add decl with
  | .ok (_, next) => next
  | .error _ => catalog

/-- What a list of offers comes to. -/
def ofOffers (offers : List Declaration) : Catalog := offers.foldl offer empty

/-- The first declaration of each name, in order. -/
def firsts : List Declaration → List Declaration
  | [] => []
  | decl :: rest => decl :: (firsts rest).filter fun other => other.name ≠ decl.name

theorem ofOffers_append (offers : List Declaration) (decl : Declaration) :
    ofOffers (offers ++ [decl]) = (ofOffers offers).offer decl := by
  rw [ofOffers, List.foldl_append]
  rfl

theorem mem_names_firsts_iff :
    name ∈ (firsts offers).map Declaration.name ↔ name ∈ offers.map Declaration.name := by
  simp only [List.mem_map]
  induction offers with
  | nil => rfl
  | cons first rest ih =>
    simp only [firsts, List.exists_mem_cons_iff, List.mem_filter, decide_eq_true_eq, ← ih]
    by_cases hname : first.name = name
    · simp only [hname, true_or]
    · simp only [hname, false_or]
      constructor
      · rintro ⟨decl, ⟨hmem, -⟩, hdecl⟩
        exact ⟨decl, hmem, hdecl⟩
      · rintro ⟨decl, hmem, rfl⟩
        exact ⟨decl, ⟨hmem, Ne.symm hname⟩, rfl⟩

/-- A further declaration is left if its name is new. -/
theorem firsts_append (offers : List Declaration) (decl : Declaration) :
    firsts (offers ++ [decl]) =
      if decl.name ∈ (firsts offers).map Declaration.name then firsts offers
      else firsts offers ++ [decl] := by
  rw [if_congr mem_names_firsts_iff rfl rfl]
  induction offers with
  | nil => rfl
  | cons first rest ih =>
    rw [List.cons_append, firsts, ih, firsts, List.map_cons, if_congr List.mem_cons rfl rfl]
    by_cases hrest : decl.name ∈ rest.map Declaration.name
    · rw [if_pos hrest, if_pos (Or.inr hrest)]
    rw [if_neg hrest, List.filter_append, List.filter_singleton]
    by_cases hfirst : decl.name = first.name
    · simp [hfirst]
    · rw [if_neg (not_or_intro hfirst hrest)]
      simp [hfirst]

/-- **An offer keeps what a catalog knows**: it is refused if its name is taken, and otherwise
    comes last. -/
theorem Sound.offer (h : catalog.Sound) (decl : Declaration) :
    (catalog.offer decl).Sound ∧
      if decl.name ∈ catalog.decls.toList.map Declaration.name then
        catalog.add decl = .error (.duplicateType decl.name) ∧ catalog.offer decl = catalog
      else
        catalog.add decl = .ok (catalog.size, catalog.offer decl) ∧
          (catalog.offer decl).decls.toList = catalog.decls.toList ++ [decl] := by
  rw [if_congr (List.mem_map.trans h.toNumbered.contains_iff.symm) rfl rfl]
  unfold Catalog.offer
  cases hcontains : catalog.contains decl.name with
  | true =>
    have hadd : catalog.add decl = .error (.duplicateType decl.name) := if_pos hcontains
    rw [if_pos rfl, hadd]
    exact ⟨h, rfl, rfl⟩
  | false =>
    have hnew : catalog.number? decl.name = none := by simpa [contains] using hcontains
    have hadd : catalog.add decl = .ok (catalog.size, catalog.push decl) :=
      if_neg (by rw [hcontains]; exact Bool.false_ne_true)
    rw [if_neg Bool.false_ne_true, hadd]
    refine ⟨h.push hnew, rfl, ?_⟩
    rw [(h.toNumbered.push hnew).2.1, Array.toList_push]

/-- After any offers a catalog knows the first declaration of each name. -/
theorem sound_ofOffers (offers : List Declaration) :
    (ofOffers offers).Sound ∧ (ofOffers offers).decls.toList = firsts offers := by
  induction offers using List.reverseRecOn with
  | nil => exact ⟨sound_empty, rfl⟩
  | append_singleton offers decl ih =>
    obtain ⟨hsound, hdecls⟩ := ih
    obtain ⟨hnext, hoffer⟩ := hsound.offer decl
    rw [hdecls] at hoffer
    rw [ofOffers_append, firsts_append]
    refine ⟨hnext, ?_⟩
    split at hoffer
    · next htaken => rw [hoffer.2, hdecls, if_pos htaken]
    · next hnew => rw [hoffer.2, if_neg hnew]

/-! ## Numbers, names and links -/

/-- A catalog numbers a list of declarations and links each to those that name it. -/
structure Indexes (catalog : Catalog) (taken : List Declaration) : Prop where
  /-- The declarations are listed with their numbers, -/
  toList_eq : catalog.toList = taken.zipIdx.map Prod.swap
  /-- found under their numbers -/
  getElem?_decls : ∀ i : Nat, catalog.decls[i]? = taken[i]?
  /-- and numbered by their names. -/
  number?_eq_some_iff : ∀ name i, catalog.number? name = some i ↔
    (taken.map Declaration.name)[i]? = some name
  /-- The links of a declaration are in order and without repetition, -/
  subtypes_sorted : ∀ i, (catalog.subtypes i).Pairwise (· < ·)
  /-- and lead to the others that name it as their superclass or as an interface. -/
  mem_subtypes_iff : ∀ i parent, taken[i]? = some parent → ∀ j, j ∈ catalog.subtypes i ↔
    j ≠ i ∧ ∃ decl, taken[j]? = some decl ∧
      (decl.superclass = some parent.name ∨ parent.name ∈ decl.interfaces)

theorem toList_pairwise (catalog : Catalog) : (catalog.toList.map Prod.fst).Pairwise (· < ·) := by
  have hnumbers : catalog.toList.map Prod.fst = List.range' 0 catalog.decls.toList.length := by
    rw [toList, List.map_map]
    exact List.zipIdx_map_snd ..
  rw [hnumbers]
  exact List.pairwise_lt_range'

theorem mem_toList_iff : (i, decl) ∈ catalog.toList ↔ catalog.decls[i]? = some decl := by
  refine ⟨getElem?_of_mem_toList, fun h => ?_⟩
  exact List.mem_map.2 ⟨(decl, i), List.mem_zipIdx_iff_getElem?.2 (by simpa using h), rfl⟩

/-- The links of a numbered declaration are those of its name. -/
theorem Sound.subtypes_eq (h : catalog.Sound) (hparent : catalog.decls[i]? = some parent) :
    catalog.subtypes i =
      (catalog.toList.filter fun entry => decide (parent.name ∈ parents entry.2)).map Prod.fst := by
  rw [← h.children_eq, children, (h.number_iff parent.name i).2 ⟨parent, hparent, rfl⟩]

/-- **What a catalog knows is an index of its declarations.** -/
theorem Sound.indexes (h : catalog.Sound) : catalog.Indexes catalog.decls.toList where
  toList_eq := rfl
  getElem?_decls i := (Array.getElem?_toList ..).symm
  number?_eq_some_iff name i := by
    rw [h.number_iff, List.getElem?_map, Option.map_eq_some_iff, Array.getElem?_toList]
  subtypes_sorted i := by
    cases hi : catalog.decls[i]? with
    | some parent =>
      rw [h.subtypes_eq hi]
      exact catalog.toList_pairwise.sublist (List.filter_sublist.map _)
    | none =>
      -- there are no links behind the last number
      have hnone : catalog.links[i]? = none := by
        rw [Array.getElem?_eq_none_iff, h.size_links, ← Array.getElem?_eq_none_iff]
        exact hi
      rw [subtypes, hnone]
      exact List.Pairwise.nil
  mem_subtypes_iff i parent hparent j := by
    rw [Array.getElem?_toList] at hparent
    rw [h.subtypes_eq hparent, List.mem_map]
    simp only [Array.getElem?_toList]
    constructor
    · rintro ⟨⟨_, decl⟩, hmem, rfl⟩
      obtain ⟨hlisted, hnames⟩ := List.mem_filter.1 hmem
      obtain ⟨hsuper, hother⟩ := mem_parents.1 (of_decide_eq_true hnames)
      have hdecl := mem_toList_iff.1 hlisted
      refine ⟨?_, decl, hdecl, by simpa [Declaration.supertypes] using hsuper⟩
      rintro rfl
      exact hother (congrArg Declaration.name (Option.some.inj (hparent.symm.trans hdecl)))
    · rintro ⟨hother, decl, hdecl, hsuper⟩
      refine ⟨(j, decl), List.mem_filter.2 ⟨mem_toList_iff.2 hdecl, decide_eq_true ?_⟩, rfl⟩
      refine mem_parents.2 ⟨by simpa [Declaration.supertypes] using hsuper, fun hname => hother ?_⟩
      have hj := (h.number_iff parent.name j).2 ⟨decl, hdecl, hname.symm⟩
      rw [(h.number_iff parent.name i).2 ⟨parent, hparent, rfl⟩, Option.some.injEq] at hj
      exact hj.symm

/-- **The links of a catalog say what its declarations say**, after any offers: it indexes the
    first declaration of each name.  A further offer whose name is among them is refused and
    changes nothing, any other gets the next number.  Numbers are natural numbers, so this is
    about catalogs of fewer than 2^32 declarations where a number has 32 bits. -/
theorem indexes_ofOffers (offers : List Declaration) :
    (ofOffers offers).Indexes (firsts offers) ∧
    ∀ decl, if decl.name ∈ (firsts offers).map Declaration.name then
        (ofOffers offers).add decl = .error (.duplicateType decl.name) ∧
          ofOffers (offers ++ [decl]) = ofOffers offers
      else
        (ofOffers offers).add decl = .ok ((firsts offers).length, ofOffers (offers ++ [decl])) := by
  obtain ⟨hsound, hdecls⟩ := sound_ofOffers offers
  have hsize : (ofOffers offers).size = (firsts offers).length := by
    rw [← hdecls, Array.length_toList, size]
  refine ⟨hdecls ▸ hsound.indexes, fun decl => ?_⟩
  have hoffer := (hsound.offer decl).2
  rw [hdecls, hsize, ← ofOffers_append] at hoffer
  split at hoffer
  · next htaken => rwa [if_pos htaken]
  · next hnew =>
    rw [if_neg hnew]
    exact hoffer.1

/-- Declarations that name their parents before they are declared, twice, in a ring, and
    themselves. -/
def tangled : List Declaration :=
  [{ Declaration.ofName "a.Impl" .cls with superclass := some "a.Api", interfaces := ["a.Api"] },
    { Declaration.ofName "a.Odd" .cls with superclass := some "a.Odd", interfaces := ["a.Impl"] },
    { Declaration.ofName "a.Api" .interface with interfaces := ["a.Impl", "a.Gone"] },
    { Declaration.ofName "a.Late" .cls with interfaces := ["a.Api", "a.Api"] }]

/-- A declaration whose name is taken. -/
def impostor : Declaration := { Declaration.ofName "a.Impl" .cls with interfaces := ["a.Late"] }

/-- Each parent has its children once, whichever came first, and a refused declaration is no child
    of the type it names. -/
theorem indexes_ofOffers_tangled :
    let catalog := ofOffers (tangled ++ [impostor])
    catalog.Indexes tangled ∧
      catalog.subtypes 0 = [1, 2] ∧ catalog.subtypes 1 = [] ∧ catalog.subtypes 2 = [0, 3] ∧
      catalog.subtypes 3 = [] ∧
      (ofOffers tangled).add impostor = .error (.duplicateType "a.Impl") ∧
      catalog = ofOffers tangled := by
  have hfirsts : firsts tangled = tangled := by decide
  have htaken := (indexes_ofOffers tangled).2 impostor
  rw [hfirsts, if_pos (by decide)] at htaken
  have hindexes := (indexes_ofOffers (tangled ++ [impostor])).1
  rw [firsts_append, hfirsts, if_pos (by decide)] at hindexes
  exact ⟨hindexes, by decide, by decide, by decide, by decide, htaken⟩

end TypeAtlas.Catalog
