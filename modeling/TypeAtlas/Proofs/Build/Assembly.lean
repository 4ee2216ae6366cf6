/-
  Assembled directories.

  Names with values are offered to an assembly one after another.  An offer that
  is refused leaves the assembly as it was; `Assembly.accepted` lists the others.

  * `Assembly.entries_ofOffers`: the assembly holds what was accepted, in order;
  * `Assembly.find?_directory`: its directory answers with what was accepted under
    a name and lists every accepted name once; an offer is refused if its name is
    blank or was accepted before.
-/
import TypeAtlas.Build.Assembly
import TypeAtlas.Proofs.Directory.Lookup

namespace TypeAtlas

theorem Text.ne_empty_of_not_blank {s : String} (h : Text.isBlankText s = false) : s ≠ "" := by
  rintro rfl
  cases h

namespace Assembly

variable {α : Type}

/-- The assembly after an offer, which may be refused. -/
def offer (assembly : Assembly α) (entry : String × α) : Assembly α :=
  match assembly.add entry.1 entry.2 with
  | .ok next => next
  | .error _ => assembly

/-- What a list of offers comes to. -/
def ofOffers (offers : List (String × α)) : Assembly α := offers.foldl offer empty

/-- The offers that are accepted, in order. -/
def accepted (assembly : Assembly α) : List (String × α) → List (String × α)
  | [] => []
  | entry :: rest =>
    match assembly.add entry.1 entry.2 with
    | .ok next => entry :: accepted next rest
    | .error _ => accepted assembly rest

theorem add_eq_ok {assembly next : Assembly α} {name : String} {value : α}
    (h : assembly.add name value = .ok next) :
    Text.isBlankText name = false ∧
      next.entries.entries = assembly.entries.entries ++ [(name, value)] := by
  unfold add at h
  split at h
  · cases h
  · next hblank =>
    split at h
    · cases h
    · next hnew =>
      cases h
      refine ⟨by simpa using hblank, Table.entries_insert_of_new value ?_⟩
      simpa [Table.contains] using hnew

/-- An assembly holds what was accepted, behind what it held before. -/
theorem entries_foldl_offer (offers : List (String × α)) (assembly : Assembly α) :
    (offers.foldl offer assembly).entries.entries =
      assembly.entries.entries ++ accepted assembly offers := by
  induction offers generalizing assembly with
  | nil => simp [accepted]
  | cons entry rest ih =>
    rw [List.foldl_cons, ih, offer, accepted]
    cases hadd : assembly.add entry.1 entry.2 with
    | error e => rfl
    | ok next => simp [(add_eq_ok hadd).2]

theorem entries_ofOffers (offers : List (String × α)) :
    (ofOffers offers).entries.entries = accepted empty offers :=
  entries_foldl_offer offers empty

/-- No blank name is accepted. -/
theorem not_blank_of_accepted {offers : List (String × α)} {assembly : Assembly α}
    {entry : String × α} (h : entry ∈ accepted assembly offers) :
    Text.isBlankText entry.1 = false := by
  induction offers generalizing assembly with
  | nil => cases h
  | cons first rest ih =>
    rw [accepted] at h
    cases hadd : assembly.add first.1 first.2 with
    | error e =>
      rw [hadd] at h
      exact ih h
    | ok next =>
      rw [hadd] at h
      rcases List.mem_cons.1 h with rfl | h
      · exact (add_eq_ok hadd).1
      · exact ih h

theorem ofOffers_append (offers : List (String × α)) (entry : String × α) :
    ofOffers (offers ++ [entry]) = (ofOffers offers).offer entry := by
  rw [ofOffers, List.foldl_append]
  rfl

/-- A further offer is refused for a blank name and for a name that was accepted before. -/
theorem add_ofOffers (offers : List (String × α)) (name : String) (value : α) :
    (ofOffers offers).add name value =
      if Text.isBlankText name then .error (.unknownType name)
      else if name ∈ (accepted empty offers).map Prod.fst then .error (.duplicateType name)
      else .ok (ofOffers (offers ++ [(name, value)])) := by
  have hcontains : (ofOffers offers).entries.contains name = true ↔
      name ∈ (accepted empty offers).map Prod.fst := by
    rw [Table.contains, ← Option.ne_none_iff_isSome, Ne, Table.find?_eq_none_iff, not_not,
      Table.keys, entries_ofOffers]
  rw [ofOffers_append, offer]
  simp only
  unfold add
  by_cases hblank : Text.isBlankText name = true
  · rw [if_pos hblank, if_pos hblank]
  · by_cases hknown : (ofOffers offers).entries.contains name = true
    · rw [if_neg hblank, if_neg hblank, if_pos hknown, if_pos (hcontains.1 hknown)]
    · rw [if_neg hblank, if_neg hblank, if_neg hknown, if_neg fun h => hknown (hcontains.2 h)]

theorem nodup_accepted (offers : List (String × α)) :
    ((accepted empty offers).map Prod.fst).Nodup := by
  rw [← entries_ofOffers]
  exact (ofOffers offers).entries.nodup

theorem name_ne_empty_of_accepted {offers : List (String × α)} {entry : String × α}
    (h : entry ∈ accepted empty offers) : entry.1 ≠ "" :=
  Text.ne_empty_of_not_blank (not_blank_of_accepted h)

/-- The directory holds what was accepted. -/
theorem entries_directory_perm (offers : List (String × α)) (priority : Option Int) :
    ((ofOffers offers).directory priority).entries.Perm (accepted empty offers) := by
  rw [directory, entries_ofOffers]
  exact Directory.entries_ofEntries_perm_of_named (fun _ => name_ne_empty_of_accepted) _

/-- The directory answers with what was accepted. -/
theorem find?_directory_iff (offers : List (String × α)) (priority : Option Int) (name : String)
    (value : α) :
    ((ofOffers offers).directory priority).find? name = some value ↔
      (name, value) ∈ accepted empty offers := by
  have hfind := Directory.find?_ofEntries (ofOffers offers).entries.entries
    (priority.getD generatedPriority) name
  rw [entries_ofOffers] at hfind
  rw [directory, entries_ofOffers, hfind]
  by_cases hempty : name = ""
  · rw [if_pos hempty]
    exact ⟨fun h => (nomatch h),
      fun hmem => absurd hempty (name_ne_empty_of_accepted hmem)⟩
  · rw [if_neg hempty]
    exact Table.lookupName_eq_some_iff (nodup_accepted offers)

/-- **The directory of an assembly answers with what was accepted**, each name once, and an
    offer that is refused changes nothing. -/
theorem find?_directory (offers : List (String × α)) (priority : Option Int) :
    let directory := (ofOffers offers).directory priority
    let taken := accepted empty offers
    (∀ name value, directory.find? name = some value ↔ (name, value) ∈ taken) ∧
      directory.find? "" = none ∧
      directory.names.Nodup ∧ (∀ name, name ∈ directory.names ↔ ∃ value, (name, value) ∈ taken) ∧
      directory.size = taken.length ∧
      ∀ name value,
        (ofOffers offers).add name value =
          (if Text.isBlankText name then .error (.unknownType name)
          else if name ∈ taken.map Prod.fst then .error (.duplicateType name)
          else .ok (ofOffers (offers ++ [(name, value)]))) ∧
        ∀ e, (ofOffers offers).add name value = .error e →
          ofOffers (offers ++ [(name, value)]) = ofOffers offers := by
  intro directory taken
  have hentries : directory.entries.Perm taken := entries_directory_perm offers priority
  refine ⟨find?_directory_iff offers priority, rfl, ?_, fun name => ?_, hentries.length_eq,
    fun name value => ⟨add_ofOffers offers name value, fun e herror => ?_⟩⟩
  · exact (hentries.map Prod.fst).nodup_iff.2 (nodup_accepted offers)
  · show name ∈ directory.entries.map Prod.fst ↔ _
    rw [(hentries.map Prod.fst).mem_iff]
    simp
  · rw [ofOffers_append, offer, herror]

/-- Two names of one first character and one hash are told apart; of the four offers the blank
    one and the repeated one are refused. -/
theorem find?_directory_collision :
    let offers := [("é.cuzx", 1), (" ", 2), ("é.12ad", 3), ("é.cuzx", 4)]
    let directory := (ofOffers offers).directory none
    Name.hash "é.cuzx" = Name.hash "é.12ad" ∧
      directory.find? "é.cuzx" = some 1 ∧ directory.find? "é.12ad" = some 3 ∧
      directory.find? " " = none ∧ directory.size = 2 ∧
      (ofOffers offers).add "é.12ad" 5 = .error (.duplicateType "é.12ad") ∧
      ofOffers (offers ++ [("é.12ad", 5)]) = ofOffers offers := by
  intro offers directory
  have htaken : accepted empty offers = [("é.cuzx", 1), ("é.12ad", 3)] := by decide +kernel
  obtain ⟨hfind, -, -, -, hsize, hadd⟩ := find?_directory offers none
  have hrefused : (ofOffers offers).add "é.12ad" 5 = .error (.duplicateType "é.12ad") := by
    rw [(hadd "é.12ad" 5).1, htaken, if_neg (by decide +kernel), if_pos (by decide)]
  refine ⟨by decide +kernel, (hfind _ _).2 ?_, (hfind _ _).2 ?_, ?_, ?_, hrefused,
    (hadd _ _).2 _ hrefused⟩
  · rw [htaken]; decide
  · rw [htaken]; decide
  · refine Option.eq_none_iff_forall_ne_some.2 fun value hvalue => ?_
    have hmem := (hfind " " value).1 hvalue
    rw [htaken] at hmem
    simp at hmem
  · rw [hsize, htaken]
    rfl

end Assembly

end TypeAtlas
