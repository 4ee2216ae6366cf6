/-
  What a build reports.

  A build takes up the selected names one after another, and what it reports of a
  name depends on the outcome for this name alone.

  * `Build.outcome` is what is done with a selected name;
  * `Progress.Reports` is the invariant of a build: its tables hold the outcomes of the
    names taken up so far;
  * `Reports.add` and `Reports.foldlM`: nothing but an outcome that is an error can end
    a build early;
  * `Build.exists_run_iff` and `Build.reports_of_run`: so a build ends if its seeds can be
    found and every outcome is one, and then its parts hold the outcomes of the selected
    names, whatever their order.
-/
import TypeAtlas.Proofs.Build.Products

namespace TypeAtlas

/-! ## One name more -/

section

variable {α : Type} {p : String → α → Prop} {done : List String} {name : String} {value : α}

/-- A table of what holds of some names, when what holds of one name more is stored. -/
theorem Table.find?_insert_iff {table : Table α}
    (h : ∀ other found, table.find? other = some found ↔ other ∈ done ∧ p other found)
    (hname : ∀ found, p name found ↔ value = found) (other : String) (found : α) :
    (table.insert name value).find? other = some found ↔ other ∈ done ++ [name] ∧ p other found := by
  rw [find?_insert, List.mem_append, List.mem_singleton]
  by_cases hother : other = name
  · subst hother
    simp [hname]
  · simp [hother, h]

/-- What holds of some names is not changed by one of which nothing holds. -/
theorem mem_append_iff_of_not {q : String → α → Prop}
    (h : ∀ other found, q other found ↔ other ∈ done ∧ p other found)
    (hname : ∀ found, ¬ p name found) (other : String) (found : α) :
    q other found ↔ other ∈ done ++ [name] ∧ p other found := by
  rw [h, List.mem_append, List.mem_singleton]
  by_cases hother : other = name
  · subst hother
    simp [hname]
  · simp [hother]

end

namespace Build

/-! ## Outcomes -/

/-- What a build does with a name. -/
def outcome (settings : Settings) (scope : Scope) (registry : Registry) (seeds : List Seed)
    (name : String) : Except BuildError Outcome :=
  process settings scope registry ⟨settings.strictBindings, some (.ofScope scope)⟩
    (.ofSeeds scope seeds) name

variable {scope : Scope} {own external : List Declaration} {seeds : List Seed}
  {settings : Settings} {registry : Registry} {name : String} {names done : List String}
  {outcomes : String → Except BuildError Outcome}

/-- What is compiled for a name can be collected under it. -/
def Named (outcomes : String → Except BuildError Outcome) : Prop :=
  ∀ name shape compiled, outcomes name = .ok (.compiled shape compiled) →
    compiled.table.typeName = name ∧ Text.isBlankText name = false

theorem named_outcome (hof : scope.Of own external) :
    Named (outcome settings scope registry seeds) := by
  intro name shape compiled h
  obtain ⟨product, rfl, rfl, rfl⟩ := exists_product hof h
  exact ⟨product.typeName, (Name.ordinary_of_isGeneratable product.generatable).1⟩

/-! ## Progress -/

namespace Progress

/-- The tables hold the outcomes of the names in `done`. -/
structure Reports (outcomes : String → Except BuildError Outcome) (progress : Progress)
    (done : List String) : Prop where
  shapes : ∀ name shape, progress.shapes.find? name = some shape ↔
    name ∈ done ∧ ∃ compiled, outcomes name = .ok (.compiled shape compiled)
  blobs : ∀ name blob, progress.blobs.find? name = some blob ↔
    name ∈ done ∧ ∃ shape compiled, outcomes name = .ok (.compiled shape compiled) ∧
      compiled.blob = blob
  compiled : ∀ name compiled, progress.assembly.entries.find? name = some compiled ↔
    name ∈ done ∧ ∃ shape, outcomes name = .ok (.compiled shape compiled)
  skipped : ∀ name reason, (name, reason) ∈ progress.skipped ↔
    name ∈ done ∧ outcomes name = .ok (.skipped reason)

variable {progress : Progress}

namespace Reports

theorem start (outcomes : String → Except BuildError Outcome) :
    (Progress.mk .empty .empty .empty []).Reports outcomes [] := by
  constructor <;> simp [Assembly.empty]

theorem skip (h : progress.Reports outcomes done) {reason : Skip}
    (houtcome : outcomes name = .ok (.skipped reason)) :
    { progress with skipped := progress.skipped ++ [(name, reason)] : Progress }.Reports outcomes
      (done ++ [name]) where
  shapes := mem_append_iff_of_not h.shapes (by simp [houtcome])
  blobs := mem_append_iff_of_not h.blobs (by simp [houtcome])
  compiled := mem_append_iff_of_not h.compiled (by simp [houtcome])
  skipped other found := by
    rw [List.mem_append, h.skipped, List.mem_append, List.mem_singleton, List.mem_singleton,
      Prod.mk.injEq]
    by_cases hother : other = name
    · subst hother
      simp [houtcome, eq_comm]
    · simp [hother]

/-- **The next name is added, and then the tables hold its outcome too.** -/
theorem add (h : progress.Reports outcomes done) (hnamed : Named outcomes) (hnew : name ∉ done)
    {found : Outcome} (houtcome : outcomes name = .ok found) :
    ∃ next, progress.add name found = .ok next ∧ next.Reports outcomes (done ++ [name]) := by
  cases found with
  | skipped reason => exact ⟨_, rfl, h.skip houtcome⟩
  | compiled shape compiled =>
    obtain ⟨hname, hblank⟩ := hnamed name shape compiled houtcome
    have hfree : progress.assembly.entries.contains name = false := by
      rw [Table.contains, Option.isSome_eq_false_iff, Option.isNone_iff_eq_none,
        Option.eq_none_iff_forall_ne_some]
      exact fun other hother => hnew ((h.compiled name other).1 hother).1
    have hadd : progress.assembly.add name compiled =
        .ok ⟨progress.assembly.entries.insert name compiled⟩ := by
      rw [Assembly.add, hblank, hfree]
      rfl
    refine ⟨_, by rw [Progress.add, hname, hadd]; rfl, ?_, ?_, ?_, ?_⟩
    · exact Table.find?_insert_iff h.shapes (by simp [houtcome])
    · exact Table.find?_insert_iff h.blobs (by simp [houtcome])
    · exact Table.find?_insert_iff h.compiled (by simp [houtcome])
    · exact mem_append_iff_of_not h.skipped (by simp [houtcome])

/-- **The names are taken up to the last, and then the tables hold all their outcomes.** -/
theorem foldlM (h : progress.Reports outcomes done) (hnamed : Named outcomes)
    (hnodup : (done ++ names).Nodup) (hall : ∀ name ∈ names, ∃ found, outcomes name = .ok found) :
    ∃ last, names.foldlM (fun progress name => do progress.add name (← outcomes name)) progress =
      .ok last ∧ last.Reports outcomes (done ++ names) := by
  induction names generalizing progress done with
  | nil => exact ⟨progress, rfl, by rwa [List.append_nil]⟩
  | cons name rest ih =>
    obtain ⟨⟨found, houtcome⟩, hrest⟩ := List.forall_mem_cons.1 hall
    have hsplit : done ++ name :: rest = (done ++ [name]) ++ rest := by simp
    have hnew : name ∉ done := fun hmem =>
      (List.nodup_append.1 hnodup).2.2 name hmem name List.mem_cons_self rfl
    obtain ⟨next, hadd, hnext⟩ := h.add hnamed hnew houtcome
    rw [hsplit] at hnodup ⊢
    obtain ⟨last, hlast, hreports⟩ := ih hnext hnodup hrest
    refine ⟨last, ?_, hreports⟩
    rw [List.foldlM_cons, houtcome, ok_bind, hadd, ok_bind]
    exact hlast

end Reports

/-- Names that were taken up have an outcome. -/
theorem exists_of_foldlM {last : Progress}
    (h : names.foldlM (fun progress name => do progress.add name (← outcomes name)) progress =
      .ok last) : ∀ name ∈ names, ∃ found, outcomes name = .ok found := by
  induction names generalizing progress with
  | nil => simp
  | cons name rest ih =>
    simp only [List.foldlM_cons, bind_eq_ok] at h
    obtain ⟨next, ⟨found, houtcome, -⟩, hrest⟩ := h
    exact List.forall_mem_cons.2 ⟨⟨found, houtcome⟩, ih hrest⟩

end Progress

/-! ## Builds -/

/-- **A build ends if and only if its seeds can be found and every outcome is one.** -/
theorem exists_run_iff (hof : scope.Of own external) :
    (∃ build, run settings scope registry = .ok build) ↔
      ∃ seeds, Seed.scan settings.markers scope.catalog = .ok seeds ∧
        ∀ name ∈ (Selection.ofSeeds scope seeds).introspectable,
          ∃ found, outcome settings scope registry seeds name = .ok found := by
  simp only [run, bind_eq_ok, pure_eq_ok]
  constructor
  · rintro ⟨build, seeds, hseeds, progress, hprogress, -⟩
    exact ⟨seeds, hseeds, Progress.exists_of_foldlM hprogress⟩
  · rintro ⟨seeds, hseeds, hall⟩
    obtain ⟨last, hlast, -⟩ := (Progress.Reports.start _).foldlM
      (named_outcome hof) (by simpa using (Selection.ofSeeds scope seeds).introspectable.nodup) hall
    exact ⟨_, seeds, hseeds, last, hlast, rfl⟩

/-- The parts of a build, told by the outcomes of the selected names. -/
structure Reports (build : Build) (outcomes : String → Except BuildError Outcome) : Prop where
  shapes : ∀ name shape, build.shapes.find? name = some shape ↔
    name ∈ build.selection.introspectable ∧
      ∃ compiled, outcomes name = .ok (.compiled shape compiled)
  blobs : ∀ name blob, build.blobs.find? name = some blob ↔
    name ∈ build.selection.introspectable ∧
      ∃ shape compiled, outcomes name = .ok (.compiled shape compiled) ∧ compiled.blob = blob
  directory : ∀ name compiled, build.directory.find? name = some compiled ↔
    name ∈ build.selection.introspectable ∧
      ∃ shape, outcomes name = .ok (.compiled shape compiled)
  skipped : ∀ name reason, (name, reason) ∈ build.skipped ↔
    name ∈ build.selection.introspectable ∧ outcomes name = .ok (.skipped reason)

/-- **A build that ends reports the outcomes of the names that its seeds come to.** -/
theorem reports_of_run (hof : scope.Of own external) {build : Build}
    (h : run settings scope registry = .ok build) :
    ∃ seeds, Seed.scan settings.markers scope.catalog = .ok seeds ∧
      build.selection = .ofSeeds scope seeds ∧
      build.Reports (outcome settings scope registry seeds) := by
  simp only [run, bind_eq_ok, pure_eq_ok] at h
  obtain ⟨seeds, hseeds, progress, hprogress, rfl⟩ := h
  have hnamed : Named (outcome settings scope registry seeds) := named_outcome hof
  obtain ⟨last, hlast, hreports⟩ := (Progress.Reports.start _).foldlM hnamed
    (by simpa using (Selection.ofSeeds scope seeds).introspectable.nodup)
    (Progress.exists_of_foldlM hprogress)
  obtain rfl : last = progress := Except.ok.inj (hlast.symm.trans hprogress)
  refine ⟨seeds, hseeds, rfl, hreports.shapes, hreports.blobs, fun name compiled => ?_,
    hreports.skipped⟩
  have hfind : (last.assembly.directory none).find? name =
      if name = "" then none else last.assembly.entries.find? name :=
    Directory.find?_ofEntries last.assembly.entries.entries generatedPriority name
  have hcompiled := hreports.compiled name compiled
  rw [List.nil_append] at hcompiled
  simp only [hfind]
  by_cases hempty : name = ""
  · rw [if_pos hempty]
    constructor
    · exact fun hnone => nomatch hnone
    · rintro ⟨-, shape, houtcome⟩
      exact absurd hempty (Text.ne_empty_of_not_blank (hnamed name shape compiled houtcome).2)
  · rw [if_neg hempty]
    exact hcompiled

end Build

end TypeAtlas
