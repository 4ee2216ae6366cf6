/-
  Primitives and arrays.

  An engine may consist of the provider for primitives and arrays and of providers that
  are assembled from compiled types.  The first has the highest priority, and nobody else
  asks for other names.  It asks for the component of an array, which has one dimension
  less, so no name is ever asked for while it is being resolved.

  * `Provider.IsPackaged`: the providers of such an engine;
  * `Chain.Settles`: the free answer for a name, in every depth beyond the number of its
    dimensions; `Chain.exists_settles`: every name has one, by induction on dimensions;
  * `Engine.Packaged.exists_isArrayOf`: an array is answered by an array over what its
    component is answered by; `Engine.Packaged.no_cycle`: no thread is told of a cycle;
  * `Engine.answers_packaged`: every name is answered, and arrays by an array of what the
    component resolves to.
-/
import TypeAtlas.Proofs.Build.Assembly
import TypeAtlas.Proofs.Engine.Dependencies
import TypeAtlas.Proofs.Name.Element

namespace TypeAtlas

/-! ## Packaged providers -/

/-- The providers of an engine over compiled types. -/
inductive Provider.IsPackaged : Provider → Prop where
  | wellKnown : IsPackaged .wellKnown
  /-- Compiled types under their own names, with the priority of generated types. -/
  | assembled (types : List Compiled) :
    IsPackaged (.ofDirectory
      ((Assembly.ofOffers (types.map fun c => (c.table.typeName, c))).directory none))

theorem Assembly.mem_of_accepted {α : Type} {offers : List (String × α)} {assembly : Assembly α}
    {entry : String × α} (h : entry ∈ accepted assembly offers) : entry ∈ offers := by
  induction offers generalizing assembly with
  | nil => exact h
  | cons first rest ih =>
    rw [accepted] at h
    split at h
    · exact (List.mem_cons.1 h).elim (fun heq => heq ▸ List.mem_cons_self)
        fun hmem => List.mem_cons_of_mem _ (ih hmem)
    · exact List.mem_cons_of_mem _ (ih h)

/-- An assembled directory answers with types of the name that was asked for. -/
theorem typeName_of_assembled {types : List Compiled} {name : String} {c : Compiled}
    (h : ((Assembly.ofOffers (types.map fun c => (c.table.typeName, c))).directory none).find?
      name = some c) : c.table.typeName = name := by
  have hmem := Assembly.mem_of_accepted ((Assembly.find?_directory_iff _ none name c).1 h)
  obtain ⟨_, -, heq⟩ := List.mem_map.1 hmem
  cases heq
  rfl

namespace Provider.IsPackaged

variable {provider : Provider}

theorem steady (h : provider.IsPackaged) : provider.Steady := by
  cases h with
  | wellKnown => exact steady_wellKnown
  | assembled types => exact steady_ofDirectory _

theorem follows (h : provider.IsPackaged) :
    provider.Follows fun name other => Name.component? name = some other := by
  cases h with
  | wellKnown => exact follows_wellKnown
  | assembled types => exact follows_ofDirectory _ _

/-- All other providers come after the one for primitives and arrays. -/
theorem eq_wellKnown_or_lt (h : provider.IsPackaged) :
    provider = .wellKnown ∨ provider.priority < Provider.wellKnown.priority := by
  cases h with
  | wellKnown => exact Or.inl rfl
  | assembled types => exact Or.inr (show generatedPriority < wellKnownPriority by decide)

end Provider.IsPackaged

section

variable {providers : List Provider}

theorem Engine.mem_chain_ofProviders {provider : Provider} :
    provider ∈ (ofProviders providers).chain ↔ provider ∈ providers := by
  rw [chain_ofProviders, List.mem_mergeSort]

/-- The provider for primitives and arrays comes first. -/
theorem Engine.exists_chain_eq (hbuilt : .wellKnown ∈ providers)
    (hpackaged : ∀ provider ∈ providers, provider.IsPackaged) :
    ∃ rest, (ofProviders providers).chain = .wellKnown :: rest := by
  have hmem := mem_chain_ofProviders.2 hbuilt
  have hdescending := (inOrder_chain providers).descending
  cases hchain : (ofProviders providers).chain with
  | nil =>
    rw [hchain] at hmem
    cases hmem
  | cons first rest =>
    have hfirst : first ∈ providers := mem_chain_ofProviders.1 (hchain ▸ List.mem_cons_self)
    rcases (hpackaged first hfirst).eq_wellKnown_or_lt with rfl | hlt
    · exact ⟨rest, rfl⟩
    · rw [hchain] at hmem hdescending
      rcases List.mem_cons.1 hmem with rfl | hrest
      · exact absurd hlt (Int.lt_irrefl _)
      · have hle := (List.pairwise_cons.1 hdescending).1 _ hrest
        exact absurd hlt (Int.not_lt.2 hle)

/-- An engine of packaged providers that knows primitives and arrays. -/
structure Engine.Packaged (engine : Engine) : Prop where
  packaged : ∀ provider ∈ engine.chain, provider.IsPackaged
  chain_eq : ∃ rest, engine.chain = .wellKnown :: rest

theorem Engine.packaged_ofProviders (hbuilt : .wellKnown ∈ providers)
    (hpackaged : ∀ provider ∈ providers, provider.IsPackaged) : (ofProviders providers).Packaged :=
  ⟨fun provider hmem => hpackaged provider (mem_chain_ofProviders.1 hmem),
    exists_chain_eq hbuilt hpackaged⟩

end

/-! ## Answers without memory -/

theorem Name.component?_of_primitive {name : String} {p : Primitive}
    (h : Primitive.ofName? name = some p) : Name.component? name = none := by
  rw [← Primitive.name_of_ofName? h, Name.component?, Name.componentChars?_name, Option.map_none]

/-- The answer of the provider for arrays, given what the component resolves to. -/
theorem Provider.answerWith_array {name component : String}
    (h : Name.component? name = some component) {ask : String → Option Answer}
    {inner : Option Handle} (hask : ask component = some (.ok inner)) :
    (wellKnown.inquire 0 name).answerWith ask =
      some (.ok (some (.mk 0 (.array name (inner.getD (.mk 0 (.placeholder component))))))) := by
  have hprimitive : Primitive.ofName? name = none := by
    refine Option.eq_none_iff_forall_ne_some.2 fun p hp => ?_
    rw [Name.component?_of_primitive hp] at h
    cases h
  simp only [wellKnown, hprimitive, h, Inquiry.requireOrPlaceholder, Inquiry.answerWith, hask,
    Option.bind_some]
  cases inner <;> rfl

namespace Chain

variable {chain rest : Chain} {name component : String} {found inner : Option Handle}

/-- A name has a free answer in every depth beyond the number of its dimensions; if it is a
    handle, it has this name and is no placeholder. -/
structure Settles (chain : Chain) (name : String) (found : Option Handle) : Prop where
  free : ∀ depth, Name.dimensions name < depth → chain.free depth name = some (.ok found)
  known : ∀ handle ∈ found, handle.name = name ∧ handle.isPlaceholder = false

/-- What a name resolves to that is neither primitive nor an array. -/
theorem exists_answerWith (h : ∀ provider ∈ chain, provider.IsPackaged)
    (hprimitive : Primitive.ofName? name = none) (harray : Name.component? name = none) :
    ∃ found : Option Handle, (∀ ask, chain.answerWith ask name = some (.ok found)) ∧
      ∀ handle ∈ found, handle.name = name ∧ handle.isPlaceholder = false := by
  induction chain with
  | nil => exact ⟨none, fun _ => rfl, nofun⟩
  | cons provider rest ih =>
    obtain ⟨hprovider, hrest⟩ := List.forall_mem_cons.1 h
    obtain ⟨found, hanswer, hknown⟩ := ih hrest
    cases hprovider with
    | wellKnown =>
      refine ⟨found, fun ask => ?_, hknown⟩
      simp only [answerWith, Provider.wellKnown, hprimitive, harray, hanswer]
      rfl
    | assembled types =>
      cases hfind : ((Assembly.ofOffers
          (types.map fun c => (c.table.typeName, c))).directory none).find? name with
      | none =>
        refine ⟨found, fun ask => ?_, hknown⟩
        simp only [answerWith, Provider.ofDirectory, hfind, hanswer]
        rfl
      | some c =>
        refine ⟨some (.mk 0 (.compiled c)), fun ask => ?_, ?_⟩
        · simp only [answerWith, Provider.ofDirectory, hfind]
          rfl
        · rintro _ ⟨⟩
          exact ⟨typeName_of_assembled hfind, rfl⟩

theorem free_cons_succ (provider : Provider) (rest : Chain) (depth : Nat) (name : String) :
    Chain.free (provider :: rest) (depth + 1) name =
      Chain.answerWith (Chain.free (provider :: rest) depth) name (provider :: rest) := by
  rw [free_succ, List.isEmpty_cons]
  rfl

/-- An array is settled where its component is. -/
theorem Settles.array (hcomponent : Name.component? name = some component)
    (h : Chain.Settles (.wellKnown :: rest) component inner) :
    Chain.Settles (.wellKnown :: rest) name
      (some (.mk 0 (.array name (inner.getD (.mk 0 (.placeholder component)))))) where
  free depth hdepth := by
    rw [Name.dimensions_of_some hcomponent] at hdepth
    obtain ⟨depth, rfl⟩ := Nat.exists_eq_succ_of_ne_zero (Nat.ne_zero_of_lt hdepth)
    have hinner := h.free depth (Nat.lt_of_succ_lt_succ hdepth)
    rw [free_cons_succ, answerWith, Provider.answerWith_array hcomponent hinner]
    rfl
  known := by
    rintro _ ⟨⟩
    exact ⟨rfl, rfl⟩

/-- What an array is made of, a placeholder if nobody knows the component. -/
theorem Settles.standIn (h : chain.Settles component inner) :
    (inner.getD (.mk 0 (.placeholder component))).name = component ∧
      ((inner.getD (.mk 0 (.placeholder component))).isPlaceholder = true ↔ inner = none) := by
  cases inner with
  | none => exact ⟨rfl, iff_of_true rfl rfl⟩
  | some handle =>
    obtain ⟨hname, hknown⟩ := h.known handle rfl
    exact ⟨hname, iff_of_false (by simp [hknown]) nofun⟩

/-- Every name is settled, by induction on its dimensions. -/
theorem exists_settles (h : ∀ provider ∈ rest, provider.IsPackaged) (name : String) :
    ∃ found, Chain.Settles (.wellKnown :: rest) name found := by
  fun_induction Name.dimensions name with
  | case1 name component hcomponent ih =>
    obtain ⟨inner, hinner⟩ := ih
    exact ⟨_, hinner.array hcomponent⟩
  | case2 name harray =>
    have hsucc : ∀ depth, Name.dimensions name < depth → ∃ deep, depth = deep + 1 :=
      fun depth hdepth => Nat.exists_eq_succ_of_ne_zero (Nat.ne_zero_of_lt hdepth)
    cases hprimitive : Primitive.ofName? name with
    | some p =>
      refine ⟨some (.mk 0 (.primitive p)), fun depth hdepth => ?_, ?_⟩
      · obtain ⟨deep, rfl⟩ := hsucc depth hdepth
        simp only [free_cons_succ, answerWith, Provider.wellKnown, hprimitive]
        rfl
      · rintro _ ⟨⟩
        exact ⟨Primitive.name_of_ofName? hprimitive, rfl⟩
    | none =>
      obtain ⟨found, hanswer, hknown⟩ := exists_answerWith
        (List.forall_mem_cons.2 ⟨.wellKnown, h⟩) hprimitive harray
      refine ⟨found, fun depth hdepth => ?_, hknown⟩
      obtain ⟨deep, rfl⟩ := hsucc depth hdepth
      rw [free_cons_succ]
      exact hanswer _

end Chain

/-! ## Answers up to identity -/

section

variable {answer : Answer} {found : Option Handle}

theorem Answer.exists_eq_ok_of_alike (h : Answer.Alike answer (.ok found)) :
    ∃ answered, answer = .ok answered := by
  cases h with
  | some _ => exact ⟨_, rfl⟩
  | none => exact ⟨_, rfl⟩

theorem Answer.eq_ok_none_iff_of_alike (h : Answer.Alike answer (.ok found)) :
    answer = .ok none ↔ found = none := by
  cases h with
  | some _ => exact iff_of_false (by simp) (by simp)
  | none => exact iff_of_true rfl rfl

end

/-! ## Handles of arrays -/

theorem Handle.isPlaceholder_unmarked (handle : Handle) :
    handle.unmarked.isPlaceholder = handle.isPlaceholder := by
  obtain ⟨id, kind⟩ := handle
  cases kind <;> rfl

theorem Handle.exists_eq_array {handle inner : Handle} {name : String}
    (h : handle.unmarked = (Handle.mk 0 (.array name inner)).unmarked) :
    ∃ id other, handle = .mk id (.array name other) ∧ other.unmarked = inner.unmarked := by
  obtain ⟨id, kind⟩ := handle
  cases kind <;> simp [Handle.unmarked, HandleKind.unmarked] at h
  exact ⟨id, _, by rw [h.1], h.2⟩

/-- A handle of the array called `name` over `inner`, which is called `component`. -/
structure Handle.IsArrayOf (handle : Handle) (name component : String) (inner : Handle) : Prop where
  kind_eq : handle.kind = .array name inner
  name_eq : handle.name = name
  component?_eq : handle.component? = some inner
  component_name : inner.name = component
  /-- It is called after its component if the component's shape can be read. -/
  simpleName_eq : ∀ shape, inner.shape = .ok shape → ∃ outer, handle.shape = .ok outer ∧
    outer.name = name ∧ outer.simpleName = shape.simpleName ++ "[]"

theorem Handle.isArrayOf_mk (id : Nat) (name : String) (inner : Handle) :
    (Handle.mk id (.array name inner)).IsArrayOf name inner.name inner where
  kind_eq := rfl
  name_eq := rfl
  component?_eq := rfl
  component_name := rfl
  simpleName_eq shape hshape := by
    refine ⟨.ofArray name shape.simpleName, ?_, rfl, rfl⟩
    rw [Handle.shape, hshape]

/-! ## Requests -/

namespace Engine.Packaged

variable {engine : Engine} {memo : Memo} {name component : String} {found inner : Option Handle}
  {depth : Nat}

theorem steady (h : engine.Packaged) : ∀ provider ∈ engine.chain, provider.Steady :=
  fun provider hmem => (h.packaged provider hmem).steady

theorem exists_settles (h : engine.Packaged) (name : String) :
    ∃ found, engine.chain.Settles name found := by
  obtain ⟨rest, hchain⟩ := h.chain_eq
  have hpackaged := h.packaged
  rw [hchain] at hpackaged ⊢
  exact Chain.exists_settles (List.forall_mem_cons.1 hpackaged).2 name

theorem settles_array (h : engine.Packaged) (hcomponent : Name.component? name = some component)
    (hinner : engine.chain.Settles component inner) :
    engine.chain.Settles name
      (some (.mk 0 (.array name (inner.getD (.mk 0 (.placeholder component)))))) := by
  obtain ⟨rest, hchain⟩ := h.chain_eq
  rw [hchain] at hinner ⊢
  exact hinner.array hcomponent

/-- Whatever was asked before, a settled name is answered so in every depth beyond the number of
    its dimensions. -/
theorem ends_find? (h : engine.Packaged) (hserved : engine.Served memo)
    (hfound : engine.chain.Settles name found) (depth : Nat) :
    ((Request.find? name).run engine depth).Ends memo (depth ≤ Name.dimensions name)
      fun answer _ => Answer.Alike answer (.ok found) := by
  have hfree := hfound.free _ (Nat.lt_succ_self _)
  have hfresh : (Request.find? name).fresh engine.chain _ = some (.ok found) :=
    Chain.fresh_of_free (fun _ habove => absurd habove List.not_mem_nil) hfree
  exact (Request.ends_run_of_fresh h.steady hfresh depth (hserved.fits h.steady)).imp
    Nat.le_of_lt_succ fun _ _ => And.right

theorem alike_of_serve (h : engine.Packaged) (hserved : engine.Served memo)
    (hfound : engine.chain.Settles name found) {answer : Answer} {memo' : Memo}
    (hserve : (Request.find? name).serve engine depth memo = some (answer, memo')) :
    Answer.Alike answer (.ok found) :=
  (h.ends_find? hserved hfound depth).of_eq_some hserve

/-- An array is answered by an array over what its component is answered by. -/
theorem exists_isArrayOf (h : engine.Packaged) (hserved : engine.Served memo)
    (hcomponent : Name.component? name = some component) {answered : Option Handle} {memo' : Memo}
    (hserve : (Request.find? name).serve engine depth memo = some (.ok answered, memo')) :
    ∃ handle inner, answered = some handle ∧ handle.IsArrayOf name component inner ∧
      ∀ other, engine.Served other → ∀ deep answer other',
        (Request.find? component).serve engine deep other = some (answer, other') →
          (inner.isPlaceholder = true ↔ answer = .ok none) := by
  obtain ⟨inner, hinner⟩ := h.exists_settles component
  obtain ⟨hname, hplaceholder⟩ := hinner.standIn
  cases h.alike_of_serve hserved (h.settles_array hcomponent hinner) hserve with
  | some hunmarked =>
    obtain ⟨id, part, rfl, hpart⟩ := Handle.exists_eq_array hunmarked
    have hcalled : part.name = component := by
      rw [← Handle.name_unmarked, hpart, Handle.name_unmarked, hname]
    refine ⟨_, part, rfl, hcalled ▸ Handle.isArrayOf_mk id name part, ?_⟩
    intro other hother deep answer other' hserve'
    rw [← Handle.isPlaceholder_unmarked, hpart, Handle.isPlaceholder_unmarked, hplaceholder]
    exact (Answer.eq_ok_none_iff_of_alike (h.alike_of_serve hother hinner hserve')).symm

/-- No thread is told of a cycle. -/
theorem no_cycle (h : engine.Packaged) {requests : List (List Request)} {crew : Crew}
    (hcrew : Crew.Reachable engine (Crew.ofRequests requests) crew) {i : Nat} {thread : Thread}
    (hthread : crew.threads[i]? = some thread) (name : String) :
    thread.phase ≠ .deliver (.error (.cycle name)) ∧
      ∀ request, (request, .error (.cycle name)) ∉ thread.finished := by
  have hfollows : ∀ entry ∈ engine.providers,
      entry.2.Follows fun name other => Name.component? name = some other :=
    fun entry hentry => (h.packaged _ (List.mem_map_of_mem hentry)).follows
  have hlinked := Crew.linked_of_reachable hfollows hcrew i thread hthread
  refine ⟨fun hphase => ?_, fun request hfinished => ?_⟩
  · have hgenuine := hlinked.phase
    rw [hphase] at hgenuine
    exact Name.not_transGen_component name (hgenuine name rfl)
  · exact Name.not_transGen_component name (hlinked.finished request _ hfinished name rfl)

end Engine.Packaged

/-- **Names of primitives and arrays never lead to a cycle**, in whatever order packaged providers
    are given.  The engine can fail to answer for a name only in a depth that the number of its
    dimensions exceeds or reaches, every answer is a handle or nothing, whatever was asked before,
    and an array resolves to an array over what the component resolves to, which is a placeholder
    if and only if nobody knows the component.  No thread is ever told of a cycle. -/
theorem Engine.answers_packaged {providers : List Provider} (hbuilt : .wellKnown ∈ providers)
    (hpackaged : ∀ provider ∈ providers, provider.IsPackaged) :
    let engine := ofProviders providers
    (∀ memo, engine.Served memo → ∀ name depth,
      ((Request.find? name).serve engine depth memo = none → depth ≤ Name.dimensions name) ∧
      ∀ answer memo', (Request.find? name).serve engine depth memo = some (answer, memo') →
        ∃ found, answer = .ok found ∧
          ∀ component, Name.component? name = some component →
            ∃ handle inner, found = some handle ∧ handle.IsArrayOf name component inner ∧
              ∀ other, engine.Served other → ∀ deep answer other',
                (Request.find? component).serve engine deep other = some (answer, other') →
                  (inner.isPlaceholder = true ↔ answer = .ok none)) ∧
    ∀ (requests : List (List Request)) (crew : Crew),
      Crew.Reachable engine (Crew.ofRequests requests) crew →
      ∀ (i : Nat) (thread : Thread), crew.threads[i]? = some thread → ∀ name,
        thread.phase ≠ .deliver (.error (.cycle name)) ∧
          ∀ request, (request, .error (.cycle name)) ∉ thread.finished := by
  have h := packaged_ofProviders hbuilt hpackaged
  refine ⟨fun memo hserved name depth => ?_, fun requests crew hcrew i thread hthread name =>
    h.no_cycle hcrew hthread name⟩
  obtain ⟨found, hfound⟩ := h.exists_settles name
  refine ⟨(h.ends_find? hserved hfound depth).of_eq_none, fun answer memo' hserve => ?_⟩
  obtain ⟨answered, rfl⟩ :=
    Answer.exists_eq_ok_of_alike (h.alike_of_serve hserved hfound hserve)
  exact ⟨answered, rfl, fun component hcomponent =>
    h.exists_isArrayOf hserved hcomponent hserve⟩

/-- The component of an array can have a longer name than the array. -/
theorem Engine.answers_packaged_boolean :
    let providers := [.ofDirectory ((Assembly.ofOffers []).directory none), Provider.wellKnown]
    (∀ provider ∈ providers, provider.IsPackaged) ∧ ∃ handle inner memo,
      (Request.find? "[Z").serve (ofProviders providers) 2 .empty =
        some (.ok (some handle), memo) ∧ handle.IsArrayOf "[Z" "boolean" inner := by
  intro providers
  have hpackaged : ∀ provider ∈ providers, provider.IsPackaged :=
    List.forall_mem_cons.2 ⟨.assembled [], List.forall_mem_singleton.2 .wellKnown⟩
  have hcomponent : Name.component? "[Z" = some "boolean" := by decide +kernel
  have hdimensions : Name.dimensions "[Z" < 2 := by
    rw [Name.dimensions_of_some hcomponent, Name.dimensions_of_none (by decide +kernel)]
    decide
  obtain ⟨hanswers, -⟩ := answers_packaged (by simp [providers]) hpackaged
  obtain ⟨hdepth, hanswer⟩ := hanswers .empty .empty "[Z" 2
  cases hserve : (Request.find? "[Z").serve (ofProviders providers) 2 .empty with
  | none => exact absurd (hdepth hserve) (Nat.not_le_of_lt hdimensions)
  | some result =>
    obtain ⟨answer, memo⟩ := result
    obtain ⟨found, rfl, harray⟩ := hanswer answer memo hserve
    obtain ⟨handle, inner, rfl, hkind, -⟩ := harray "boolean" hcomponent
    exact ⟨hpackaged, handle, inner, memo, rfl, hkind⟩

end TypeAtlas
