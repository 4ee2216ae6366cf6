/-
  Resolving without memory.

  `Chain.fresh` is what a name resolves to if nothing is remembered: the providers
  are consulted one after another, the first handle or error counts, and a name
  that is asked for below itself is a cycle.  `Chain.free` is the same without
  looking for cycles, so that it depends on the name alone.

  * `Inquiry.Asks` are the names that an inquiry asks for, `Chain.Needs` holds of
    a name and those without which it has no free answer;
  * `Chain.free_eq_none_of_needs`: a name that needs itself has no free answer;
  * `Chain.free_of_fresh`: what is found below any names is the free answer;
  * `Chain.fresh_of_free`: a free answer is found below all names that need the
    name in question.
-/
import TypeAtlas.Proofs.Engine.Steady

namespace TypeAtlas

/-- Providers in the order in which they are consulted. -/
abbrev Chain := List Provider

/-! ## The answers of inquiries -/

/-- The answer of an inquiry whose questions are answered by `ask`.  Without memory all
    handles have one identity. -/
def Inquiry.answerWith (ask : String → Option Answer) : Inquiry → Option Answer
  | .done answer => some answer
  | .ask name next => (ask name).bind fun found => (next found).answerWith ask
  | .make kind next => (next (.mk 0 kind)).answerWith ask
  | .look _ next => next.answerWith ask
  | .clear next => next.answerWith ask

/-- An answer, or another one if it is that nobody knows the name. -/
def Answer.orElse (other : Option Answer) : Answer → Option Answer
  | .ok none => other
  | found => some found

/-- The answer of providers that are consulted one after another. -/
def Chain.answerWith (ask : String → Option Answer) (name : String) : Chain → Option Answer
  | [] => some (.ok none)
  | provider :: rest =>
    ((provider.inquire 0 name).answerWith ask).bind (Answer.orElse (Chain.answerWith ask name rest))

/-- The names that an inquiry asks for if its questions are answered as `known` says. -/
inductive Inquiry.Asks (known : String → Answer → Prop) : Inquiry → String → Prop where
  | now (name : String) (next : Answer → Inquiry) : Asks known (.ask name next) name
  | later {name asked : String} {next : Answer → Inquiry} {found : Answer}
    (hfound : known name found) (h : Asks known (next found) asked) :
    Asks known (.ask name next) asked
  | make {kind : HandleKind} {next : Handle → Inquiry} {asked : String}
    (h : Asks known (next (.mk 0 kind)) asked) : Asks known (.make kind next) asked
  | look {handle : Handle} {next : Inquiry} {asked : String} (h : Asks known next asked) :
    Asks known (.look handle next) asked
  | clear {next : Inquiry} {asked : String} (h : Asks known next asked) :
    Asks known (.clear next) asked

namespace Chain

/-- What a name resolves to if nothing is remembered; `stack` holds the names that are being
    resolved.  There may be no answer in the given depth. -/
def fresh (chain : Chain) : Nat → List String → String → Option Answer
  | 0, _, _ => none
  | depth + 1, stack, name =>
    if chain.isEmpty then some (.error .noProviders)
    else if name ∈ stack then some (.error (.cycle name))
    else chain.answerWith (chain.fresh depth (name :: stack)) name

/-- What a name resolves to if nobody looks for cycles. -/
def free (chain : Chain) : Nat → String → Option Answer
  | 0, _ => none
  | depth + 1, name =>
    if chain.isEmpty then some (.error .noProviders)
    else chain.answerWith (chain.free depth) name

/-- The free answer for a name. -/
def Gives (chain : Chain) (name : String) (found : Answer) : Prop :=
  ∃ depth, chain.free depth name = some found

/-- The names that providers ask for, one provider after another. -/
inductive Asks (known : String → Answer → Prop) (name : String) : Chain → String → Prop where
  | first {provider : Provider} {rest : Chain} {asked : String}
    (h : (provider.inquire 0 name).Asks known asked) : Asks known name (provider :: rest) asked
  | rest {provider : Provider} {rest : Chain} {asked : String} {ask : String → Option Answer}
    (hask : ∀ name found, ask name = some found → known name found)
    (hnone : (provider.inquire 0 name).answerWith ask = some (.ok none))
    (h : Asks known name rest asked) : Asks known name (provider :: rest) asked

/-- A name that has no free answer but where another has one in less depth. -/
def Needs (chain : Chain) (name other : String) : Prop :=
  ∀ depth found, chain.free (depth + 1) name = some found →
    ∃ found', chain.free depth other = some found'

end Chain

/-! ## More answers -/

/-- An answer that is found in some depth is found in all greater depths. -/
def Rising (answer : Nat → Option Answer) : Prop :=
  ∀ ⦃depth deeper found⦄, answer depth = some found → depth ≤ deeper → answer deeper = some found

theorem Rising.inj {answer : Nat → Option Answer} (h : Rising answer) {depth depth' : Nat}
    {a b : Answer} (ha : answer depth = some a) (hb : answer depth' = some b) : a = b := by
  have ha' := h ha (Nat.le_max_left depth depth')
  have hb' := h hb (Nat.le_max_right depth depth')
  exact Option.some.inj (ha'.symm.trans hb')

/-- Answers that agree with the given ones on what is asked lead to the same answer. -/
theorem Inquiry.answerWith_of_asks (known : String → Answer → Prop)
    {ask ask' : String → Option Answer}
    (hknown : ∀ name found, ask name = some found → known name found) {inquiry : Inquiry}
    {answer : Answer} (hask : ∀ name found, inquiry.Asks known name → ask name = some found →
      ask' name = some found) (h : inquiry.answerWith ask = some answer) :
    inquiry.answerWith ask' = some answer := by
  induction inquiry with
  | done _ => exact h
  | ask name next ih =>
    simp only [answerWith, Option.bind_eq_some_iff] at h ⊢
    obtain ⟨found, hfound, h⟩ := h
    refine ⟨found, hask name found (.now _ _) hfound, ih found (fun other b hb => ?_) h⟩
    exact hask other b (.later (hknown _ _ hfound) hb)
  | make kind next ih => exact ih _ (fun name found hasks => hask name found (.make hasks)) h
  | look handle next ih => exact ih (fun name found hasks => hask name found (.look hasks)) h
  | clear next ih => exact ih (fun name found hasks => hask name found (.clear hasks)) h

theorem Chain.answerWith_of_asks (known : String → Answer → Prop)
    {ask ask' : String → Option Answer} {name : String}
    (hknown : ∀ name found, ask name = some found → known name found) {chain : Chain}
    {answer : Answer} (hask : ∀ other found, Asks known name chain other →
      ask other = some found → ask' other = some found)
    (h : chain.answerWith ask name = some answer) : chain.answerWith ask' name = some answer := by
  induction chain with
  | nil => exact h
  | cons provider rest ih =>
    simp only [answerWith, Option.bind_eq_some_iff] at h ⊢
    obtain ⟨found, hfound, h⟩ := h
    refine ⟨found, Inquiry.answerWith_of_asks known hknown
      (fun other b hb => hask other b (.first hb)) hfound, ?_⟩
    rcases found with e | _ | handle
    · exact h
    · exact ih (fun other b hb => hask other b (.rest hknown hfound hb)) h
    · exact h

theorem Inquiry.answerWith_mono {ask ask' : String → Option Answer} {inquiry : Inquiry}
    {answer : Answer} (hask : ∀ name found, ask name = some found → ask' name = some found)
    (h : inquiry.answerWith ask = some answer) : inquiry.answerWith ask' = some answer :=
  Inquiry.answerWith_of_asks (fun _ _ => True) (fun _ _ _ => trivial)
    (fun other found _ => hask other found) h

theorem Chain.answerWith_mono {ask ask' : String → Option Answer} {name : String} {chain : Chain}
    {answer : Answer} (hask : ∀ name found, ask name = some found → ask' name = some found)
    (h : chain.answerWith ask name = some answer) : chain.answerWith ask' name = some answer :=
  Chain.answerWith_of_asks (fun _ _ => True) (fun _ _ _ => trivial)
    (fun other found _ => hask other found) h

/-- Whoever answers knows the answers for all that is asked. -/
theorem Inquiry.Asks.exists_answer {known : String → Answer → Prop} {ask : String → Option Answer}
    (hsame : ∀ name a b, known name a → ask name = some b → a = b) {inquiry : Inquiry}
    {name : String} (hasks : inquiry.Asks known name) {answer : Answer}
    (h : inquiry.answerWith ask = some answer) : ∃ found, ask name = some found := by
  induction hasks with
  | now name next =>
    simp only [answerWith, Option.bind_eq_some_iff] at h
    obtain ⟨found, hfound, -⟩ := h
    exact ⟨found, hfound⟩
  | later hknown _ ih =>
    simp only [answerWith, Option.bind_eq_some_iff] at h
    obtain ⟨found, hfound, h⟩ := h
    rw [← hsame _ _ _ hknown hfound] at h
    exact ih h
  | make _ ih => exact ih h
  | look _ ih => exact ih h
  | clear _ ih => exact ih h

/-- Answers that do not contradict each other lead to the same answer. -/
theorem Inquiry.answerWith_inj {ask ask' : String → Option Answer}
    (hsame : ∀ name a b, ask name = some a → ask' name = some b → a = b) {inquiry : Inquiry}
    {a b : Answer} (ha : inquiry.answerWith ask = some a) (hb : inquiry.answerWith ask' = some b) :
    a = b := by
  induction inquiry with
  | done _ => exact Option.some.inj (ha.symm.trans hb)
  | ask name next ih =>
    simp only [answerWith, Option.bind_eq_some_iff] at ha hb
    obtain ⟨found, hfound, ha⟩ := ha
    obtain ⟨found', hfound', hb⟩ := hb
    rw [← hsame _ _ _ hfound hfound'] at hb
    exact ih found ha hb
  | make kind next ih => exact ih _ ha hb
  | look handle next ih => exact ih ha hb
  | clear next ih => exact ih ha hb

namespace Chain

variable {chain : Chain}

theorem fresh_succ (chain : Chain) (depth : Nat) (stack : List String) (name : String) :
    chain.fresh (depth + 1) stack name =
      if chain.isEmpty then some (.error .noProviders)
      else if name ∈ stack then some (.error (.cycle name))
      else chain.answerWith (chain.fresh depth (name :: stack)) name := rfl

theorem free_succ (chain : Chain) (depth : Nat) (name : String) :
    chain.free (depth + 1) name =
      if chain.isEmpty then some (.error .noProviders)
      else chain.answerWith (chain.free depth) name := rfl

theorem rising_fresh (chain : Chain) (stack : List String) (name : String) :
    Rising fun depth => chain.fresh depth stack name := by
  intro depth deeper found h hle
  induction depth generalizing deeper stack name found with
  | zero => exact absurd h (by simp [fresh])
  | succ depth ih =>
    obtain ⟨deeper, rfl⟩ := Nat.exists_eq_add_of_le' (Nat.le_trans (Nat.le_add_left 1 depth) hle)
    simp only [fresh_succ] at h ⊢
    split
    · rwa [if_pos ‹_›] at h
    · rw [if_neg ‹_›] at h
      split
      · rwa [if_pos ‹_›] at h
      · rw [if_neg ‹_›] at h
        exact answerWith_mono (fun other b hb => ih _ _ hb (Nat.le_of_succ_le_succ hle)) h

theorem rising_free (chain : Chain) (name : String) :
    Rising fun depth => chain.free depth name := by
  intro depth deeper found h hle
  induction depth generalizing deeper name found with
  | zero => exact absurd h (by simp [free])
  | succ depth ih =>
    obtain ⟨deeper, rfl⟩ := Nat.exists_eq_add_of_le' (Nat.le_trans (Nat.le_add_left 1 depth) hle)
    simp only [free_succ] at h ⊢
    split
    · rwa [if_pos ‹_›] at h
    · rw [if_neg ‹_›] at h
      exact answerWith_mono (fun other b hb => ih _ hb (Nat.le_of_succ_le_succ hle)) h

theorem rising_answerWith (chain : Chain) (stack : List String) (name : String) (rest : Chain) :
    Rising fun depth => rest.answerWith (chain.fresh depth stack) name :=
  fun _ _ _ h hle => answerWith_mono (fun other _ hb => rising_fresh chain stack other hb hle) h

theorem rising_inquiry (chain : Chain) (stack : List String) (inquiry : Inquiry) :
    Rising fun depth => inquiry.answerWith (chain.fresh depth stack) :=
  fun _ _ _ h hle =>
    Inquiry.answerWith_mono (fun other _ hb => rising_fresh chain stack other hb hle) h

theorem Gives.inj {name : String} {a b : Answer} (h : chain.Gives name a)
    (h' : chain.Gives name b) : a = b := by
  obtain ⟨depth, h⟩ := h
  obtain ⟨depth', h'⟩ := h'
  exact (rising_free chain name).inj h h'

/-! ## Names that are needed -/

theorem Asks.exists_answer {known : String → Answer → Prop} {ask : String → Option Answer}
    (hsame : ∀ name a b, known name a → ask name = some b → a = b) {name asked : String}
    (hasks : Asks known name chain asked) {answer : Answer}
    (h : chain.answerWith ask name = some answer) : ∃ found, ask asked = some found := by
  induction hasks with
  | first hasks =>
    simp only [answerWith, Option.bind_eq_some_iff] at h
    obtain ⟨found, hfound, -⟩ := h
    exact hasks.exists_answer hsame hfound
  | rest hknown hnone _ ih =>
    simp only [answerWith, Option.bind_eq_some_iff] at h
    obtain ⟨found, hfound, h⟩ := h
    have hsame' := fun name a b ha hb => hsame name a b (hknown name a ha) hb
    rw [← Inquiry.answerWith_inj hsame' hnone hfound] at h
    exact ih h

/-- A name needs all that the providers ask for it. -/
theorem needs_of_asks {name asked : String} (h : Asks chain.Gives name chain asked) :
    chain.Needs name asked := by
  intro depth found hfound
  rw [free_succ] at hfound
  split at hfound
  next hempty =>
    cases List.isEmpty_iff.1 hempty
    cases h
  next => exact h.exists_answer (fun _ _ _ ha hb => ha.inj ⟨depth, hb⟩) hfound

theorem Needs.trans {a b c : String} (h : chain.Needs a b) (h' : chain.Needs b c) :
    chain.Needs a c := by
  intro depth found hfound
  obtain ⟨found', hfound'⟩ := h depth found hfound
  cases depth with
  | zero => exact absurd hfound' (by simp [free])
  | succ depth =>
    obtain ⟨found'', hfound''⟩ := h' depth found' hfound'
    exact ⟨found'', rising_free chain c hfound'' (Nat.le_succ depth)⟩

/-- A name that needs itself has no free answer. -/
theorem free_eq_none_of_needs {name : String} (h : chain.Needs name name) (depth : Nat) :
    chain.free depth name = none := by
  induction depth with
  | zero => rfl
  | succ depth ih =>
    refine Option.eq_none_iff_forall_ne_some.2 fun found hfound => ?_
    obtain ⟨found', hfound'⟩ := h depth found hfound
    exact Option.some_ne_none found' (hfound'.symm.trans ih)

/-! ## Cycles -/

/-- A free answer is found below all names that need the name in question. -/
theorem fresh_of_free {depth : Nat} {stack : List String} {name : String} {found : Answer}
    (hstack : ∀ above ∈ stack, chain.Needs above name) (h : chain.free depth name = some found) :
    chain.fresh depth stack name = some found := by
  induction depth generalizing stack name found with
  | zero => exact absurd h (by simp [free])
  | succ depth ih =>
    have hnew : name ∉ stack := fun hmem => by
      rw [free_eq_none_of_needs (hstack name hmem)] at h
      exact Option.some_ne_none _ h.symm
    rw [fresh_succ, if_neg hnew]
    rw [free_succ] at h
    split
    · rwa [if_pos ‹_›] at h
    · rw [if_neg ‹_›] at h
      refine answerWith_of_asks chain.Gives (fun _ _ hb => ⟨depth, hb⟩)
        (fun asked b hasks hb => ih (fun above hmem => ?_) hb) h
      have hneeds := needs_of_asks hasks
      rcases List.mem_cons.1 hmem with rfl | hmem
      · exact hneeds
      · exact (hstack above hmem).trans hneeds

end Chain

/-- Whoever hands on errors and has a handle or nothing to answer was answered no error. -/
theorem Inquiry.Alike.answerWith_of_ok {inquiry inquiry' : Inquiry} (h : inquiry.Alike inquiry')
    {ask ask' : String → Option Answer}
    (hask : ∀ name found, ask name = some (.ok found) → ask' name = some (.ok found))
    {found : Option Handle} (hfound : inquiry'.answerWith ask = some (.ok found)) :
    inquiry'.answerWith ask' = some (.ok found) := by
  induction h with
  | done _ => exact hfound
  | ask name _ _ herror' ih =>
    simp only [answerWith, Option.bind_eq_some_iff] at hfound ⊢
    obtain ⟨answer, hanswer, hfound⟩ := hfound
    rcases answer with e | other
    · rw [herror'] at hfound
      cases hfound
    · exact ⟨_, hask _ _ hanswer, ih _ _ (Answer.Alike.refl _) hfound⟩
  | make _ _ ih => exact ih 0 0 hfound
  | look _ _ ih => exact ih hfound

namespace Chain

variable {chain : Chain}

theorem answerWith_of_ok (hsteady : ∀ provider ∈ chain, provider.Steady)
    {ask ask' : String → Option Answer}
    (hask : ∀ name found, ask name = some (.ok found) → ask' name = some (.ok found))
    {name : String} {found : Option Handle} (h : chain.answerWith ask name = some (.ok found)) :
    chain.answerWith ask' name = some (.ok found) := by
  induction chain with
  | nil => exact h
  | cons provider rest ih =>
    obtain ⟨hfirst, hrest⟩ := List.forall_mem_cons.1 hsteady
    simp only [answerWith, Option.bind_eq_some_iff] at h ⊢
    obtain ⟨answer, hanswer, h⟩ := h
    rcases answer with e | other
    · cases h
    · refine ⟨.ok other, (hfirst 0 0 name).answerWith_of_ok hask hanswer, ?_⟩
      rcases other with _ | handle
      · exact ih hrest h
      · exact h

/-- What is found below any names is the free answer. -/
theorem free_of_fresh (hsteady : ∀ provider ∈ chain, provider.Steady) {depth : Nat}
    {stack : List String} {name : String} {found : Option Handle}
    (h : chain.fresh depth stack name = some (.ok found)) :
    chain.free depth name = some (.ok found) := by
  induction depth generalizing stack name found with
  | zero => exact absurd h (by simp [fresh])
  | succ depth ih =>
    rw [fresh_succ] at h
    rw [free_succ]
    split
    · rw [if_pos ‹_›] at h
      cases h
    · rw [if_neg ‹_›] at h
      split at h
      · cases h
      · exact answerWith_of_ok hsteady (fun _ _ hb => ih hb) h

end Chain

end TypeAtlas
