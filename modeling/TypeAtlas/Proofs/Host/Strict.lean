/-
  Strict tables.

  A strict compilation wants a body for every member that can be called.  A field
  counts as bound if it can be read: one that is bound read-only, as every static
  field is, has no body that writes it, whether the field is final or not.

  * `Shape.complete_of_compileTable`: the members for which a strict table has
    bodies;
  * `CallTable.perform_strict`: a call of such a member is never answered for want
    of a body, and the writing of a field that is bound read-only always is;
  * `account`: a type whose strict table cannot write two of its fields.
-/
import TypeAtlas.Proofs.Host.Gate

namespace TypeAtlas

/-! ## Calls that have a body -/

/-- Whether a field is bound without a body that writes it. -/
def Bindings.ReadOnly (bindings : Bindings) (name : String) : Prop :=
  ∃ bound, bindings.fields.find? name = some bound ∧ bound.set = none

namespace Bindings

variable (bindings : Bindings) (host : HostType) (name : String)

theorem readOnly_withReadOnlyField (get : Record → Native) :
    (bindings.withReadOnlyField host name get).ReadOnly name :=
  ⟨_, (Table.find?_insert ..).trans (if_pos rfl), rfl⟩

theorem readOnly_withStaticField (value : Native) :
    (bindings.withStaticField name value).ReadOnly name :=
  ⟨_, (Table.find?_insert ..).trans (if_pos rfl), rfl⟩

theorem not_readOnly_withField (get : Record → Native)
    (set : Native → EStateM CallError Record Unit) :
    ¬ (bindings.withField host name get set).ReadOnly name := by
  rintro ⟨bound, hbound, hset⟩
  rw [withField, withBoundField, Table.find?_insert, if_pos rfl] at hbound
  cases hbound
  cases hset

end Bindings

/-- The calls of members that a strict compilation wants a body for. -/
def Shape.Wants (shape : Shape) (bindings : Bindings) : Call → Prop
  | .construct .. => shape.kind = .cls ∧ shape.modifiers.isAbstract = false
  | .invoke index .. =>
    ∀ method, shape.methods[index]? = some method → method.modifiers.isAbstract = false
  | .read .. => True
  | .write index .. => ∀ field, shape.fields[index]? = some field →
    field.modifiers.isFinal = false ∧ ¬ bindings.ReadOnly field.name

/-! ## Strict compilation -/

/-- What is bound for a shape that compiles strictly. -/
structure Shape.Complete (shape : Shape) (bindings : Bindings) : Prop where
  constructors : shape.kind = .cls → shape.modifiers.isAbstract = false →
    ∀ ctor ∈ shape.constructors, ∃ body, bindings.constructors.find? ctor.signature = some body
  methods : ∀ method ∈ shape.methods, method.modifiers.isAbstract = false →
    ∃ bound, bindings.methods.find? method.signature = some bound
  fields : ∀ field ∈ shape.fields, ∃ bound, bindings.fields.find? field.name = some bound

variable {shape : Shape} {lineage : Option Lineage} {bindings : Bindings} {table : CallTable}
  {store : Store} {call : Call} {gate : Gate}

theorem CompileMode.exists_of_require {α : Type} {mode : CompileMode} {type member : String}
    {body : Option α} (hstrict : mode.strict = true)
    (h : mode.require type member true body = .ok ()) : ∃ found, body = some found := by
  cases body with
  | some found => exact ⟨found, rfl⟩
  | none =>
    rw [require, missing, hstrict] at h
    cases h

theorem Shape.complete_of_compileTable {mode : CompileMode} (hstrict : mode.strict = true)
    (h : shape.compileTable mode bindings = .ok table) : shape.Complete bindings := by
  unfold compileTable at h
  split at h
  · cases h
  simp only [bind_eq_ok, pure_eq_ok] at h
  obtain ⟨constructors, hconstructors, methods, hmethods, fields, hfields, -⟩ := h
  refine ⟨fun hkind habstract ctor hctor => ?_, fun method hmethod habstract => ?_,
    fun field hfield => ?_⟩
  · obtain ⟨entry, -, hentry⟩ := exists_of_mem_right (mapM_eq_ok_iff.1 hconstructors).flip hctor
    simp only [CompileMode.constructor, bind_eq_ok] at hentry
    obtain ⟨_, hrequire, -⟩ := hentry
    rw [hkind, habstract] at hrequire
    exact CompileMode.exists_of_require hstrict hrequire
  · obtain ⟨entry, -, hentry⟩ := exists_of_mem_right (mapM_eq_ok_iff.1 hmethods).flip hmethod
    simp only [CompileMode.method, bind_eq_ok] at hentry
    obtain ⟨_, -, _, hrequire, -⟩ := hentry
    rw [habstract] at hrequire
    exact CompileMode.exists_of_require hstrict hrequire
  · obtain ⟨entry, -, hentry⟩ := exists_of_mem_right (mapM_eq_ok_iff.1 hfields).flip hfield
    simp only [CompileMode.field, bind_eq_ok] at hentry
    obtain ⟨_, -, _, hrequire, -⟩ := hentry
    exact CompileMode.exists_of_require hstrict hrequire

/-- Where a body is wanted and all is bound, the gate has one. -/
theorem Shape.Complete.isNone_run? (h : shape.Complete bindings)
    (hgate : shape.gate? lineage bindings call = some gate) (hwants : shape.Wants bindings call) :
    gate.run?.isNone = false := by
  cases call with
  | construct index arguments =>
    obtain ⟨ctor, hctor, rfl⟩ := Option.map_eq_some_iff.1 hgate
    obtain ⟨body, hbody⟩ :=
      h.constructors hwants.1 hwants.2 ctor (List.mem_of_getElem? hctor)
    simp [constructorGate, hbody]
  | invoke index target arguments =>
    obtain ⟨method, hmethod, rfl⟩ := Option.map_eq_some_iff.1 hgate
    obtain ⟨bound, hbound⟩ :=
      h.methods method (List.mem_of_getElem? hmethod) (hwants method hmethod)
    simp [methodGate, hbound]
  | read index target =>
    obtain ⟨field, hfield, rfl⟩ := Option.map_eq_some_iff.1 hgate
    obtain ⟨bound, hbound⟩ := h.fields field (List.mem_of_getElem? hfield)
    simp [readGate, hbound]
  | write index target value =>
    obtain ⟨field, hfield, rfl⟩ := Option.map_eq_some_iff.1 hgate
    obtain ⟨bound, hbound⟩ := h.fields field (List.mem_of_getElem? hfield)
    obtain ⟨set, hset⟩ := Option.ne_none_iff_exists'.1 fun hnone =>
      (hwants field hfield).2 ⟨bound, hbound, hnone⟩
    simp [writeGate, hbound, hset]

/-! ## Answers of strict tables -/

/-- Only the last check refuses for want of a body. -/
theorem Gate.Fails.ne_unbound {check : Gate.Check} {e : CallError} (h : gate.Fails store check e)
    (hcheck : check ≠ .body) (member : String) : e ≠ .unbound member := by
  rintro rfl
  cases check with
  | writable => cases h.2
  | arity => cases h.2
  | receiver =>
    rcases h.2 with ⟨-, h⟩ | ⟨value, -, -, -, h⟩
    · cases h
    · cases h
  | arguments =>
    obtain ⟨_, slot, _, _, value, _, -, -, -, -, h⟩ := h
    unfold Slot.refusal at h
    split at h <;> cases h
  | body => exact hcheck rfl

/-- What passes every other check is refused for want of a body if there is none. -/
theorem Gate.Answers.eq_unbound {result : EStateM.Result CallError Store Value}
    (h : gate.Answers store result) (hclear : gate.Clears store Check.body.place)
    (hnone : gate.run? = none) :
    result = .error (.unbound (gate.type ++ "." ++ gate.member)) store := by
  cases h with
  | ran hadmits _ =>
    have hbody := hadmits.body
    rw [hnone] at hbody
    cases hbody
  | refused hrefuses hrefused =>
    obtain ⟨check, -, hfails⟩ := hrefuses
    cases check with
    | body => rw [hrefused, hfails.2]
    | _ => exact absurd hfails (hclear _ (by decide) _)

/-- **A call that a strict table has a body for is never refused for want of one**: what the
    table itself answers is something else, and beyond that the body answers.  The writing
    of a field that is bound read-only is the exception: what passes the other checks is
    refused for want of a body. -/
theorem CallTable.perform_strict {mode : CompileMode} (hstrict : mode.strict = true)
    (h : shape.compileTable mode bindings = .ok table) (store : Store) :
    (∀ call, shape.Wants bindings call →
      (∃ e, table.perform call store = .error e store ∧ ∀ member, e ≠ .unbound member) ∨
      ∃ gate ref run, shape.gate? mode.lineage bindings call = some gate ∧
        gate.Admits store ref run ∧ table.perform call store = run ref store) ∧
    ∀ index field target value, shape.fields[index]? = some field →
      bindings.ReadOnly field.name →
      (shape.writeGate mode.lineage bindings field target value).Clears store
        Gate.Check.body.place →
      table.perform (.write index target value) store =
        .error (.unbound (shape.name ++ "." ++ field.name)) store := by
  have ht := Shape.tabled_of_compileTable h
  have hcomplete := Shape.complete_of_compileTable hstrict h
  constructor
  · intro call hwants
    rcases perform_cases ht call store with ⟨-, hbad⟩ | ⟨gate, hgate, hanswers⟩
    · exact Or.inl ⟨_, hbad, fun member => CallError.noConfusion⟩
    cases hanswers with
    | ran hadmits hran => exact Or.inr ⟨gate, _, _, hgate, hadmits, hran⟩
    | refused hrefuses hrefused =>
      obtain ⟨check, -, hfails⟩ := hrefuses
      refine Or.inl ⟨_, hrefused, hfails.ne_unbound ?_⟩
      rintro rfl
      have hbody := hcomplete.isNone_run? hgate hwants
      rw [hfails.1] at hbody
      cases hbody
  · rintro index field target value hfield ⟨bound, hbound, hset⟩ hclear
    have hnone : (shape.writeGate mode.lineage bindings field target value).run? = none := by
      simp [Shape.writeGate, hbound, hset]
    exact (ht.answers (Shape.gate?_write hfield target value) store).eq_unbound hclear hnone

/-! ## A type with read-only fields -/

/-- A type with three fields, none of them final. -/
def account : Shape :=
  { Shape.ofName "a.Account" .cls with
    constructors := [⟨"a.Account", [], {}, [], []⟩]
    fields := [⟨"owner", "a.Account", Name.string, {}, []⟩,
      ⟨"total", "a.Account", "int", {}, []⟩,
      ⟨"count", "a.Account", "int", { isStatic := true }, []⟩] }

/-- The bindings of `account`: its owner can be written, its numbers cannot. -/
def accountBindings : Bindings :=
  let host : HostType := ⟨7⟩
  let get := fun (name : String) (fields : Record) => (fields.find? name).getD .void
  Bindings.ofHost "a.Account" host
    |>.withConstructor host [] (fun _ => .ok .empty)
    |>.withField host "owner" (get "owner") (fun native => modify (·.insert "owner" native))
    |>.withReadOnlyField host "total" (get "total")
    |>.withStaticField "count" (.int 0)

/-- A store with one account. -/
def accountStore : Store := ⟨#[.record ⟨7⟩ .empty], []⟩

def accountValue : Value := .object ⟨0, "a.Account"⟩

theorem account_wants_owner (target : Option Value) (value : Value) :
    account.Wants accountBindings (.write 0 target value) := by
  intro field hfield
  cases hfield
  refine ⟨rfl, ?_⟩
  rintro ⟨bound, hbound, hset⟩
  cases hbound
  cases hset

/-- The owner of an account is written by its body. -/
theorem CallTable.perform_strict_owner : ∃ table gate ref run,
    account.compileTable { strict := true } accountBindings = .ok table ∧
    account.gate? none accountBindings (.write 0 (some accountValue) (.text "b")) = some gate ∧
    gate.Admits accountStore ref run ∧
    table.perform (.write 0 (some accountValue) (.text "b")) accountStore = run ref accountStore ∧
    run ref accountStore = .ok .null ⟨#[.record ⟨7⟩ (Table.empty.insert "owner"
      (.ref (.text "b")))], []⟩ := by
  have htable : ∃ table, account.compileTable { strict := true } accountBindings = .ok table ∧
      table.perform (.write 0 (some accountValue) (.text "b")) accountStore =
        .ok .null ⟨#[.record ⟨7⟩ (Table.empty.insert "owner" (.ref (.text "b")))], []⟩ :=
    ⟨_, rfl, rfl⟩
  obtain ⟨table, htable, hwritten⟩ := htable
  obtain ⟨hcalls, -⟩ := perform_strict rfl htable accountStore
  rcases hcalls _ (account_wants_owner (some accountValue) (.text "b")) with
    ⟨e, hrefused, -⟩ | ⟨gate, ref, run, hgate, hadmits, hran⟩
  · rw [hwritten] at hrefused
    cases hrefused
  · exact ⟨table, gate, ref, run, htable, hgate, hadmits, hran, hran.symm.trans hwritten⟩

/-- A strict table has no body that writes the total or the count of an account, although
    neither is final. -/
theorem CallTable.unbound_of_readOnly : ∃ table,
    account.compileTable { strict := true } accountBindings = .ok table ∧
    (∃ total, account.fields[1]? = some total ∧ total.modifiers.isFinal = false ∧
      (account.writeGate none accountBindings total (some accountValue) (.int 2)).run?.isNone ∧
      table.perform (.write 1 (some accountValue) (.int 2)) accountStore =
        .error (.unbound "a.Account.total") accountStore) ∧
    ∃ count, account.fields[2]? = some count ∧ count.modifiers.isFinal = false ∧
      (account.writeGate none accountBindings count none (.int 2)).run?.isNone ∧
      table.perform (.write 2 none (.int 2)) accountStore =
        .error (.unbound "a.Account.count") accountStore :=
  ⟨_, rfl, ⟨_, rfl, rfl, rfl, rfl⟩, _, rfl, rfl, rfl, rfl⟩

end TypeAtlas
