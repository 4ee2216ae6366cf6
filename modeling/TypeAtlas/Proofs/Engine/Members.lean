/-
  Members by index.

  A compiled type is described by its blob and called through its table.  The two are
  made apart from each other, and a caller who finds a member in what the blob says
  calls it by its place in the table.

  * `CallTable.Follows`: a table that holds the members of a shape at the places where
    the shape has them, with what is bound under their keys;
  * `Shape.looksUp`: a member is found at the first index where it stands;
  * `Shape.table_follows_blob`: the table of a compiled type follows the shape that is
    read from its blob.
-/
import TypeAtlas.Engine.Call
import TypeAtlas.Proofs.Blob.Writable
import TypeAtlas.Proofs.Build.Compile
import TypeAtlas.Proofs.Engine.StandIn
import TypeAtlas.Proofs.Host.Strict

namespace TypeAtlas

/-! ## Finding members -/

/-- The first item of a list that has a property, and where it stands. -/
structure FirstAt {α : Type} (p : α → Prop) (items : List α) (index : Nat) (found : α) : Prop where
  here : items[index]? = some found
  holds : p found
  before : ∀ earlier item, earlier < index → items[earlier]? = some item → ¬ p item

/-- A lookup finds the first member that has a property, if any member has it. -/
structure Finds {α : Type} (p : α → Prop) (members : List α) (found? : Option (Nat × α)) :
    Prop where
  eq_some_iff : ∀ index found, found? = some (index, found) ↔ FirstAt p members index found
  exists_of_mem : ∀ member ∈ members, p member → ∃ index found, found? = some (index, found)

/-- Members are looked up by the types of their parameters, by their name, or by both. -/
structure Shape.LooksUp (shape : Shape) : Prop where
  constructor : ∀ parameters,
    Finds (fun ctor : Constructor => ctor.parameters = parameters) shape.constructors
      (shape.constructor? parameters)
  method : ∀ name parameters,
    Finds (fun method : Method => method.name = name ∧ method.parameters = parameters)
      shape.methods (shape.method? name parameters)
  field : ∀ name,
    Finds (fun field : Field => field.name = name) shape.fields (shape.field? name)

namespace Shape

theorem findIndexed?_eq_some_iff {α : Type} {p : α → Bool} {members : List α} {index : Nat}
    {found : α} :
    findIndexed? p members = some (index, found) ↔
      FirstAt (fun member => p member = true) members index found := by
  simp only [findIndexed?, Option.map_eq_some_iff, List.find?_eq_some_iff_getElem,
    List.length_zipIdx, List.getElem_zipIdx, Nat.zero_add, Bool.not_eq_true']
  constructor
  · rintro ⟨_, ⟨hp, place, hplace, rfl, hbefore⟩, hpair⟩
    cases hpair
    refine ⟨List.getElem?_eq_getElem hplace, hp, fun earlier item hlt hitem => ?_⟩
    obtain ⟨_, rfl⟩ := List.getElem?_eq_some_iff.1 hitem
    rw [hbefore earlier hlt]
    exact Bool.false_ne_true
  · rintro ⟨hhere, hp, hbefore⟩
    obtain ⟨hplace, rfl⟩ := List.getElem?_eq_some_iff.1 hhere
    refine ⟨_, ⟨hp, index, hplace, rfl, fun earlier hlt => ?_⟩, rfl⟩
    exact eq_false_of_ne_true
      (hbefore earlier _ hlt (List.getElem?_eq_getElem (Nat.lt_trans hlt hplace)))

theorem exists_findIndexed? {α : Type} {p : α → Bool} {members : List α} {member : α}
    (hmem : member ∈ members) (hp : p member = true) :
    ∃ index found, findIndexed? p members = some (index, found) := by
  obtain ⟨place, hplace⟩ := List.mem_iff_getElem?.1 hmem
  have hfound : (members.zipIdx.find? fun entry => p entry.1).isSome :=
    List.find?_isSome.2 ⟨(member, place), List.mem_zipIdx_iff_getElem?.2 hplace, hp⟩
  obtain ⟨entry, hentry⟩ := Option.isSome_iff_exists.1 hfound
  exact ⟨entry.2, entry.1, by rw [findIndexed?, hentry, Option.map_some]⟩

/-- A test that decides a property finds what has it. -/
theorem finds_findIndexed? {α : Type} {p : α → Bool} {q : α → Prop} {members : List α}
    (h : ∀ member, p member = true ↔ q member) : Finds q members (findIndexed? p members) where
  eq_some_iff index found := by
    rw [findIndexed?_eq_some_iff, funext fun member => propext (h member)]
  exists_of_mem member hmem hq := exists_findIndexed? hmem ((h member).2 hq)

/-- **A member is found at the first index where it stands.** -/
theorem looksUp (shape : Shape) : shape.LooksUp where
  constructor _ := finds_findIndexed? fun _ => beq_iff_eq
  method _ _ := finds_findIndexed? fun _ => by
    rw [Method.matches, Bool.and_eq_true, beq_iff_eq, beq_iff_eq]
  field _ := finds_findIndexed? fun _ => beq_iff_eq

end Shape

/-! ## Tables that follow a shape -/

/-- The number of members of a kind. -/
def Shape.count (shape : Shape) : MemberKind → Nat
  | .constructor => shape.constructors.length
  | .method => shape.methods.length
  | .field => shape.fields.length
  | .proxyMethod => (shape.proxyMethods.getD []).length

def CallTable.count (table : CallTable) : MemberKind → Nat
  | .constructor => table.constructors.length
  | .method => table.methods.length
  | .field => table.fields.length
  | .proxyMethod => table.proxyMethods.length

theorem Shape.gate?_eq_none_iff {shape : Shape} {lineage : Option Lineage} {bindings : Bindings}
    {call : Call} :
    shape.gate? lineage bindings call = none ↔ shape.count call.kind ≤ call.index := by
  cases call <;> simp [gate?, count, Call.kind, Call.index]

/-- How a table serves the members of a shape. -/
structure CallTable.Follows (table : CallTable) (shape : Shape) (lineage : Option Lineage)
    (bindings : Bindings) : Prop where
  /-- The table holds the members of the shape in their order. -/
  tabled : shape.Tabled lineage bindings table
  count : ∀ kind, table.count kind = shape.count kind
  /-- An index that the shape does not have is refused by its kind. -/
  absent : ∀ call, shape.count call.kind ≤ call.index → ∀ store,
    table.perform call store = .error (.badIndex call.kind call.index shape.name) store
  /-- Any other leads to the member that the shape has there, whose gate answers. -/
  present : ∀ call, call.index < shape.count call.kind →
    ∃ gate, shape.gate? lineage bindings call = some gate ∧
      ∀ store, gate.Answers store (table.perform call store)
  proxyMethod : ∀ index, table.proxyMethod index =
    ((shape.proxyMethods.getD [])[index]?.map Except.ok).getD
      (.error (.badIndex .proxyMethod index shape.name))

/-- How a table serves who looks for a member of a shape and calls it by its index. -/
structure CallTable.Reaches (table : CallTable) (shape : Shape) (lineage : Option Lineage)
    (bindings : Bindings) : Prop where
  constructor : ∀ {parameters index ctor},
    shape.constructor? parameters = some (index, ctor) → ∀ arguments,
    ∃ gate, shape.gate? lineage bindings (.construct index arguments) = some gate ∧
      gate.slots = parameters.map Slot.declared ∧ gate.arguments = arguments ∧
      gate.run? = (bindings.constructors.find? (Bindings.key "<init>" parameters)).map
        (fun body _ => body (Slot.natives gate.slots arguments)) ∧
      ∀ store, gate.Answers store (table.perform (.construct index arguments) store)
  method : ∀ {name parameters index method},
    shape.method? name parameters = some (index, method) → ∀ target arguments,
    ∃ gate, shape.gate? lineage bindings (.invoke index target arguments) = some gate ∧
      gate.slots = parameters.map Slot.declared ∧ gate.arguments = arguments ∧
      gate.isStatic = method.modifiers.isStatic ∧ gate.target = target ∧
      gate.run? = (bindings.methods.find? (Bindings.key name parameters)).map
        (fun bound ref => do
          let result ← bound.body ref (Slot.natives gate.slots arguments)
          HostM.ofExcept ((Slot.declared method.returns).produce lineage result)) ∧
      ∀ store, gate.Answers store (table.perform (.invoke index target arguments) store)
  reader : ∀ {name index field}, shape.field? name = some (index, field) → ∀ target,
    ∃ gate, shape.gate? lineage bindings (.read index target) = some gate ∧
      gate.isStatic = field.modifiers.isStatic ∧ gate.target = target ∧
      gate.run? = (bindings.fields.find? name).map
        (fun bound ref => do
          let result ← bound.get ref
          HostM.ofExcept ((Slot.declared field.typeName).produce lineage result)) ∧
      ∀ store, gate.Answers store (table.perform (.read index target) store)
  writer : ∀ {name index field}, shape.field? name = some (index, field) → ∀ target value,
    ∃ gate, shape.gate? lineage bindings (.write index target value) = some gate ∧
      gate.slots = [Slot.declared field.typeName] ∧ gate.arguments = [value] ∧
      gate.isStatic = field.modifiers.isStatic ∧ gate.target = target ∧
      gate.isFinal = field.modifiers.isFinal ∧
      gate.run? = ((bindings.fields.find? name).bind BoundField.set).map
        (fun set ref => do
          set ref ((Slot.declared field.typeName).native value)
          return .null) ∧
      ∀ store, gate.Answers store (table.perform (.write index target value) store)

section

variable {shape : Shape} {mode : CompileMode} {lineage : Option Lineage} {bindings : Bindings}
  {table : CallTable}

theorem Shape.follows_of_compileTable (h : shape.compileTable mode bindings = .ok table) :
    table.Follows shape mode.lineage bindings := by
  have ht := Shape.tabled_of_compileTable h
  obtain ⟨hname, hproxy⟩ := Shape.proxyMethods_of_compileTable h
  refine ⟨ht, fun kind => ?_, fun call habsent store => ?_, fun call hpresent => ?_,
    fun index => ?_⟩
  · cases kind with
    | constructor => simp [CallTable.count, count, ht.constructors]
    | method => simp [CallTable.count, count, ht.methods]
    | field => simp [CallTable.count, count, ht.fields]
    | proxyMethod => simp [CallTable.count, count, hproxy]
  · rcases CallTable.perform_cases ht call store with ⟨-, hbad⟩ | ⟨gate, hgate, -⟩
    · exact hbad
    · rw [gate?_eq_none_iff.2 habsent] at hgate
      cases hgate
  · obtain ⟨gate, hgate⟩ := Option.ne_none_iff_exists'.1 fun hnone =>
      absurd hpresent (Nat.not_lt.2 (gate?_eq_none_iff.1 hnone))
    exact ⟨gate, hgate, ht.answers hgate⟩
  · rw [CallTable.proxyMethod, CallTable.member, hproxy, hname]
    cases (shape.proxyMethods.getD [])[index]? with
    | none => rfl
    | some method => rfl

theorem Shape.Tabled.reaches (ht : shape.Tabled lineage bindings table) :
    table.Reaches shape lineage bindings where
  constructor := by
    intro parameters index ctor hfound arguments
    obtain ⟨hhere, rfl, -⟩ := (shape.looksUp.constructor _).eq_some_iff _ _ |>.1 hfound
    exact ⟨_, gate?_construct hhere _, rfl, rfl, rfl, ht.answers (gate?_construct hhere _)⟩
  method := by
    intro name parameters index method hfound target arguments
    obtain ⟨hhere, ⟨rfl, rfl⟩, -⟩ := (shape.looksUp.method _ _).eq_some_iff _ _ |>.1 hfound
    exact ⟨_, gate?_invoke hhere _ _, rfl, rfl, rfl, rfl, Option.map_map ..,
      ht.answers (gate?_invoke hhere _ _)⟩
  reader := by
    intro name index field hfound target
    obtain ⟨hhere, rfl, -⟩ := (shape.looksUp.field _).eq_some_iff _ _ |>.1 hfound
    exact ⟨_, gate?_read hhere _, rfl, rfl, Option.map_map .., ht.answers (gate?_read hhere _)⟩
  writer := by
    intro name index field hfound target value
    obtain ⟨hhere, rfl, -⟩ := (shape.looksUp.field _).eq_some_iff _ _ |>.1 hfound
    exact ⟨_, gate?_write hhere _ _, rfl, rfl, rfl, rfl, rfl, rfl,
      ht.answers (gate?_write hhere _ _)⟩

end

/-! ## Calls through handles -/

theorem CallM.ofHost_bind {α β : Type} (first : HostM α) (next : α → HostM β) :
    CallM.ofHost (first >>= next) = CallM.ofHost first >>= fun a => CallM.ofHost (next a) := by
  funext store
  change EStateM.adaptExcept EngineError.call (EStateM.bind first next) store =
    EStateM.bind (EStateM.adaptExcept EngineError.call first) _ store
  unfold EStateM.adaptExcept EStateM.bind
  dsimp only
  cases first store with
  | ok a after => rfl
  | error e after => rfl

/-- Makes a call through a handle. -/
def Handle.perform (handle : Handle) : Call → CallM Value
  | .construct index arguments => handle.construct index arguments
  | .invoke index target arguments => handle.invoke index target arguments
  | .read index target => handle.getField index target
  | .write index target value => do
    handle.setField index target value
    return .null

/-- The stand-in whose handler answers a call. -/
def Store.standIn? (store : Store) : Call → Option ObjectRef
  | .invoke _ target _ => store.proxy? target
  | .construct .. | .read .. | .write .. => none

variable {shape : Shape} {mode : CompileMode} {bindings : Bindings} {compiled : Compiled}

/-- A handle of a compiled type hands a call to the table unless a stand-in answers it. -/
theorem Handle.perform_compiled (id : Nat) (call : Call) {store : Store}
    (h : store.standIn? call = none) :
    (Handle.mk id (.compiled compiled)).perform call store =
      CallM.ofHost (compiled.table.perform call) store := by
  cases call with
  | construct index arguments => rfl
  | invoke index target arguments =>
    have hproxy : store.proxy? target = none := h
    simp only [perform, invoke, compiled?, kind, get_bind_apply, hproxy]
    rfl
  | read index target => rfl
  | write index target value =>
    rw [CallTable.perform, CallM.ofHost_bind]
    rfl

/-- **The table of a compiled type follows the shape that is read from its blob**: both have
    the same members at the same places.  Every member of the shape is found at the first index
    where it stands, and one that is called by the index that comes with it runs what is bound
    under its key. -/
theorem Shape.table_follows_blob (h : shape.compile mode bindings = .ok compiled) :
    ∃ decoded, Shape.ofBase64 compiled.blob = .ok decoded ∧
      compiled.table.Follows decoded mode.lineage bindings ∧
      decoded.LooksUp ∧ compiled.table.Reaches decoded mode.lineage bindings ∧
      ∀ id, (Handle.mk id (.compiled compiled)).shape = .ok decoded ∧
        ∀ call store, store.standIn? call = none →
          (Handle.mk id (.compiled compiled)).perform call store =
            CallM.ofHost (compiled.table.perform call) store := by
  obtain ⟨hblob, htable⟩ := compile_eq_ok h
  have hfollows := follows_of_compileTable htable
  exact ⟨shape, ofBase64_eq hblob, hfollows, shape.looksUp, hfollows.tabled.reaches, fun id =>
    ⟨Handle.shape_of_compile h id, fun call store => Handle.perform_compiled id call⟩⟩

/-- The method of a counter is found in the blob at an index that calls it with a number and a
    text; there is no second field. -/
theorem Shape.table_follows_blob_counter : ∃ compiled method,
    counter.compile {} counterBindings = .ok compiled ∧
    Shape.ofBase64 compiled.blob = .ok counter ∧
    counter.method? "add" ["int", "java.lang.String"] = some (0, method) ∧
    (∃ gate : Gate, gate.slots = [.primitive .int, .reference "java.lang.String"] ∧
      gate.run?.isSome ∧
      ∀ store, gate.Answers store (compiled.table.perform counterCall store)) ∧
    ∀ store, compiled.table.perform (.read 1 none) store =
      .error (.badIndex .field 1 "a.Counter") store := by
  have hblob : ∃ text, counter.toBase64 = .ok text :=
    exists_toBase64 (by decide +kernel) rfl (by decide +kernel)
  obtain ⟨compiled, hcompile⟩ : ∃ compiled, counter.compile {} counterBindings = .ok compiled :=
    exists_compile hblob ⟨_, rfl⟩
  obtain ⟨decoded, hdecoded, hfollows, hlooksUp, hreaches, -⟩ := table_follows_blob hcompile
  have hsame := hdecoded.symm.trans (ofBase64_eq (compile_eq_ok hcompile).1)
  obtain rfl := Except.ok.inj hsame
  have hfound : counter.method? "add" ["int", "java.lang.String"] = some (0, _) :=
    ((hlooksUp.method _ _).eq_some_iff 0 _).2
      ⟨rfl, ⟨rfl, rfl⟩, fun _ _ hlt => absurd hlt (Nat.not_lt_zero _)⟩
  obtain ⟨gate, -, hslots, -, -, -, hrun, hanswers⟩ :=
    hreaches.method hfound (some counterValue) [.int 2, .text "b"]
  exact ⟨compiled, _, hcompile, hdecoded, hfound,
    ⟨gate, hslots, by rw [hrun]; rfl, hanswers⟩, hfollows.absent (.read 1 none) (by decide)⟩

end TypeAtlas
