/-
  The gate before a body.

  A call by index asks for a member of a shape.  `Shape.gate?` says what the shape
  and the bindings demand of the call: five checks, of which the first that fails
  decides how the call is refused, and the run of the member's body that follows if
  none fails.

  * `Bindings.Owned`: bodies are bound for receivers of a host type;
  * `Shape.tabled_of_compileTable`: what a call table holds, member by member;
  * `CallTable.perform_eq`: the four calls are one passage through the gate;
  * `CallTable.perform_cases`: a call finds no member, or the gate of the member answers;
  * `CallTable.perform_gated`: a call runs the body once, on what was checked, or is
    refused and leaves the objects as they are; what it returns conforms.
-/
import TypeAtlas.Build.Compile
import TypeAtlas.Proofs.Host.Slot

namespace TypeAtlas

/-! ## Calls -/

/-- A call of a member by its index. -/
inductive Call where
  | construct (index : Nat) (arguments : List Value)
  | invoke (index : Nat) (target : Option Value) (arguments : List Value)
  | read (index : Nat) (target : Option Value)
  | write (index : Nat) (target : Option Value) (value : Value)

namespace Call

/-- The kind of member that a call asks for. -/
def kind : Call → MemberKind
  | construct .. => .constructor
  | invoke .. => .method
  | read .. | write .. => .field

def index : Call → Nat
  | construct index _ | invoke index _ _ | read index _ | write index _ _ => index

end Call

/-- Makes a call; a write returns nothing. -/
def CallTable.perform (table : CallTable) : Call → HostM Value
  | .construct index arguments => table.construct index arguments
  | .invoke index target arguments => table.invoke index target arguments
  | .read index target => table.getField index target
  | .write index target value => do
    table.setField index target value
    return .null

/-! ## Bindings -/

/-- The key under which the body of a member with parameters is bound. -/
def Bindings.key (name : String) (parameters : List String) : String :=
  name ++ "(" ++ String.intercalate "," parameters ++ ")"

@[simp] theorem Bindings.key_constructor (ctor : Constructor) :
    key "<init>" ctor.parameters = ctor.signature := rfl

@[simp] theorem Bindings.key_method (method : Method) :
    key method.name method.parameters = method.signature := rfl

/-- Bodies are only bound where the host type of receivers is fixed.  Bindings start as
    `Bindings.ofName`, where nothing is bound, or as `Bindings.ofHost`, and what is bound later
    keeps the host type. -/
def Bindings.Owned (bindings : Bindings) : Prop :=
  bindings.host = none →
    bindings.constructors.entries = [] ∧ bindings.methods.entries = [] ∧
      bindings.fields.entries = []

namespace Bindings

variable {bindings : Bindings}

theorem owned_of_host {host : HostType} (h : bindings.host = some host) : bindings.Owned := by
  intro hnone
  rw [h] at hnone
  cases hnone

end Bindings

/-! ## Gates -/

/-- An object is there and holds a record of a host type. -/
def Store.Holds (store : Store) (ref : ObjectRef) (host : HostType) : Prop :=
  ∃ fields, store.objects[ref.id]? = some (.record host fields)

theorem Store.Holds.exists_payload {store : Store} {ref : ObjectRef} {host : HostType}
    (h : store.Holds ref host) : ∃ fields, store.payload ref = .record host fields := by
  obtain ⟨fields, hobject⟩ := h
  exact ⟨fields, by rw [payload, hobject, Option.getD_some]⟩

theorem Store.holds_iff {store : Store} {ref : ObjectRef} {host : HostType} :
    store.Holds ref host ↔ (store.payload ref).host? = some host := by
  rw [Holds, payload]
  rcases store.objects[ref.id]? with _ | (_ | _ | _) <;> simp [Payload.host?]

/-- What stands between a call and the body of a member. -/
structure Gate where
  /-- The type, the host type of its receivers and the lineage that objects are judged by. -/
  type : String
  host : Option HostType
  lineage : Option Lineage
  /-- The member as it is named in refusals. -/
  member : String
  /-- Whether the call would write what is final. -/
  isFinal : Bool
  isStatic : Bool
  target : Option Value
  slots : List Slot
  arguments : List Value
  /-- The run of the body on the arguments and a receiver, if there is a body. -/
  run? : Option (Option ObjectRef → HostM Value)

section

variable (shape : Shape) (lineage : Option Lineage) (bindings : Bindings)

namespace Shape

/-- The gate of a constructor, which needs no receiver. -/
def constructorGate (ctor : Constructor) (arguments : List Value) : Gate :=
  let member := Bindings.key "<init>" ctor.parameters
  let slots := ctor.parameters.map Slot.declared
  { type := shape.name
    host := bindings.host
    lineage, member, slots, arguments
    isFinal := false
    isStatic := true
    target := none
    run? := (bindings.constructors.find? member).map fun body _ =>
      body (Slot.natives slots arguments) }

/-- The gate of a method. -/
def methodGate (method : Method) (target : Option Value) (arguments : List Value) : Gate :=
  let member := Bindings.key method.name method.parameters
  let slots := method.parameters.map Slot.declared
  { type := shape.name
    host := bindings.host
    lineage, member, slots, arguments, target
    isFinal := false
    isStatic := method.modifiers.isStatic
    run? := ((bindings.methods.find? member).map BoundMethod.body).map fun body ref => do
      let result ← body ref (Slot.natives slots arguments)
      HostM.ofExcept ((Slot.declared method.returns).produce lineage result) }

/-- The gate of a field that is read. -/
def readGate (field : Field) (target : Option Value) : Gate where
  type := shape.name
  host := bindings.host
  lineage := lineage
  member := field.name
  isFinal := false
  isStatic := field.modifiers.isStatic
  target := target
  slots := []
  arguments := []
  run? := ((bindings.fields.find? field.name).map BoundField.get).map fun get ref => do
    let result ← get ref
    HostM.ofExcept ((Slot.declared field.typeName).produce lineage result)

/-- The gate of a field that is written. -/
def writeGate (field : Field) (target : Option Value) (value : Value) : Gate :=
  let slot := Slot.declared field.typeName
  { type := shape.name
    host := bindings.host
    lineage, target
    member := field.name
    isFinal := field.modifiers.isFinal
    isStatic := field.modifiers.isStatic
    slots := [slot]
    arguments := [value]
    run? := ((bindings.fields.find? field.name).bind BoundField.set).map fun set ref => do
      set ref (slot.native value)
      return .null }

/-- The gate of a call, if the shape has a member at the call's index. -/
def gate? : Call → Option Gate
  | .construct index arguments =>
    shape.constructors[index]?.map (shape.constructorGate lineage bindings · arguments)
  | .invoke index target arguments =>
    shape.methods[index]?.map (shape.methodGate lineage bindings · target arguments)
  | .read index target => shape.fields[index]?.map (shape.readGate lineage bindings · target)
  | .write index target value =>
    shape.fields[index]?.map (shape.writeGate lineage bindings · target value)

variable {shape lineage bindings} {index : Nat}

theorem gate?_construct {ctor : Constructor} (h : shape.constructors[index]? = some ctor)
    (arguments : List Value) : shape.gate? lineage bindings (.construct index arguments) =
      some (shape.constructorGate lineage bindings ctor arguments) := by
  rw [gate?, h, Option.map_some]

theorem gate?_invoke {method : Method} (h : shape.methods[index]? = some method)
    (target : Option Value) (arguments : List Value) :
    shape.gate? lineage bindings (.invoke index target arguments) =
      some (shape.methodGate lineage bindings method target arguments) := by
  rw [gate?, h, Option.map_some]

theorem gate?_read {field : Field} (h : shape.fields[index]? = some field)
    (target : Option Value) : shape.gate? lineage bindings (.read index target) =
      some (shape.readGate lineage bindings field target) := by
  rw [gate?, h, Option.map_some]

theorem gate?_write {field : Field} (h : shape.fields[index]? = some field)
    (target : Option Value) (value : Value) :
    shape.gate? lineage bindings (.write index target value) =
      some (shape.writeGate lineage bindings field target value) := by
  rw [gate?, h, Option.map_some]

end Shape

end

namespace Gate

/-- The checks of a gate in their order. -/
inductive Check where
  | writable
  | arity
  | receiver
  | arguments
  | body

/-- The place of a check. -/
def Check.place : Check → Nat
  | writable => 0
  | arity => 1
  | receiver => 2
  | arguments => 3
  | body => 4

/-- When a check fails, and how the call is refused if it is the first to fail. -/
def Fails (gate : Gate) (store : Store) : Check → CallError → Prop
  | .writable, e =>
    gate.isFinal = true ∧ e = .unsupported (gate.type ++ "." ++ gate.member ++ " is final")
  | .arity, e =>
    gate.slots.length ≠ gate.arguments.length ∧
      e = .arity gate.member gate.slots.length gate.arguments.length
  | .receiver, e =>
    gate.isStatic = false ∧
      (((gate.target = none ∨ gate.target = some .null) ∧ e = .noReceiver gate.member) ∨
        ∃ value, gate.target = some value ∧ value ≠ .null ∧
          (∀ ref, value = .object ref →
            ∃ host, gate.host = some host ∧ ¬ store.Holds ref host) ∧
          e = .wrongReceiver gate.type value.typeName)
  | .arguments, e =>
    ∃ slots slot slots' arguments value arguments',
      gate.slots = slots ++ slot :: slots' ∧ gate.arguments = arguments ++ value :: arguments' ∧
      List.Forall₂ (Slot.Conforms gate.lineage) slots arguments ∧
      ¬ slot.Conforms gate.lineage value ∧ e = slot.refusal value
  | .body, e => gate.run?.isNone = true ∧ e = .unbound (gate.type ++ "." ++ gate.member)

/-- Whether every check before a place is passed. -/
def Clears (gate : Gate) (store : Store) (place : Nat) : Prop :=
  ∀ check : Check, check.place < place → ∀ e, ¬ gate.Fails store check e

/-- How a call is refused: by the first check that fails. -/
def Refuses (gate : Gate) (store : Store) (e : CallError) : Prop :=
  ∃ check : Check, gate.Clears store check.place ∧ gate.Fails store check e

/-- The receiver of an instance member, as far as it is checked before the body. -/
def Receives (gate : Gate) (store : Store) (ref : Option ObjectRef) : Prop :=
  (gate.isStatic = true ∧ ref = none) ∨
    (gate.isStatic = false ∧ ∃ object, gate.target = some (.object object) ∧
      ref = some object ∧ ∀ host, gate.host = some host → store.Holds object host)

/-- When the body is run, with which receiver and how. -/
structure Admits (gate : Gate) (store : Store) (ref : Option ObjectRef)
    (run : Option ObjectRef → HostM Value) : Prop where
  writable : gate.isFinal = false
  receiver : gate.Receives store ref
  arguments : List.Forall₂ (Slot.Conforms gate.lineage) gate.slots gate.arguments
  body : gate.run? = some run

/-- When the body is run and receivers are of a known host type. -/
structure Opens (gate : Gate) (store : Store) (ref : Option ObjectRef)
    (run : Option ObjectRef → HostM Value) : Prop where
  writable : gate.isFinal = false
  /-- The receiver of an instance member is an object that holds what the host type says. -/
  receiver : (gate.isStatic = true ∧ ref = none) ∨
    (gate.isStatic = false ∧ ∃ object host, gate.target = some (.object object) ∧
      ref = some object ∧ gate.host = some host ∧ store.Holds object host)
  /-- There are as many arguments as parameters, and each conforms to its slot. -/
  arguments : List.Forall₂ (Slot.Conforms gate.lineage) gate.slots gate.arguments
  body : gate.run? = some run

end Gate

/-! ## Compiled tables -/

theorem CompileMode.slots_eq (parameters : List String) :
    slots parameters = parameters.map Slot.declared :=
  List.map_congr_left fun _ _ => Slot.ofName_eq_declared _

namespace Bindings

def tableConstructor (bindings : Bindings) (ctor : Constructor) : TableConstructor :=
  let signature := key "<init>" ctor.parameters
  ⟨signature, ctor.parameters.map Slot.declared, bindings.constructors.find? signature⟩

def tableMethod (bindings : Bindings) (method : Method) : TableMethod :=
  let signature := key method.name method.parameters
  ⟨signature, method.modifiers.isStatic, method.parameters.map Slot.declared,
    .declared method.returns, (bindings.methods.find? signature).map BoundMethod.body⟩

def tableField (bindings : Bindings) (field : Field) : TableField :=
  ⟨field.name, field.modifiers.isStatic, field.modifiers.isFinal, .declared field.typeName,
    (bindings.fields.find? field.name).map BoundField.get,
    (bindings.fields.find? field.name).bind BoundField.set⟩

variable (bindings : Bindings)

theorem tableConstructor_eq (ctor : Constructor) : bindings.tableConstructor ctor =
    ⟨ctor.signature, CompileMode.slots ctor.parameters,
      bindings.constructors.find? ctor.signature⟩ := by
  rw [tableConstructor, key_constructor, CompileMode.slots_eq]

theorem tableMethod_eq (method : Method) : bindings.tableMethod method =
    ⟨method.signature, method.modifiers.isStatic, CompileMode.slots method.parameters,
      .ofName method.returns, (bindings.methods.find? method.signature).map BoundMethod.body⟩ := by
  rw [tableMethod, key_method, CompileMode.slots_eq, Slot.ofName_eq_declared]

theorem tableField_eq (field : Field) : bindings.tableField field =
    ⟨field.name, field.modifiers.isStatic, field.modifiers.isFinal, .ofName field.typeName,
      (bindings.fields.find? field.name).map BoundField.get,
      (bindings.fields.find? field.name).bind BoundField.set⟩ := by
  rw [tableField, Slot.ofName_eq_declared]

end Bindings

/-- What the call table of a shape holds. -/
structure Shape.Tabled (shape : Shape) (lineage : Option Lineage) (bindings : Bindings)
    (table : CallTable) : Prop where
  typeName : table.typeName = shape.name
  host : table.host = bindings.host
  lineage : table.lineage = lineage
  constructors : table.constructors = shape.constructors.map bindings.tableConstructor
  methods : table.methods = shape.methods.map bindings.tableMethod
  fields : table.fields = shape.fields.map bindings.tableField

section

variable {shape : Shape} {mode : CompileMode} {lineage : Option Lineage} {bindings : Bindings}
  {table : CallTable} {store : Store}

/-- A compiled table holds the members of its shape with what is bound for them. -/
theorem Shape.tabled_of_compileTable (h : shape.compileTable mode bindings = .ok table) :
    shape.Tabled mode.lineage bindings table := by
  unfold compileTable at h
  split at h
  · cases h
  · simp only [bind_eq_ok, pure_eq_ok] at h
    obtain ⟨constructors, hconstructors, methods, hmethods, fields, hfields, _, -, _, -, _, -,
      rfl⟩ := h
    refine ⟨rfl, rfl, rfl, eq_map_of_mapM ?_ hconstructors, eq_map_of_mapM ?_ hmethods,
      eq_map_of_mapM ?_ hfields⟩
    · intro ctor entry hentry
      simp only [CompileMode.constructor, bind_eq_ok, pure_eq_ok] at hentry
      obtain ⟨_, -, rfl⟩ := hentry
      exact (bindings.tableConstructor_eq ctor).symm
    · intro method entry hentry
      simp only [CompileMode.method, bind_eq_ok, pure_eq_ok] at hentry
      obtain ⟨_, -, _, -, rfl⟩ := hentry
      exact (bindings.tableMethod_eq method).symm
    · intro field entry hentry
      simp only [CompileMode.field, bind_eq_ok, pure_eq_ok] at hentry
      obtain ⟨_, -, _, -, rfl⟩ := hentry
      exact (bindings.tableField_eq field).symm

/-! ## One passage for the four calls -/

/-- The checks of a gate one after another, up to the run of the body. -/
def CallTable.pass (table : CallTable) (store : Store) (gate : Gate) :
    Except CallError (HostM Value) := do
  if gate.isFinal then
    .error (.unsupported (table.typeName ++ "." ++ gate.member ++ " is final"))
  checkArity gate.member gate.slots gate.arguments
  let ref ← table.receiver? store gate.isStatic gate.member gate.target
  let _ ← Slot.acceptAll table.lineage gate.slots gate.arguments
  return (← table.bodyOf gate.member gate.run?) ref

/-- Runs what was found, or refuses. -/
def HostM.settle (found : Except CallError (HostM Value)) : HostM Value :=
  match found with
  | .ok run => run
  | .error e => throw e

theorem HostM.ofExcept_bind {α : Type} (found : Except CallError α) (next : α → HostM Value) :
    HostM.ofExcept found >>= next = HostM.settle (next <$> found) := by
  cases found <;> rfl

namespace CallTable

/-- What comes of a call by its gate: without one there is no member at the index. -/
def enter (table : CallTable) (store : Store) (call : Call) :
    Option Gate → EStateM.Result CallError Store Value
  | none => .error (.badIndex call.kind call.index table.typeName) store
  | some gate => HostM.settle (table.pass store gate) store

/-- The body of a gate may take the natives of the arguments as they come out of the check. -/
theorem pass_eq {α : Type} (gate : Gate) (body : Option α)
    (run : α → Option ObjectRef → List Native → HostM Value)
    (hrun : gate.run? = body.map fun found ref =>
      run found ref (Slot.natives gate.slots gate.arguments)) :
    table.pass store gate = (do
      if gate.isFinal then
        .error (.unsupported (table.typeName ++ "." ++ gate.member ++ " is final"))
      checkArity gate.member gate.slots gate.arguments
      let ref ← table.receiver? store gate.isStatic gate.member gate.target
      let natives ← Slot.acceptAll table.lineage gate.slots gate.arguments
      let found ← table.bodyOf gate.member body
      return run found ref natives) := by
  unfold pass
  rw [hrun]
  cases htaken : Slot.acceptAll table.lineage gate.slots gate.arguments with
  | error e => rfl
  | ok taken =>
    rw [Slot.eq_natives_of_acceptAll htaken]
    cases body <;> rfl

variable (ht : shape.Tabled lineage bindings table)
include ht

theorem construct_eq (index : Nat) (arguments : List Value) :
    table.construct index arguments store =
      table.enter store (.construct index arguments)
        (shape.gate? lineage bindings (.construct index arguments)) := by
  unfold construct readyConstructor member
  rw [HostM.ofExcept_bind, ht.constructors, List.getElem?_map, Shape.gate?]
  cases shape.constructors[index]? with
  | none => rfl
  | some ctor =>
    refine congrArg (HostM.settle · store) (Eq.trans ?_ (pass_eq _
      (bindings.constructors.find? ctor.signature) (fun body _ natives => body natives) rfl).symm)
    simp only [Option.map_some, ok_bind, map_bind, map_pure]
    rfl

theorem invoke_eq (index : Nat) (target : Option Value) (arguments : List Value) :
    table.invoke index target arguments store =
      table.enter store (.invoke index target arguments)
        (shape.gate? lineage bindings (.invoke index target arguments)) := by
  show (HostM.ofExcept (table.readyMethod store index target arguments) >>= _) store = _
  unfold readyMethod member
  rw [HostM.ofExcept_bind, ht.methods, List.getElem?_map, Shape.gate?]
  cases shape.methods[index]? with
  | none => rfl
  | some method =>
    refine congrArg (HostM.settle · store) (Eq.trans ?_ (pass_eq _
      ((bindings.methods.find? method.signature).map BoundMethod.body) (fun body ref natives => do
        let result ← body ref natives
        HostM.ofExcept ((Slot.declared method.returns).produce lineage result)) rfl).symm)
    simp only [Option.map_some, ok_bind, map_bind, map_pure, ht.lineage]
    rfl

theorem getField_eq (index : Nat) (target : Option Value) :
    table.getField index target store =
      table.enter store (.read index target)
        (shape.gate? lineage bindings (.read index target)) := by
  show (HostM.ofExcept (table.readyGet store index target) >>= _) store = _
  unfold readyGet member
  rw [HostM.ofExcept_bind, ht.fields, List.getElem?_map, Shape.gate?]
  cases shape.fields[index]? with
  | none => rfl
  | some field =>
    refine congrArg (HostM.settle · store) (Eq.trans ?_ (pass_eq _
      ((bindings.fields.find? field.name).map BoundField.get) (fun get ref _ => do
        let result ← get ref
        HostM.ofExcept ((Slot.declared field.typeName).produce lineage result)) rfl).symm)
    simp only [Option.map_some, ok_bind, map_bind, map_pure, ht.lineage]
    rfl

theorem setField_eq (index : Nat) (target : Option Value) (value : Value) :
    table.perform (.write index target value) store =
      table.enter store (.write index target value)
        (shape.gate? lineage bindings (.write index target value)) := by
  show ((HostM.ofExcept (table.readySet store index target value) >>= _) >>= _) store = _
  rw [bind_assoc]
  unfold readySet member
  rw [HostM.ofExcept_bind, ht.fields, List.getElem?_map, Shape.gate?]
  cases shape.fields[index]? with
  | none => rfl
  | some field =>
    refine congrArg (HostM.settle · store) (Eq.trans ?_ (pass_eq _
      ((bindings.fields.find? field.name).bind BoundField.set) (fun set ref natives => do
        set ref (natives.headD .void)
        return .null) rfl).symm)
    simp only [Option.map_some, ok_bind, ht.lineage, Shape.writeGate, Slot.acceptAll_singleton,
      bind_map_left]
    -- a final field is refused on both sides before anything else is looked at
    cases hfinal : field.modifiers.isFinal with
    | true =>
      simp only [Bindings.tableField, hfinal, if_true]
      rfl
    | false =>
      simp only [Bindings.tableField, hfinal, Bool.false_eq_true, if_false, map_bind, map_pure]
      rfl

/-- **A call looks for its member and passes its gate.** -/
theorem perform_eq (call : Call) :
    table.perform call store = table.enter store call (shape.gate? lineage bindings call) := by
  cases call with
  | construct index arguments => exact construct_eq ht index arguments
  | invoke index target arguments => exact invoke_eq ht index target arguments
  | read index target => exact getField_eq ht index target
  | write index target value => exact setField_eq ht index target value

end CallTable

end

/-! ## Passing a gate -/

namespace CallTable

theorem hostMatches_iff {table : CallTable} {store : Store} {ref : ObjectRef} :
    table.hostMatches (store.payload ref) = true ↔
      ∀ host, table.host = some host → store.Holds ref host := by
  simp only [Store.holds_iff, hostMatches]
  cases table.host <;> simp

theorem receiver_of_other {value : Value} (hobject : ∀ ref, value ≠ .object ref)
    (hnull : value ≠ .null) (table : CallTable) (store : Store) (member : String) :
    table.receiver store member (some value) =
      .error (.wrongReceiver table.typeName value.typeName) := by
  cases value with
  | null => exact absurd rfl hnull
  | object ref => exact absurd rfl (hobject ref)
  | _ => rfl

end CallTable

namespace Gate

variable {gate : Gate} {table : CallTable} {store : Store}

theorem not_fails_arguments
    (h : List.Forall₂ (Slot.Conforms gate.lineage) gate.slots gate.arguments) (e : CallError) :
    ¬ gate.Fails store .arguments e := by
  rintro ⟨slots, slot, slots', arguments, value, arguments', hslots, harguments, hbefore, hnot, -⟩
  rw [hslots, harguments] at h
  have hrest := List.forall₂_drop slots.length h
  rw [List.drop_left, List.drop_left' hbefore.length_eq.symm] at hrest
  exact hnot (List.forall₂_cons.1 hrest).1

/-- Every check of a gate that admits a run is passed. -/
theorem Admits.not_fails {ref : Option ObjectRef} {run : Option ObjectRef → HostM Value}
    (h : gate.Admits store ref run) (check : Check) (e : CallError) :
    ¬ gate.Fails store check e := by
  cases check with
  | writable =>
    rintro ⟨hfinal, -⟩
    rw [h.writable] at hfinal
    cases hfinal
  | arity => exact fun hfails => hfails.1 h.arguments.length_eq
  | receiver =>
    rintro ⟨hinstance, hfails⟩
    rcases h.receiver with ⟨hstatic, -⟩ | ⟨-, object, htarget, -, hheld⟩
    · rw [hinstance] at hstatic
      cases hstatic
    · rcases hfails with ⟨htarget', -⟩ | ⟨value, htarget', -, hnot, -⟩
      · simp [htarget] at htarget'
      · rw [htarget] at htarget'
        cases htarget'
        obtain ⟨host, hhost, hother⟩ := hnot object rfl
        exact hother (hheld host hhost)
  | arguments => exact not_fails_arguments h.arguments e
  | body =>
    rintro ⟨hnone, -⟩
    rw [h.body] at hnone
    cases hnone

theorem Admits.not_refuses {ref : Option ObjectRef} {run : Option ObjectRef → HostM Value}
    (h : gate.Admits store ref run) (e : CallError) : ¬ gate.Refuses store e := by
  rintro ⟨check, -, hfails⟩
  exact h.not_fails check e hfails

/-- A host type that is known tells what the receiver holds. -/
theorem Admits.opens {ref : Option ObjectRef} {run : Option ObjectRef → HostM Value}
    (h : gate.Admits store ref run) (howned : gate.host = none → gate.run? = none) :
    gate.Opens store ref run := by
  refine ⟨h.writable, ?_, h.arguments, h.body⟩
  rcases h.receiver with hstatic | ⟨hstatic, object, htarget, hsome, hheld⟩
  · exact Or.inl hstatic
  · obtain ⟨host, hhost⟩ := Option.ne_none_iff_exists'.1 fun hnone => by
      have hbody := h.body
      rw [howned hnone] at hbody
      cases hbody
    exact Or.inr ⟨hstatic, object, host, htarget, hsome, hhost, hheld host hhost⟩

theorem Opens.admits {ref : Option ObjectRef} {run : Option ObjectRef → HostM Value}
    (h : gate.Opens store ref run) : gate.Admits store ref run := by
  refine ⟨h.writable, ?_, h.arguments, h.body⟩
  rcases h.receiver with hstatic | ⟨hstatic, object, host, htarget, hsome, hhost, hheld⟩
  · exact Or.inl hstatic
  · refine Or.inr ⟨hstatic, object, htarget, hsome, fun host' hhost' => ?_⟩
    rw [hhost] at hhost'
    cases hhost'
    exact hheld

theorem receiver_cases (htype : table.typeName = gate.type) (hhost : table.host = gate.host)
    (store : Store) :
    (∃ e, gate.Fails store .receiver e ∧
      table.receiver? store gate.isStatic gate.member gate.target = .error e) ∨
    ∃ ref, (∀ e, ¬ gate.Fails store .receiver e) ∧ gate.Receives store ref ∧
      table.receiver? store gate.isStatic gate.member gate.target = .ok ref := by
  unfold CallTable.receiver?
  cases hstatic : gate.isStatic with
  | true =>
    refine Or.inr ⟨none, fun e hfails => ?_, Or.inl ⟨hstatic, rfl⟩, rfl⟩
    rw [Fails, hstatic] at hfails
    cases hfails.1
  | false =>
    cases htarget : gate.target with
    | none => exact Or.inl ⟨_, ⟨hstatic, Or.inl ⟨Or.inl htarget, rfl⟩⟩, rfl⟩
    | some value =>
      by_cases hnull : value = .null
      · subst hnull
        exact Or.inl ⟨_, ⟨hstatic, Or.inl ⟨Or.inr htarget, rfl⟩⟩, rfl⟩
      by_cases hobject : ∃ ref, value = .object ref
      · obtain ⟨ref, rfl⟩ := hobject
        by_cases hmatches : table.hostMatches (store.payload ref) = true
        · have hheld := CallTable.hostMatches_iff.1 hmatches
          rw [hhost] at hheld
          refine Or.inr ⟨some ref, fun e hfails => ?_,
            Or.inr ⟨hstatic, ref, htarget, rfl, hheld⟩, ?_⟩
          · rcases hfails.2 with ⟨htarget', -⟩ | ⟨value, htarget', -, hnot, -⟩
            · simp [htarget] at htarget'
            · rw [htarget] at htarget'
              cases htarget'
              obtain ⟨host, hsome, hother⟩ := hnot ref rfl
              exact hother (hheld host hsome)
          · simp [CallTable.receiver, hmatches]
        · refine Or.inl ⟨.wrongReceiver gate.type ref.typeName, ⟨hstatic, Or.inr ⟨.object ref,
            htarget, hnull, fun other hother => ?_, rfl⟩⟩, ?_⟩
          · cases hother
            simpa [CallTable.hostMatches_iff, hhost] using hmatches
          · simp [CallTable.receiver, hmatches, htype]
      · have hother := CallTable.receiver_of_other (fun ref h => hobject ⟨ref, h⟩) hnull table
          store gate.member
        refine Or.inl ⟨.wrongReceiver gate.type value.typeName, ⟨hstatic, Or.inr ⟨value,
          htarget, hnull, fun ref h => absurd ⟨ref, h⟩ hobject, rfl⟩⟩, ?_⟩
        simp [hother, htype]

theorem arguments_cases (harity : gate.slots.length = gate.arguments.length) (store : Store) :
    (∃ e, gate.Fails store .arguments e ∧
      Slot.acceptAll gate.lineage gate.slots gate.arguments = .error e) ∨
    (List.Forall₂ (Slot.Conforms gate.lineage) gate.slots gate.arguments ∧
      Slot.acceptAll gate.lineage gate.slots gate.arguments =
        .ok (Slot.natives gate.slots gate.arguments)) := by
  rcases Slot.conform_or_first gate.lineage harity with hconform |
    ⟨slots, slot, slots', arguments, value, arguments', hslots, harguments, hbefore, hnot⟩
  · exact Or.inr ⟨hconform, Slot.acceptAll_of_conform hconform⟩
  · refine Or.inl ⟨slot.refusal value, ⟨slots, slot, slots', arguments, value, arguments',
      hslots, harguments, hbefore, hnot, rfl⟩, ?_⟩
    rw [hslots, harguments, Slot.acceptAll_of_first hbefore hnot]

theorem Clears.next {check : Check} (h : gate.Clears store check.place)
    (hpassed : ∀ e, ¬ gate.Fails store check e) : gate.Clears store (check.place + 1) := by
  intro earlier hlt
  rcases Nat.lt_succ_iff_lt_or_eq.1 hlt with hbefore | hsame
  · exact h earlier hbefore
  · obtain rfl : earlier = check := by
      cases earlier <;> cases check <;> first | rfl | cases hsame
    exact hpassed

/-- **A gate is passed, or the first check that fails refuses the call.** -/
theorem pass_cases (htype : table.typeName = gate.type) (hhost : table.host = gate.host)
    (hlineage : table.lineage = gate.lineage) (store : Store) :
    (∃ e, gate.Refuses store e ∧ table.pass store gate = .error e) ∨
      ∃ ref run, gate.Admits store ref run ∧ table.pass store gate = .ok (run ref) := by
  unfold CallTable.pass
  rw [hlineage, htype]
  have hclear : gate.Clears store Check.writable.place := fun _ hlt => absurd hlt (Nat.not_lt_zero _)
  by_cases hfinal : gate.isFinal = true
  · exact Or.inl ⟨_, ⟨_, hclear, hfinal, rfl⟩, by rw [if_pos hfinal]; rfl⟩
  rw [if_neg hfinal]
  have hclear : gate.Clears store Check.arity.place := hclear.next fun _ hfails => hfinal hfails.1
  by_cases harity : gate.slots.length = gate.arguments.length
  swap
  · refine Or.inl ⟨_, ⟨_, hclear, harity, rfl⟩, ?_⟩
    rw [CallTable.checkArity, if_neg harity]
    rfl
  rw [CallTable.checkArity, if_pos harity, ok_bind]
  have hclear : gate.Clears store Check.receiver.place := hclear.next fun _ hfails => hfails.1 harity
  rcases receiver_cases htype hhost store with
    ⟨e, hfails, herror⟩ | ⟨ref, hpassed, hreceives, href⟩
  · exact Or.inl ⟨e, ⟨_, hclear, hfails⟩, by rw [herror]; rfl⟩
  rw [href, ok_bind]
  have hclear : gate.Clears store Check.arguments.place := hclear.next hpassed
  rcases arguments_cases harity store with ⟨e, hfails, herror⟩ | ⟨hconform, hnatives⟩
  · exact Or.inl ⟨e, ⟨_, hclear, hfails⟩, by rw [herror]; rfl⟩
  rw [hnatives, ok_bind]
  cases hrun : gate.run? with
  | none =>
    have hclear : gate.Clears store Check.body.place := hclear.next (not_fails_arguments hconform)
    exact Or.inl ⟨_, ⟨_, hclear, by rw [hrun]; rfl, rfl⟩,
      by rw [← htype]; rfl⟩
  | some run =>
    exact Or.inr ⟨ref, run, ⟨eq_false_of_ne_true hfinal, hreceives, hconform, hrun⟩, rfl⟩

end Gate

/-! ## Calls through a gate -/

section

variable {shape : Shape} {mode : CompileMode} {lineage : Option Lineage} {bindings : Bindings}
  {call : Call} {gate : Gate}

theorem Bindings.Owned.find?_eq_none (h : bindings.Owned) (hnone : bindings.host = none)
    (key : String) :
    bindings.constructors.find? key = none ∧ bindings.methods.find? key = none ∧
      bindings.fields.find? key = none := by
  obtain ⟨hconstructors, hmethods, hfields⟩ := h hnone
  refine ⟨?_, ?_, ?_⟩ <;> rw [Table.find?_eq_none_iff, Table.keys]
  · simp [hconstructors]
  · simp [hmethods]
  · simp [hfields]

/-- The gate of a call is that of the shape's type. -/
theorem Shape.gate?_eq_some (h : shape.gate? lineage bindings call = some gate) :
    gate.type = shape.name ∧ gate.host = bindings.host ∧ gate.lineage = lineage := by
  cases call with
  | construct index arguments =>
    obtain ⟨ctor, -, rfl⟩ := Option.map_eq_some_iff.1 h
    exact ⟨rfl, rfl, rfl⟩
  | invoke index target arguments =>
    obtain ⟨method, -, rfl⟩ := Option.map_eq_some_iff.1 h
    exact ⟨rfl, rfl, rfl⟩
  | read index target =>
    obtain ⟨field, -, rfl⟩ := Option.map_eq_some_iff.1 h
    exact ⟨rfl, rfl, rfl⟩
  | write index target value =>
    obtain ⟨field, -, rfl⟩ := Option.map_eq_some_iff.1 h
    exact ⟨rfl, rfl, rfl⟩

/-- Without a host type a gate has no body. -/
theorem Shape.run?_eq_none (howned : bindings.Owned)
    (h : shape.gate? lineage bindings call = some gate) (hnone : gate.host = none) :
    gate.run? = none := by
  rw [(gate?_eq_some h).2.1] at hnone
  cases call with
  | construct index arguments =>
    obtain ⟨ctor, -, rfl⟩ := Option.map_eq_some_iff.1 h
    simp [constructorGate, (howned.find?_eq_none hnone ctor.signature).1]
  | invoke index target arguments =>
    obtain ⟨method, -, rfl⟩ := Option.map_eq_some_iff.1 h
    simp [methodGate, (howned.find?_eq_none hnone method.signature).2.1]
  | read index target =>
    obtain ⟨field, -, rfl⟩ := Option.map_eq_some_iff.1 h
    simp [readGate, (howned.find?_eq_none hnone field.name).2.2]
  | write index target value =>
    obtain ⟨field, -, rfl⟩ := Option.map_eq_some_iff.1 h
    simp [writeGate, (howned.find?_eq_none hnone field.name).2.2]

/-- How a gate answers a call: with a refusal, or with what its body does. -/
inductive Gate.Answers (gate : Gate) (store : Store)
    (result : EStateM.Result CallError Store Value) : Prop
  | refused {e : CallError} (hrefuses : gate.Refuses store e) (h : result = .error e store)
  | ran {ref : Option ObjectRef} {run : Option ObjectRef → HostM Value}
      (hadmits : gate.Admits store ref run) (h : result = run ref store)

/-- A call finds no member at its index, or the gate of the member answers it. -/
theorem CallTable.perform_cases {table : CallTable} (ht : shape.Tabled lineage bindings table)
    (call : Call) (store : Store) :
    (shape.gate? lineage bindings call = none ∧
      table.perform call store = .error (.badIndex call.kind call.index shape.name) store) ∨
    ∃ gate, shape.gate? lineage bindings call = some gate ∧
      gate.Answers store (table.perform call store) := by
  have hperform : table.perform call store = _ := perform_eq ht call
  cases hgate : shape.gate? lineage bindings call with
  | none =>
    rw [hgate, enter, ht.typeName] at hperform
    exact Or.inl ⟨rfl, hperform⟩
  | some gate =>
    obtain ⟨htype, hhost, hlineage⟩ := Shape.gate?_eq_some hgate
    rw [hgate, enter] at hperform
    refine Or.inr ⟨gate, rfl, ?_⟩
    rcases Gate.pass_cases (ht.typeName.trans htype.symm) (ht.host.trans hhost.symm)
        (ht.lineage.trans hlineage.symm) store with
      ⟨e, hrefuses, herror⟩ | ⟨ref, run, hadmits, hok⟩
    · rw [herror] at hperform
      exact .refused hrefuses hperform
    · rw [hok] at hperform
      exact .ran hadmits hperform

/-- A member that the shape has is called through its gate. -/
theorem Shape.Tabled.answers {table : CallTable} (ht : shape.Tabled lineage bindings table)
    (hgate : shape.gate? lineage bindings call = some gate) (store : Store) :
    gate.Answers store (table.perform call store) := by
  rcases CallTable.perform_cases ht call store with ⟨hnone, -⟩ | ⟨found, hfound, hanswers⟩
  · rw [hgate] at hnone
    cases hnone
  · rw [hgate] at hfound
    cases hfound
    exact hanswers

/-- The declared type of what a call returns. -/
def Shape.resultSlot? (shape : Shape) : Call → Option Slot
  | .invoke index _ _ => shape.methods[index]?.map fun method => .declared method.returns
  | .read index _ => shape.fields[index]?.map fun field => .declared field.typeName
  | .construct .. | .write .. => none

/-- What a run of a method or of the reading of a field returns conforms. -/
theorem Shape.conforms_of_run {slot : Slot} {run : Option ObjectRef → HostM Value}
    {ref : Option ObjectRef} {value : Value} {store after : Store}
    (hgate : shape.gate? lineage bindings call = some gate)
    (hslot : shape.resultSlot? call = some slot) (hrun : gate.run? = some run)
    (h : run ref store = .ok value after) : slot.Conforms lineage value := by
  have hproduced : ∃ result : HostM Native,
      run ref = result >>= fun native => HostM.ofExcept (slot.produce lineage native) := by
    cases call with
    | construct => cases hslot
    | write => cases hslot
    | invoke index target arguments =>
      obtain ⟨method, hmethod, rfl⟩ := Option.map_eq_some_iff.1 hgate
      simp only [resultSlot?, hmethod, Option.map_some, Option.some.injEq] at hslot
      obtain ⟨body, -, rfl⟩ := Option.map_eq_some_iff.1 hrun
      subst hslot
      exact ⟨_, rfl⟩
    | read index target =>
      obtain ⟨field, hfield, rfl⟩ := Option.map_eq_some_iff.1 hgate
      simp only [resultSlot?, hfield, Option.map_some, Option.some.injEq] at hslot
      obtain ⟨get, -, rfl⟩ := Option.map_eq_some_iff.1 hrun
      subst hslot
      exact ⟨_, rfl⟩
  obtain ⟨result, hresult⟩ := hproduced
  rw [hresult] at h
  change EStateM.bind result _ store = _ at h
  unfold EStateM.bind at h
  split at h
  · next native middle _ =>
    dsimp only at h
    cases hnative : slot.produce lineage native with
    | error e =>
      rw [hnative] at h
      cases h
    | ok returned =>
      rw [hnative] at h
      cases h
      exact Slot.conforms_of_produce hnative
  · cases h

/-- **A call is refused by the first check that fails and leaves the objects as they are, or
    it runs the body once, on what was checked**; and what it returns conforms. -/
theorem CallTable.perform_gated {table : CallTable} (howned : bindings.Owned)
    (h : shape.compileTable mode bindings = .ok table) (call : Call) (store : Store) :
    (match shape.gate? mode.lineage bindings call with
      | none => table.perform call store = .error (.badIndex call.kind call.index shape.name) store
      | some gate =>
        (∃ e, gate.Refuses store e ∧ (∀ ref run, ¬ gate.Opens store ref run) ∧
          table.perform call store = .error e store) ∨
        ∃ ref run, gate.Opens store ref run ∧ (∀ e, ¬ gate.Refuses store e) ∧
          table.perform call store = run ref store) ∧
      ∀ slot value after, shape.resultSlot? call = some slot →
        table.perform call store = .ok value after → slot.Conforms mode.lineage value := by
  rcases perform_cases (Shape.tabled_of_compileTable h) call store with
    ⟨hgate, hbad⟩ | ⟨gate, hgate, hanswers⟩
  · rw [hgate]
    refine ⟨hbad, fun slot value after _ hok => ?_⟩
    rw [hbad] at hok
    cases hok
  · rw [hgate]
    cases hanswers with
    | refused hrefuses hrefused =>
      refine ⟨Or.inl ⟨_, hrefuses, fun ref run hopens => hopens.admits.not_refuses _ hrefuses,
        hrefused⟩, fun slot value after _ hok => ?_⟩
      rw [hrefused] at hok
      cases hok
    | ran hadmits hran =>
      have hopens := hadmits.opens (Shape.run?_eq_none howned hgate)
      refine ⟨Or.inr ⟨_, _, hopens, hadmits.not_refuses, hran⟩,
        fun slot value after hslot hreturned => ?_⟩
      exact Shape.conforms_of_run hgate hslot hadmits.body (hran.symm.trans hreturned)

end

/-! ## A counter -/

/-- A type with a method of two parameters and a number that is read but not written. -/
def counter : Shape :=
  { Shape.ofName "a.Counter" .cls with
    methods := [⟨"add", "a.Counter", ["int", "java.lang.String"], "int", {}, [], [], .named "int"⟩]
    fields := [⟨"total", "a.Counter", "int", { isFinal := true }, []⟩] }

/-- The bindings of `counter`; its number could be written. -/
def counterBindings : Bindings :=
  let host : HostType := ⟨7⟩
  Bindings.ofHost "a.Counter" host
    |>.withMutator host "add" ["int", "java.lang.String"] (fun arguments => do
      modify fun (fields : Record) => fields.insert "note" (arguments.getD 1 .void)
      return arguments.headD .void)
    |>.withField host "total" (fun _ => .int 1) (fun native =>
      modify fun (fields : Record) => fields.insert "total" native)

theorem counterBindings_owned : counterBindings.Owned := Bindings.owned_of_host rfl

/-- A store with one counter. -/
def counterStore : Store := ⟨#[.record ⟨7⟩ .empty], []⟩

def counterValue : Value := .object ⟨0, "a.Counter"⟩

/-- The call of the method with two arguments that conform. -/
def counterCall : Call := .invoke 0 (some counterValue) [.int 2, .text "b"]

theorem counterCall_opens : ∃ gate ref run,
    counter.gate? none counterBindings counterCall = some gate ∧
      gate.Opens counterStore ref run := by
  refine ⟨_, some ⟨0, "a.Counter"⟩, _, rfl, rfl, ?_, ?_, rfl⟩
  · exact Or.inr ⟨rfl, _, ⟨7⟩, rfl, rfl, rfl, _, rfl⟩
  · exact .cons (.primitive rfl) (.cons (.text (by decide)) .nil)

/-- A final field is not written, although there is a body that could write it.  The method is
    called with as many arguments as it has parameters, and is handed their natives. -/
theorem CallTable.perform_gated_counter : ∃ table,
    counter.compileTable {} counterBindings = .ok table ∧
    table.perform (.write 0 none (.int 2)) .empty =
      .error (.unsupported "a.Counter.total is final") .empty ∧
    table.perform (.invoke 0 (some counterValue) [.int 2]) counterStore =
      .error (.arity "add(int,java.lang.String)" 2 1) counterStore ∧
    table.perform counterCall counterStore = .ok (.int 2)
      ⟨#[.record ⟨7⟩ (Table.empty.insert "note" (.ref (.text "b")))], []⟩ := by
  obtain ⟨table, htable⟩ : ∃ table, counter.compileTable {} counterBindings = .ok table := ⟨_, rfl⟩
  have hgated := perform_gated counterBindings_owned htable
  refine ⟨table, htable, ?_, ?_, ?_⟩
  · rcases (hgated (.write 0 none (.int 2)) .empty).1 with
      ⟨e, ⟨check, hclear, hfails⟩, -, hrefused⟩ | ⟨ref, run, hopens, -⟩
    · cases check with
      | writable => rw [hrefused, hfails.2]; rfl
      | _ => exact absurd ⟨rfl, rfl⟩ (hclear .writable (by decide) _)
    · cases hopens.writable
  · rcases (hgated (.invoke 0 (some counterValue) [.int 2]) counterStore).1 with
      ⟨e, ⟨check, hclear, hfails⟩, -, hrefused⟩ | ⟨ref, run, hopens, -⟩
    · cases check with
      | writable => cases hfails.1
      | arity => rw [hrefused, hfails.2]; rfl
      | _ => exact absurd ⟨by decide, rfl⟩ (hclear .arity (by decide) _)
    · cases hopens.arguments.length_eq
  · obtain ⟨gate, ref, run, hgate, hopens⟩ := counterCall_opens
    have hcall := (hgated counterCall counterStore).1
    rw [hgate] at hcall
    rcases hcall with ⟨e, -, hclosed, -⟩ | ⟨ref', run', hopens', -, hran⟩
    · exact absurd hopens (hclosed ref run)
    · cases hgate
      cases hopens'.body
      rcases hopens'.receiver with ⟨hstatic, -⟩ | ⟨-, object, -, htarget, rfl, -⟩
      · cases hstatic
      · cases htarget
        exact hran

end TypeAtlas
