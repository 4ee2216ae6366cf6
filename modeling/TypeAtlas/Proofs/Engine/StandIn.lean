/-
  Calls on stand-ins.

  A method of an interface is asked for by its index in the interface's shape.
  On a stand-in the index becomes a place among the methods that the interface's
  own stand-ins answer, and the stand-in takes that place in its own list.

  * `Shape.reached?` is the method that is found in this way;
  * `invoke_cases`: that method is handed to the handler once, or the call is refused
    and nothing is handed over;
  * `invoke_standIn`: the method that was asked for is handed over if and only
    if the two lists hold the same signature at the place in question, which
    they do where both interfaces answer the same methods;
  * `invoke_standIn_stranger`: a call through an interface above that of the
    stand-in can reach another method.
-/
import TypeAtlas.Build.Description
import TypeAtlas.Engine.Call
import TypeAtlas.Proofs.Blob.Writable
import TypeAtlas.Proofs.Build.Compile

namespace TypeAtlas

/-! ## Which method is reached -/

/-- The method that a call by index reaches through the interface `asked` on a stand-in
    that was made for `made`. -/
def Shape.reached? (asked made : Shape) (index : Nat) : Option Method := do
  let method ← asked.methods[index]?
  let place ← asked.proxyIndex? method
  (made.proxyMethods.getD [])[place]?

/-- The method that is reached, if it takes as many arguments as there are. -/
def Shape.handed? (asked made : Shape) (index : Nat) (arguments : List Value) : Option Method :=
  (asked.reached? made index).filter fun method =>
    method.parameters.length == arguments.length

/-- The objects after a call. -/
def CallM.objects : EStateM.Result EngineError Store Value → Store
  | .ok _ store => store
  | .error _ store => store

/-- What must come of asking for the method at an index: the calls that are handed to
    handlers are of the name and the parameter types of that method, and if there are none,
    the call is refused. -/
def Answered (asked : Shape) (index : Nat) (before : Store)
    (outcome : EStateM.Result EngineError Store Value) : Prop :=
  ∃ calls, (CallM.objects outcome).handled = before.handled ++ calls ∧
    (∀ call ∈ calls, ∃ method, asked.methods[index]? = some method ∧
      call.method.name = method.name ∧ call.method.parameters = method.parameters) ∧
    (calls = [] → ∃ e store, outcome = .error e store)

/-- The store after a call was handed to a handler. -/
def Store.remember (store : Store) (call : HandledCall) : Store :=
  { store with handled := store.handled ++ [call] }

theorem get_bind_apply {ε σ α : Type} (next : σ → EStateM ε σ α) (state : σ) :
    (get >>= next) state = next state state := rfl

/-- A stand-in hands a call that fits to its handler and refuses all others. -/
theorem Proxy.invoke_eq {store : Store} {ref : ObjectRef} {interface : String}
    {methods : List Method} {handler : Handler}
    (h : store.payload ref = .proxy interface methods handler) (index : Nat)
    (arguments : List Value) :
    Proxy.invoke ref index arguments store =
      match methods[index]? with
      | some method =>
        if method.parameters.length = arguments.length then
          HostM.ofExcept (handler (.object ref) method arguments)
            (store.remember ⟨.object ref, method, arguments⟩)
        else .error (.arity method.signature method.parameters.length arguments.length) store
      | none => .error (.badIndex .proxyMethod index interface) store := by
  unfold Proxy.invoke
  simp only [get_bind_apply, h]
  cases methods[index]? with
  | none => rfl
  | some method =>
    by_cases harity : method.parameters.length = arguments.length
    · simp only [if_pos harity]
      rfl
    · simp only [if_neg harity]
      rfl

/-! ## Making stand-ins -/

section

variable {asked made : Shape} {mode mode' : CompileMode} {bindings bindings' : Bindings}
  {target owner : Compiled} {id' : Nat} {handler : Handler} {value : Value}
  {before created store : Store} {ref : ObjectRef}

/-- A stand-in is an object that holds the methods its interface's stand-ins answer. -/
theorem createProxy_eq_ok (howner : made.compile mode' bindings' = .ok owner)
    (h : (Handle.mk id' (.compiled owner)).createProxy handler before = .ok value created) :
    ∃ ref, value = .object ref ∧
      created.payload ref = .proxy made.name (made.proxyMethods.getD []) handler := by
  have hshape := Handle.shape_of_compile howner id'
  obtain ⟨hname, hmethods⟩ := Shape.proxyMethods_of_compileTable (Shape.compile_eq_ok howner).2
  unfold Handle.createProxy at h
  simp only [Handle.compiled?, Handle.kind, hshape] at h
  change (if _ then _ else _ : CallM Value) before = _ at h
  split at h
  · cases h
    refine ⟨_, rfl, ?_⟩
    simp [Store.payload, hname, hmethods]
  · cases h

/-! ## Calling stand-ins -/

/-- Asking for a method by its index leads to the method that is reached, or nowhere. -/
theorem invoke_eq (id : Nat) (htarget : asked.compile mode bindings = .ok target)
    (hheld : store.payload ref = .proxy made.name (made.proxyMethods.getD []) handler)
    (index : Nat) (arguments : List Value) :
    let outcome := (Handle.mk id (.compiled target)).invoke index (some (.object ref)) arguments store
    match asked.reached? made index with
    | some method =>
      outcome =
        if method.parameters.length = arguments.length then
          CallM.ofHost (HostM.ofExcept (handler (.object ref) method arguments))
            (store.remember ⟨.object ref, method, arguments⟩)
        else
          .error (.call (.arity method.signature method.parameters.length arguments.length)) store
    | none => ∃ e, outcome = .error e store := by
  intro outcome
  have hshape := Handle.shape_of_compile htarget id
  have hproxy : store.proxy? (some (.object ref)) = some ref := by
    simp only [Store.proxy?, hheld]
  have hinvoke : outcome =
      (Handle.mk id (.compiled target)).invokeProxy ref index arguments store := by
    unfold outcome Handle.invoke
    simp only [Handle.compiled?, Handle.kind, get_bind_apply, hproxy]
  rw [hinvoke]
  unfold Handle.invokeProxy Shape.reached?
  simp only [hshape, CallM.ofExcept, pure_bind]
  cases hmethod : asked.methods[index]? with
  | none => exact ⟨_, rfl⟩
  | some method =>
    simp only [Option.bind_eq_bind, Option.bind_some]
    cases hplace : asked.proxyIndex? method with
    | none => exact ⟨_, rfl⟩
    | some place =>
      have hcall := Proxy.invoke_eq hheld place arguments
      simp only [Option.bind_some]
      cases hentry : (made.proxyMethods.getD [])[place]? with
      | none =>
        simp only [hentry] at hcall
        refine ⟨.call (.badIndex .proxyMethod place made.name), ?_⟩
        show EStateM.adaptExcept _ _ _ = _
        rw [EStateM.adaptExcept, hcall]
      | some entry =>
        simp only [hentry] at hcall
        show EStateM.adaptExcept _ _ _ = _
        rw [EStateM.adaptExcept, hcall]
        by_cases harity : entry.parameters.length = arguments.length
        · simp only [if_pos harity]
          rfl
        · simp only [if_neg harity]

/-- What comes of a handler's answer is remembered, whether it is a value or not. -/
theorem objects_ofHost (answer : Except CallError Value) (store : Store) :
    CallM.objects (CallM.ofHost (HostM.ofExcept answer) store) = store := by
  cases answer <;> rfl

/-- A call on a stand-in is refused, or hands the method that is reached to the handler. -/
theorem invoke_cases (id : Nat) (htarget : asked.compile mode bindings = .ok target)
    (hheld : store.payload ref = .proxy made.name (made.proxyMethods.getD []) handler)
    (index : Nat) (arguments : List Value) :
    let outcome := (Handle.mk id (.compiled target)).invoke index (some (.object ref)) arguments store
    (asked.handed? made index arguments = none ∧ ∃ e, outcome = .error e store) ∨
      ∃ method, asked.handed? made index arguments = some method ∧
        CallM.objects outcome = store.remember ⟨.object ref, method, arguments⟩ := by
  intro outcome
  have hinvoke := invoke_eq id htarget hheld index arguments
  unfold Shape.handed?
  cases hreached : asked.reached? made index with
  | none =>
    simp only [hreached] at hinvoke
    exact Or.inl ⟨rfl, hinvoke⟩
  | some method =>
    simp only [hreached] at hinvoke
    by_cases harity : method.parameters.length = arguments.length
    · refine Or.inr ⟨method, by simp [harity], ?_⟩
      rw [if_pos harity] at hinvoke
      show CallM.objects outcome = _
      rw [show outcome = _ from hinvoke, objects_ofHost]
    · rw [if_neg harity] at hinvoke
      exact Or.inl ⟨by simp [harity], _, hinvoke⟩

end

/-! ## The method that was asked for -/

theorem Method.matches_iff {method : Method} {name : String} {parameters : List String} :
    method.matches name parameters = true ↔
      method.name = name ∧ method.parameters = parameters := by
  simp [Method.matches]

/-- Where both interfaces answer the same methods, a method is reached by its own place. -/
theorem Shape.reached?_of_same {asked made : Shape}
    (h : asked.proxyMethods = made.proxyMethods) {index : Nat} {entry : Method}
    (hentry : asked.reached? made index = some entry) :
    ∃ method, asked.methods[index]? = some method ∧
      entry.name = method.name ∧ entry.parameters = method.parameters := by
  simp only [Shape.reached?, Option.bind_eq_bind, Option.bind_eq_some_iff] at hentry
  obtain ⟨method, hmethod, place, hplace, hfound⟩ := hentry
  obtain ⟨hlt, hmatches, -⟩ := List.findIdx?_eq_some_iff_getElem.1 hplace
  rw [← h, List.getElem?_eq_getElem hlt, Option.some.injEq] at hfound
  subst hfound
  exact ⟨method, hmethod, Method.matches_iff.1 hmatches⟩

/-- What is handed over decides whether the call is answered. -/
theorem answered_iff {asked made : Shape} {index : Nat} {arguments : List Value} {proxy : Value}
    {store : Store} {outcome : EStateM.Result EngineError Store Value}
    (h : (asked.handed? made index arguments = none ∧ ∃ e, outcome = .error e store) ∨
      ∃ entry, asked.handed? made index arguments = some entry ∧
        CallM.objects outcome = store.remember ⟨proxy, entry, arguments⟩) :
    Answered asked index store outcome ↔
      ∀ entry, asked.handed? made index arguments = some entry →
        ∃ method, asked.methods[index]? = some method ∧
          entry.name = method.name ∧ entry.parameters = method.parameters := by
  constructor
  · rintro ⟨calls, hcalls, hright, -⟩ entry hentry
    rcases h with ⟨hnone, -⟩ | ⟨method, hmethod, hobjects⟩
    · rw [hnone] at hentry
      cases hentry
    · rw [hmethod] at hentry
      cases hentry
      rw [hobjects] at hcalls
      exact hright _ (List.append_cancel_left hcalls ▸ List.mem_singleton_self _)
  · intro hright
    rcases h with ⟨-, e, rfl⟩ | ⟨method, hmethod, hobjects⟩
    · exact ⟨[], (List.append_nil _).symm, by simp, fun _ => ⟨e, store, rfl⟩⟩
    · refine ⟨[⟨proxy, method, arguments⟩], by rw [hobjects]; rfl, ?_, by simp⟩
      intro call hcall
      rw [List.mem_singleton.1 hcall]
      exact hright method hmethod

/-! ## Two interfaces -/

/-- A public abstract method without parameters and result. -/
def plainMethod (declaring name : String) : Method :=
  ⟨name, declaring, [], "void", { isAbstract := true }, [], [], .named "void"⟩

/-- An interface that can be closed. -/
def gate : Shape :=
  { Shape.ofName "a.Gate" .interface with
    methods := [plainMethod "a.Gate" "close"]
    proxyMethods := some (rootMethods ++ [plainMethod "a.Gate" "close"]) }

/-- An interface below `gate` that can also be opened. -/
def door : Shape :=
  { Shape.ofName "a.Door" .interface with
    interfaces := ["a.Gate"]
    methods := [plainMethod "a.Door" "open"]
    proxyMethods := some (rootMethods ++
      [plainMethod "a.Door" "open", plainMethod "a.Gate" "close"]) }

theorem exists_compile_gate : ∃ compiled, gate.compile {} (.ofName "a.Gate") = .ok compiled :=
  Shape.exists_compile (Shape.exists_toBase64 (by decide +kernel) rfl (by decide +kernel)) ⟨_, rfl⟩

theorem exists_compile_door : ∃ compiled, door.compile {} (.ofName "a.Door") = .ok compiled :=
  Shape.exists_compile (Shape.exists_toBase64 (by decide +kernel) rfl (by decide +kernel)) ⟨_, rfl⟩

/-- Stand-ins can be made for an interface whose stand-ins answer methods. -/
theorem exists_createProxy {made : Shape} {mode : CompileMode} {bindings : Bindings}
    {owner : Compiled} (howner : made.compile mode bindings = .ok owner)
    (hkind : made.kind = .interface) (hmethods : made.proxyMethods.isSome = true) (id : Nat)
    (handler : Handler) :
    ∃ value created, (Handle.mk id (.compiled owner)).createProxy handler .empty =
      .ok value created := by
  have hshape := Handle.shape_of_compile howner id
  unfold Handle.createProxy
  simp only [Handle.compiled?, Handle.kind, hshape, CallM.ofExcept, pure_bind, hkind, hmethods]
  exact ⟨_, _, rfl⟩

/-- A stand-in for `door` that answers every call with the method's signature. -/
theorem exists_createProxy_door {owner : Compiled}
    (howner : door.compile {} (.ofName "a.Door") = .ok owner) :
    ∃ value created, (Handle.mk 1 (.compiled owner)).createProxy
      (fun _ method _ => .ok (.text method.signature)) .empty = .ok value created :=
  exists_createProxy howner rfl rfl 1 _

/-! ## The method that is handed over -/

/-- **A call on a stand-in reaches the method that was asked for if and only if the place
    that this method has among the methods its interface answers holds the same signature
    among those that the stand-in answers**; so it is where the two lists are the same. -/
theorem invoke_standIn {asked made : Shape} {mode mode' : CompileMode}
    {bindings bindings' : Bindings} {target owner : Compiled}
    (htarget : asked.compile mode bindings = .ok target)
    (howner : made.compile mode' bindings' = .ok owner) {handler : Handler} {value : Value}
    {id' : Nat} {before created store : Store}
    (hcreate : (Handle.mk id' (.compiled owner)).createProxy handler before = .ok value created)
    (hkept : ∀ ref, value = .object ref → store.payload ref = created.payload ref)
    (id index : Nat) (arguments : List Value) :
    let outcome := (Handle.mk id (.compiled target)).invoke index (some value) arguments store
    (Answered asked index store outcome ↔
      ∀ entry, asked.handed? made index arguments = some entry →
        ∃ method, asked.methods[index]? = some method ∧
          entry.name = method.name ∧ entry.parameters = method.parameters) ∧
      ((asked.handed? made index arguments = none ∧ ∃ e, outcome = .error e store) ∨
        ∃ entry, asked.handed? made index arguments = some entry ∧
          CallM.objects outcome = store.remember ⟨value, entry, arguments⟩) ∧
      (asked.proxyMethods = made.proxyMethods → Answered asked index store outcome) := by
  obtain ⟨ref, rfl, hcreated⟩ := createProxy_eq_ok howner hcreate
  have hheld := (hkept ref rfl).trans hcreated
  intro outcome
  have hcases := invoke_cases id htarget hheld index arguments
  have hiff := answered_iff hcases
  refine ⟨hiff, hcases, fun hsame => hiff.2 fun entry hentry => ?_⟩
  exact Shape.reached?_of_same hsame (Option.filter_eq_some_iff.1 hentry).1

theorem invoke_standIn_own : ∃ owner value created,
    door.compile {} (.ofName "a.Door") = .ok owner ∧
    (Handle.mk 1 (.compiled owner)).createProxy
      (fun _ method _ => .ok (.text method.signature)) .empty = .ok value created ∧
    Answered door 0 created
      ((Handle.mk 1 (.compiled owner)).invoke 0 (some value) [] created) := by
  obtain ⟨owner, howner⟩ := exists_compile_door
  obtain ⟨value, created, hcreate⟩ := exists_createProxy_door howner
  have hcall := invoke_standIn howner howner hcreate (fun _ _ => rfl) 1 0 []
  exact ⟨owner, value, created, howner, hcreate, hcall.2.2 rfl⟩

/-- Asked to close a door, its stand-in opens it. -/
theorem invoke_standIn_stranger : ∃ target owner value created,
    gate.compile {} (.ofName "a.Gate") = .ok target ∧
    door.compile {} (.ofName "a.Door") = .ok owner ∧
    (Handle.mk 1 (.compiled owner)).createProxy
      (fun _ method _ => .ok (.text method.signature)) .empty = .ok value created ∧
    gate.methods[0]? = some (plainMethod "a.Gate" "close") ∧
    CallM.objects ((Handle.mk 0 (.compiled target)).invoke 0 (some value) [] created) =
      created.remember ⟨value, plainMethod "a.Door" "open", []⟩ ∧
    ¬ Answered gate 0 created
      ((Handle.mk 0 (.compiled target)).invoke 0 (some value) [] created) := by
  obtain ⟨target, htarget⟩ := exists_compile_gate
  obtain ⟨owner, howner⟩ := exists_compile_door
  obtain ⟨value, created, hcreate⟩ := exists_createProxy_door howner
  obtain ⟨ref, rfl, hheld⟩ := createProxy_eq_ok howner hcreate
  have hhanded : gate.handed? door 0 [] = some (plainMethod "a.Door" "open") := by
    decide +kernel
  have hcases := invoke_cases 0 htarget hheld 0 []
  refine ⟨target, owner, _, created, htarget, howner, hcreate, rfl, ?_, fun hanswered => ?_⟩
  · rcases hcases with ⟨hnone, -⟩ | ⟨method, hmethod, hobjects⟩
    · rw [hhanded] at hnone
      cases hnone
    · rw [hhanded] at hmethod
      cases hmethod
      exact hobjects
  · obtain ⟨method, hmethod, hname, -⟩ := (answered_iff hcases).1 hanswered _ hhanded
    cases hmethod
    exact absurd hname (by decide)

end TypeAtlas
