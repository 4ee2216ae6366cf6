/-
  Static methods called through a handle.

  A static method takes no receiver, so it should not matter on what it is called.  The
  call table passes the target over; but a handle looks first whether the target is a
  stand-in, and hands every call on one to its handler, also that of a static method.

  * `CallTable.invoke_static`: the table does not look at the target of a static method;
  * `invoke_passed`: nor does a handle, if the target is no stand-in;
  * `invoke_static_agrees`: targets that are no stand-ins are alike, and the call runs the
    method's body without a receiver or is refused; on a stand-in the body does not run;
  * `invoke_static_standIn`: so a static method that can be called on everything else
    cannot be called on a stand-in.
-/
import TypeAtlas.Proofs.Engine.StandIn
import TypeAtlas.Proofs.Host.Gate

namespace TypeAtlas

/-! ## In the call table -/

section

variable {table : CallTable} {index : Nat} {store : Store} {arguments : List Value}

theorem CallTable.invoke_static {method : TableMethod}
    (hmethod : table.methods[index]? = some method) (hstatic : method.isStatic = true) (first second : Option Value) :
    table.invoke index first arguments store = table.invoke index second arguments store := by
  have hready : table.readyMethod store index first arguments =
      table.readyMethod store index second arguments := by
    simp only [readyMethod, member, hmethod, receiver?, hstatic, if_true, ok_bind]
  show (HostM.ofExcept (table.readyMethod store index first arguments) >>= _) store =
    (HostM.ofExcept (table.readyMethod store index second arguments) >>= _) store
  rw [hready]

end

/-! ## Through a handle -/

section

variable {shape : Shape} {mode : CompileMode} {bindings : Bindings} {compiled : Compiled}
  {method : Method} {index id : Nat} {target : Option Value} {arguments : List Value}
  {store : Store}

/-- A call on anything but a stand-in goes to the call table. -/
theorem invoke_passed (h : store.proxy? target = none) (index : Nat) (arguments : List Value) :
    (Handle.mk id (.compiled compiled)).invoke index target arguments store =
      CallM.ofHost (compiled.table.invoke index target arguments) store := by
  unfold Handle.invoke
  simp only [Handle.compiled?, Handle.kind, get_bind_apply, h]

theorem ofHost_of_error {body : HostM Value} {e : CallError} {after : Store}
    (h : body store = .error e after) : CallM.ofHost body store = .error (.call e) after := by
  show EStateM.adaptExcept _ _ _ = _
  rw [EStateM.adaptExcept, h]

theorem ofHost_congr {body body' : HostM Value} (h : body store = body' store) :
    CallM.ofHost body store = CallM.ofHost body' store := by
  show EStateM.adaptExcept _ _ _ = EStateM.adaptExcept _ _ _
  rw [EStateM.adaptExcept, EStateM.adaptExcept, h]

/-- The static method of a table of a shape. -/
theorem isStatic_of_compile (h : shape.compile mode bindings = .ok compiled)
    (hmethod : shape.methods[index]? = some method) :
    ∃ entry, compiled.table.methods[index]? = some entry ∧
      entry.isStatic = method.modifiers.isStatic := by
  have ht := Shape.tabled_of_compileTable (Shape.compile_eq_ok h).2
  refine ⟨bindings.tableMethod method, ?_, rfl⟩
  rw [ht.methods, List.getElem?_map, hmethod, Option.map_some]

/-- A call of a static method is refused, or runs its body without a receiver. -/
theorem invoke_static_cases (h : shape.compile mode bindings = .ok compiled)
    (hmethod : shape.methods[index]? = some method) (hstatic : method.modifiers.isStatic = true)
    (arguments : List Value) (store : Store) :
    let checks := shape.methodGate mode.lineage bindings method none arguments
    let outcome := CallM.ofHost (compiled.table.invoke index none arguments) store
    (∃ e, checks.Refuses store e ∧ outcome = .error (.call e) store) ∨
      ∃ run, checks.Admits store none run ∧ outcome = CallM.ofHost (run none) store := by
  have ht := Shape.tabled_of_compileTable (Shape.compile_eq_ok h).2
  cases ht.answers (Shape.gate?_invoke hmethod none arguments) store with
  | refused hrefuses hrefused => exact Or.inl ⟨_, hrefuses, ofHost_of_error hrefused⟩
  | @ran ref run hadmits hran =>
    obtain rfl : ref = none := by
      rcases hadmits.receiver with ⟨-, hnone⟩ | ⟨hinstance, -⟩
      · exact hnone
      · exact absurd (hstatic.symm.trans hinstance) Bool.noConfusion
    exact Or.inr ⟨run, hadmits, ofHost_congr hran⟩

/-- A call on a stand-in is refused, or one of the methods that it answers is handed to its
    handler. -/
theorem invoke_on_standIn (h : shape.compile mode bindings = .ok compiled) {ref : ObjectRef}
    {interface : String} {methods : List Method} {handler : Handler}
    (hheld : store.payload ref = .proxy interface methods handler) (index : Nat)
    (arguments : List Value) :
    let outcome :=
      (Handle.mk id (.compiled compiled)).invoke index (some (.object ref)) arguments store
    (∃ e, outcome = .error e store) ∨
      ∃ entry ∈ methods,
        CallM.objects outcome = store.remember ⟨.object ref, entry, arguments⟩ := by
  let made : Shape := { Shape.ofName interface .interface with proxyMethods := some methods }
  have hheld : store.payload ref = .proxy made.name (made.proxyMethods.getD []) handler := hheld
  rcases invoke_cases id h hheld index arguments with
    ⟨-, hrefused⟩ | ⟨entry, hhanded, hobjects⟩
  · exact Or.inl hrefused
  · refine Or.inr ⟨entry, ?_, hobjects⟩
    have hreached : shape.reached? made index = some entry :=
      (Option.filter_eq_some_iff.1 hhanded).1
    simp only [Shape.reached?, Option.bind_eq_bind, Option.bind_eq_some_iff] at hreached
    obtain ⟨_, -, place, -, hplace⟩ := hreached
    exact List.mem_of_getElem? hplace

end

/-! ## A static method beside a stand-in -/

/-- A class with a static method that answers one. -/
def tools : Shape :=
  { Shape.ofName "a.Tools" .cls with
    methods := [⟨"one", "a.Tools", [], "int", { isStatic := true }, [], [], .named "int"⟩] }

def toolsBindings : Bindings :=
  (Bindings.ofHost "a.Tools" ⟨0⟩).withStatic "one" [] fun _ => .ok (.int 1)

theorem exists_compile_tools : ∃ compiled, tools.compile {} toolsBindings = .ok compiled :=
  Shape.exists_compile (Shape.exists_toBase64 (by decide +kernel) rfl (by decide +kernel)) ⟨_, rfl⟩

/-- **On what a static method is called does not matter, unless it is a stand-in.**  The call runs
    the body that is bound to the method, without a receiver and on the arguments, or is refused,
    whatever the target is.  On a stand-in the body does not run: the call is refused, or a method
    of the stand-in is handed to its handler. -/
theorem invoke_static_agrees {shape : Shape} {mode : CompileMode} {bindings : Bindings}
    {compiled : Compiled} (h : shape.compile mode bindings = .ok compiled) {index : Nat}
    {method : Method} (hmethod : shape.methods[index]? = some method)
    (hstatic : method.modifiers.isStatic = true) (id : Nat) (arguments : List Value)
    (store : Store) :
    let checks := shape.methodGate mode.lineage bindings method none arguments
    let outcome := fun target =>
      (Handle.mk id (.compiled compiled)).invoke index target arguments store
    (∀ first second, store.proxy? first = none → store.proxy? second = none →
      outcome first = outcome second) ∧
    (∀ target, store.proxy? target = none →
      (∃ e, checks.Refuses store e ∧ outcome target = .error (.call e) store) ∨
        ∃ run, checks.Admits store none run ∧ outcome target = CallM.ofHost (run none) store) ∧
    (∀ ref interface methods handler, store.payload ref = .proxy interface methods handler →
      (∃ e, outcome (some (.object ref)) = .error e store) ∨
        ∃ entry ∈ methods, CallM.objects (outcome (some (.object ref))) =
          store.remember ⟨.object ref, entry, arguments⟩) := by
  intro checks outcome
  obtain ⟨entry, hentry, hsame⟩ := isStatic_of_compile h hmethod
  have hnone : ∀ target, store.proxy? target = none →
      outcome target = CallM.ofHost (compiled.table.invoke index none arguments) store := by
    intro target htarget
    refine (invoke_passed htarget index arguments).trans (ofHost_congr ?_)
    exact CallTable.invoke_static hentry (hsame.trans hstatic) target none
  refine ⟨fun first second hfirst hsecond => ?_, fun target htarget => ?_, ?_⟩
  · rw [hnone first hfirst, hnone second hsecond]
  · rw [hnone target htarget]
    exact invoke_static_cases h hmethod hstatic arguments store
  · exact fun ref interface methods handler hheld => invoke_on_standIn h hheld index arguments

/-- A static method called on a text, and on nothing. -/
theorem invoke_static_agrees_text : ∃ compiled, tools.compile {} toolsBindings = .ok compiled ∧
    (Handle.mk 0 (.compiled compiled)).invoke 0 (some (.text "x")) [] .empty =
      (Handle.mk 0 (.compiled compiled)).invoke 0 none [] .empty := by
  obtain ⟨compiled, hcompiled⟩ := exists_compile_tools
  have hfirst : tools.methods[0]? = some _ := rfl
  exact ⟨compiled, hcompiled, (invoke_static_agrees hcompiled hfirst rfl 0 [] .empty).1
    (some (.text "x")) none rfl rfl⟩

/-- **A static method that answers when it is called on nothing is refused on a stand-in** for an
    interface that has nothing to do with it. -/
theorem invoke_static_standIn : ∃ compiled owner value created,
    tools.compile {} toolsBindings = .ok compiled ∧
    gate.compile {} (.ofName "a.Gate") = .ok owner ∧
    (Handle.mk 1 (.compiled owner)).createProxy
      (fun _ method _ => .ok (.text method.signature)) .empty = .ok value created ∧
    (Handle.mk 0 (.compiled compiled)).invoke 0 none [] created = .ok (.int 1) created ∧
    ∃ e, (Handle.mk 0 (.compiled compiled)).invoke 0 (some value) [] created =
      .error e created := by
  obtain ⟨compiled, hcompiled⟩ := exists_compile_tools
  obtain ⟨owner, howner⟩ := exists_compile_gate
  obtain ⟨value, created, hcreate⟩ := exists_createProxy howner rfl rfl 1
    fun _ method _ => .ok (.text method.signature)
  obtain ⟨ref, rfl, hheld⟩ := createProxy_eq_ok howner hcreate
  have htable : ∃ table, tools.compileTable {} toolsBindings = .ok table ∧
      table.invoke 0 none [] created = .ok (.int 1) created := ⟨_, rfl, rfl⟩
  obtain ⟨table, htable, hone⟩ := htable
  obtain rfl : compiled.table = table :=
    Except.ok.inj ((Shape.compile_eq_ok hcompiled).2.symm.trans htable)
  refine ⟨compiled, owner, _, created, hcompiled, howner, hcreate, ?_, ?_⟩
  · rw [invoke_passed rfl]
    show EStateM.adaptExcept _ _ _ = _
    rw [EStateM.adaptExcept, hone]
  · exact invoke_eq 0 hcompiled hheld 0 []

end TypeAtlas
