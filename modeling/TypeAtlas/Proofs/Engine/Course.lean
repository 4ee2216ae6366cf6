/-
  The course of a lookup.

  A name is looked up by consulting providers, which may ask for other names, and so
  on to any depth.  What a provider does may depend on how often providers were
  consulted before, and it may take errors for answers.

  * `Engine.Happens` says what happens in the course of a lookup, at any depth: the
    providers that are consulted for a name find a handle, or one of them makes the
    engine forget;
  * `Inquiry.Keeps`: an inquiry that does not make the engine forget;
  * `Engine.not_happens_clear`: if there are no others, nothing is ever forgotten.
-/
import TypeAtlas.Engine.Lookup

namespace TypeAtlas

/-! ## What happens in a lookup -/

/-- What an engine has to do. -/
inductive Engine.Task where
  /-- Looks a name up. -/
  | load (name : String)
  /-- Consults providers for a name. -/
  | consult (name : String) (providers : List (Nat × Provider))
  /-- Does what a provider does. -/
  | inquire (inquiry : Inquiry)

/-- What may happen in the course of a task. -/
inductive Engine.Event where
  /-- The providers that were consulted for a name came to a handle. -/
  | found (name : String) (handle : Handle)
  /-- Everything was forgotten. -/
  | clear

/-- What happens in the course of a task that starts with a memo, the tasks within it
    included. -/
inductive Engine.Happens (engine : Engine) : Nat → Task → Memo → Event → Prop where
  /-- While the providers are consulted for an open name. -/
  | opened {depth : Nat} {name : String} {memo : Memo} {event : Event}
    (hopen : memo.slot? name = none)
    (h : Happens engine depth (.consult name engine.providers) (memo.begin onlyThread name) event) :
    Happens engine (depth + 1) (.load name) memo event
  /-- At their end. -/
  | found {depth : Nat} {name : String} {memo memo' : Memo} {handle : Handle}
    (hopen : memo.slot? name = none)
    (hfound : (consult (engine.load depth) name engine.providers).run.run
      (memo.begin onlyThread name) = some (.ok (some handle), memo')) :
    Happens engine (depth + 1) (.load name) memo (.found name handle)
  /-- In what the first provider does. -/
  | first {depth number : Nat} {name : String} {provider : Provider} {rest : List (Nat × Provider)}
    {memo : Memo} {event : Event}
    (h : Happens engine depth (.inquire (provider.inquire memo.turn name))
      (memo.consult number name) event) :
    Happens engine depth (.consult name ((number, provider) :: rest)) memo event
  /-- In what the others do if the first does not know the name. -/
  | rest {depth number : Nat} {name : String} {provider : Provider} {rest : List (Nat × Provider)}
    {memo memo' : Memo} {event : Event}
    (hnone : ((provider.inquire memo.turn name).run (engine.load depth)).run.run
      (memo.consult number name) = some (.ok none, memo'))
    (h : Happens engine depth (.consult name rest) memo' event) :
    Happens engine depth (.consult name ((number, provider) :: rest)) memo event
  /-- In a lookup that a provider asks for. -/
  | asked {depth : Nat} {name : String} {next : Answer → Inquiry} {memo : Memo} {event : Event}
    (h : Happens engine depth (.load name) memo event) :
    Happens engine depth (.inquire (.ask name next)) memo event
  /-- In what it does with the answer. -/
  | answered {depth : Nat} {name : String} {next : Answer → Inquiry} {memo memo' : Memo}
    {answer : Answer} {event : Event}
    (hanswer : (engine.load depth name).run.run memo = some (answer, memo'))
    (h : Happens engine depth (.inquire (next answer)) memo' event) :
    Happens engine depth (.inquire (.ask name next)) memo event
  | made {depth : Nat} {kind : HandleKind} {next : Handle → Inquiry} {memo : Memo} {event : Event}
    (h : Happens engine depth (.inquire (next (memo.make kind).1)) (memo.make kind).2 event) :
    Happens engine depth (.inquire (.make kind next)) memo event
  | looked {depth : Nat} {handle : Handle} {next : Inquiry} {memo : Memo} {event : Event}
    (h : Happens engine depth (.inquire next) (memo.look handle) event) :
    Happens engine depth (.inquire (.look handle next)) memo event
  | clear {depth : Nat} {next : Inquiry} {memo : Memo} :
    Happens engine depth (.inquire (.clear next)) memo .clear
  | cleared {depth : Nat} {next : Inquiry} {memo : Memo} {event : Event}
    (h : Happens engine depth (.inquire next) memo.clear event) :
    Happens engine depth (.inquire (.clear next)) memo event

/-! ## Providers that keep what is remembered -/

/-- An inquiry in which the engine is not made to forget. -/
inductive Inquiry.Keeps : Inquiry → Prop where
  | done (answer : Answer) : Keeps (.done answer)
  | ask {name : String} {next : Answer → Inquiry} (h : ∀ answer, Keeps (next answer)) :
    Keeps (.ask name next)
  | make {kind : HandleKind} {next : Handle → Inquiry} (h : ∀ handle, Keeps (next handle)) :
    Keeps (.make kind next)
  | look {handle : Handle} {next : Inquiry} (h : Keeps next) : Keeps (.look handle next)

namespace Inquiry.Keeps

theorem unknown : Keeps .unknown := .done _

theorem answer (kind : HandleKind) : Keeps (.answer kind) := .make fun _ => .done _

theorem require (name : String) {next : Handle → Inquiry} (h : ∀ handle, Keeps (next handle)) :
    Keeps (.require name next) := by
  refine .ask fun found => ?_
  rcases found with e | _ | handle
  · exact .done _
  · exact .done _
  · exact h handle

end Inquiry.Keeps

namespace Engine

variable {engine : Engine}

/-- What a task does itself does not make the engine forget. -/
def Task.Keeps : Task → Prop
  | .load _ => True
  | .consult _ providers => ∀ entry ∈ providers, ∀ turn name, (entry.2.inquire turn name).Keeps
  | .inquire inquiry => inquiry.Keeps

/-- If no provider makes the engine forget, nothing is forgotten in any task. -/
theorem not_happens_clear
    (hkeeps : ∀ entry ∈ engine.providers, ∀ turn name, (entry.2.inquire turn name).Keeps)
    {depth : Nat} {task : Task} {memo : Memo} (htask : task.Keeps) :
    ¬ engine.Happens depth task memo .clear := by
  suffices hevent : ∀ event, engine.Happens depth task memo event → event ≠ .clear from
    fun h => hevent .clear h rfl
  intro event h
  induction h with
  | opened _ _ ih => exact ih hkeeps
  | found => exact Event.noConfusion
  | first _ ih => exact ih ((List.forall_mem_cons.1 htask).1 _ _)
  | rest _ _ ih => exact ih (List.forall_mem_cons.1 htask).2
  | asked _ ih => exact ih trivial
  | answered _ _ ih => cases htask with | ask h => exact ih (h _)
  | made _ ih => cases htask with | make h => exact ih (h _)
  | looked _ ih => cases htask with | look h => exact ih h
  | clear => cases htask
  | cleared => cases htask

end Engine

end TypeAtlas
