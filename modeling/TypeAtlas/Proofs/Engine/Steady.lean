/-
  Providers that do the same whenever they are consulted.

  Every handle has an identity of its own, so what is found twice is found as two
  handles.  They are alike if they differ in nothing but identities, those of
  components included.

  * `Inquiry.Alike`: two inquiries ask for the same names in the same order, and
    alike answers lead to alike answers; both hand on every error that they are
    answered, and neither makes the engine forget anything;
  * `Provider.Steady`: all that a provider does for one name is alike;
  * the providers for primitives and arrays, for directories and for plans are
    steady.
-/
import TypeAtlas.Engine.Provider

namespace TypeAtlas

/-! ## Handles up to identity -/

mutual

/-- A handle without identities. -/
def Handle.unmarked : Handle → Handle
  | .mk _ kind => .mk 0 kind.unmarked

/-- What a handle stands for, without identities. -/
def HandleKind.unmarked : HandleKind → HandleKind
  | .primitive p => .primitive p
  | .array name component => .array name component.unmarked
  | .compiled c => .compiled c
  | .described shape => .described shape
  | .placeholder name => .placeholder name

end

theorem Handle.name_unmarked (handle : Handle) : handle.unmarked.name = handle.name := by
  obtain ⟨id, kind⟩ := handle
  cases kind <;> rfl

/-- The shape of a type does not depend on the identity of its handle. -/
theorem Handle.shape_unmarked : ∀ handle : Handle, handle.unmarked.shape = handle.shape
  | .mk _ (.primitive _) => rfl
  | .mk _ (.array name component) => by
    simp only [unmarked, HandleKind.unmarked, shape, shape_unmarked component, name_unmarked]
  | .mk _ (.compiled _) => rfl
  | .mk _ (.described _) => rfl
  | .mk _ (.placeholder _) => rfl

/-- Two answers that differ in nothing but identities. -/
inductive Answer.Alike : Answer → Answer → Prop where
  | some {handle handle' : Handle} (h : handle.unmarked = handle'.unmarked) :
    Alike (.ok (some handle)) (.ok (some handle'))
  | none : Alike (.ok none) (.ok none)
  | error (e : EngineError) : Alike (.error e) (.error e)

namespace Answer.Alike

theorem refl (answer : Answer) : Alike answer answer := by
  rcases answer with e | _ | handle
  · exact error e
  · exact none
  · exact some rfl

theorem symm {a b : Answer} (h : Alike a b) : Alike b a := by
  cases h with
  | some h => exact some h.symm
  | none => exact none
  | error e => exact error e

theorem trans {a b c : Answer} (h : Alike a b) (h' : Alike b c) : Alike a c := by
  cases h with
  | some h => cases h' with | some h' => exact some (h.trans h')
  | none => exact h'
  | error e => exact h'

end Answer.Alike

/-! ## Inquiries up to identity -/

/-- Two inquiries that do the same, whatever the identities of the handles are that they
    get, hand on every error, and make the engine forget nothing. -/
inductive Inquiry.Alike : Inquiry → Inquiry → Prop where
  | done {answer answer' : Answer} (h : Answer.Alike answer answer') :
    Alike (.done answer) (.done answer')
  | ask (name : String) {next next' : Answer → Inquiry}
    (hnext : ∀ found found', Answer.Alike (.ok found) (.ok found') →
      Alike (next (.ok found)) (next' (.ok found')))
    (herror : ∀ e, next (.error e) = .done (.error e))
    (herror' : ∀ e, next' (.error e) = .done (.error e)) :
    Alike (.ask name next) (.ask name next')
  | make {kind kind' : HandleKind} {next next' : Handle → Inquiry}
    (hkind : kind.unmarked = kind'.unmarked)
    (hnext : ∀ id id', Alike (next (.mk id kind)) (next' (.mk id' kind'))) :
    Alike (.make kind next) (.make kind' next')
  | look {handle handle' : Handle} {next next' : Inquiry}
    (h : handle.unmarked = handle'.unmarked) (hnext : Alike next next') :
    Alike (.look handle next) (.look handle' next')

/-- A provider that does the same for a name whenever it is consulted. -/
def Provider.Steady (provider : Provider) : Prop :=
  ∀ turn turn' name, (provider.inquire turn name).Alike (provider.inquire turn' name)

namespace Inquiry.Alike

theorem fail (e : EngineError) : Alike (.fail e) (.fail e) := done (.error e)

theorem unknown : Alike .unknown .unknown := done .none

theorem answer {kind kind' : HandleKind} (h : kind.unmarked = kind'.unmarked) :
    Alike (.answer kind) (.answer kind') :=
  make h fun id id' => done (.some (by simp only [Handle.unmarked, h]))

section

variable (name : String) {next next' : Handle → Inquiry}
  (hnext : ∀ handle handle', handle.unmarked = handle'.unmarked →
    Alike (next handle) (next' handle'))

include hnext

theorem require : Alike (.require name next) (.require name next') := by
  refine ask name ?_ (fun _ => rfl) (fun _ => rfl)
  intro found found' h
  cases h with
  | some h => exact hnext _ _ h
  | none => exact fail _

theorem requireOrPlaceholder :
    Alike (.requireOrPlaceholder name next) (.requireOrPlaceholder name next') := by
  refine ask name ?_ (fun _ => rfl) (fun _ => rfl)
  intro found found' h
  cases h with
  | some h => exact hnext _ _ h
  | none => exact make rfl fun id id' => hnext _ _ rfl

theorem requireOrUnknown :
    Alike (.requireOrUnknown name next) (.requireOrUnknown name next') := by
  refine ask name ?_ (fun _ => rfl) (fun _ => rfl)
  intro found found' h
  cases h with
  | some h => exact hnext _ _ h
  | none => exact unknown

end

end Inquiry.Alike

/-! ## Steady providers -/

open Inquiry

theorem Provider.steady_wellKnown : Provider.wellKnown.Steady := by
  intro _ _ name
  simp only [Provider.wellKnown]
  cases Primitive.ofName? name with
  | some p => exact Alike.answer rfl
  | none =>
    cases Name.component? name with
    | some component =>
      refine Alike.requireOrPlaceholder component fun handle handle' h => ?_
      exact Alike.look h (Alike.answer (by simp only [HandleKind.unmarked, h]))
    | none => exact Alike.unknown

theorem Provider.steady_ofDirectory (directory : Directory Compiled) :
    (Provider.ofDirectory directory).Steady := by
  intro _ _ name
  simp only [Provider.ofDirectory]
  cases directory.find? name with
  | some c => exact Alike.answer rfl
  | none => exact Alike.unknown

theorem Plan.alike_askAll {ask : String → (Handle → Inquiry) → Inquiry}
    (hask : ∀ name {next next' : Handle → Inquiry},
      (∀ handle handle', handle.unmarked = handle'.unmarked →
        (next handle).Alike (next' handle')) → (ask name next).Alike (ask name next'))
    (names : List String) {next : Inquiry} (hnext : next.Alike next) :
    (askAll ask names next).Alike (askAll ask names next) := by
  induction names with
  | nil => exact hnext
  | cons name names ih => exact hask name fun _ _ _ => ih

theorem Plan.alike_inquiry {plan : Plan} (h : plan.clears = false) :
    plan.inquiry.Alike plan.inquiry := by
  simp only [Plan.inquiry, h, Bool.false_eq_true, if_false]
  refine alike_askAll Alike.require _ ?_
  refine alike_askAll Alike.requireOrPlaceholder _ ?_
  refine alike_askAll Alike.requireOrUnknown _ ?_
  cases plan.failure with
  | some text => exact Alike.fail _
  | none => exact Alike.answer rfl

/-- A provider that follows plans is steady if none of them makes the engine forget. -/
theorem Provider.steady_planned {priority : Int} {label : String} {plan? : String → Option Plan}
    (h : ∀ name plan, plan? name = some plan → plan.clears = false) :
    (Provider.planned priority label plan?).Steady := by
  intro _ _ name
  simp only [Provider.planned]
  cases hplan : plan? name with
  | some plan => exact Plan.alike_inquiry (h name plan hplan)
  | none => exact Alike.unknown

end TypeAtlas
