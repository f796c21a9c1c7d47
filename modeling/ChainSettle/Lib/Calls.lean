import ChainSettle.Lib.Run
import Mathlib.Logic.Function.Basic

/-!
Concurrent calls over a shared state. A call is what is left of a program that
is suspended before its next atomic step; resuming it performs that step and
leaves the rest of the program, or nothing when it is done. Any number of calls
are in flight, each in a slot of its own, and they are resumed in any order.
Between two steps the outside world may change the shared state as well.

A run is a `StepsAlong` of the step function below. `CallSystem.step_cases` says
everything a step can do, and `pending_update` who is in flight afterwards.
-/

namespace Lib

variable {σ κ ι ω : Type}

/-- `starts` are the calls that may begin, suspended before their first step. -/
structure CallSystem (σ κ ι ω : Type) where
  starts : κ → Bool
  resume : ι → σ → κ → σ × Option κ
  external : ω → σ → σ

structure Calls (σ κ : Type) where
  shared : σ
  pending : Nat → Option κ

inductive CallAction (κ ι ω : Type) where
  | begin (slot : Nat) (call : κ)
  | resume (slot : Nat) (input : ι)
  | external (event : ω)

namespace CallSystem

variable (S : CallSystem σ κ ι ω)

def step (s : Calls σ κ) : CallAction κ ι ω → Option (Calls σ κ)
  | .begin slot call =>
      if S.starts call ∧ (s.pending slot).isNone then
        some { s with pending := Function.update s.pending slot (some call) }
      else none
  | .resume slot input =>
      (s.pending slot).map fun call =>
        { shared := (S.resume input s.shared call).1
          pending := Function.update s.pending slot (S.resume input s.shared call).2 }
  | .external event => some { s with shared := S.external event s.shared }

/-- Everything a step can do. -/
theorem step_cases {s t : Calls σ κ} {a : CallAction κ ι ω} (h : S.step s a = some t) :
    (∃ slot call, a = .begin slot call ∧ S.starts call ∧ s.pending slot = none ∧
      t = { s with pending := Function.update s.pending slot (some call) }) ∨
    (∃ slot input call, a = .resume slot input ∧ s.pending slot = some call ∧
      t = { shared := (S.resume input s.shared call).1
            pending := Function.update s.pending slot (S.resume input s.shared call).2 }) ∨
    (∃ event, a = .external event ∧ t = { s with shared := S.external event s.shared }) := by
  cases a with
  | begin slot call =>
      simp only [step] at h
      split at h
      · rename_i hstart
        cases h
        exact .inl ⟨slot, call, rfl, hstart.1, Option.isNone_iff_eq_none.mp hstart.2, rfl⟩
      · cases h
  | resume slot input =>
      obtain ⟨call, hcall, rfl⟩ := Option.map_eq_some_iff.mp h
      exact .inr (.inl ⟨slot, input, call, rfl, hcall, rfl⟩)
  | external event =>
      cases h
      exact .inr (.inr ⟨event, rfl, rfl⟩)

end CallSystem

/-- Who is in flight after one slot has changed. -/
theorem pending_update {pending : Nat → Option κ} {slot other : Nat} {rest : Option κ} {call : κ}
    (h : Function.update pending slot rest other = some call) :
    other = slot ∧ rest = some call ∨ other ≠ slot ∧ pending other = some call := by
  by_cases hother : other = slot
  · subst hother
    rw [Function.update_self] at h
    exact .inl ⟨rfl, h⟩
  · rw [Function.update_of_ne hother] at h
    exact .inr ⟨hother, h⟩

end Lib
