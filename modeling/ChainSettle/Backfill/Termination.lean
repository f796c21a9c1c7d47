import ChainSettle.Backfill.Iteration
import ChainSettle.Lifecycle.Handlers

/-!
Does the backfill loop end? The loop variable never decreases. It stays where
it is when a full page shows, inside the window, only events of the very
ledger the page started at: the loop then re-scans that ledger and gets the
same page again.
-/

namespace ChainSettle

open Lib Lib.Eff

section Loop

variable (log : ContractLog) (db : Db) (fromLedger toLedger : Nat) (inputs : Nat → BatchInput)

/-- The job after `n` steps of an unbounded supply of inputs. -/
def stateAt : Nat → BackfillState
  | 0 => jobStarted db fromLedger
  | n + 1 => backfillStep log toLedger (stateAt n) (inputs n)

/-- The loop has been left. -/
def BackfillState.Ended (toLedger : Nat) : BackfillState → Prop
  | .looping st => toLedger < st.currentLedger
  | .completed _ | .failed _ => True

/-- `currentLedger` grows from each iteration to the next. -/
def StrictlyAdvances : Prop :=
  ∀ n st st', stateAt log db fromLedger toLedger inputs n = .looping st →
    stateAt log db fromLedger toLedger inputs (n + 1) = .looping st' →
    st.currentLedger < st'.currentLedger

def LoopEnds : Prop :=
  ∃ n, (stateAt log db fromLedger toLedger inputs n).Ended toLedger

/-- A full page from this ledger shows an event of it and, inside the window,
nothing else, although the window goes on. -/
def Stuck (currentLedger : Nat) : Prop :=
  PAGE_LIMIT ≤ (log.getEvents currentLedger).length ∧
    (∃ event ∈ log.getEvents currentLedger, event.ledger = currentLedger) ∧
    (∀ event ∈ log.getEvents currentLedger,
      event.ledger ≤ batchEnd toLedger currentLedger → event.ledger = currentLedger) ∧
    currentLedger < batchEnd toLedger currentLedger

end Loop

section Progress

variable {log : ContractLog} {db : Db} {fromLedger toLedger : Nat} {inputs : Nat → BatchInput}
  {currentLedger : Nat}

/-- The loop variable stands still exactly on a stuck page. -/
theorem nextLedger_eq_self_iff (hrange : currentLedger ≤ toLedger) (input : BatchInput) :
    nextLedger toLedger currentLedger (pageOf log input currentLedger) = currentLedger ↔
      input.rpcOk = true ∧ Stuck log toLedger currentLedger := by
  have hend := le_batchEnd hrange
  have hcases := nextLedger_cases toLedger currentLedger (pageOf log input currentLedger)
  constructor
  · intro hsame
    rcases hcases with ⟨hfull, last, hlast, hwindow, hlargest, hlt, hnext⟩ | ⟨hnext, _⟩
    · have hrpc : input.rpcOk = true := by
        by_contra hfailed
        simp [pageOf, hfailed] at hlast
      have hpage : pageOf log input currentLedger = log.getEvents currentLedger := by
        simp [pageOf, hrpc]
      rw [hpage] at hfull hlast hlargest
      have hledger : last.ledger = currentLedger := by omega
      refine ⟨hrpc, hfull, ⟨last, hlast, hledger⟩, ?_, by omega⟩
      intro event hevent hwindowEnd
      have hstart := (mem_log_of_mem_page hevent).2
      have hle := hlargest event hevent hwindowEnd hstart
      omega
    · omega
  · rintro ⟨hrpc, hfull, ⟨event, hevent, hledger⟩, hall, hlt⟩
    have hpage : pageOf log input currentLedger = log.getEvents currentLedger := by
      simp [pageOf, hrpc]
    rw [hpage] at hcases ⊢
    rcases hcases with ⟨_, last, hlast, hwindow, _, _, hnext⟩ | ⟨_, hshort | hnone | hreached⟩
    · rw [hnext]
      exact hall last hlast hwindow.2
    · omega
    · exact absurd ⟨by omega, by omega⟩ (hnone event hevent)
    · obtain ⟨last, hlast, hwindow, hlastEnd⟩ := hreached
      have hledger' := hall last hlast hwindow.2
      omega

/-- What a step that stays in the loop does to the loop variable. -/
theorem stateAt_succ {n : Nat} {st st' : BackfillLoop}
    (h : stateAt log db fromLedger toLedger inputs n = .looping st)
    (h' : stateAt log db fromLedger toLedger inputs (n + 1) = .looping st') :
    st.currentLedger ≤ toLedger ∧ (inputs n).updateOk = true ∧
      st'.currentLedger =
        nextLedger toLedger st.currentLedger (pageOf log (inputs n) st.currentLedger) := by
  simp only [stateAt, h] at h'
  rcases Nat.lt_or_ge toLedger st.currentLedger with hout | hrange
  · have hnot : ¬ st.currentLedger ≤ toLedger := by omega
    simp only [backfillStep, hnot, ↓reduceIte] at h'
    split at h' <;> cases h'
  · rw [backfillStep_looping log toLedger st (inputs n) hrange] at h'
    split at h'
    · rename_i hupdate
      cases h'
      exact ⟨hrange, hupdate, currentLedger_afterBatch log toLedger st (inputs n)⟩
    · cases h'

theorem strictlyAdvances_iff :
    StrictlyAdvances log db fromLedger toLedger inputs ↔
      ∀ n st, stateAt log db fromLedger toLedger inputs n = .looping st →
        st.currentLedger ≤ toLedger → (inputs n).rpcOk = true → (inputs n).updateOk = true →
          ¬ Stuck log toLedger st.currentLedger := by
  constructor
  · intro h n st hst hrange hrpc hupdate hstuck
    have hnext : stateAt log db fromLedger toLedger inputs (n + 1) =
        .looping ((afterBatch log toLedger st (inputs n)).persist toLedger) := by
      simp only [stateAt, hst]
      rw [backfillStep_looping log toLedger st (inputs n) hrange, if_pos hupdate]
    have hlt := h n st _ hst hnext
    have hledger := (stateAt_succ hst hnext).2.2
    have hsame := (nextLedger_eq_self_iff hrange (inputs n)).mpr ⟨hrpc, hstuck⟩
    omega
  · intro h n st st' hst hst'
    obtain ⟨hrange, hupdate, hledger⟩ := stateAt_succ hst hst'
    have hle := le_nextLedger (pageOf log (inputs n) st.currentLedger) hrange
    have hne : nextLedger toLedger st.currentLedger (pageOf log (inputs n) st.currentLedger) ≠
        st.currentLedger := by
      intro hsame
      obtain ⟨hrpc, hstuck⟩ := (nextLedger_eq_self_iff hrange (inputs n)).mp hsame
      exact h n st hst hrange hrpc hupdate hstuck
    omega

/-- While the loop goes on, `n` iterations take it at least `n` ledgers on. -/
theorem advanced_of_strictlyAdvances (h : StrictlyAdvances log db fromLedger toLedger inputs)
    {n : Nat} {st : BackfillLoop}
    (hst : stateAt log db fromLedger toLedger inputs n = .looping st) :
    fromLedger + n ≤ st.currentLedger := by
  induction n generalizing st with
  | zero =>
      cases hst
      exact le_rfl
  | succ n ih =>
      cases hbefore : stateAt log db fromLedger toLedger inputs n with
      | looping before =>
          have hle := ih hbefore
          have hlt := h n before st hbefore hst
          omega
      | completed before =>
          simp only [stateAt, hbefore] at hst
          cases hst
      | failed before =>
          simp only [stateAt, hbefore] at hst
          cases hst

/-- A loop that always advances ends. -/
theorem loopEnds_of_strictlyAdvances (h : StrictlyAdvances log db fromLedger toLedger inputs) :
    LoopEnds log db fromLedger toLedger inputs := by
  refine ⟨toLedger + 1, ?_⟩
  cases hst : stateAt log db fromLedger toLedger inputs (toLedger + 1) with
  | looping st =>
      have hle := advanced_of_strictlyAdvances h hst
      change toLedger < st.currentLedger
      omega
  | completed st => trivial
  | failed st => trivial

end Progress

/-- The loop ends and always advances exactly when no iteration whose fetch
and progress update go through starts at a stuck ledger. -/
theorem backfill_terminates_iff (log : ContractLog) (db : Db) (fromLedger toLedger : Nat)
    (inputs : Nat → BatchInput) :
    (LoopEnds log db fromLedger toLedger inputs ∧
        StrictlyAdvances log db fromLedger toLedger inputs) ↔
      ∀ n st, stateAt log db fromLedger toLedger inputs n = .looping st →
        st.currentLedger ≤ toLedger → (inputs n).rpcOk = true → (inputs n).updateOk = true →
          ¬ Stuck log toLedger st.currentLedger := by
  rw [← strictlyAdvances_iff]
  exact ⟨And.right, fun h => ⟨loopEnds_of_strictlyAdvances h, h⟩⟩

/-- A hundred events in ledger 10. -/
def denseLog : ContractLog where
  events := (List.range 100).map fun i => { proofEvent with id := s!"10-{i}" }
  ordered := by
    unfold Ordered
    rw [List.pairwise_map]
    exact List.pairwise_of_forall fun _ _ => le_rfl

private theorem denseLog_getEvents : denseLog.getEvents 10 = denseLog.events := by
  have hall : ∀ event ∈ denseLog.events, decide (10 ≤ event.ledger) = true := by
    intro event hevent
    obtain ⟨i, _, rfl⟩ := List.mem_map.mp hevent
    rfl
  unfold ContractLog.getEvents page
  rw [List.filter_eq_self.mpr hall]
  exact List.take_of_length_le (by simp [denseLog, PAGE_LIMIT])

theorem denseLog_stuck : Stuck denseLog 20 10 := by
  unfold Stuck
  rw [denseLog_getEvents]
  refine ⟨by simp [denseLog, PAGE_LIMIT], ?_, ?_, by decide⟩
  · exact ⟨_, List.mem_map_of_mem (List.mem_range.mpr (by decide : 0 < 100)), rfl⟩
  · intro event hevent _
    obtain ⟨i, _, rfl⟩ := List.mem_map.mp hevent
    rfl

/-- A backfill of ledgers 10 to 20 re-scans ledger 10 for ever. -/
theorem dense_ledger_never_ends :
    ¬ LoopEnds denseLog (Db.demo .pending) 10 20 (fun _ => ⟨true, Env.calm, true⟩) ∧
      ¬ StrictlyAdvances denseLog (Db.demo .pending) 10 20 (fun _ => ⟨true, Env.calm, true⟩) := by
  have hstands : ∀ n, ∃ st, stateAt denseLog (Db.demo .pending) 10 20
      (fun _ => ⟨true, Env.calm, true⟩) n = .looping st ∧ st.currentLedger = 10 := by
    intro n
    induction n with
    | zero => exact ⟨_, rfl, rfl⟩
    | succ n ih =>
        obtain ⟨st, hst, hledger⟩ := ih
        have hnext : stateAt denseLog (Db.demo .pending) 10 20
            (fun _ => ⟨true, Env.calm, true⟩) (n + 1) =
            .looping ((afterBatch denseLog 20 st ⟨true, Env.calm, true⟩).persist 20) := by
          simp only [stateAt, hst]
          rw [backfillStep_looping denseLog 20 st _ (by omega), if_pos rfl]
        refine ⟨_, hnext, ?_⟩
        change (afterBatch denseLog 20 st ⟨true, Env.calm, true⟩).currentLedger = 10
        rw [currentLedger_afterBatch, hledger]
        exact (nextLedger_eq_self_iff (by decide) _).mpr ⟨rfl, denseLog_stuck⟩
  constructor
  · rintro ⟨n, hended⟩
    obtain ⟨st, hst, hledger⟩ := hstands n
    rw [hst] at hended
    change 20 < st.currentLedger at hended
    omega
  · intro hadvances
    obtain ⟨st, hst, hledger⟩ := hstands 0
    obtain ⟨st', hst', hledger'⟩ := hstands 1
    have hlt := hadvances 0 st st' hst hst'
    omega

end ChainSettle
