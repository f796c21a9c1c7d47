import ChainSettle.Backfill.Iteration
import ChainSettle.Lifecycle.Handlers
import ChainSettle.Lib.Run

/-!
Is a completed backfill complete? An event is accounted for when it was passed
to the handlers or lies in a window in which the run counted an error. Behind
the loop's current ledger nothing changes any more, so the question is decided
iteration by iteration: what an iteration skips must be accounted for when it
ends.
-/

namespace ChainSettle

open Lib Lib.Eff

def BackfillLoop.Accounted (st : BackfillLoop) (event : RawEvent) : Prop :=
  event ∈ st.passed ∨
    ∃ window ∈ st.errorWindows, window.1 ≤ event.ledger ∧ event.ledger ≤ window.2

/-- Every event of the range is accounted for. -/
def BackfillComplete (log : ContractLog) (fromLedger toLedger : Nat) (st : BackfillLoop) : Prop :=
  ∀ event ∈ log.events, fromLedger ≤ event.ledger → event.ledger ≤ toLedger → st.Accounted event

/-- An iteration skips nothing new: what it skips was passed before, lies in a
window with a counted error, or a handler of this batch throws. -/
def SkipsAccounted (log : ContractLog) (toLedger : Nat) :
    BackfillState → BatchInput → Prop
  | .looping st, input =>
      st.currentLedger ≤ toLedger → ∀ event ∈ log.events,
        Skips log toLedger input st.currentLedger event →
          st.Accounted event ∨
            SomeHandlerFails input.envs 0 st.db (handedOver log toLedger st input)
  | _, _ => True

section Iterations

variable {log : ContractLog} {toLedger : Nat} {st : BackfillLoop} {input : BatchInput}
  {event : RawEvent}

/-- What is accounted for after an iteration. -/
theorem accounted_afterBatch_iff :
    (afterBatch log toLedger st input).Accounted event ↔
      st.Accounted event ∨ event ∈ handedOver log toLedger st input ∨
        (SomeHandlerFails input.envs 0 st.db (handedOver log toLedger st input) ∧
          InWindow toLedger st.currentLedger event) := by
  unfold BackfillLoop.Accounted
  rw [passed_afterBatch, List.mem_append]
  rcases errorWindows_afterBatch log toLedger st input with ⟨hfails, hwindows⟩ | ⟨hfine, hwindows⟩
  · rw [hwindows]
    simp only [hfails, true_and, List.mem_append, List.mem_singleton, or_and_right, exists_or,
      exists_eq_left, InWindow]
    grind
  · rw [hwindows]
    simp only [hfine, false_and, or_false]
    exact or_right_comm

/-- An iteration cannot account for an event behind its first ledger. -/
theorem accounted_afterBatch_of_lt (hlt : event.ledger < st.currentLedger) :
    (afterBatch log toLedger st input).Accounted event ↔ st.Accounted event := by
  rw [accounted_afterBatch_iff]
  constructor
  · rintro (hbefore | hnow | ⟨_, hwindow⟩)
    · exact hbefore
    · have hwindow := (mem_batchEvents.mp hnow).2
      have hstart := hwindow.1
      omega
    · have hstart := hwindow.1
      omega
  · exact .inl

theorem accounted_persist :
    (st.persist toLedger).Accounted event ↔ st.Accounted event := Iff.rfl

/-- A run that ends completed went on, or was at its end. -/
theorem completed_cons {inputs : List BatchInput} {final : BackfillLoop}
    (hrun : (input :: inputs).foldl (backfillStep log toLedger) (.looping st) =
      .completed final) :
    (st.currentLedger ≤ toLedger ∧
      inputs.foldl (backfillStep log toLedger)
        (.looping ((afterBatch log toLedger st input).persist toLedger)) = .completed final) ∨
    (toLedger < st.currentLedger ∧ final = st.complete toLedger) := by
  rw [List.foldl_cons] at hrun
  rcases Nat.lt_or_ge toLedger st.currentLedger with hout | hrange
  · have hnot : ¬ st.currentLedger ≤ toLedger := by omega
    simp only [backfillStep, hnot, ↓reduceIte] at hrun
    split at hrun
    · rw [List.foldl_fixed' fun _ => rfl] at hrun
      cases hrun
      exact .inr ⟨hout, rfl⟩
    · rw [List.foldl_fixed' fun _ => rfl] at hrun
      cases hrun
  · rw [backfillStep_looping log toLedger st input hrange] at hrun
    split at hrun
    · exact .inl ⟨hrange, hrun⟩
    · rw [List.foldl_fixed' fun _ => rfl] at hrun
      cases hrun

/-- Behind the loop nothing changes until the run is completed. -/
theorem accounted_frozen {inputs : List BatchInput} {final : BackfillLoop}
    (hrun : inputs.foldl (backfillStep log toLedger) (.looping st) = .completed final)
    (hlt : event.ledger < st.currentLedger) : final.Accounted event ↔ st.Accounted event := by
  induction inputs generalizing st with
  | nil => cases hrun
  | cons input rest ih =>
      rcases completed_cons hrun with ⟨hrange, hrest⟩ | ⟨_, rfl⟩
      · have hle := le_nextLedger (pageOf log input st.currentLedger) hrange
        have hbehind : event.ledger <
            ((afterBatch log toLedger st input).persist toLedger).currentLedger := by
          change event.ledger < (afterBatch log toLedger st input).currentLedger
          rw [currentLedger_afterBatch]
          omega
        rw [ih hrest hbehind, accounted_persist, accounted_afterBatch_of_lt hlt]
      · rfl

/-- The events an iteration puts behind the loop are accounted for exactly
when those it skips are. -/
theorem accounted_window_iff (hrange : st.currentLedger ≤ toLedger) :
    (∀ event ∈ log.events, st.currentLedger ≤ event.ledger →
      event.ledger < (afterBatch log toLedger st input).currentLedger →
        (afterBatch log toLedger st input).Accounted event) ↔
      SkipsAccounted log toLedger (.looping st) input := by
  unfold SkipsAccounted
  rw [currentLedger_afterBatch]
  constructor
  · intro h _ event hlog hskips
    obtain ⟨hlt, hmissing⟩ := (left_behind_iff hlog hskips.1.1).mpr hskips
    rcases accounted_afterBatch_iff.mp (h event hlog hskips.1.1 hlt) with
      hbefore | hnow | ⟨hfails, _⟩
    · exact .inl hbefore
    · exact absurd hnow hmissing
    · exact .inr hfails
  · intro h event hlog hstart hlt
    rw [accounted_afterBatch_iff]
    by_cases hnow : event ∈ handedOver log toLedger st input
    · exact .inr (.inl hnow)
    · have hskips := (left_behind_iff hlog hstart).mp ⟨hlt, hnow⟩
      rcases h hrange event hlog hskips with hbefore | hfails
      · exact .inl hbefore
      · exact .inr (.inr ⟨hfails, hskips.1⟩)

/-- A run that has left the loop takes no more iterations. -/
theorem along_of_ended {state : BackfillState} (hended : ∀ st, state ≠ .looping st)
    (inputs : List BatchInput) :
    Along (backfillStep log toLedger) (SkipsAccounted log toLedger) state inputs := by
  induction inputs with
  | nil => trivial
  | cons input rest ih =>
      cases state with
      | looping st => exact absurd rfl (hended st)
      | completed st => exact ⟨trivial, ih⟩
      | failed st => exact ⟨trivial, ih⟩

theorem backfillStep_ends (hout : toLedger < st.currentLedger) (next : BackfillLoop) :
    backfillStep log toLedger (.looping st) input ≠ .looping next := by
  have hnot : ¬ st.currentLedger ≤ toLedger := by omega
  simp only [backfillStep, hnot, ↓reduceIte]
  split <;> rintro ⟨⟩

/-- From any state of the loop: what is still ahead will be accounted for
exactly when no later iteration skips anything new. -/
theorem ahead_accounted_iff {inputs : List BatchInput} {final : BackfillLoop}
    (hrun : inputs.foldl (backfillStep log toLedger) (.looping st) = .completed final) :
    (∀ event ∈ log.events, st.currentLedger ≤ event.ledger → event.ledger ≤ toLedger →
      final.Accounted event) ↔
      Along (backfillStep log toLedger) (SkipsAccounted log toLedger) (.looping st) inputs := by
  induction inputs generalizing st with
  | nil => cases hrun
  | cons input rest ih =>
      rcases completed_cons hrun with ⟨hrange, hrest⟩ | ⟨hout, rfl⟩
      · have hlater := ih hrest
        have hnext : backfillStep log toLedger (.looping st) input =
            .looping ((afterBatch log toLedger st input).persist toLedger) := by
          rw [backfillStep_looping log toLedger st input hrange]
          split
          · rfl
          · rename_i hfailed
            rw [List.foldl_cons, backfillStep_looping log toLedger st input hrange,
              if_neg hfailed, List.foldl_fixed' fun _ => rfl] at hrun
            cases hrun
        have hledger : ((afterBatch log toLedger st input).persist toLedger).currentLedger =
            (afterBatch log toLedger st input).currentLedger := rfl
        have hbound := nextLedger_le toLedger st.currentLedger
          (pageOf log input st.currentLedger)
        rw [← currentLedger_afterBatch log toLedger st input] at hbound
        have hwindowEnd := batchEnd_le toLedger st.currentLedger
        have hadvance := le_nextLedger (pageOf log input st.currentLedger) hrange
        rw [← currentLedger_afterBatch log toLedger st input] at hadvance
        unfold Along
        rw [hnext, ← hlater, ← accounted_window_iff hrange]
        constructor
        · intro h
          refine ⟨?_, ?_⟩
          · intro event hlog hstart hlt
            have hfinal := h event hlog hstart (by omega)
            exact (accounted_frozen hrest (hledger ▸ hlt)).mp hfinal
          · intro event hlog hstart hend
            exact h event hlog (by omega) hend
        · rintro ⟨hwindow, hahead⟩ event hlog hstart hend
          rcases Nat.lt_or_ge event.ledger (afterBatch log toLedger st input).currentLedger
            with hlt | hge
          · exact (accounted_frozen hrest (hledger ▸ hlt)).mpr (hwindow event hlog hstart hlt)
          · exact hahead event hlog hge hend
      · refine iff_of_true ?_ ?_
        · intro event _ hstart hend
          omega
        · refine ⟨fun hrange => ?_, along_of_ended (backfillStep_ends hout) rest⟩
          omega

end Iterations

/-- A completed run is complete exactly when none of its iterations skips an
event that is not accounted for. -/
theorem backfill_complete_iff (log : ContractLog) (db : Db) (fromLedger toLedger : Nat)
    (inputs : List BatchInput) (final : BackfillLoop)
    (hcompleted : runBackfillJob log db fromLedger toLedger inputs = .completed final) :
    BackfillComplete log fromLedger toLedger final ↔
      Along (backfillStep log toLedger) (SkipsAccounted log toLedger)
        (jobStarted db fromLedger) inputs :=
  ahead_accounted_iff hcompleted

/-- A chain with one contract event, in ledger 10. -/
def quietLog : ContractLog := ⟨[proofEvent], ordered_proofEvent⟩

def calmBatch : BatchInput := ⟨true, Env.calm, true⟩

/-- With a working RPC the event is passed. -/
theorem quiet_backfill_complete :
    ∃ final, runBackfillJob quietLog (Db.demo .pending) 5 20 [calmBatch, calmBatch] =
        .completed final ∧ BackfillComplete quietLog 5 20 final := by
  refine ⟨_, rfl, (backfill_complete_iff quietLog (Db.demo .pending) 5 20
    [calmBatch, calmBatch] _ rfl).mpr ⟨?_, ?_, trivial⟩⟩
  · intro _ event hevent hskips
    obtain rfl : event = proofEvent := List.mem_singleton.mp hevent
    rcases hskips.2 with hfailed | ⟨_, hoff, _⟩
    · cases hfailed
    · exact absurd (List.mem_singleton.mpr rfl) hoff
  · intro hrange
    exact absurd hrange (by decide)

/-- A single failed `getEvents` call: the run reports `COMPLETED` without an
error and has never seen the event. -/
theorem rpc_failure_loses_window :
    ∃ final, runBackfillJob quietLog (Db.demo .pending) 5 20
        [{ calmBatch with rpcOk := false }, calmBatch] = .completed final ∧
      final.run.errorCount = 0 ∧ ¬ BackfillComplete quietLog 5 20 final := by
  refine ⟨_, rfl, rfl, ?_⟩
  intro hcomplete
  have haccounted := hcomplete proofEvent (List.mem_singleton.mpr rfl) (by decide) (by decide)
  rcases haccounted with hpassed | ⟨window, hwindow, _⟩
  · cases hpassed
  · cases hwindow

end ChainSettle
