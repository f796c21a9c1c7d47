import ChainSettle.Semantics.Events

/-!
`BackfillService.runBackfillJob`: the loop over a ledger range in windows of a
thousand ledgers and pages of a hundred events. One step of the model is one
iteration of the loop, or the update that marks the run as completed; what the
RPC, the handlers and the progress update do in it is its input.

The state also records which events were passed to the handlers and in which
windows an error was counted. No modelled function reads these two fields.
-/

namespace ChainSettle

open Lib Lib.Eff

def BATCH_SIZE : Nat := 1000

inductive BackfillStatus where
  | pending | running | completed | failed
deriving DecidableEq

structure BackfillError where
  ledger : Nat
  txHash : String
  eventName : String
  error : Exn
deriving DecidableEq

/-- The persisted progress of a run. -/
structure BackfillRun where
  status : BackfillStatus
  processedCount : Nat
  errorCount : Nat
  currentLedger : Nat
  errorSummary : List BackfillError
deriving DecidableEq

structure BackfillLoop where
  db : Db
  run : BackfillRun
  currentLedger : Nat
  processedCount : Nat
  errorCount : Nat
  errorSummary : List BackfillError
  passed : List RawEvent
  errorWindows : List (Nat × Nat)

/-- The inputs of one iteration. -/
structure BatchInput where
  /-- `getEvents` answers -/
  rpcOk : Bool
  /-- the handler executions of the batch, by position -/
  envs : Nat → Env
  /-- the update of the `backfill_runs` row goes through -/
  updateOk : Bool

def batchEnd (toLedger currentLedger : Nat) : Nat :=
  min (currentLedger + BATCH_SIZE - 1) toLedger

/-- `errorSummary.slice(-n)`. -/
def lastErrors (n : Nat) (errors : List BackfillError) : List BackfillError :=
  errors.drop (errors.length - n)

/-- The inner loop. `position` numbers the events of the batch. -/
def processBatch (envs : Nat → Env) (position : Nat) (st : BackfillLoop) :
    List RawEvent → BackfillLoop
  | [] => st
  | event :: rest =>
      let outcome := exec (processEventForBackfill (envs position) event) st.db
      let next := { st with db := outcome.2, passed := st.passed ++ [event] }
      processBatch envs (position + 1)
        (match outcome.1 with
          | .ok _ => { next with processedCount := st.processedCount + 1 }
          | .error error =>
              { next with
                errorCount := st.errorCount + 1
                errorSummary := st.errorSummary ++
                  [⟨event.ledger, event.txHash.getD "", extractEventName event, error⟩] })
        rest

/-- The events of a page that lie in the window. -/
def batchEvents (toLedger currentLedger : Nat) (events : List RawEvent) : List RawEvent :=
  events.filter fun e => currentLedger ≤ e.ledger ∧ e.ledger ≤ batchEnd toLedger currentLedger

/-- Where the loop goes on: behind the window, or at the last seen ledger when
the page was full and ended inside the window. -/
def nextLedger (toLedger currentLedger : Nat) (events : List RawEvent) : Nat :=
  match ((batchEvents toLedger currentLedger events).map RawEvent.ledger).max? with
  | none => batchEnd toLedger currentLedger + 1
  | some lastEventLedger =>
      if PAGE_LIMIT ≤ events.length ∧ lastEventLedger < batchEnd toLedger currentLedger then
        lastEventLedger
      else batchEnd toLedger currentLedger + 1

def BackfillLoop.noteWindow (before : BackfillLoop) (toLedger : Nat) (st : BackfillLoop) :
    BackfillLoop :=
  if st.errorCount = before.errorCount then st
  else { st with
    errorWindows := st.errorWindows ++
      [(before.currentLedger, batchEnd toLedger before.currentLedger)] }

/-- The body of the loop up to the progress update. The flag says whether the
update is reached: the branch for a rejected fetch skips it. -/
def runBatch (log : ContractLog) (toLedger : Nat) (st : BackfillLoop) (input : BatchInput) :
    BackfillLoop × Bool :=
  match fetchContractEvents log input.rpcOk st.currentLedger with
  | .error error =>
      (st.noteWindow toLedger
        { st with
          errorCount := st.errorCount + 1
          errorSummary := st.errorSummary ++ [⟨st.currentLedger, "", "rpc_fetch_error", error⟩]
          currentLedger := batchEnd toLedger st.currentLedger + 1 }, false)
  | .ok events =>
      let processed := processBatch input.envs 0 st
        (batchEvents toLedger st.currentLedger events)
      (st.noteWindow toLedger
        { processed with currentLedger := nextLedger toLedger st.currentLedger events }, true)

def BackfillLoop.persist (toLedger : Nat) (st : BackfillLoop) : BackfillLoop :=
  { st with
    run := ⟨.running, st.processedCount, st.errorCount, min st.currentLedger toLedger,
      lastErrors 500 st.errorSummary⟩ }

def BackfillLoop.complete (toLedger : Nat) (st : BackfillLoop) : BackfillLoop :=
  { st with
    run := ⟨.completed, st.processedCount, st.errorCount, toLedger,
      lastErrors 500 st.errorSummary⟩ }

/-- The `catch` of the job. Its error is the one of the rejected update. -/
def BackfillLoop.fail (error : Exn) (st : BackfillLoop) : BackfillLoop :=
  { st with
    run := { st.run with
      status := .failed
      processedCount := st.processedCount
      errorCount := st.errorCount
      errorSummary := lastErrors 499 st.errorSummary ++
        [⟨st.currentLedger, "", "fatal", error⟩] } }

inductive BackfillState where
  | looping (st : BackfillLoop)
  | completed (st : BackfillLoop)
  | failed (st : BackfillLoop)

/-- One iteration of the loop, or its end. -/
def backfillStep (log : ContractLog) (toLedger : Nat) :
    BackfillState → BatchInput → BackfillState
  | .looping st, input =>
      if st.currentLedger ≤ toLedger then
        match runBatch log toLedger st input with
        | (next, false) => .looping next
        | (next, true) =>
            if input.updateOk then .looping (next.persist toLedger)
            else .failed (next.fail (.unavailable .progressWrite))
      else if input.updateOk then .completed (st.complete toLedger)
      else .failed (st.fail (.unavailable .progressWrite))
  | ended, _ => ended

/-- The job after its row was set to `RUNNING`. -/
def jobStarted (db : Db) (fromLedger : Nat) : BackfillState :=
  .looping
    { db := db
      run := ⟨.running, 0, 0, fromLedger, []⟩
      currentLedger := fromLedger
      processedCount := 0
      errorCount := 0
      errorSummary := []
      passed := []
      errorWindows := [] }

def runBackfillJob (log : ContractLog) (db : Db) (fromLedger toLedger : Nat)
    (inputs : List BatchInput) : BackfillState :=
  inputs.foldl (backfillStep log toLedger) (jobStarted db fromLedger)

end ChainSettle
