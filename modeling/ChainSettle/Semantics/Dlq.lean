import ChainSettle.Semantics.Events

/-!
The dead-letter queue of `EventsService`: the stream callback that fills it,
the retry job that works on it every minute, and the administrator's manual
retry. The cursor part of the callback is in the poller's model.
-/

namespace ChainSettle

open Lib

def MAX_ATTEMPTS : Nat := 5

/-- The unique key under which a failure of the event is stored. -/
def RawEvent.dlqKey (event : RawEvent) : EventKey :=
  (event.txHash.getD "", extractEventName event)

def FailedEvent.create (now : Nat) (event : RawEvent) (error : Exn) : FailedEvent where
  eventName := extractEventName event
  ledger := event.ledger
  txHash := event.txHash.getD ""
  payload := payloadOrEmpty (extractPayload event)
  error := error
  attemptCount := 1
  lastAttemptAt := now
  resolvedAt := none

/-- The update branch of the upsert: `payload` and `resolvedAt` stay. -/
def FailedEvent.failAgain (now : Nat) (error : Exn) (row : FailedEvent) : FailedEvent :=
  { row with attemptCount := row.attemptCount + 1, lastAttemptAt := now, error := error }

@[simp] theorem FailedEvent.failAgain_key (now : Nat) (error : Exn) (row : FailedEvent) :
    (row.failAgain now error).key = row.key := rfl

def Db.recordFailure (db : Db) (now : Nat) (event : RawEvent) (error : Exn) : Db :=
  { db with
    failedEvents := db.failedEvents.upsert (.create now event error)
      (FailedEvent.failAgain now error) (FailedEvent.failAgain_key now error) }

/-- A rejected upsert is logged and swallowed: the event is then in no queue. -/
def saveToDlq (env : Env) (event : RawEvent) (error : Exn) : Tx Unit :=
  if env.fails .failedEventUpsert then pure ()
  else modify fun db => db.recordFailure env.now event error

/-- The callback of `startStreamSubscription` up to the cursor. -/
def streamCallback (env : Env) (event : RawEvent) : Tx Unit :=
  tryCatch (processEvent env event) fun error => saveToDlq env event error

def FailedEvent.resolve (now : Nat) (row : FailedEvent) : FailedEvent :=
  { row with resolvedAt := some now }

@[simp] theorem FailedEvent.resolve_key (now : Nat) (row : FailedEvent) :
    (row.resolve now).key = row.key := rfl

def FailedEvent.attempted (attemptCount now : Nat) (error : Exn) (row : FailedEvent) :
    FailedEvent :=
  { row with attemptCount := attemptCount, lastAttemptAt := now, error := error }

@[simp] theorem FailedEvent.attempted_key (attemptCount now : Nat) (error : Exn)
    (row : FailedEvent) : (row.attempted attemptCount now error).key = row.key := rfl

def Db.resolveFailure (db : Db) (key : EventKey) (now : Nat) : Db :=
  { db with
    failedEvents := db.failedEvents.modify key (FailedEvent.resolve now)
      (FailedEvent.resolve_key now) }

def Db.recordAttempt (db : Db) (key : EventKey) (attemptCount now : Nat) (error : Exn) : Db :=
  { db with
    failedEvents := db.failedEvents.modify key (FailedEvent.attempted attemptCount now error)
      (FailedEvent.attempted_key attemptCount now error) }

/-- The administrators are read first; the notifications themselves never fail. -/
def alertAdmins (env : Env) (row : FailedEvent) (error : Exn) : Tx Unit := do
  prismaCall env .adminRead
  modify fun db => { db with adminAlerts := db.adminAlerts ++ [⟨row.key, error⟩] }

/-- Execute the stored event and mark its row resolved. -/
def executeAndResolve (env : Env) (row : FailedEvent) : Tx Unit := do
  executeHandler env row.eventName row.payload (some row.txHash)
  prismaCall env .resolveWrite
  modify fun db => db.resolveFailure row.key env.now

/-- The body of the retry loop. `row` is the job's snapshot of the row. -/
def retryFailedEvent (env : Env) (row : FailedEvent) : Tx Unit :=
  tryCatch (executeAndResolve env row) fun error => do
    let newCount := row.attemptCount + 1
    prismaCall env .attemptWrite
    modify fun db => db.recordAttempt row.key newCount env.now error
    if newCount ≥ MAX_ATTEMPTS then alertAdmins env row error

/-- Unresolved, with attempts left, and its back-off window has elapsed. -/
def FailedEvent.due (now : Nat) (row : FailedEvent) : Bool :=
  row.resolvedAt.isNone && decide (row.attemptCount < MAX_ATTEMPTS) &&
    decide (row.lastAttemptAt + 2 ^ (row.attemptCount - 1) * 60 * 1000 ≤ now)

/-- The loop ends at the first exception that escapes its body. -/
def retryRows (envs : EventKey → Env) : List FailedEvent → Tx Unit
  | [] => pure ()
  | row :: rest => do
      retryFailedEvent (envs row.key) row
      retryRows envs rest

/-- The job reads the queue once. `job` is the environment of that read and
`envs` the one of each row's attempt. -/
def retryFailedEvents (isLeader : Bool) (job : Env) (envs : EventKey → Env) : Tx Unit := do
  if isLeader then
    prismaCall job .failedEventRead
    retryRows envs ((← get).failedEvents.rows.filter (FailedEvent.due job.now))

def retryFailedEventById (env : Env) (id : EventKey) : Tx Unit := do
  prismaCall env .failedEventRead
  match (← get).failedEvents.find? id with
  | none => throw .recordNotFound
  | some row => executeAndResolve env row

end ChainSettle
