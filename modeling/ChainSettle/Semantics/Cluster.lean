import ChainSettle.Semantics.Dlq
import Mathlib.Logic.Function.Basic

/-!
The event poller as a system of replicas. A replica is one process from its
start to its crash: a restarted process is a new replica, since it draws a new
lock token. The replicas share the Redis lock and the database; everything
else is in the memory of one process.

An operation of `EventsService` is cut at its awaits. A `Task` is a call that
waits for Redis or the database; the server executes the request in one step
(`redis`, `database`) and the call goes on in another (`resume`), with the
reply or with an error, which can also mean that the reply was lost. Between
two awaits a process is not interrupted; the await of `stopStreamSubscription`,
which waits for nothing, is not a cut. A `Stream` is the loop of one
`subscribeToContractEvents` call, with the callback it is in.
-/

namespace ChainSettle

open Lib Lib.Eff

structure Replica where
  booted : Bool
  crashed : Bool
  /-- `onModuleDestroy` has begun -/
  destroyed : Bool
  isLeader : Bool
  lastProcessedLedger : Nat
  /-- the stream that `unsubscribeFn` would stop -/
  subscription : Option Nat
deriving DecidableEq

def Replica.fresh : Replica := ⟨false, false, false, false, 0, none⟩

/-- The data of one `rewindCursor` call. -/
structure RewindCall where
  toLedger : Nat
  chainTip : Nat
  oldestAvailable : Nat
  acquiredHere : Bool
  previousLedger : Nat
deriving DecidableEq

/-- What a call waits for. A reply that Redis has given is kept until the call
goes on; `executed` says that the request has been carried out. -/
inductive Task where
  | renew (reply : Option Bool)
  | acquire (reply : Option Bool)
  | rewindAcquire (call : RewindCall) (reply : Option Bool)
  | rewindRead (call : RewindCall)
  | rewindWrite (call : RewindCall) (executed : Bool)
  | rewindAudit (call : RewindCall)
  | rewindRelease (call : RewindCall) (succeeded executed : Bool)
  | destroyRelease (executed : Bool)
deriving DecidableEq

/-- The awaits of the stream callback. -/
inductive Callback where
  | handling
  | savingDlq (error : Exn)
  | writing (ledger : Nat)
  | written
deriving DecidableEq

/-- A polling loop: its local cursor and the rest of its page. While a callback
runs, its event is the head of the page. -/
structure Stream (ι : Type) where
  owner : ι
  currentLedger : Nat
  page : List RawEvent
  callback : Option Callback

structure Cluster (ι : Type) where
  db : Db
  /-- the row `main` of `event_cursor` -/
  cursor : Option Nat
  lock : Option ι
  replicas : ι → Replica
  tasks : Nat → Option (ι × Task)
  nextTask : Nat
  streams : Nat → Option (Stream ι)
  nextStream : Nat
  /-- events whose handlers returned normally -/
  handled : List RawEvent
  /-- `rewindCursor` calls that returned normally -/
  rewound : List RewindCall

/-- How `onModuleInit` finds the cursor. -/
inductive BootRead where
  /-- the row exists -/
  | resumed
  /-- first boot: the cursor is seeded behind the chain tip -/
  | seeded (latestLedger : Nat)
  /-- the database or the seeding failed -/
  | degraded (latestLedger : Option Nat)
deriving DecidableEq

inductive StreamInput where
  | fetch (rpcOk : Bool) (tip : Nat)
  | deliver
  | handle (env : Env)
  | saveDlq (env : Env)
  | cursorWrite
  | finish

inductive Action (ι : Type) where
  | boot (r : ι) (read : BootRead)
  | crash (r : ι)
  | expire
  | tick (r : ι)
  | rewind (r : ι) (toLedger chainTip oldestAvailable : Nat)
  | destroy (r : ι)
  | redis (id : Nat)
  | database (id : Nat)
  | resume (id : Nat) (ok : Bool)
  | stream (sid : Nat) (input : StreamInput)

namespace Cluster

variable {ι : Type} [DecidableEq ι]

def alive (c : Cluster ι) (r : ι) : Bool :=
  (c.replicas r).booted && !(c.replicas r).crashed

def setReplica (c : Cluster ι) (r : ι) (f : Replica → Replica) : Cluster ι :=
  { c with replicas := Function.update c.replicas r (f (c.replicas r)) }

def setTask (c : Cluster ι) (id : Nat) (r : ι) (task : Task) : Cluster ι :=
  { c with tasks := Function.update c.tasks id (some (r, task)) }

def endTask (c : Cluster ι) (id : Nat) : Cluster ι :=
  { c with tasks := Function.update c.tasks id none }

def newTask (c : Cluster ι) (r : ι) (task : Task) : Cluster ι :=
  { c with
    tasks := Function.update c.tasks c.nextTask (some (r, task))
    nextTask := c.nextTask + 1 }

def setStream (c : Cluster ι) (sid : Nat) (s : Stream ι) : Cluster ι :=
  { c with streams := Function.update c.streams sid (some s) }

def setLeader (c : Cluster ι) (r : ι) (isLeader : Bool) : Cluster ι :=
  c.setReplica r fun replica => { replica with isLeader := isLeader }

def setLast (c : Cluster ι) (r : ι) (ledger : Nat) : Cluster ι :=
  c.setReplica r fun replica => { replica with lastProcessedLedger := ledger }

/-- `SET NX`. -/
def acquireLock (c : Cluster ι) (r : ι) : Cluster ι :=
  if c.lock = none then { c with lock := some r } else c

/-- Deletes the lock if the caller still owns it. -/
def releaseLock (c : Cluster ι) (r : ι) : Cluster ι :=
  if c.lock = some r then { c with lock := none } else c

def stopStreamSubscription (c : Cluster ι) (r : ι) : Cluster ι :=
  c.setReplica r fun replica => { replica with subscription := none }

/-- The old subscription is stopped by replacing the handle. -/
def startStreamSubscription (c : Cluster ι) (r : ι) : Cluster ι :=
  let started := c.setReplica r fun replica =>
    { replica with subscription := some c.nextStream }
  { started with
    streams := Function.update c.streams c.nextStream
      (some ⟨r, (c.replicas r).lastProcessedLedger, [], none⟩)
    nextStream := c.nextStream + 1 }

/-- The part of `onModuleInit` before the first `tryBecomeLeader`. -/
def boot (c : Cluster ι) (r : ι) : BootRead → Option (Cluster ι)
  | .resumed => do
      let ledger ← c.cursor
      return c.setReplica r fun _ =>
        { Replica.fresh with booted := true, lastProcessedLedger := ledger }
  | .seeded latestLedger =>
      if c.cursor = none then
        let seedLedger := max 1 (latestLedger - 10)
        let seeded := c.setReplica r fun _ =>
          { Replica.fresh with booted := true, lastProcessedLedger := seedLedger }
        some { seeded with cursor := some seedLedger }
      else none
  | .degraded latestLedger =>
      let ledger := latestLedger.elim 1 fun latest => max 1 (latest - 10)
      some (c.setReplica r fun _ =>
        { Replica.fresh with booted := true, lastProcessedLedger := ledger })

def crash (c : Cluster ι) (r : ι) : Cluster ι :=
  let stopped := c.setReplica r fun replica =>
    { replica with crashed := true, isLeader := false, subscription := none }
  { stopped with
    tasks := fun id => (c.tasks id).filter fun task => task.1 ≠ r }

/-- `tryBecomeLeader` up to its await. -/
def tick (c : Cluster ι) (r : ι) : Cluster ι :=
  c.newTask r (if (c.replicas r).isLeader then .renew none else .acquire none)

end Cluster

/-- Why `rewindCursor` refuses a ledger, if it does. -/
def rewindRefusal (toLedger chainTip oldestAvailable : Nat) : Option String :=
  if toLedger > chainTip then
    some (s!"toLedger ({toLedger}) is ahead of the current chain tip ({chainTip}). " ++
      s!"Choose a ledger ≤ {chainTip}.")
  else if toLedger < oldestAvailable then
    some (s!"toLedger ({toLedger}) is older than the earliest ledger available on the " ++
      s!"Soroban RPC node ({oldestAvailable}). The node cannot serve events that " ++
      s!"far back. Choose a ledger ≥ {oldestAvailable}.")
  else none

namespace Cluster

variable {ι : Type} [DecidableEq ι]

/-- `rewindCursor` from its look at `isLeader` up to the next await. -/
def rewind (c : Cluster ι) (r : ι) (call : RewindCall) : Cluster ι :=
  c.newTask r (if (c.replicas r).isLeader then .rewindRead call else .rewindAcquire call none)

/-- `onModuleDestroy`: the stream is stopped before anything is awaited. -/
def destroy (c : Cluster ι) (r : ι) : Cluster ι :=
  let stopped := c.setReplica r fun replica =>
    { replica with destroyed := true, subscription := none }
  if (c.replicas r).isLeader then stopped.newTask r (.destroyRelease false) else stopped

/-- Redis executes the request of a task. -/
def redis (c : Cluster ι) (id : Nat) : Option (Cluster ι) :=
  match c.tasks id with
  | some (r, .renew none) => some (c.setTask id r (.renew (some (c.lock = some r))))
  | some (r, .acquire none) =>
      some ((c.acquireLock r).setTask id r (.acquire (some (c.lock = none))))
  | some (r, .rewindAcquire call none) =>
      some ((c.acquireLock r).setTask id r (.rewindAcquire call (some (c.lock = none))))
  | some (r, .rewindRelease call succeeded false) =>
      some ((c.releaseLock r).setTask id r (.rewindRelease call succeeded true))
  | some (r, .destroyRelease false) =>
      some ((c.releaseLock r).setTask id r (.destroyRelease true))
  | _ => none

/-- The database executes the upsert of a rewind. -/
def database (c : Cluster ι) (id : Nat) : Option (Cluster ι) :=
  match c.tasks id with
  | some (r, .rewindWrite call false) =>
      some ({ c with cursor := some call.toLedger }.setTask id r (.rewindWrite call true))
  | _ => none

def endRewind (c : Cluster ι) (id : Nat) (call : RewindCall) (succeeded : Bool) : Cluster ι :=
  let ended := c.endTask id
  if succeeded then { ended with rewound := c.rewound ++ [call] } else ended

/-- The `finally` of `rewindCursor`. -/
def finishRewind (c : Cluster ι) (id : Nat) (r : ι) (call : RewindCall) (succeeded : Bool) :
    Cluster ι :=
  if call.acquiredHere then c.setTask id r (.rewindRelease call succeeded false)
  else c.endRewind id call succeeded

/-- A task goes on, with its reply (`ok`) or with an error. -/
def resume (c : Cluster ι) (id : Nat) (ok : Bool) : Option (Cluster ι) :=
  match c.tasks id with
  | none => none
  | some (r, task) =>
      match task, ok with
      | .renew (some renewed), true =>
          if renewed then some (c.endTask id)
          else some (((c.stopStreamSubscription r).setLeader r false).endTask id)
      | .renew _, false => some (c.endTask id)
      | .acquire (some acquired), true =>
          if acquired then some (((c.setLeader r true).startStreamSubscription r).endTask id)
          else some (c.endTask id)
      | .acquire _, false => some (c.endTask id)
      | .rewindAcquire call (some acquired), true =>
          -- a refused call ends with a `ConflictException`
          if acquired then
            some ((c.setLeader r true).setTask id r
              (.rewindRead { call with acquiredHere := true }))
          else some (c.endTask id)
      | .rewindAcquire _ _, false => some (c.endTask id)
      | .rewindRead call, true =>
          let previousLedger := c.cursor.getD (c.replicas r).lastProcessedLedger
          some (c.setTask id r (.rewindWrite { call with previousLedger := previousLedger } false))
      | .rewindRead call, false => some (c.finishRewind id r call false)
      | .rewindWrite call true, true =>
          some (((c.setLast r call.toLedger).startStreamSubscription r).setTask id r
            (.rewindAudit call))
      | .rewindWrite call _, false => some (c.finishRewind id r call false)
      | .rewindAudit call, succeeded => some (c.finishRewind id r call succeeded)
      | .rewindRelease call succeeded true, true =>
          some ((c.setLeader r false).endRewind id call succeeded)
      -- an error in the `finally` replaces the result of the call
      | .rewindRelease _ _ _, false => some (c.endTask id)
      | .destroyRelease true, true => some ((c.setLeader r false).endTask id)
      | .destroyRelease _, false => some (c.endTask id)
      | _, _ => none

/-- The rest of the callback after the event was handled or stored, up to the
await of the cursor update. -/
def advance (c : Cluster ι) (sid : Nat) (s : Stream ι) (event : RawEvent) : Cluster ι :=
  let ledger := max (c.replicas s.owner).lastProcessedLedger (event.ledger + 1)
  (c.setLast s.owner ledger).setStream sid { s with callback := some (.writing ledger) }

/-- One step of a polling loop. The cursor is updated, not upserted: without a
row the update is rejected, and a rejected update is only logged. -/
def stream (log : ContractLog) (c : Cluster ι) (sid : Nat) (input : StreamInput) :
    Option (Cluster ι) :=
  match c.streams sid with
  | none => none
  | some s =>
      if c.alive s.owner = false then none
      else match input, s.callback, s.page with
        | .fetch rpcOk tip, none, [] =>
            if (c.replicas s.owner).subscription = some sid then
              match fetchContractEvents (log.upTo tip) rpcOk s.currentLedger with
              | .error _ => none
              | .ok events => some (c.setStream sid { s with page := events })
            else none
        | .deliver, none, _ :: _ =>
            if (c.replicas s.owner).subscription = some sid then
              some (c.setStream sid { s with callback := some .handling })
            else none
        | .handle env, some .handling, event :: _ =>
            match exec (processEvent env event) c.db with
            | (.ok _, db) =>
                some ({ c with db := db, handled := c.handled ++ [event] }.advance sid s event)
            | (.error error, db) =>
                some ({ c with db := db }.setStream sid
                  { s with callback := some (.savingDlq error) })
        | .saveDlq env, some (.savingDlq error), event :: _ =>
            some ({ c with db := after (saveToDlq env event error) c.db }.advance sid s event)
        | .cursorWrite, some (.writing ledger), _ =>
            if c.cursor = none then none
            else some ({ c with cursor := some ledger }.setStream sid
              { s with callback := some .written })
        | .finish, some (.writing _), event :: rest | .finish, some .written, event :: rest =>
            some (c.setStream sid
              { s with
                currentLedger := max s.currentLedger (event.ledger + 1)
                page := rest
                callback := none })
        | _, _, _ => none

/-- One step of the system. `none`: the action is not possible now. -/
def step (log : ContractLog) (c : Cluster ι) : Action ι → Option (Cluster ι)
  | .boot r read => if (c.replicas r).booted then none else c.boot r read
  | .crash r => if c.alive r then some (c.crash r) else none
  | .expire => some { c with lock := none }
  | .tick r =>
      if c.alive r && !(c.replicas r).destroyed then some (c.tick r) else none
  | .rewind r toLedger chainTip oldestAvailable =>
      if c.alive r && (rewindRefusal toLedger chainTip oldestAvailable).isNone then
        some (c.rewind r ⟨toLedger, chainTip, oldestAvailable, false, 0⟩)
      else none
  | .destroy r =>
      if c.alive r && !(c.replicas r).destroyed then some (c.destroy r) else none
  | .redis id => c.redis id
  | .database id => c.database id
  | .resume id ok => c.resume id ok
  | .stream sid input => c.stream log sid input

/-- No process yet; the cursor row may already exist. -/
def initial (db : Db) (cursor : Option Nat) : Cluster ι where
  db := db
  cursor := cursor
  lock := none
  replicas := fun _ => .fresh
  tasks := fun _ => none
  nextTask := 0
  streams := fun _ => none
  nextStream := 0
  handled := []
  rewound := []

end Cluster

end ChainSettle
