import ChainSettle.Lib.Run
import ChainSettle.Semantics.Cluster

/-!
What a step of the cluster can do. `Resumed` lists the continuations of the
tasks, `Streamed` the steps of a polling loop and `Stepped` all steps; the
proofs about runs go through these lists and do not unfold the functions again.

`WellFormed` holds in every run: identifiers are not used twice, and only a
live process has calls in progress.
-/

namespace ChainSettle

open Lib Lib.Eff

/-- The call belongs to a rewind that took the poller lock itself. -/
def Task.temporary : Task → Bool
  | .rewindRead call | .rewindWrite call _ | .rewindAudit call => call.acquiredHere
  | .rewindRelease .. => true
  | _ => false

/-- A rewind call in the `try` block of `rewindCursor`. -/
inductive Task.Rewinding (call : RewindCall) : Task → Prop where
  | read : Rewinding call (.rewindRead call)
  | write (executed : Bool) : Rewinding call (.rewindWrite call executed)
  | audit : Rewinding call (.rewindAudit call)

/-- A call that begins has asked for nothing yet. -/
inductive Task.Fresh : Task → Prop where
  | renew : Fresh (.renew none)
  | acquire : Fresh (.acquire none)
  | rewindRead {call : RewindCall} (hborrowed : call.acquiredHere = false) :
      Fresh (.rewindRead call)
  | rewindAcquire (call : RewindCall) : Fresh (.rewindAcquire call none)

namespace Cluster

variable {ι : Type} [DecidableEq ι]

section Lock

variable (c : Cluster ι) (r : ι)

omit [DecidableEq ι] in
/-- Only the lock is touched. -/
theorem acquireLock_eq :
    c.acquireLock r = { c with lock := if c.lock = none then some r else c.lock } := by
  unfold acquireLock
  split <;> rfl

theorem releaseLock_eq :
    c.releaseLock r = { c with lock := if c.lock = some r then none else c.lock } := by
  unfold releaseLock
  split <;> rfl

/-- Redis answers one call and touches nothing else but the lock. -/
theorem redis_frame {c c' : Cluster ι} {id : Nat} (h : c.redis id = some c') :
    ∃ r old new lock, c.tasks id = some (r, old) ∧
      c' = { c with lock := lock, tasks := Function.update c.tasks id (some (r, new)) } ∧
      ∀ call, new ≠ .rewindWrite call true := by
  unfold redis at h
  split at h
  · rename_i r htask
    cases h
    exact ⟨r, _, _, c.lock, htask, rfl, nofun⟩
  · rename_i r htask
    cases h
    rw [acquireLock_eq]
    exact ⟨r, _, _, _, htask, rfl, nofun⟩
  · rename_i r call htask
    cases h
    rw [acquireLock_eq]
    exact ⟨r, _, _, _, htask, rfl, nofun⟩
  · rename_i r call succeeded htask
    cases h
    rw [releaseLock_eq]
    exact ⟨r, _, _, _, htask, rfl, nofun⟩
  · rename_i r htask
    cases h
    rw [releaseLock_eq]
    exact ⟨r, _, _, _, htask, rfl, nofun⟩
  · cases h

end Lock

/-- A booted process is fresh but for its cursor. An existing row stays, and a
process that resumes has read it; a new row holds the seed. -/
theorem boot_cases {c c' : Cluster ι} {r : ι} {read : BootRead} (h : c.boot r read = some c') :
    ∃ ledger cursor,
      c' = { c.setReplica r (fun _ =>
          { Replica.fresh with booted := true, lastProcessedLedger := ledger }) with
        cursor := cursor } ∧
      (c.cursor ≠ none → cursor = c.cursor) ∧ (read = .resumed → c.cursor = some ledger) ∧
      ∀ seed, c.cursor = none → cursor = some seed →
        ∃ latestLedger, read = .seeded latestLedger ∧ seed = max 1 (latestLedger - 10) := by
  cases read with
  | resumed =>
      simp only [boot, Option.bind_eq_bind, Option.bind_eq_some_iff] at h
      obtain ⟨ledger, hledger, hc'⟩ := h
      cases hc'
      refine ⟨ledger, c.cursor, rfl, fun _ => rfl, fun _ => hledger, ?_⟩
      intro seed hnone hseed
      rw [hnone] at hseed
      cases hseed
  | seeded latestLedger =>
      simp only [boot] at h
      split at h
      · rename_i hnone
        cases h
        refine ⟨_, _, rfl, fun hsome => absurd hnone hsome, nofun, ?_⟩
        rintro seed _ ⟨rfl⟩
        exact ⟨latestLedger, rfl, rfl⟩
      · cases h
  | degraded latestLedger =>
      cases h
      refine ⟨_, c.cursor, rfl, fun _ => rfl, nofun, ?_⟩
      intro seed hnone hseed
      rw [hnone] at hseed
      cases hseed

section Resume

/-- The continuations of a task, with what each needs to know of the task. -/
inductive Resumed (c : Cluster ι) (id : Nat) (r : ι) : Task → Bool → Cluster ι → Prop where
  | ended {task : Task} {ok : Bool} (hkind : task.temporary = false) :
      Resumed c id r task ok (c.endTask id)
  | steppedDown :
      Resumed c id r (.renew (some false)) true
        (((c.stopStreamSubscription r).setLeader r false).endTask id)
  | elected :
      Resumed c id r (.acquire (some true)) true
        (((c.setLeader r true).startStreamSubscription r).endTask id)
  | rewindElected (call : RewindCall) :
      Resumed c id r (.rewindAcquire call (some true)) true
        ((c.setLeader r true).setTask id r (.rewindRead { call with acquiredHere := true }))
  | rewindPlanned (call : RewindCall) (previousLedger : Nat) :
      Resumed c id r (.rewindRead call) true
        (c.setTask id r (.rewindWrite { call with previousLedger := previousLedger } false))
  | rewindRestarted (call : RewindCall) :
      Resumed c id r (.rewindWrite call true) true
        (((c.setLast r call.toLedger).startStreamSubscription r).setTask id r (.rewindAudit call))
  | rewindFinished {task : Task} {call : RewindCall} {ok succeeded : Bool}
      (hkind : task.Rewinding call) :
      Resumed c id r task ok (c.finishRewind id r call succeeded)
  | rewindReleased (call : RewindCall) (succeeded : Bool) :
      Resumed c id r (.rewindRelease call succeeded true) true
        ((c.setLeader r false).endRewind id call succeeded)
  | releaseFailed (call : RewindCall) (succeeded executed : Bool) :
      Resumed c id r (.rewindRelease call succeeded executed) false (c.endTask id)
  | destroyReleased :
      Resumed c id r (.destroyRelease true) true ((c.setLeader r false).endTask id)

theorem resume_cases {c c' : Cluster ι} {id : Nat} {ok : Bool} (h : c.resume id ok = some c') :
    ∃ r task, c.tasks id = some (r, task) ∧ Resumed c id r task ok c' := by
  unfold resume at h
  split at h
  · cases h
  · rename_i r task htask
    refine ⟨r, task, htask, ?_⟩
    cases task with
    | renew reply =>
        rcases reply with _ | (_ | _) <;> cases ok <;> cases h
        · exact .ended rfl
        · exact .ended rfl
        · exact .steppedDown
        · exact .ended rfl
        · exact .ended rfl
    | acquire reply =>
        rcases reply with _ | (_ | _) <;> cases ok <;> cases h
        · exact .ended rfl
        · exact .ended rfl
        · exact .ended rfl
        · exact .ended rfl
        · exact .elected
    | rewindAcquire call reply =>
        rcases reply with _ | (_ | _) <;> cases ok <;> cases h
        · exact .ended rfl
        · exact .ended rfl
        · exact .ended rfl
        · exact .ended rfl
        · exact .rewindElected call
    | rewindRead call =>
        cases ok <;> cases h
        · exact .rewindFinished .read
        · exact .rewindPlanned call _
    | rewindWrite call executed =>
        cases executed <;> cases ok <;> cases h
        · exact .rewindFinished (.write _)
        · exact .rewindFinished (.write _)
        · exact .rewindRestarted call
    | rewindAudit call =>
        cases h
        exact .rewindFinished .audit
    | rewindRelease call succeeded executed =>
        cases executed <;> cases ok <;> cases h
        · exact .releaseFailed call succeeded false
        · exact .releaseFailed call succeeded true
        · exact .rewindReleased call succeeded
    | destroyRelease executed =>
        cases executed <;> cases ok <;> cases h
        · exact .ended rfl
        · exact .ended rfl
        · exact .destroyReleased

end Resume

section Stream

/-- The steps of the polling loop `s`. -/
inductive Streamed (log : ContractLog) (c : Cluster ι) (sid : Nat) (s : Stream ι) :
    StreamInput → Cluster ι → Prop where
  | fetched (rpcOk : Bool) (tip : Nat) (hcallback : s.callback = none) :
      Streamed log c sid s (.fetch rpcOk tip)
        (c.setStream sid
          { s with page := if rpcOk then (log.upTo tip).getEvents s.currentLedger else [] })
  | delivered (hcallback : s.callback = none)
      (hactive : (c.replicas s.owner).subscription = some sid) :
      Streamed log c sid s .deliver (c.setStream sid { s with callback := some .handling })
  | handled {env : Env} {event : RawEvent} {rest : List RawEvent} {db : Db}
      (hcallback : s.callback = some .handling) (hpage : s.page = event :: rest)
      (hdb : db = after (processEvent env event) c.db) :
      Streamed log c sid s (.handle env)
        ({ c with db := db, handled := c.handled ++ [event] }.advance sid s event)
  | failed {env : Env} {event : RawEvent} {rest : List RawEvent} {db : Db} (error : Exn)
      (hcallback : s.callback = some .handling) (hpage : s.page = event :: rest)
      (hdb : db = after (processEvent env event) c.db) :
      Streamed log c sid s (.handle env)
        ({ c with db := db }.setStream sid { s with callback := some (.savingDlq error) })
  | stored {env : Env} {event : RawEvent} {rest : List RawEvent} {error : Exn}
      (hcallback : s.callback = some (.savingDlq error)) (hpage : s.page = event :: rest) :
      Streamed log c sid s (.saveDlq env)
        ({ c with db := after (saveToDlq env event error) c.db }.advance sid s event)
  | persisted {ledger : Nat} (hcallback : s.callback = some (.writing ledger)) :
      Streamed log c sid s .cursorWrite
        ({ c with cursor := some ledger }.setStream sid { s with callback := some .written })
  | finished {event : RawEvent} {rest : List RawEvent} (hpage : s.page = event :: rest)
      (hcallback : (∃ ledger, s.callback = some (.writing ledger)) ∨ s.callback = some .written) :
      Streamed log c sid s .finish
        (c.setStream sid
          { s with
            currentLedger := max s.currentLedger (event.ledger + 1)
            page := rest
            callback := none })

theorem stream_cases {log : ContractLog} {c c' : Cluster ι} {sid : Nat} {input : StreamInput}
    (h : c.stream log sid input = some c') :
    ∃ s, c.streams sid = some s ∧ Streamed log c sid s input c' := by
  unfold stream at h
  split at h
  · cases h
  · rename_i s hstream
    split at h
    · cases h
    · refine ⟨s, hstream, ?_⟩
      split at h
      · rename_i hcallback _
        simp only [fetchContractEvents] at h
        split at h
        · cases h
          exact .fetched _ _ hcallback
        · cases h
      · rename_i hcallback _
        split at h
        · rename_i hactive
          cases h
          exact .delivered hcallback hactive
        · cases h
      · rename_i hcallback hpage
        split at h
        · rename_i hrun
          cases h
          exact .handled hcallback hpage (congrArg Prod.snd hrun).symm
        · rename_i hrun
          cases h
          exact .failed _ hcallback hpage (congrArg Prod.snd hrun).symm
      · rename_i hcallback hpage
        cases h
        exact .stored hcallback hpage
      · rename_i hcallback
        split at h
        · cases h
        · cases h
          exact .persisted hcallback
      · rename_i hcallback hpage
        cases h
        exact .finished hpage (.inl ⟨_, hcallback⟩)
      · rename_i hcallback hpage
        cases h
        exact .finished hpage (.inr hcallback)
      · cases h

end Stream

section Step

inductive Stepped (log : ContractLog) (c : Cluster ι) : Action ι → Cluster ι → Prop where
  | booted {r : ι} {read : BootRead} (ledger : Nat) (cursor : Option Nat)
      (hnew : (c.replicas r).booted = false) (hkept : c.cursor ≠ none → cursor = c.cursor)
      (hread : read = .resumed → c.cursor = some ledger)
      (hseeded : ∀ seed, c.cursor = none → cursor = some seed →
        ∃ latestLedger, read = .seeded latestLedger ∧ seed = max 1 (latestLedger - 10)) :
      Stepped log c (.boot r read)
        { c.setReplica r (fun _ =>
            { Replica.fresh with booted := true, lastProcessedLedger := ledger }) with
          cursor := cursor }
  | crashed (r : ι) : Stepped log c (.crash r) (c.crash r)
  | expired : Stepped log c .expire { c with lock := none }
  | began {a : Action ι} {r : ι} {task : Task} (halive : c.alive r = true)
      (hfresh : task.Fresh) : Stepped log c a (c.newTask r task)
  | destroyed {r : ι} (halive : c.alive r = true) : Stepped log c (.destroy r) (c.destroy r)
  | answered {id : Nat} {c' : Cluster ι} (hredis : c.redis id = some c') :
      Stepped log c (.redis id) c'
  | upserted {id : Nat} {r : ι} {call : RewindCall}
      (htask : c.tasks id = some (r, .rewindWrite call false)) :
      Stepped log c (.database id)
        ({ c with cursor := some call.toLedger }.setTask id r (.rewindWrite call true))
  | resumed {id : Nat} {ok : Bool} {r : ι} {task : Task} {c' : Cluster ι}
      (htask : c.tasks id = some (r, task)) (hresumed : Resumed c id r task ok c') :
      Stepped log c (.resume id ok) c'
  | streamed {sid : Nat} {input : StreamInput} {s : Stream ι} {c' : Cluster ι}
      (hstream : c.streams sid = some s) (hstreamed : Streamed log c sid s input c') :
      Stepped log c (.stream sid input) c'

theorem step_cases {log : ContractLog} {c c' : Cluster ι} {a : Action ι}
    (h : c.step log a = some c') : Stepped log c a c' := by
  cases a with
  | boot r read =>
      simp only [step] at h
      split at h
      · cases h
      · rename_i hnew
        obtain ⟨ledger, cursor, rfl, hkept, hread, hseeded⟩ := boot_cases h
        exact .booted ledger cursor (by simpa using hnew) hkept hread hseeded
  | crash r =>
      simp only [step, Option.ite_none_right_eq_some, Option.some.injEq] at h
      obtain ⟨_, rfl⟩ := h
      exact .crashed r
  | expire =>
      cases h
      exact .expired
  | tick r =>
      simp only [step, Option.ite_none_right_eq_some, Option.some.injEq, Bool.and_eq_true] at h
      obtain ⟨⟨halive, _⟩, rfl⟩ := h
      refine .began halive ?_
      split
      · exact .renew
      · exact .acquire
  | rewind r toLedger chainTip oldestAvailable =>
      simp only [step, Option.ite_none_right_eq_some, Option.some.injEq, Bool.and_eq_true] at h
      obtain ⟨⟨halive, _⟩, rfl⟩ := h
      refine .began halive ?_
      split
      · exact .rewindRead rfl
      · exact .rewindAcquire _
  | destroy r =>
      simp only [step, Option.ite_none_right_eq_some, Option.some.injEq, Bool.and_eq_true] at h
      obtain ⟨⟨halive, _⟩, rfl⟩ := h
      exact .destroyed halive
  | redis id => exact .answered h
  | database id =>
      simp only [step, database] at h
      split at h
      · rename_i r call htask
        cases h
        exact .upserted htask
      · cases h
  | resume id ok =>
      obtain ⟨r, task, htask, hresumed⟩ := resume_cases h
      exact .resumed htask hresumed
  | stream sid input =>
      obtain ⟨s, hstream, hstreamed⟩ := stream_cases h
      exact .streamed hstream hstreamed

end Step

section WellFormed

structure WellFormed (c : Cluster ι) : Prop where
  taskFresh : ∀ id, c.nextTask ≤ id → c.tasks id = none
  streamFresh : ∀ sid, c.nextStream ≤ sid → c.streams sid = none
  caller : ∀ id r task, c.tasks id = some (r, task) → c.alive r = true

variable {c : Cluster ι}

theorem alive_setReplica {r : ι} {f : Replica → Replica}
    (hbooted : (f (c.replicas r)).booted = (c.replicas r).booted)
    (hcrashed : (f (c.replicas r)).crashed = (c.replicas r).crashed) (q : ι) :
    (c.setReplica r f).alive q = c.alive q := by
  unfold alive setReplica
  by_cases hq : q = r
  · subst hq
    simp [hbooted, hcrashed]
  · simp [hq]

theorem WellFormed.setReplica (h : c.WellFormed) {r : ι} {f : Replica → Replica}
    (hbooted : (f (c.replicas r)).booted = (c.replicas r).booted)
    (hcrashed : (f (c.replicas r)).crashed = (c.replicas r).crashed) :
    (c.setReplica r f).WellFormed where
  taskFresh := h.taskFresh
  streamFresh := h.streamFresh
  caller id q task htask := by
    rw [alive_setReplica hbooted hcrashed]
    exact h.caller id q task htask

theorem WellFormed.setLeader (h : c.WellFormed) (r : ι) (isLeader : Bool) :
    (c.setLeader r isLeader).WellFormed :=
  h.setReplica rfl rfl

theorem WellFormed.setLast (h : c.WellFormed) (r : ι) (ledger : Nat) :
    (c.setLast r ledger).WellFormed :=
  h.setReplica rfl rfl

omit [DecidableEq ι] in
theorem WellFormed.endTask (h : c.WellFormed) (id : Nat) : (c.endTask id).WellFormed where
  taskFresh other hother := by
    by_cases heq : other = id
    · simp [Cluster.endTask, heq]
    · simpa [Cluster.endTask, heq] using h.taskFresh other hother
  streamFresh := h.streamFresh
  caller other r task htask := by
    by_cases heq : other = id
    · simp [Cluster.endTask, heq] at htask
    · exact h.caller other r task (by simpa [Cluster.endTask, heq] using htask)

omit [DecidableEq ι] in
theorem WellFormed.setTask (h : c.WellFormed) {id : Nat} {r : ι} {old : Task}
    (hold : c.tasks id = some (r, old)) (task : Task) : (c.setTask id r task).WellFormed where
  taskFresh other hother := by
    have hne : other ≠ id := by
      rintro rfl
      rw [h.taskFresh other hother] at hold
      cases hold
    simpa [Cluster.setTask, hne] using h.taskFresh other hother
  streamFresh := h.streamFresh
  caller other q task' htask := by
    by_cases heq : other = id
    · subst heq
      obtain ⟨rfl, rfl⟩ : r = q ∧ task = task' := by simpa [Cluster.setTask] using htask
      exact h.caller other r old hold
    · exact h.caller other q task' (by simpa [Cluster.setTask, heq] using htask)

omit [DecidableEq ι] in
theorem WellFormed.newTask (h : c.WellFormed) {r : ι} (halive : c.alive r = true) (task : Task) :
    (c.newTask r task).WellFormed where
  taskFresh id hid := by
    have hlt : c.nextTask < id := hid
    have hne : id ≠ c.nextTask := by omega
    simpa [Cluster.newTask, hne] using h.taskFresh id (by omega)
  streamFresh := h.streamFresh
  caller id q task' htask := by
    by_cases heq : id = c.nextTask
    · subst heq
      obtain ⟨rfl, _⟩ : r = q ∧ task = task' := by simpa [Cluster.newTask] using htask
      exact halive
    · exact h.caller id q task' (by simpa [Cluster.newTask, heq] using htask)

omit [DecidableEq ι] in
theorem WellFormed.setStream (h : c.WellFormed) {sid : Nat} {old : Stream ι}
    (hold : c.streams sid = some old) (s : Stream ι) : (c.setStream sid s).WellFormed where
  taskFresh := h.taskFresh
  streamFresh other hother := by
    have hne : other ≠ sid := by
      rintro rfl
      rw [h.streamFresh other hother] at hold
      cases hold
    simpa [Cluster.setStream, hne] using h.streamFresh other hother
  caller := h.caller

theorem WellFormed.startStreamSubscription (h : c.WellFormed) (r : ι) :
    (c.startStreamSubscription r).WellFormed where
  taskFresh := h.taskFresh
  streamFresh sid hsid := by
    have hlt : c.nextStream < sid := hsid
    have hne : sid ≠ c.nextStream := by omega
    simpa [Cluster.startStreamSubscription, hne] using h.streamFresh sid (by omega)
  caller := (h.setReplica (r := r)
    (f := fun replica => { replica with subscription := some c.nextStream }) rfl rfl).caller

omit [DecidableEq ι] in
/-- Neither the lock nor the persistent data matter. -/
theorem WellFormed.of_processes {c' : Cluster ι} (h : c.WellFormed)
    (hreplicas : c'.replicas = c.replicas) (htasks : c'.tasks = c.tasks)
    (hnextTask : c'.nextTask = c.nextTask) (hstreams : c'.streams = c.streams)
    (hnextStream : c'.nextStream = c.nextStream) : c'.WellFormed where
  taskFresh := by
    rw [htasks, hnextTask]
    exact h.taskFresh
  streamFresh := by
    rw [hstreams, hnextStream]
    exact h.streamFresh
  caller := by
    unfold alive
    rw [htasks, hreplicas]
    exact h.caller

omit [DecidableEq ι] in
theorem WellFormed.endRewind (h : c.WellFormed) (id : Nat) (call : RewindCall)
    (succeeded : Bool) : (c.endRewind id call succeeded).WellFormed := by
  unfold Cluster.endRewind
  dsimp only
  split
  · exact (h.endTask id).of_processes rfl rfl rfl rfl rfl
  · exact h.endTask id

theorem WellFormed.advance (h : c.WellFormed) {sid : Nat} {s : Stream ι}
    (hstream : c.streams sid = some s) (event : RawEvent) :
    (c.advance sid s event).WellFormed := by
  unfold Cluster.advance
  exact (h.setLast s.owner _).setStream hstream _

theorem WellFormed.crash (h : c.WellFormed) (r : ι) : (c.crash r).WellFormed where
  taskFresh id hid := by
    simp [Cluster.crash, h.taskFresh id hid]
  streamFresh := h.streamFresh
  caller id q task htask := by
    simp only [Cluster.crash, Option.filter_eq_some_iff, decide_eq_true_eq] at htask
    have halive := h.caller id q task htask.1
    simpa [alive, Cluster.crash, Cluster.setReplica, htask.2] using halive

theorem WellFormed.resumed (h : c.WellFormed) {c' : Cluster ι} {id : Nat} {r : ι} {task : Task}
    {ok : Bool} (htask : c.tasks id = some (r, task)) (hresumed : Resumed c id r task ok c') :
    c'.WellFormed := by
  cases hresumed with
  | ended => exact h.endTask id
  | steppedDown => exact ((h.setReplica rfl rfl).setLeader r false).endTask id
  | elected => exact ((h.setLeader r true).startStreamSubscription r).endTask id
  | rewindElected call =>
      exact (h.setLeader r true).setTask htask _
  | rewindPlanned call previousLedger => exact h.setTask htask _
  | rewindRestarted call =>
      exact ((h.setLast r call.toLedger).startStreamSubscription r).setTask htask _
  | rewindFinished hkind =>
      unfold finishRewind
      split
      · exact h.setTask htask _
      · exact h.endRewind id _ _
  | rewindReleased call succeeded => exact (h.setLeader r false).endRewind id call succeeded
  | releaseFailed => exact h.endTask id
  | destroyReleased => exact (h.setLeader r false).endTask id

theorem WellFormed.streamed (h : c.WellFormed) {log : ContractLog} {c' : Cluster ι} {sid : Nat}
    {s : Stream ι} {input : StreamInput} (hstream : c.streams sid = some s)
    (hstreamed : Streamed log c sid s input c') : c'.WellFormed := by
  cases hstreamed with
  | fetched => exact h.setStream hstream _
  | delivered => exact h.setStream hstream _
  | handled =>
      exact (h.advance hstream _).of_processes rfl rfl rfl rfl rfl
  | failed =>
      exact (h.setStream hstream _).of_processes rfl rfl rfl rfl rfl
  | stored =>
      exact (h.advance hstream _).of_processes rfl rfl rfl rfl rfl
  | persisted =>
      exact (h.setStream hstream _).of_processes rfl rfl rfl rfl rfl
  | finished => exact h.setStream hstream _

theorem wellFormed_step {log : ContractLog} {c' : Cluster ι} {a : Action ι}
    (hstep : c.step log a = some c') (h : c.WellFormed) : c'.WellFormed := by
  cases step_cases hstep with
  | @booted r read ledger cursor hnew =>
      refine ⟨h.taskFresh, h.streamFresh, ?_⟩
      intro id q task htask
      have halive := h.caller id q task htask
      have hne : q ≠ r := by
        rintro rfl
        simp [alive, hnew] at halive
      simpa [alive, Cluster.setReplica, hne] using halive
  | crashed r => exact h.crash r
  | expired => exact h.of_processes rfl rfl rfl rfl rfl
  | began halive => exact h.newTask halive _
  | @destroyed r halive =>
      unfold Cluster.destroy
      dsimp only
      split
      · refine (h.setReplica rfl rfl).newTask ?_ _
        rw [alive_setReplica rfl rfl]
        exact halive
      · exact h.setReplica rfl rfl
  | answered hredis =>
      obtain ⟨r, old, new, lock, htask, rfl, _⟩ := redis_frame hredis
      exact (h.setTask htask new).of_processes rfl rfl rfl rfl rfl
  | @upserted id r call htask =>
      exact (h.setTask htask (.rewindWrite call true)).of_processes rfl rfl rfl rfl rfl
  | resumed htask hresumed => exact h.resumed htask hresumed
  | streamed hstream hstreamed => exact h.streamed hstream hstreamed

omit [DecidableEq ι] in
theorem wellFormed_initial (db : Db) (cursor : Option Nat) :
    (initial db cursor : Cluster ι).WellFormed where
  taskFresh _ _ := rfl
  streamFresh _ _ := rfl
  caller _ _ _ htask := by cases htask

end WellFormed

section Row

omit [DecidableEq ι] in
/-- An update of the task table with anything else than an executed write of a
rewind. -/
theorem rewinding_of_update {tasks : Nat → Option (ι × Task)} {id other : Nat}
    {entry : Option (ι × Task)} {r : ι} {call : RewindCall}
    (hentry : ∀ q call, entry ≠ some (q, .rewindWrite call true))
    (h : Function.update tasks id entry other = some (r, .rewindWrite call true)) :
    tasks other = some (r, .rewindWrite call true) := by
  by_cases heq : other = id
  · subst heq
    rw [Function.update_self] at h
    exact absurd h (hentry r call)
  · rwa [Function.update_of_ne heq] at h

/-- The executed write of a rewind leaves the cursor row, and the row stays. -/
def RowWritten (c : Cluster ι) : Prop :=
  ∀ id r call, c.tasks id = some (r, .rewindWrite call true) → c.cursor ≠ none

variable {c c' : Cluster ι}

omit [DecidableEq ι] in
theorem RowWritten.update (h : c.RowWritten) {id : Nat} {entry : Option (ι × Task)}
    (hcursor : c'.cursor = c.cursor) (htasks : c'.tasks = Function.update c.tasks id entry)
    (hentry : ∀ q call, entry ≠ some (q, .rewindWrite call true)) : c'.RowWritten := by
  intro other r call htask
  rw [hcursor]
  rw [htasks] at htask
  exact h other r call (rewinding_of_update hentry htask)

theorem rowWritten_resumed {id : Nat} {r : ι} {task : Task} {ok : Bool} (h : c.RowWritten)
    (hresumed : Resumed c id r task ok c') : c'.RowWritten := by
  cases hresumed with
  | rewindElected call => exact h.update rfl rfl (by simp)
  | rewindPlanned call previousLedger => exact h.update rfl rfl (by simp)
  | rewindRestarted call => exact h.update rfl rfl (by simp)
  | @rewindFinished _ call _ succeeded hkind =>
      unfold finishRewind
      split
      · exact h.update rfl rfl (by simp)
      · cases succeeded <;> exact h.update rfl rfl nofun
  | rewindReleased call succeeded => cases succeeded <;> exact h.update rfl rfl nofun
  | _ => exact h.update rfl rfl nofun

theorem rowWritten_streamed {log : ContractLog} {sid : Nat} {s : Stream ι} {input : StreamInput}
    (h : c.RowWritten) (hstreamed : Streamed log c sid s input c') : c'.RowWritten := by
  cases hstreamed with
  | persisted => exact fun _ _ _ _ => nofun
  | _ => exact h

theorem rowWritten_step {log : ContractLog} {a : Action ι} (hstep : c.step log a = some c')
    (h : c.RowWritten) : c'.RowWritten := by
  cases step_cases hstep with
  | booted ledger cursor hnew hkept =>
      intro id q call htask
      have hrow := h id q call htask
      rw [hkept hrow]
      exact hrow
  | crashed r =>
      intro id q call htask
      simp only [crash, Option.filter_eq_some_iff] at htask
      exact h id q call htask.1
  | expired => exact h
  | began halive hfresh => exact h.update rfl rfl (by cases hfresh <;> simp)
  | destroyed halive =>
      unfold destroy
      dsimp only
      split
      · exact h.update rfl rfl (by simp)
      · exact h
  | answered hredis =>
      obtain ⟨r, old, new, lock, _, rfl, hnew⟩ := redis_frame hredis
      exact h.update rfl rfl (by simp [hnew])
  | upserted => exact fun _ _ _ _ => nofun
  | resumed _ hresumed => exact rowWritten_resumed h hresumed
  | streamed _ hstreamed => exact rowWritten_streamed h hstreamed

end Row

end Cluster

end ChainSettle
