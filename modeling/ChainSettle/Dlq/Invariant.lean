import ChainSettle.Dlq.Queue
import ChainSettle.Lib.Run
import Mathlib.Logic.Function.Basic

/-!
The dead-letter invariant. Next to the database the state records, per key,
how the most recent processing attempt ended; the operations are a delivery of
the live stream (again, after a cursor rewind), a run of the retry job and a
manual retry, in any order.

A failure that the stream records goes through the upsert, which neither
clears `resolvedAt` nor raises an alert when the counter reaches the limit.
The step lemma says that this, and an alert whose recipients cannot be read,
is all that can break the invariant.
-/

namespace ChainSettle

open Lib Lib.Eff

/-- How the latest processing attempt of a key ended. -/
inductive LastAttempt where
  | none | succeeded | recorded | unrecorded
deriving DecidableEq

structure QueueState where
  db : Db
  last : EventKey → LastAttempt

def QueueState.attempt (st : QueueState) (db : Db) (key : EventKey) (last : LastAttempt) :
    QueueState :=
  ⟨db, Function.update st.last key last⟩

inductive QueueOp where
  | live (env : Env) (event : RawEvent)
  | retryJob (isLeader : Bool) (job : Env) (envs : EventKey → Env)
  | retryById (env : Env) (id : EventKey)

/-- One row of the retry job. -/
def QueueState.retryRow (st : QueueState) (env : Env) (row : FailedEvent) : QueueState :=
  st.attempt (after (retryFailedEvent env row) st.db) row.key
    (if Succeeds (executeAndResolve env row) st.db then .succeeded
      else if env.fails .attemptWrite then .unrecorded else .recorded)

def QueueState.retryRows (envs : EventKey → Env) : QueueState → List FailedEvent → QueueState
  | st, [] => st
  | st, row :: rest =>
      if Succeeds (retryFailedEvent (envs row.key) row) st.db then
        QueueState.retryRows envs (st.retryRow (envs row.key) row) rest
      else st.retryRow (envs row.key) row

def QueueState.dueRows (st : QueueState) (job : Env) : List FailedEvent :=
  st.db.failedEvents.rows.filter (FailedEvent.due job.now)

def QueueOp.step (st : QueueState) : QueueOp → QueueState
  | .live env event =>
      st.attempt (after (streamCallback env event) st.db) event.dlqKey
        (if Succeeds (processEvent env event) st.db then .succeeded
          else if env.fails .failedEventUpsert then .unrecorded else .recorded)
  | .retryJob isLeader job envs =>
      if isLeader = true ∧ job.fails .failedEventRead = false then
        st.retryRows envs (st.dueRows job)
      else st
  | .retryById env id =>
      if env.fails .failedEventRead then st
      else match st.db.failedEvents.find? id with
        | none => st
        | some row =>
            st.attempt (after (executeAndResolve env row) st.db) id
              (if Succeeds (executeAndResolve env row) st.db then .succeeded else .unrecorded)

/-- The program behind an operation. -/
def QueueOp.program : QueueOp → Tx Unit
  | .live env event => streamCallback env event
  | .retryJob isLeader job envs => retryFailedEvents isLeader job envs
  | .retryById env id => retryFailedEventById env id

def Db.Alerted (db : Db) (key : EventKey) : Prop :=
  ∃ alert ∈ db.adminAlerts, alert.failedEvent = key

/-- The row is open, and the job still selects it or the administrators know. -/
def FailedEvent.Watched (db : Db) (key : EventKey) (row : FailedEvent) : Prop :=
  row.resolvedAt = none ∧ (row.attemptCount < MAX_ATTEMPTS ∨ db.Alerted key)

def QueueState.WatchedAt (st : QueueState) (key : EventKey) : Prop :=
  ∃ row, st.db.failedEvents.find? key = some row ∧ row.Watched st.db key

/-- Every key whose latest attempt failed on record has a watched row. -/
def DlqInvariant (st : QueueState) : Prop :=
  ∀ key, st.last key = .recorded → st.WatchedAt key

section Refinement

/-- The bookkeeping runs the services' programs. -/
theorem retryRows_db (envs : EventKey → Env) (rows : List FailedEvent) (st : QueueState) :
    (st.retryRows envs rows).db = after (retryRows envs rows) st.db := by
  induction rows generalizing st with
  | nil => rfl
  | cons row rest ih =>
      unfold QueueState.retryRows retryRows
      rw [after_bind]
      split
      · rename_i hok
        obtain ⟨value, hvalue⟩ := hok
        rw [ih]
        cases hrun : exec (retryFailedEvent (envs row.key) row) st.db with
        | mk outcome next =>
            rw [hrun] at hvalue
            cases hvalue
            simp only [QueueState.retryRow, QueueState.attempt, after, hrun]
      · rename_i hfails
        obtain ⟨error, hrun⟩ := error_of_not_succeeds hfails
        rw [hrun]
        rfl

theorem step_db (st : QueueState) (op : QueueOp) :
    (op.step st).db = after op.program st.db := by
  cases op with
  | live env event => rfl
  | retryJob isLeader job envs =>
      unfold QueueOp.step QueueOp.program retryFailedEvents
      cases isLeader with
      | false => rfl
      | true =>
          simp only [true_and, ↓reduceIte]
          rw [after_bind, exec_prismaCall]
          cases job.fails .failedEventRead with
          | true => rfl
          | false =>
              simp only [Bool.false_eq_true, ↓reduceIte, retryRows_db]
              rfl
  | retryById env id =>
      unfold QueueOp.step QueueOp.program retryFailedEventById
      rw [after_bind, exec_prismaCall]
      cases hread : env.fails .failedEventRead with
      | true => simp only [hread, ↓reduceIte]
      | false =>
          simp only [hread, Bool.false_eq_true, ↓reduceIte]
          rw [after_bind, exec_get]
          simp only
          cases st.db.failedEvents.find? id <;> rfl

end Refinement

/-- What a live failure must find: if it is recorded on an existing row, that
row is open and stays below the limit or is already known. -/
def LiveWatched (env : Env) (event : RawEvent) (st : QueueState) : Prop :=
  ¬ Succeeds (processEvent env event) st.db → env.fails .failedEventUpsert = false →
    ∀ row, st.db.failedEvents.find? event.dlqKey = some row →
      row.resolvedAt = none ∧
        (row.attemptCount + 1 < MAX_ATTEMPTS ∨ st.db.Alerted event.dlqKey)

/-- What a failed retry must find: at the limit the administrators can be read. -/
def RowWatched (env : Env) (row : FailedEvent) (st : QueueState) : Prop :=
  ¬ Succeeds (executeAndResolve env row) st.db → env.fails .attemptWrite = false →
    row.attemptCount + 1 < MAX_ATTEMPTS ∨ env.fails .adminRead = false ∨ st.db.Alerted row.key

def RowsWatched (envs : EventKey → Env) : QueueState → List FailedEvent → Prop
  | _, [] => True
  | st, row :: rest =>
      RowWatched (envs row.key) row st ∧
        (Succeeds (retryFailedEvent (envs row.key) row) st.db →
          RowsWatched envs (st.retryRow (envs row.key) row) rest)

/-- The steps that keep the invariant. A manual retry always does. -/
def QueueOp.KeepsWatch (st : QueueState) : QueueOp → Prop
  | .live env event => LiveWatched env event st
  | .retryJob isLeader job envs =>
      isLeader = true → job.fails .failedEventRead = false →
        RowsWatched envs st (st.dueRows job)
  | .retryById _ _ => True

section Steps

variable {st : QueueState} {db : Db} {key : EventKey}

/-- An attempt that is not a recorded failure, and that leaves the other rows
and all alerts in place, keeps the invariant. -/
theorem invariant_attempt_of_not_recorded {last : LastAttempt} (hinv : DlqInvariant st)
    (hlast : last ≠ .recorded)
    (hrows : ∀ other, other ≠ key →
      db.failedEvents.find? other = st.db.failedEvents.find? other)
    (halerts : db.adminAlerts = st.db.adminAlerts) :
    DlqInvariant (st.attempt db key last) := by
  intro other hother
  by_cases hkey : other = key
  · subst hkey
    exact absurd (by simpa [QueueState.attempt] using hother) hlast
  · have hbefore : st.last other = .recorded := by
      simpa [QueueState.attempt, Function.update_of_ne hkey] using hother
    obtain ⟨row, hrow, hopen, hcount⟩ := hinv other hbefore
    refine ⟨row, (hrows other hkey).trans hrow, hopen, ?_⟩
    exact hcount.imp_right fun halerted => by
      simpa [Db.Alerted, QueueState.attempt, halerts] using halerted

/-- A recorded failure keeps the invariant when its own row is watched. -/
theorem invariant_attempt_recorded (hinv : DlqInvariant st)
    (hrows : ∀ other, other ≠ key →
      db.failedEvents.find? other = st.db.failedEvents.find? other)
    (halerts : ∀ other, st.db.Alerted other → db.Alerted other) :
    DlqInvariant (st.attempt db key .recorded) ↔
      (st.attempt db key .recorded).WatchedAt key := by
  constructor
  · intro h
    exact h key (by simp [QueueState.attempt])
  · intro h other hother
    by_cases hkey : other = key
    · exact hkey ▸ h
    · have hbefore : st.last other = .recorded := by
        simpa [QueueState.attempt, Function.update_of_ne hkey] using hother
      obtain ⟨row, hrow, hopen, hcount⟩ := hinv other hbefore
      exact ⟨row, (hrows other hkey).trans hrow, hopen, hcount.imp_right (halerts other)⟩

theorem live_keeps_iff (env : Env) (event : RawEvent) (hinv : DlqInvariant st) :
    DlqInvariant (QueueOp.step st (.live env event)) ↔ LiveWatched env event st := by
  unfold QueueOp.step LiveWatched
  by_cases hok : Succeeds (processEvent env event) st.db
  · have hsame := streamCallback_of_succeeds hok
    simp only [hok, ↓reduceIte, not_true_eq_false, false_implies, iff_true]
    exact invariant_attempt_of_not_recorded hinv (by rintro ⟨⟩) (fun _ _ => by rw [hsame.1]) hsame.2
  · obtain ⟨error, halerts, hqueue⟩ := streamCallback_of_fails hok
    cases hupsert : env.fails .failedEventUpsert with
    | true =>
        rw [hupsert] at hqueue
        simp only [hok, hupsert, ↓reduceIte, not_false_eq_true, Bool.true_eq_false,
          false_implies, implies_true, iff_true]
        exact invariant_attempt_of_not_recorded hinv (by rintro ⟨⟩) (fun _ _ => by rw [hqueue]; rfl) halerts
    | false =>
        simp only [hok, hupsert, ↓reduceIte, not_false_eq_true, Bool.false_eq_true,
          true_implies]
        have hfind : ∀ other, (after (streamCallback env event) st.db).failedEvents.find? other =
            if other = event.dlqKey then
              some ((st.db.failedEvents.find? event.dlqKey).elim (.create env.now event error)
                (FailedEvent.failAgain env.now error))
            else st.db.failedEvents.find? other := by
          intro other
          rw [hqueue, hupsert]
          exact Table.find?_upsert _ _ _ _ _
        have halerted : ∀ other, (after (streamCallback env event) st.db).Alerted other ↔
            st.db.Alerted other := by
          intro other
          rw [Db.Alerted, halerts]
          rfl
        rw [invariant_attempt_recorded hinv (fun other hne => by rw [hfind, if_neg hne])
          fun other => (halerted other).mpr]
        unfold QueueState.WatchedAt FailedEvent.Watched
        simp only [QueueState.attempt, hfind, ↓reduceIte, Option.some.injEq, exists_eq_left',
          halerted]
        cases st.db.failedEvents.find? event.dlqKey with
        | none =>
            simp [FailedEvent.create, MAX_ATTEMPTS]
        | some row =>
            simp [FailedEvent.failAgain]

/-- One row of the job, as it stands in the queue and not resolved. -/
theorem retryRow_keeps_iff (env : Env) {row : FailedEvent} (hinv : DlqInvariant st)
    (hrow : st.db.failedEvents.find? row.key = some row) (hopen : row.resolvedAt = none) :
    DlqInvariant (st.retryRow env row) ↔ RowWatched env row st := by
  unfold QueueState.retryRow RowWatched
  by_cases hok : Succeeds (executeAndResolve env row) st.db
  · obtain ⟨hqueue, halerts⟩ := executeAndResolve_of_succeeds hok
    rw [(retryFailedEvent_of_succeeds hok).2]
    simp only [hok, ↓reduceIte, not_true_eq_false, false_implies, iff_true]
    refine invariant_attempt_of_not_recorded hinv nofun ?_ halerts
    intro other hne
    rw [hqueue, find?_resolveFailure_of_ne _ hne]
  · cases hwrite : env.fails .attemptWrite with
    | true =>
        obtain ⟨_, hsame⟩ := retryFailedEvent_of_unrecorded hok hwrite
        simp only [hok, ↓reduceIte, not_false_eq_true, Bool.true_eq_false, false_implies,
          implies_true, iff_true]
        exact invariant_attempt_of_not_recorded hinv nofun (fun _ _ => by rw [hsame.1]) hsame.2
    | false =>
        obtain ⟨error, hqueue, halerts, _⟩ := retryFailedEvent_of_recorded hok hwrite
        simp only [hok, ↓reduceIte, not_false_eq_true, Bool.false_eq_true, true_implies]
        have hfind : ∀ other, (after (retryFailedEvent env row) st.db).failedEvents.find? other =
            if other = row.key then
              (st.db.failedEvents.find? row.key).map
                (FailedEvent.attempted (row.attemptCount + 1) env.now error)
            else st.db.failedEvents.find? other := by
          intro other
          rw [hqueue, find?_recordAttempt]
        have halerted : ∀ other, (after (retryFailedEvent env row) st.db).Alerted other ↔
            st.db.Alerted other ∨ (other = row.key ∧ row.attemptCount + 1 ≥ MAX_ATTEMPTS ∧
              env.fails .adminRead = false) := by
          intro other
          rw [Db.Alerted, halerts]
          split
          · rename_i hraised
            simp only [List.mem_append, List.mem_singleton, or_and_right, exists_or,
              exists_eq_left, hraised, and_self, and_true]
            exact or_congr Iff.rfl eq_comm
          · rename_i hquiet
            simp only [hquiet, and_false, or_false]
            rfl
        rw [invariant_attempt_recorded hinv (fun other hne => by rw [hfind, if_neg hne])
          fun other hbefore => (halerted other).mpr (.inl hbefore)]
        unfold QueueState.WatchedAt FailedEvent.Watched
        simp only [QueueState.attempt, hfind, ↓reduceIte, hrow, Option.map_some,
          Option.some.injEq, exists_eq_left', halerted, FailedEvent.attempted, hopen, true_and]
        constructor
        · rintro (hlt | halready | ⟨_, hadmin⟩)
          · exact .inl hlt
          · exact .inr (.inr halready)
          · exact .inr (.inl hadmin)
        · rintro (hlt | hadmin | halready)
          · exact .inl hlt
          · rcases Nat.lt_or_ge (row.attemptCount + 1) MAX_ATTEMPTS with hlt | hge
            · exact .inl hlt
            · exact .inr (.inr ⟨hge, hadmin⟩)
          · exact .inr (.inl halready)

/-- A retry that leaves an unwatched row has thrown, and the job with it. -/
theorem retryFailedEvent_throws_of_not_watched {env : Env} {row : FailedEvent}
    (h : ¬ RowWatched env row st) : ¬ Succeeds (retryFailedEvent env row) st.db := by
  unfold RowWatched at h
  push Not at h
  obtain ⟨hfails, hwrite, hlimit, hadmin, _⟩ := h
  obtain ⟨_, _, _, hsucceeds⟩ := retryFailedEvent_of_recorded hfails hwrite
  rw [hsucceeds]
  rintro (hlt | hok)
  · omega
  · exact hadmin hok

theorem retryRow_find?_of_ne (env : Env) {row : FailedEvent} {other : EventKey}
    (hne : other ≠ row.key) :
    (st.retryRow env row).db.failedEvents.find? other = st.db.failedEvents.find? other := by
  unfold QueueState.retryRow
  change (after (retryFailedEvent env row) st.db).failedEvents.find? other = _
  by_cases hok : Succeeds (executeAndResolve env row) st.db
  · rw [(retryFailedEvent_of_succeeds hok).2, (executeAndResolve_of_succeeds hok).1,
      find?_resolveFailure_of_ne _ hne]
  · cases hwrite : env.fails .attemptWrite with
    | true => rw [(retryFailedEvent_of_unrecorded hok hwrite).2.1]
    | false =>
        obtain ⟨error, hqueue, _⟩ := retryFailedEvent_of_recorded hok hwrite
        rw [hqueue, find?_recordAttempt, if_neg hne]

/-- The whole job, on rows that stand in the queue as the job read them. -/
theorem retryRows_keeps_iff (envs : EventKey → Env) (rows : List FailedEvent)
    (hinv : DlqInvariant st) (hnodup : (rows.map FailedEvent.key).Nodup)
    (hrows : ∀ row ∈ rows, st.db.failedEvents.find? row.key = some row ∧ row.resolvedAt = none) :
    DlqInvariant (st.retryRows envs rows) ↔ RowsWatched envs st rows := by
  induction rows generalizing st with
  | nil => exact iff_of_true hinv trivial
  | cons row rest ih =>
      obtain ⟨hrow, hopen⟩ := hrows row (.head _)
      have hstep := retryRow_keeps_iff (envs row.key) hinv hrow hopen
      unfold QueueState.retryRows RowsWatched
      split
      · rename_i hok
        have hwatched : RowWatched (envs row.key) row st := by
          by_contra hnot
          exact retryFailedEvent_throws_of_not_watched hnot hok
        have hrest := ih (hstep.mpr hwatched) (List.nodup_cons.mp hnodup).2 (by
          intro other hother
          have hne : other.key ≠ row.key := by
            intro heq
            apply (List.nodup_cons.mp hnodup).1
            rw [← heq]
            exact List.mem_map_of_mem hother
          obtain ⟨hfind, hresolved⟩ := hrows other (.tail _ hother)
          exact ⟨(retryRow_find?_of_ne _ hne).trans hfind, hresolved⟩)
        rw [hrest]
        exact ⟨fun h => ⟨hwatched, fun _ => h⟩, fun h => h.2 hok⟩
      · rename_i hfails
        rw [hstep]
        exact ⟨fun h => ⟨h, fun hok => absurd hok hfails⟩, fun h => h.1⟩

/-- One operation keeps the invariant exactly when it keeps watch. -/
theorem step_keeps_watch_iff (st : QueueState) (op : QueueOp) (hinv : DlqInvariant st) :
    DlqInvariant (op.step st) ↔ op.KeepsWatch st := by
  cases op with
  | live env event => exact live_keeps_iff env event hinv
  | retryJob isLeader job envs =>
      simp only [QueueOp.step, QueueOp.KeepsWatch]
      split
      · rename_i hruns
        have hnodup : ((st.dueRows job).map FailedEvent.key).Nodup :=
          st.db.failedEvents.nodup.sublist (List.filter_sublist.map _)
        rw [retryRows_keeps_iff envs _ hinv hnodup]
        · exact ⟨fun h _ _ => h, fun h => h hruns.1 hruns.2⟩
        · intro row hrow
          obtain ⟨hmem, hdue⟩ := List.mem_filter.mp hrow
          refine ⟨Table.find?_of_mem hmem, ?_⟩
          simp only [FailedEvent.due, Bool.and_eq_true, Option.isNone_iff_eq_none] at hdue
          exact hdue.1.1
      · rename_i hidle
        exact iff_of_true hinv fun hleader hread => absurd ⟨hleader, hread⟩ hidle
  | retryById env id =>
      simp only [QueueOp.step]
      refine iff_of_true ?_ trivial
      split
      · exact hinv
      · split
        · exact hinv
        · rename_i row hrow
          obtain rfl : row.key = id := Table.key_of_find? hrow
          by_cases hok : Succeeds (executeAndResolve env row) st.db
          · obtain ⟨hqueue, halerts⟩ := executeAndResolve_of_succeeds hok
            simp only [hok, ↓reduceIte]
            refine invariant_attempt_of_not_recorded hinv (by rintro ⟨⟩) ?_ halerts
            intro other hne
            rw [hqueue, find?_resolveFailure_of_ne _ hne]
          · have hsame := executeAndResolve_of_fails hok
            simp only [hok, ↓reduceIte]
            exact invariant_attempt_of_not_recorded hinv (by rintro ⟨⟩) (fun _ _ => by rw [hsame.1]) hsame.2

end Steps

/-- A run stays in the dead-letter invariant exactly when each of its steps
keeps watch in the state it is taken from. -/
theorem dlq_invariant_iff_keeps_watch (st : QueueState) (hinit : DlqInvariant st)
    (ops : List QueueOp) :
    (∀ pre post, ops = pre ++ post → DlqInvariant (pre.foldl QueueOp.step st)) ↔
      Along QueueOp.step QueueOp.KeepsWatch st ops :=
  along_iff_invariant step_keeps_watch_iff hinit ops

/-- No attempt has been made yet. -/
def freshQueue : QueueState := ⟨Db.demo .pending, fun _ => .none⟩

theorem freshQueue_invariant : DlqInvariant freshQueue := by
  intro key hlast
  cases hlast

/-- A first failure is watched. -/
theorem first_failure_watched :
    DlqInvariant ([QueueOp.live (.guardDown 1) proofEvent].foldl QueueOp.step freshQueue) := by
  refine (dlq_invariant_iff_keeps_watch freshQueue freshQueue_invariant
    [.live (.guardDown 1) proofEvent]).mpr ⟨?_, trivial⟩ [.live (.guardDown 1) proofEvent] [] rfl
  intro _ _ row hrow
  cases hrow

/-- A failed proof event is resolved by an administrator; after a rewind the
stream delivers it again and it fails again. -/
def resolvedThenFails : List QueueOp :=
  [.live (.guardDown 1) proofEvent, .retryById (.calm 2) proofEvent.dlqKey,
    .live (.guardDown 3) proofEvent]

/-- The new failure is recorded on a row that stays resolved. -/
theorem resolved_failure_unwatched :
    ¬ ∀ pre post, resolvedThenFails = pre ++ post →
      DlqInvariant (pre.foldl QueueOp.step freshQueue) := by
  intro h
  have hinv := h resolvedThenFails [] (List.append_nil _).symm
  have hlast : (resolvedThenFails.foldl QueueOp.step freshQueue).last proofEvent.dlqKey =
      .recorded := by decide
  obtain ⟨row, hrow, hopen, _⟩ := hinv proofEvent.dlqKey hlast
  have hresolved : ((resolvedThenFails.foldl QueueOp.step freshQueue).db.failedEvents.find?
      proofEvent.dlqKey).map FailedEvent.resolvedAt = some (some 2) := by decide
  rw [hrow, Option.map_some, hopen] at hresolved
  cases hresolved

end ChainSettle
