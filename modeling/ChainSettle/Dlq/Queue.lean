import ChainSettle.Lifecycle.Handlers
import ChainSettle.Semantics.Dlq

/-!
What the dead-letter functions do to the queue. The domain handlers never
touch it, so what a stream callback or a retry leaves in the queue depends on
the handler only through whether it threw.
-/

namespace ChainSettle

open Lib Lib.Eff

/-- The queue and the alerts are as before. -/
def SameQueue (db db' : Db) : Prop :=
  db'.failedEvents = db.failedEvents ∧ db'.adminAlerts = db.adminAlerts

theorem SameQueue.refl (db : Db) : SameQueue db db := ⟨rfl, rfl⟩

section Frame

variable (env : Env) (db : Db)

theorem sameQueue_writeAt (shipmentId : String) (index : Option Int) (write : MilestoneWrite) :
    SameQueue db (db.writeAt shipmentId index write) := by
  cases index
  · exact .refl db
  · exact ⟨rfl, rfl⟩

theorem sameQueue_executeHandler (eventName : String) (payload : Json) (txHash : Option String) :
    SameQueue db (after (executeHandler env eventName payload txHash) db) := by
  unfold executeHandler
  rcases runHandler_cases env db payload (handlerOf eventName) txHash with
    hsame | ⟨write, hwrite⟩ | ⟨amount, hconfirmed⟩ | hcancelled
  · rw [hsame]
    exact .refl db
  · rw [hwrite]
    exact sameQueue_writeAt db _ _ _
  · obtain ⟨shipments, hsync, _⟩ := sync_frame env
      (db.writePayload payload (.confirmed amount env.now)) (payloadShipment payload)
    rw [hconfirmed, hsync]
    exact sameQueue_writeAt db _ _ _
  · rw [hcancelled]
    exact ⟨rfl, rfl⟩

theorem sameQueue_processEvent (event : RawEvent) :
    SameQueue db (after (processEvent env event) db) := by
  obtain ⟨chainEvents, hsave⟩ := exec_saveRawEvent env db (extractPayload event) event
    (extractEventName event)
  unfold processEvent
  rw [after_bind, hsave]
  simp only
  rw [after_bind_readOnly _ (fun _ _ => after_publishGraphqlUpdate ..)]
  exact sameQueue_executeHandler env { db with chainEvents := chainEvents } _ _ _

end Frame

section Callback

variable {env : Env} {db : Db} {event : RawEvent}

theorem error_of_not_succeeds {m : Tx Unit} (h : ¬ Succeeds m db) :
    ∃ error, exec m db = (.error error, after m db) := by
  cases hrun : exec m db with
  | mk outcome next =>
      cases outcome with
      | ok value => exact absurd ⟨value, congrArg Prod.fst hrun⟩ h
      | error error => exact ⟨error, by rw [after, hrun]⟩

/-- A callback whose handlers return normally does not touch the queue. -/
theorem streamCallback_of_succeeds (h : Succeeds (processEvent env event) db) :
    SameQueue db (after (streamCallback env event) db) := by
  obtain ⟨value, hvalue⟩ := h
  have hsame := sameQueue_processEvent env db event
  unfold streamCallback after
  rw [exec_tryCatch]
  cases hrun : exec (processEvent env event) db with
  | mk outcome next =>
      rw [hrun] at hvalue
      cases hvalue
      rw [after, hrun] at hsame
      exact hsame

/-- A failed one upserts the event's row, unless that write is rejected too. -/
theorem streamCallback_of_fails (h : ¬ Succeeds (processEvent env event) db) :
    ∃ error, (after (streamCallback env event) db).adminAlerts = db.adminAlerts ∧
      (after (streamCallback env event) db).failedEvents =
        if env.fails .failedEventUpsert then db.failedEvents
        else (db.recordFailure env.now event error).failedEvents := by
  obtain ⟨error, hrun⟩ := error_of_not_succeeds h
  have hsame := sameQueue_processEvent env db event
  refine ⟨error, ?_⟩
  unfold streamCallback saveToDlq
  rw [after, exec_tryCatch, hrun]
  simp only [exec_ite]
  split
  · exact ⟨hsame.2, hsame.1⟩
  · simp only [exec_modify, Db.recordFailure, hsame.1, hsame.2, and_self]

end Callback

section Retry

variable {env : Env} {db : Db} {row : FailedEvent}

theorem find?_resolveFailure_of_ne {key other : EventKey} (now : Nat) (h : other ≠ key) :
    (db.resolveFailure key now).failedEvents.find? other = db.failedEvents.find? other :=
  Table.find?_modify_of_ne _ _ (FailedEvent.resolve_key now) h

theorem find?_recordAttempt (key other : EventKey) (attemptCount now : Nat) (error : Exn) :
    (db.recordAttempt key attemptCount now error).failedEvents.find? other =
      if other = key then
        (db.failedEvents.find? key).map (FailedEvent.attempted attemptCount now error)
      else db.failedEvents.find? other :=
  Table.find?_modify _ _ _ (FailedEvent.attempted_key attemptCount now error) _

theorem executeAndResolve_of_succeeds (h : Succeeds (executeAndResolve env row) db) :
    (after (executeAndResolve env row) db).failedEvents =
        (db.resolveFailure row.key env.now).failedEvents ∧
      (after (executeAndResolve env row) db).adminAlerts = db.adminAlerts := by
  have hsame := sameQueue_executeHandler env db row.eventName row.payload (some row.txHash)
  unfold executeAndResolve at h ⊢
  obtain ⟨_, next, hrun, hrest⟩ := (succeeds_bind_iff _ _ _).mp h
  rw [after, hrun] at hsame
  change SameQueue db next at hsame
  obtain ⟨_, written, hcall, _⟩ := (succeeds_bind_iff _ _ _).mp hrest
  have hwritten : written = next := by
    rw [exec_prismaCall] at hcall
    split at hcall <;> cases hcall
    rfl
  subst hwritten
  simp only [after, exec_bind, hrun, hcall, exec_modify, Db.resolveFailure, hsame.1, hsame.2,
    and_self]

theorem executeAndResolve_of_fails (h : ¬ Succeeds (executeAndResolve env row) db) :
    SameQueue db (after (executeAndResolve env row) db) := by
  have hsame := sameQueue_executeHandler env db row.eventName row.payload (some row.txHash)
  unfold executeAndResolve at h ⊢
  cases hrun : exec (executeHandler env row.eventName row.payload (some row.txHash)) db with
  | mk outcome next =>
      rw [after, hrun] at hsame
      cases outcome with
      | error error =>
          rw [after, exec_bind, hrun]
          exact hsame
      | ok value =>
          cases hcall : env.fails .resolveWrite with
          | true =>
              simp only [after, exec_bind, hrun, exec_prismaCall, hcall]
              exact hsame
          | false =>
              refine absurd ⟨(), ?_⟩ h
              simp only [exec_bind, hrun, exec_prismaCall, hcall, Bool.false_eq_true,
                ↓reduceIte, exec_modify]

theorem retryFailedEvent_of_succeeds (h : Succeeds (executeAndResolve env row) db) :
    Succeeds (retryFailedEvent env row) db ∧
      after (retryFailedEvent env row) db = after (executeAndResolve env row) db := by
  obtain ⟨value, hvalue⟩ := h
  unfold retryFailedEvent Succeeds after
  rw [exec_tryCatch]
  cases hrun : exec (executeAndResolve env row) db with
  | mk outcome next =>
      rw [hrun] at hvalue
      cases hvalue
      exact ⟨⟨_, rfl⟩, rfl⟩

/-- A failed attempt whose record is rejected ends the job and is forgotten. -/
theorem retryFailedEvent_of_unrecorded (h : ¬ Succeeds (executeAndResolve env row) db)
    (hwrite : env.fails .attemptWrite = true) :
    ¬ Succeeds (retryFailedEvent env row) db ∧
      SameQueue db (after (retryFailedEvent env row) db) := by
  obtain ⟨error, hrun⟩ := error_of_not_succeeds h
  have hsame := executeAndResolve_of_fails h
  have hexec : exec (retryFailedEvent env row) db =
      (.error (.unavailable .attemptWrite), after (executeAndResolve env row) db) := by
    unfold retryFailedEvent
    rw [exec_tryCatch, hrun]
    simp only [exec_bind, exec_prismaCall, hwrite, ↓reduceIte]
  refine ⟨?_, by rw [after, hexec]; exact hsame⟩
  rintro ⟨value, hvalue⟩
  rw [hexec] at hvalue
  cases hvalue

/-- A recorded one counts, and alerts when the count reaches the limit. -/
theorem retryFailedEvent_of_recorded (h : ¬ Succeeds (executeAndResolve env row) db)
    (hwrite : env.fails .attemptWrite = false) :
    ∃ error,
      (after (retryFailedEvent env row) db).failedEvents =
        (db.recordAttempt row.key (row.attemptCount + 1) env.now error).failedEvents ∧
      (after (retryFailedEvent env row) db).adminAlerts =
        (if row.attemptCount + 1 ≥ MAX_ATTEMPTS ∧ env.fails .adminRead = false then
          db.adminAlerts ++ [⟨row.key, error⟩] else db.adminAlerts) ∧
      (Succeeds (retryFailedEvent env row) db ↔
        row.attemptCount + 1 < MAX_ATTEMPTS ∨ env.fails .adminRead = false) := by
  obtain ⟨error, hrun⟩ := error_of_not_succeeds h
  have hsame := executeAndResolve_of_fails h
  refine ⟨error, ?_⟩
  unfold retryFailedEvent alertAdmins Succeeds after
  rw [exec_tryCatch, hrun]
  simp only [exec_bind, exec_prismaCall, hwrite, Bool.false_eq_true, ↓reduceIte, exec_modify,
    exec_ite]
  by_cases hlimit : row.attemptCount + 1 ≥ MAX_ATTEMPTS
  · have hnot : ¬ row.attemptCount + 1 < MAX_ATTEMPTS := by omega
    cases hadmin : env.fails .adminRead <;>
      simp [hlimit, hnot, Db.recordAttempt, hsame.1, hsame.2]
  · have hlt : row.attemptCount + 1 < MAX_ATTEMPTS := by omega
    simp [hlimit, hlt, Db.recordAttempt, hsame.1, hsame.2]

end Retry

end ChainSettle
