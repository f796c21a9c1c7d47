import ChainSettle.Lifecycle.Handlers

/-!
Does the raw event log hold every processed event? `saveRawEvent` writes one
row per (txHash, eventName), leaves an existing row as it is, and swallows the
violation of the foreign key when the payload names a shipment that has no row
yet. So the answer depends on which events share a transaction, on what the log
held before, and on the shipments that exist when an event is delivered.

`Recorded` describes the log after any stream without any assumption on it; the
theorem is read off from it.
-/

namespace ChainSettle

open Lib Lib.Eff

/-- What happens while a stream of events is processed: an event is delivered
on the live or on the backfill path, or the API creates a shipment. -/
inductive LogStep where
  | live (env : Env) (event : RawEvent)
  | backfill (env : Env) (event : RawEvent)
  | created (shipment : Shipment)

namespace LogStep

def run (db : Db) : LogStep → Db
  | .live env event => after (processEvent env event) db
  | .backfill env event => after (processEventForBackfill env event) db
  | .created shipment => { db with shipments := db.shipments.insert shipment }

/-- The event that the step processes. -/
def event? : LogStep → Option RawEvent
  | .live _ event | .backfill _ event => some event
  | .created _ => none

/-- The database is available to the log. -/
def Available : LogStep → Prop
  | .live env _ | .backfill env _ => env.fails .rawEventWrite = false
  | .created _ => True

end LogStep

/-- The row that `saveRawEvent` creates for an event. -/
def RawEvent.logRow (event : RawEvent) : ChainEvent where
  shipmentId := (extractShipmentId (extractPayload event)).filter (· ≠ "")
  eventName := extractEventName event
  ledger := event.ledger
  txHash := event.txHash.getD ""
  payload := payloadOrEmpty (extractPayload event)

/-- The foreign key of the event's row is satisfied. -/
def Db.admits (db : Db) (event : RawEvent) : Bool :=
  event.logRow.shipmentId.all fun id => (db.shipments.find? id).isSome

/-- The row carries the event's own transaction, ledger, name and payload. -/
def ChainEvent.Carries (row : ChainEvent) (event : RawEvent) : Prop :=
  row.txHash = event.txHash.getD "" ∧ row.eventName = extractEventName event ∧
    row.ledger = event.ledger ∧ row.payload = event.value

def ProcessedIn (steps : List LogStep) (event : RawEvent) : Prop :=
  ∃ step ∈ steps, step.event? = some event

/-- At one of the event's deliveries its shipment had a row. -/
def AdmittedIn : Db → List LogStep → RawEvent → Prop
  | _, [], _ => False
  | db, step :: rest, event =>
      (step.event? = some event ∧ db.admits event = true) ∨ AdmittedIn (step.run db) rest event

/-- Every processed event has a row of its own that carries it. -/
def LogComplete (db : Db) (steps : List LogStep) : Prop :=
  ∃ rowOf : RawEvent → ChainEvent,
    (∀ event, ProcessedIn steps event →
      rowOf event ∈ (steps.foldl LogStep.run db).chainEvents.rows ∧
        (rowOf event).Carries event) ∧
    ∀ first second, ProcessedIn steps first → ProcessedIn steps second → first ≠ second →
      (rowOf first).key ≠ (rowOf second).key

/-- The log can hold the event: a row that is already there carries it, or
there is none, the event has a payload, and its shipment had a row at one of
its deliveries. -/
def Loggable (db : Db) (steps : List LogStep) (event : RawEvent) : Prop :=
  match db.chainEvents.find? event.logRow.key with
  | some row => row.ledger = event.ledger ∧ row.payload = event.value
  | none => event.value.truthy = true ∧ AdmittedIn db steps event

/-- How the log after a stream comes about: old rows stay as they are, an
admitted event has a row under its key, and a new row is the one of some
admitted event. -/
structure Recorded (before : Table ChainEvent.key) (admitted : RawEvent → Prop)
    (log : Table ChainEvent.key) : Prop where
  kept : ∀ key old, before.find? key = some old → log.find? key = some old
  stored : ∀ event, admitted event → ∃ row, log.find? event.logRow.key = some row
  source : ∀ key row, log.find? key = some row →
    before.find? key = some row ∨
      ∃ event, admitted event ∧ event.logRow.key = key ∧ row = event.logRow

section Steps

variable (env : Env) (db : Db) (event : RawEvent)

/-- No handler touches the log. -/
theorem chainEvents_after_executeHandler (eventName : String) (payload : Json)
    (txHash : Option String) :
    (after (executeHandler env eventName payload txHash) db).chainEvents = db.chainEvents := by
  unfold executeHandler
  rcases runHandler_cases env db payload (handlerOf eventName) txHash with
    hsame | ⟨write, hwrite⟩ | ⟨amount, hconfirmed⟩ | hcancelled
  · rw [hsame]
  · rw [hwrite]
    unfold Db.writePayload Db.writeAt
    split <;> rfl
  · obtain ⟨shipments, hsync, _⟩ := sync_frame env
      (db.writePayload payload (.confirmed amount env.now)) (payloadShipment payload)
    rw [hconfirmed, hsync]
    unfold Db.writePayload Db.writeAt
    split <;> rfl
  · rw [hcancelled]
    rfl

/-- With the database available the row is inserted, unless its foreign key is
violated. -/
theorem exec_saveRawEvent_of_available (havailable : env.fails .rawEventWrite = false) :
    exec (saveRawEvent env (extractEventName event) event (extractPayload event)) db =
      (.ok (), if db.admits event = true then
        { db with chainEvents := db.chainEvents.insert event.logRow } else db) := by
  have hdangling : (event.logRow.shipmentId.any fun id => (db.shipments.find? id).isNone) =
      !db.admits event := by
    unfold Db.admits
    cases event.logRow.shipmentId with
    | none => rfl
    | some id => simp
  unfold saveRawEvent
  rw [exec_bind, exec_get]
  simp only [exec_ite, havailable, Bool.false_eq_true, false_or]
  change (if (event.logRow.shipmentId.any fun id => (db.shipments.find? id).isNone) = true
    then _ else _) = _
  rw [hdangling]
  cases db.admits event <;> rfl

/-- Both paths log the event and then run its handler. -/
theorem chainEvents_after_process {step : LogStep} (hevent : step.event? = some event)
    (havailable : step.Available) :
    (step.run db).chainEvents =
      if db.admits event = true then db.chainEvents.insert event.logRow else db.chainEvents := by
  cases step with
  | created => cases hevent
  | live env other =>
      obtain rfl : other = event := Option.some.inj hevent
      simp only [LogStep.run, processEvent]
      rw [after_bind, exec_saveRawEvent_of_available env db other havailable]
      simp only
      rw [after_bind_readOnly _ (fun _ _ => after_publishGraphqlUpdate ..),
        chainEvents_after_executeHandler]
      split <;> rfl
  | backfill env other =>
      obtain rfl : other = event := Option.some.inj hevent
      simp only [LogStep.run, processEventForBackfill]
      rw [after_bind, exec_saveRawEvent_of_available env db other havailable]
      simp only
      rw [chainEvents_after_executeHandler]
      split <;> rfl

end Steps

section Trace

theorem recorded_none (log : Table ChainEvent.key) : Recorded log (fun _ => False) log where
  kept _ _ hold := hold
  stored _ hfalse := hfalse.elim
  source _ _ hrow := .inl hrow

theorem recorded_insert (log : Table ChainEvent.key) (event : RawEvent) :
    Recorded log (fun other => event = other) (log.insert event.logRow) where
  kept key old hold := by
    rw [Table.find?_insert, hold]
    rfl
  stored other hother := by
    subst hother
    rw [Table.find?_insert, if_pos rfl]
    cases log.find? event.logRow.key with
    | none => exact ⟨event.logRow, rfl⟩
    | some row => exact ⟨row, rfl⟩
  source key row hrow := by
    rw [Table.find?_insert] at hrow
    cases hold : log.find? key with
    | some old =>
        rw [hold] at hrow
        exact .inl hrow
    | none =>
        rw [hold, Option.none_or] at hrow
        split at hrow
        · rename_i hkey
          exact .inr ⟨event, rfl, hkey.symm, (Option.some.inj hrow).symm⟩
        · cases hrow

/-- Two stretches of a stream. -/
theorem Recorded.trans {before middle log : Table ChainEvent.key}
    {admitted admitted' : RawEvent → Prop} (h : Recorded before admitted middle)
    (h' : Recorded middle admitted' log) :
    Recorded before (fun event => admitted event ∨ admitted' event) log where
  kept key old hold := h'.kept key old (h.kept key old hold)
  stored event hadmitted := by
    rcases hadmitted with hfirst | hsecond
    · obtain ⟨row, hrow⟩ := h.stored event hfirst
      exact ⟨row, h'.kept _ row hrow⟩
    · exact h'.stored event hsecond
  source key row hrow := by
    rcases h'.source key row hrow with hmiddle | ⟨event, hadmitted, hkey, rfl⟩
    · rcases h.source key row hmiddle with hbefore | ⟨event, hadmitted, hkey, rfl⟩
      · exact .inl hbefore
      · exact .inr ⟨event, .inl hadmitted, hkey, rfl⟩
    · exact .inr ⟨event, .inr hadmitted, hkey, rfl⟩

theorem recorded_step (db : Db) (step : LogStep) (havailable : step.Available) :
    Recorded db.chainEvents (fun event => step.event? = some event ∧ db.admits event = true)
      (step.run db).chainEvents := by
  cases hevent : step.event? with
  | none =>
      have hsame : (step.run db).chainEvents = db.chainEvents := by
        cases step with
        | created shipment => rfl
        | _ => cases hevent
      rw [hsame]
      simpa using recorded_none db.chainEvents
  | some event =>
      rw [chainEvents_after_process db event hevent havailable]
      by_cases hadmits : db.admits event = true
      · have hpredicate : (fun other => some event = some other ∧ db.admits other = true) =
            fun other => event = other := by
          funext other
          rw [Option.some.injEq]
          exact propext ⟨And.left, fun h => ⟨h, h ▸ hadmits⟩⟩
        rw [if_pos hadmits, hpredicate]
        exact recorded_insert db.chainEvents event
      · have hpredicate : (fun other => some event = some other ∧ db.admits other = true) =
            fun _ => False := by
          funext other
          rw [Option.some.injEq]
          exact propext ⟨fun h => hadmits (h.1 ▸ h.2), False.elim⟩
        rw [if_neg hadmits, hpredicate]
        exact recorded_none db.chainEvents

theorem recorded_run (db : Db) (steps : List LogStep)
    (havailable : ∀ step ∈ steps, step.Available) :
    Recorded db.chainEvents (AdmittedIn db steps) (steps.foldl LogStep.run db).chainEvents := by
  induction steps generalizing db with
  | nil => exact recorded_none db.chainEvents
  | cons step rest ih =>
      have hhead := recorded_step db step (havailable step (.head _))
      exact hhead.trans (ih _ fun other hother => havailable other (.tail _ hother))

end Trace

section Result

variable {db : Db} {steps : List LogStep} {event : RawEvent}

theorem key_of_carries {row : ChainEvent} (h : row.Carries event) : row.key = event.logRow.key :=
  Prod.ext h.1 h.2.1

theorem processed_of_admitted (h : AdmittedIn db steps event) : ProcessedIn steps event := by
  induction steps generalizing db with
  | nil => exact h.elim
  | cons step rest ih =>
      rcases h with ⟨hevent, _⟩ | hrest
      · exact ⟨step, .head _, hevent⟩
      · obtain ⟨other, hother, hevent⟩ := ih hrest
        exact ⟨other, .tail _ hother, hevent⟩

/-- The created row carries the event unless its value is falsy: such a value
is stored as an empty object. -/
theorem logRow_payload_iff : event.logRow.payload = event.value ↔ event.value.truthy = true := by
  have hrow : event.logRow.payload = payloadOrEmpty (extractPayload event) := rfl
  rw [hrow, extractPayload]
  constructor
  · intro hpayload
    by_contra hfalsy
    rw [if_neg hfalsy] at hpayload
    rw [← hpayload] at hfalsy
    exact hfalsy rfl
  · intro htruthy
    rw [if_pos htruthy]
    cases hvalue : event.value with
    | null =>
        rw [hvalue] at htruthy
        cases htruthy
    | _ => rfl

theorem carries_logRow (h : event.value.truthy = true) : event.logRow.Carries event :=
  ⟨rfl, rfl, rfl, logRow_payload_iff.mpr h⟩

/-- An event that shares its key with no other processed one is loggable
exactly when a row under its key carries it. -/
theorem Recorded.loggable_iff (h : Recorded db.chainEvents (AdmittedIn db steps)
      (steps.foldl LogStep.run db).chainEvents)
    (halone : ∀ other, AdmittedIn db steps other → other.logRow.key = event.logRow.key →
      other = event) :
    Loggable db steps event ↔
      ∃ row, (steps.foldl LogStep.run db).chainEvents.find? event.logRow.key = some row ∧
        row.Carries event := by
  unfold Loggable
  split
  · rename_i old hold
    -- the row was there before and stays
    have hkept := h.kept _ old hold
    have hkey := Table.key_of_find? hold
    constructor
    · intro hsame
      exact ⟨old, hkept, congrArg Prod.fst hkey, congrArg Prod.snd hkey, hsame⟩
    · rintro ⟨row, hrow, hcarries⟩
      obtain rfl : old = row := Option.some.inj (hkept.symm.trans hrow)
      exact hcarries.2.2
  · rename_i hnone
    -- a row under the key is the one of an admitted event with it, which is the event
    have hcreated : ∀ row, (steps.foldl LogStep.run db).chainEvents.find? event.logRow.key =
        some row → AdmittedIn db steps event ∧ row = event.logRow := by
      intro row hrow
      rcases h.source _ row hrow with hold | ⟨other, hother, hkey, rfl⟩
      · rw [hnone] at hold
        cases hold
      · obtain rfl := halone other hother hkey
        exact ⟨hother, rfl⟩
    constructor
    · rintro ⟨htruthy, hadmitted⟩
      obtain ⟨row, hrow⟩ := h.stored event hadmitted
      obtain ⟨_, rfl⟩ := hcreated row hrow
      exact ⟨event.logRow, hrow, carries_logRow htruthy⟩
    · rintro ⟨row, hrow, hcarries⟩
      obtain ⟨hadmitted, rfl⟩ := hcreated row hrow
      exact ⟨logRow_payload_iff.mp hcarries.2.2.2, hadmitted⟩

/-- The log is complete exactly when processed events that share (txHash,
eventName) are one event and the log can hold each of them. -/
theorem log_complete_iff (db : Db) (steps : List LogStep)
    (havailable : ∀ step ∈ steps, step.Available) :
    LogComplete db steps ↔
      (∀ first second, ProcessedIn steps first → ProcessedIn steps second →
        first.logRow.key = second.logRow.key → first = second) ∧
      ∀ event, ProcessedIn steps event → Loggable db steps event := by
  have hrecorded := recorded_run db steps havailable
  constructor
  · rintro ⟨rowOf, hrow, hdistinct⟩
    have hsame : ∀ first second, ProcessedIn steps first → ProcessedIn steps second →
        first.logRow.key = second.logRow.key → first = second := by
      intro first second hfirst hsecond hkey
      by_contra hne
      apply hdistinct first second hfirst hsecond hne
      rw [key_of_carries (hrow first hfirst).2, key_of_carries (hrow second hsecond).2, hkey]
    refine ⟨hsame, ?_⟩
    intro event hevent
    obtain ⟨hmem, hcarries⟩ := hrow event hevent
    refine (hrecorded.loggable_iff fun other hother =>
      hsame other event (processed_of_admitted hother) hevent).mpr ⟨rowOf event, ?_, hcarries⟩
    rw [← key_of_carries hcarries]
    exact Table.find?_of_mem hmem
  · rintro ⟨hsame, hloggable⟩
    have hfound : ∀ event, ProcessedIn steps event →
        ∃ row, (steps.foldl LogStep.run db).chainEvents.find? event.logRow.key = some row ∧
          row.Carries event := by
      intro event hevent
      exact (hrecorded.loggable_iff fun other hother =>
        hsame other event (processed_of_admitted hother) hevent).mp (hloggable event hevent)
    -- the row of an event is the one under its key
    refine ⟨fun event =>
      ((steps.foldl LogStep.run db).chainEvents.find? event.logRow.key).getD event.logRow, ?_, ?_⟩
    · intro event hevent
      obtain ⟨row, hrow, hcarries⟩ := hfound event hevent
      simp only [hrow, Option.getD_some]
      exact ⟨Table.mem_of_find? hrow, hcarries⟩
    · intro first second hfirst hsecond hne hkeys
      obtain ⟨row, hrow, hcarries⟩ := hfound first hfirst
      obtain ⟨row', hrow', hcarries'⟩ := hfound second hsecond
      simp only [hrow, hrow', Option.getD_some] at hkeys
      rw [key_of_carries hcarries, key_of_carries hcarries'] at hkeys
      exact hne (hsame first second hfirst hsecond hkeys)

end Result

/-- A processed event of a shipment with a row is in the log. -/
theorem single_event_logged :
    LogComplete (Db.demo .pending) [.live (.calm 1) proofEvent] := by
  have honly : ∀ event, ProcessedIn [.live (.calm 1) proofEvent] event → proofEvent = event := by
    rintro event ⟨step, hstep, hevent⟩
    rw [List.mem_singleton.mp hstep] at hevent
    exact Option.some.inj hevent
  refine (log_complete_iff _ _ (by simp [LogStep.Available, Env.calm])).mpr ⟨?_, ?_⟩
  · intro first second hfirst hsecond _
    rw [← honly first hfirst, ← honly second hsecond]
  · intro event hevent
    obtain rfl := honly event hevent
    exact ⟨rfl, .inl ⟨rfl, by decide⟩⟩

/-- One transaction confirms two milestones: the second event finds the row of
the first and is not logged. -/
theorem second_confirmation_not_logged :
    ¬ LogComplete (Db.demo .pending)
      [.live (.calm 1) confirmEvent, .live (.calm 2) batchConfirmEvent] := by
  rintro ⟨rowOf, hrow, hdistinct⟩
  have hrows : ([LogStep.live (.calm 1) confirmEvent, .live (.calm 2) batchConfirmEvent].foldl
      LogStep.run (Db.demo .pending)).chainEvents.rows = [confirmEvent.logRow] := rfl
  have hfirst : ProcessedIn [.live (.calm 1) confirmEvent, .live (.calm 2) batchConfirmEvent]
      confirmEvent := ⟨_, .head _, rfl⟩
  have hsecond : ProcessedIn [.live (.calm 1) confirmEvent, .live (.calm 2) batchConfirmEvent]
      batchConfirmEvent := ⟨_, .tail _ (.head _), rfl⟩
  have hmem := (hrow _ hfirst).1
  have hmem' := (hrow _ hsecond).1
  rw [hrows, List.mem_singleton] at hmem hmem'
  apply hdistinct _ _ hfirst hsecond
  · intro hsame
    exact absurd (congrArg RawEvent.id hsame) (by decide)
  · rw [hmem, hmem']

end ChainSettle
