import ChainSettle.Dlq.Queue

/-!
Is every failed event kept? The queue has one row per (txHash, eventName) and
the update branch of the upsert keeps the old payload, so the answer depends
on which failed events share a key, on what the queue held before, and on the
payload `null`, which is stored as an empty object.

`Traced` describes the queue after any stream without any assumption; the
theorem is read off from it.
-/

namespace ChainSettle

open Lib Lib.Eff

def streamStep (db : Db) (delivery : Env × RawEvent) : Db :=
  after (streamCallback delivery.1 delivery.2) db

/-- A handler of the event threw at some point of the stream. -/
def FailedIn : Db → List (Env × RawEvent) → RawEvent → Prop
  | _, [], _ => False
  | db, delivery :: rest, event =>
      (delivery.2 = event ∧ ¬ Succeeds (processEvent delivery.1 delivery.2) db) ∨
        FailedIn (streamStep db delivery) rest event

/-- Executing the row's stored event executes this event again. -/
def FailedEvent.Reexecutes (row : FailedEvent) (event : RawEvent) : Prop :=
  row.eventName = extractEventName event ∧ row.payload = extractPayload event ∧
    row.txHash = event.txHash.getD ""

/-- Every failed event has a row of its own from which it can be re-executed. -/
def NothingLost (db : Db) (stream : List (Env × RawEvent)) : Prop :=
  ∃ rowOf : RawEvent → FailedEvent,
    (∀ event, FailedIn db stream event →
      rowOf event ∈ (stream.foldl streamStep db).failedEvents.rows ∧
        (rowOf event).Reexecutes event) ∧
    ∀ first second, FailedIn db stream first → FailedIn db stream second → first ≠ second →
      (rowOf first).key ≠ (rowOf second).key

/-- The queue can hold the event: a row that is already there has its payload,
or there is none and the payload is not `null`. -/
def Storable (db : Db) (event : RawEvent) : Prop :=
  match db.failedEvents.find? event.dlqKey with
  | some row => row.payload = extractPayload event
  | none => extractPayload event ≠ .null

/-- How the queue after a stream comes about: old rows keep their payload,
every failed event has a row under its key, and a row that was not there
before holds the payload of some failed event. -/
structure Traced (before : Table FailedEvent.key) (failed : RawEvent → Prop)
    (queue : Table FailedEvent.key) : Prop where
  kept : ∀ key old, before.find? key = some old →
    ∃ row, queue.find? key = some row ∧ row.payload = old.payload
  stored : ∀ event, failed event → ∃ row, queue.find? event.dlqKey = some row
  source : ∀ key row, queue.find? key = some row →
    (∃ old, before.find? key = some old) ∨
      ∃ event, failed event ∧ event.dlqKey = key ∧
        row.payload = payloadOrEmpty (extractPayload event)

section Trace

theorem traced_none (queue : Table FailedEvent.key) : Traced queue (fun _ => False) queue where
  kept _ old hold := ⟨old, hold, rfl⟩
  stored _ hfalse := hfalse.elim
  source _ row hrow := .inl ⟨row, hrow⟩

/-- One recorded failure. -/
theorem traced_recordFailure (db : Db) (now : Nat) (event : RawEvent) (error : Exn) :
    Traced db.failedEvents (fun other => event = other)
      (db.recordFailure now event error).failedEvents := by
  have hfind : ∀ key, (db.recordFailure now event error).failedEvents.find? key =
      if key = event.dlqKey then
        some ((db.failedEvents.find? event.dlqKey).elim (.create now event error)
          (FailedEvent.failAgain now error))
      else db.failedEvents.find? key :=
    Table.find?_upsert _ _ _ _
  refine ⟨?_, ?_, ?_⟩
  · intro key old hold
    rw [hfind]
    split
    · rename_i hkey
      subst hkey
      rw [hold]
      exact ⟨_, rfl, rfl⟩
    · exact ⟨old, hold, rfl⟩
  · rintro other rfl
    rw [hfind, if_pos rfl]
    exact ⟨_, rfl⟩
  · intro key row hrow
    rw [hfind] at hrow
    split at hrow
    · rename_i hkey
      subst hkey
      cases hbefore : db.failedEvents.find? event.dlqKey with
      | some old => exact .inl ⟨old, rfl⟩
      | none =>
          rw [hbefore] at hrow
          cases hrow
          exact .inr ⟨event, rfl, rfl, rfl⟩
    · exact .inl ⟨row, hrow⟩

/-- Two stretches of a stream. -/
theorem Traced.trans {before middle queue : Table FailedEvent.key}
    {failed failed' : RawEvent → Prop} (h : Traced before failed middle)
    (h' : Traced middle failed' queue) :
    Traced before (fun event => failed event ∨ failed' event) queue where
  kept key old hold := by
    obtain ⟨row, hrow, hpayload⟩ := h.kept key old hold
    obtain ⟨row', hrow', hpayload'⟩ := h'.kept key row hrow
    exact ⟨row', hrow', hpayload'.trans hpayload⟩
  stored event hfailed := by
    rcases hfailed with hfirst | hsecond
    · obtain ⟨row, hrow⟩ := h.stored event hfirst
      obtain ⟨row', hrow', _⟩ := h'.kept _ row hrow
      exact ⟨row', hrow'⟩
    · exact h'.stored event hsecond
  source key row hrow := by
    rcases h'.source key row hrow with ⟨middleRow, hmiddle⟩ | ⟨event, hfailed, hkey, hpayload⟩
    · rcases h.source key middleRow hmiddle with hold | ⟨event, hfailed, hkey, hpayload⟩
      · exact .inl hold
      · obtain ⟨row', hrow', hsame⟩ := h'.kept key middleRow hmiddle
        have heq : row' = row := Option.some.inj (hrow'.symm.trans hrow)
        exact .inr ⟨event, .inl hfailed, hkey, heq ▸ hsame.trans hpayload⟩
    · exact .inr ⟨event, .inr hfailed, hkey, hpayload⟩

theorem traced_step (db : Db) (delivery : Env × RawEvent)
    (hupsert : delivery.1.fails .failedEventUpsert = false) :
    Traced db.failedEvents
      (fun event => delivery.2 = event ∧ ¬ Succeeds (processEvent delivery.1 delivery.2) db)
      (streamStep db delivery).failedEvents := by
  by_cases hok : Succeeds (processEvent delivery.1 delivery.2) db
  · have hsame := streamCallback_of_succeeds hok
    rw [streamStep, hsame.1]
    simpa [hok] using traced_none db.failedEvents
  · obtain ⟨error, _, hqueue⟩ := streamCallback_of_fails hok
    rw [hupsert] at hqueue
    rw [streamStep, hqueue]
    simpa [hok] using traced_recordFailure db delivery.1.now delivery.2 error

theorem traced_stream (db : Db) (stream : List (Env × RawEvent))
    (hupsert : ∀ delivery ∈ stream, delivery.1.fails .failedEventUpsert = false) :
    Traced db.failedEvents (FailedIn db stream)
      (stream.foldl streamStep db).failedEvents := by
  induction stream generalizing db with
  | nil => exact traced_none db.failedEvents
  | cons delivery rest ih =>
      have hhead := traced_step db delivery (hupsert delivery (.head _))
      exact hhead.trans (ih _ fun other hother => hupsert other (.tail _ hother))

end Trace

theorem key_of_reexecutes {row : FailedEvent} {event : RawEvent} (h : row.Reexecutes event) :
    row.key = event.dlqKey :=
  Prod.ext h.2.2 h.1

theorem payloadOrEmpty_eq_self_iff (payload : Json) :
    payloadOrEmpty payload = payload ↔ payload ≠ .null := by
  cases payload <;> simp [payloadOrEmpty]

/-- A failed event that shares its key with no other one is storable exactly
when the row under its key has its payload. -/
theorem Traced.storable_iff {db : Db} {failed : RawEvent → Prop} {queue : Table FailedEvent.key}
    {event : RawEvent} {row : FailedEvent} (h : Traced db.failedEvents failed queue)
    (halone : ∀ other, failed other → other.dlqKey = event.dlqKey → other = event)
    (hfound : queue.find? event.dlqKey = some row) :
    Storable db event ↔ row.payload = extractPayload event := by
  unfold Storable
  split
  · rename_i old hold
    -- the row was there before and kept its payload
    obtain ⟨row', hrow', hpayload⟩ := h.kept _ old hold
    have heq : row' = row := Option.some.inj (hrow'.symm.trans hfound)
    rw [← heq, hpayload]
  · rename_i hnone
    -- the row was created by a failed event with this key, which is the event
    rcases h.source _ row hfound with ⟨old, hold⟩ | ⟨other, hother, hkey, hpayload⟩
    · rw [hnone] at hold
      cases hold
    · obtain rfl := halone other hother hkey
      rw [hpayload, payloadOrEmpty_eq_self_iff]

/-- Nothing is lost exactly when failed events that share (txHash, eventName)
are one event and the queue can hold each of them. -/
theorem nothing_lost_iff (db : Db) (stream : List (Env × RawEvent))
    (hupsert : ∀ delivery ∈ stream, delivery.1.fails .failedEventUpsert = false) :
    NothingLost db stream ↔
      (∀ first second, FailedIn db stream first → FailedIn db stream second →
        first.dlqKey = second.dlqKey → first = second) ∧
      ∀ event, FailedIn db stream event → Storable db event := by
  have htrace := traced_stream db stream hupsert
  constructor
  · rintro ⟨rowOf, hrow, hdistinct⟩
    have hsame : ∀ first second, FailedIn db stream first → FailedIn db stream second →
        first.dlqKey = second.dlqKey → first = second := by
      intro first second hfirst hsecond hkey
      by_contra hne
      apply hdistinct first second hfirst hsecond hne
      rw [key_of_reexecutes (hrow first hfirst).2, key_of_reexecutes (hrow second hsecond).2, hkey]
    refine ⟨hsame, ?_⟩
    intro event hevent
    obtain ⟨hmem, hreexecutes⟩ := hrow event hevent
    have hfound : (stream.foldl streamStep db).failedEvents.find? event.dlqKey =
        some (rowOf event) := by
      rw [← key_of_reexecutes hreexecutes]
      exact Table.find?_of_mem hmem
    have halone := fun other hother => hsame other event hother hevent
    exact (htrace.storable_iff halone hfound).mpr hreexecutes.2.1
  · rintro ⟨hsame, hstorable⟩
    -- the row of an event is the one under its key
    refine ⟨fun event => ((stream.foldl streamStep db).failedEvents.find? event.dlqKey).getD
      (.create 0 event .recordNotFound), ?_, ?_⟩
    · intro event hevent
      obtain ⟨row, hfound⟩ := htrace.stored event hevent
      simp only [hfound, Option.getD_some]
      refine ⟨Table.mem_of_find? hfound, ?_⟩
      have hkey := Table.key_of_find? hfound
      have halone := fun other hother => hsame other event hother hevent
      have hpayload := (htrace.storable_iff halone hfound).mp (hstorable event hevent)
      exact ⟨congrArg Prod.snd hkey, hpayload, congrArg Prod.fst hkey⟩
    · intro first second hfirst hsecond hne hkeys
      obtain ⟨row, hfound⟩ := htrace.stored first hfirst
      obtain ⟨row', hfound'⟩ := htrace.stored second hsecond
      simp only [hfound, hfound', Option.getD_some] at hkeys
      rw [Table.key_of_find? hfound, Table.key_of_find? hfound'] at hkeys
      exact hne (hsame first second hfirst hsecond hkeys)

/-- One failed confirmation is kept. -/
theorem single_failure_kept :
    NothingLost (Db.demo .pending) [(.guardDown 1, confirmEvent)] := by
  have honly : ∀ event, FailedIn (Db.demo .pending) [(.guardDown 1, confirmEvent)] event →
      confirmEvent = event := by
    rintro event (⟨rfl, _⟩ | hnone)
    · rfl
    · exact hnone.elim
  refine (nothing_lost_iff (Db.demo .pending) _ (by simp [Env.guardDown])).mpr ⟨?_, ?_⟩
  · intro first second hfirst hsecond _
    exact (honly first hfirst).symm.trans (honly second hsecond)
  · intro event hevent
    obtain rfl := honly event hevent
    exact nofun

/-- A transaction confirms two milestones and both handlers fail: the second
failure is merged into the row of the first. -/
theorem batch_failure_merged :
    ¬ NothingLost (Db.demo .pending)
      [(.guardDown 1, confirmEvent), (.guardDown 2, batchConfirmEvent)] := by
  rintro ⟨rowOf, hrow, hdistinct⟩
  have hfirst : FailedIn (Db.demo .pending)
      [(.guardDown 1, confirmEvent), (.guardDown 2, batchConfirmEvent)] confirmEvent :=
    .inl ⟨rfl, by decide⟩
  have hsecond : FailedIn (Db.demo .pending)
      [(.guardDown 1, confirmEvent), (.guardDown 2, batchConfirmEvent)] batchConfirmEvent :=
    .inr (.inl ⟨rfl, by decide⟩)
  have hne : confirmEvent ≠ batchConfirmEvent := by
    intro heq
    exact absurd (congrArg RawEvent.id heq) (by decide)
  apply hdistinct _ _ hfirst hsecond hne
  rw [key_of_reexecutes (hrow _ hfirst).2, key_of_reexecutes (hrow _ hsecond).2]
  decide

end ChainSettle
