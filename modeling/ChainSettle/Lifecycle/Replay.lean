import ChainSettle.Lib.Run
import ChainSettle.Lifecycle.Handlers

/-!
Replaying events that were already processed. A backfill of an old range and a
cursor rewind both feed a stretch of the event history through
`processEventForBackfill` again, at a later time and with whatever faults and
chain answers occur then.

`Inert` says, per event, when the handler finds nothing to do or to overwrite
in a given state. An inert event leaves the tables as they are, so a stretch of
inert events does; an event that is not inert is seen to change something as
soon as it is replayed alone.
-/

namespace ChainSettle

open Lib Lib.Eff

/-- One event of the live stream, to its end. -/
def liveStep (db : Db) (delivery : Env × RawEvent) : Db :=
  after (processEvent delivery.1 delivery.2) db

def replayStep (db : Db) (delivery : Env × RawEvent) : Db :=
  after (processEventForBackfill delivery.1 delivery.2) db

/-- The columns of a milestone that a replay must not disturb. -/
def Milestone.view (m : Milestone) :
    MilestoneStatus × Option String × Option Int × Option Nat × Option Nat :=
  (m.status, m.proofHash, m.paymentReleased, m.confirmedAt, m.disputedAt)

def Shipment.view (s : Shipment) : ShipmentStatus × Option Nat × Option String :=
  (s.status, s.cancelledAt, s.refundTxHash)

def SameView (db db' : Db) : Prop :=
  (∀ key, (db'.milestones.find? key).map Milestone.view =
    (db.milestones.find? key).map Milestone.view) ∧
  ∀ id, (db'.shipments.find? id).map Shipment.view = (db.shipments.find? id).map Shipment.view

/-- Every replay of a contiguous stretch of `events`, whatever the clock, the
faults and the chain's answers are, leaves the view as it is. -/
def ReplayIdempotent (db : Db) (events : List RawEvent) : Prop :=
  ∀ run : List (Env × RawEvent), run.map Prod.snd <:+: events →
    SameView db (run.foldl replayStep db)

/-- The handler of the event finds nothing to change in this state. -/
def Inert (db : Db) (event : RawEvent) : Prop :=
  let payload := extractPayload event
  match handlerOf (extractEventName event) with
  | none | some .shipmentCreated => True
  | some .proofSubmitted =>
      db.cancelled (payloadShipment payload) = true ∨
        ∀ m, db.payloadRow payload = some m →
          m.status = .proofSubmitted ∧ m.proofHash = some ""
  | some .milestoneConfirmed =>
      db.cancelled (payloadShipment payload) = true ∨
        (∀ m, db.payloadRow payload = some m → m.status = .confirmed) ∨
        ∀ amount, payloadAmount payload = some amount → ¬ fitsBigInt amount
  | some .disputeRaised =>
      db.cancelled (payloadShipment payload) = true ∨ db.payloadRow payload = none
  | some .disputeResolved =>
      ∀ m, db.payloadRow payload = some m →
        m.status = if payloadApproved payload then .resolved else .pending
  | some .shipmentCancelled => db.shipments.find? (payloadShipment payload) = none

section Inert

variable (env : Env) (db : Db) (payload : Json)

theorem writePayload_eq_self {write : MilestoneWrite}
    (h : ∀ m, db.payloadRow payload = some m → write.apply m = m) :
    db.writePayload payload write = db := by
  unfold Db.writePayload Db.writeAt
  split
  · rfl
  · rename_i i hindex
    have hfixed : ∀ m, db.milestones.find? (payloadShipment payload, i) = some m →
        write.apply m = m := by
      intro m hm
      exact h m (by rw [Db.payloadRow, hindex]; exact hm)
    unfold Db.writeMilestone
    rw [Table.modify_eq_self _ _ _ hfixed]

/-- An inert event's handler leaves the database alone, in every execution. -/
theorem after_runHandler_of_inert {event : RawEvent} (h : Inert db event) :
    after (executeHandler env (extractEventName event) (extractPayload event) event.txHash) db =
      db := by
  unfold executeHandler
  unfold Inert at h
  cases hhandler : handlerOf (extractEventName event) with
  | none => rfl
  | some handler =>
      simp only [hhandler] at h
      cases handler with
      | shipmentCreated => rfl
      | proofSubmitted =>
          change after (handleProofSubmitted env (extractPayload event)) db = db
          rw [after_handleProofSubmitted]
          split
          · rename_i hmarked
            rcases h with hcancelled | hsame
            · rw [hmarked.2.1] at hcancelled
              cases hcancelled
            · apply writePayload_eq_self
              intro m hm
              obtain ⟨hstatus, hhash⟩ := hsame m hm
              cases m
              simp_all [MilestoneWrite.apply]
          · rfl
      | milestoneConfirmed =>
          change after (handleMilestoneConfirmed env (extractPayload event)) db = db
          apply after_handleMilestoneConfirmed_of_not_confirms
          rintro amount ⟨_, hstatus, hamount, hmarked⟩
          rcases h with hcancelled | hconfirmed | hoversized
          · rw [hmarked.2.1] at hcancelled
            cases hcancelled
          · obtain ⟨m, hm⟩ := Option.isSome_iff_exists.mp hmarked.2.2.2.2
            apply hstatus
            have hrow : db.payloadRow (extractPayload event) = some m := hm
            rw [hrow, Option.map_some, hconfirmed m hm]
          · exact hoversized amount hamount hmarked.2.2.2.1
      | disputeRaised =>
          change after (handleDisputeRaised env (extractPayload event)) db = db
          rw [after_handleDisputeRaised]
          split
          · rename_i hmarked
            rcases h with hcancelled | hnone
            · rw [hmarked.2.1] at hcancelled
              cases hcancelled
            · exact writePayload_eq_self db _ fun m hm => by simp [hnone] at hm
          · rfl
      | disputeResolved =>
          change after (handleDisputeResolved env (extractPayload event)) db = db
          rw [after_handleDisputeResolved]
          split
          · apply writePayload_eq_self
            intro m hm
            rw [apply_resolved, ← h m hm]
          · rfl
      | shipmentCancelled =>
          change after (handleShipmentCancelled env (extractPayload event) event.txHash) db = db
          rw [after_handleShipmentCancelled]
          split
          · rfl
          · unfold Db.cancelShipment
            rw [Table.modify_eq_self _ _ _ fun row hrow => by simp [h] at hrow]

end Inert

section Replaying

variable (env : Env) (db : Db) (event : RawEvent)

theorem replayStep_eq :
    ∃ chainEvents, replayStep db (env, event) =
      after (executeHandler env (extractEventName event) (extractPayload event) event.txHash)
        { db with chainEvents := chainEvents } := by
  obtain ⟨chainEvents, hsave⟩ := exec_saveRawEvent env db (extractPayload event) event
    (extractEventName event)
  refine ⟨chainEvents, ?_⟩
  unfold replayStep processEventForBackfill
  rw [after_bind, hsave]

/-- Without faults the event log does not depend on the clock. -/
theorem replayStep_calm :
    ∃ chainEvents, ∀ now, replayStep db (.calm now, event) =
      after (executeHandler (.calm now) (extractEventName event) (extractPayload event)
        event.txHash) { db with chainEvents := chainEvents } := by
  obtain ⟨chainEvents, hsave⟩ := exec_saveRawEvent (.calm 0) db (extractPayload event) event
    (extractEventName event)
  refine ⟨chainEvents, fun now => ?_⟩
  have hclock : exec (saveRawEvent (.calm now) (extractEventName event) event
      (extractPayload event)) db = (.ok (), { db with chainEvents := chainEvents }) := hsave
  unfold replayStep processEventForBackfill
  rw [after_bind, hclock]

/-- Replaying inert events, in any number, can only add to the event log. -/
theorem replay_of_inert {run : List (Env × RawEvent)}
    (h : ∀ delivery ∈ run, Inert db delivery.2) :
    ∃ chainEvents, run.foldl replayStep db = { db with chainEvents := chainEvents } := by
  induction run generalizing db with
  | nil => exact ⟨db.chainEvents, rfl⟩
  | cons delivery rest ih =>
      obtain ⟨env, event⟩ := delivery
      obtain ⟨chainEvents, hstep⟩ := replayStep_eq env db event
      -- inertness does not look at the event log
      have hinert : Inert { db with chainEvents := chainEvents } event := h (env, event) (.head _)
      rw [after_runHandler_of_inert env _ hinert] at hstep
      rw [List.foldl_cons, hstep]
      exact ih _ fun delivery hdelivery => h delivery (.tail _ hdelivery)

end Replaying

section Changing

variable {db : Db} {payload : Json} {m : Milestone}

theorem row_of_payloadRow (write : MilestoneWrite) (hm : db.payloadRow payload = some m) :
    ∃ key, db.milestones.find? key = some m ∧
      (db.writePayload payload write).milestones.find? key = some (write.apply m) := by
  unfold Db.payloadRow Db.rowAt at hm
  obtain ⟨i, hindex, hfind⟩ := Option.bind_eq_some_iff.mp hm
  refine ⟨(payloadShipment payload, i), hfind, ?_⟩
  unfold Db.writePayload Db.writeAt
  rw [hindex]
  exact (Table.find?_modify_self _ _ _ write.apply_key).trans (by rw [hfind]; rfl)

/-- A write that alters the row it addresses shows in the view. -/
theorem not_sameView_of_write {write : MilestoneWrite} {db' : Db}
    (hm : db.payloadRow payload = some m)
    (hdb' : db'.milestones = (db.writePayload payload write).milestones)
    (hchange : (write.apply m).view ≠ m.view) : ¬ SameView db db' := by
  intro h
  obtain ⟨key, hbefore, hafter⟩ := row_of_payloadRow write hm
  have hview := h.1 key
  rw [hdb', hafter, hbefore] at hview
  exact hchange (Option.some.inj hview)

theorem marked_calm (write : MilestoneWrite) (now : Nat)
    (hlive : db.cancelled (payloadShipment payload) = false)
    (hm : db.payloadRow payload = some m) (hstorable : write.Storable) :
    MarkedPayload (.calm now) db write payload :=
  ⟨rfl, hlive, rfl, hstorable, Option.isSome_iff_exists.mpr ⟨m, hm⟩⟩

/-- A clock reading that the column does not hold. -/
theorem fresh_ne (recorded : Option Nat) : some (recorded.getD 0 + 1) ≠ recorded := by
  cases recorded with
  | none => nofun
  | some now =>
      intro h
      have := Option.some.inj h
      simp at this

/-- An event that is not inert changes the view in some fault-free replay. -/
theorem replay_changes_of_not_inert {event : RawEvent} (h : ¬ Inert db event) :
    ∃ now, ¬ SameView db
      (after (executeHandler (.calm now) (extractEventName event) (extractPayload event)
        event.txHash) db) := by
  unfold executeHandler
  unfold Inert at h
  cases hhandler : handlerOf (extractEventName event) with
  | none => simp [hhandler] at h
  | some handler =>
      simp only [hhandler] at h
      cases handler with
      | shipmentCreated => exact absurd trivial h
      | proofSubmitted =>
          push Not at h
          obtain ⟨hlive, m, hm, hother⟩ := h
          refine ⟨0, ?_⟩
          change ¬ SameView _ (after (handleProofSubmitted _ _) _)
          rw [after_handleProofSubmitted,
            if_pos (marked_calm (.proofSubmitted "") 0 (Bool.eq_false_iff.mpr hlive) hm trivial)]
          refine not_sameView_of_write hm rfl ?_
          intro hview
          simp only [Milestone.view, MilestoneWrite.apply, Prod.mk.injEq] at hview
          exact hother hview.1.symm hview.2.1.symm
      | milestoneConfirmed =>
          push Not at h
          obtain ⟨hlive, ⟨m, hm, hstatus⟩, amount, hamount, hfits⟩ := h
          refine ⟨0, ?_⟩
          have hconfirms : Confirms (.calm 0) db (extractPayload event) amount :=
            ⟨rfl, by simpa [hm] using hstatus, hamount,
              marked_calm _ 0 (Bool.eq_false_iff.mpr hlive) hm hfits⟩
          change ¬ SameView _ (after (handleMilestoneConfirmed _ _) _)
          rw [after_handleMilestoneConfirmed_of_confirms _ _ _ hconfirms,
            after_sync_of_unreachable _ _ _ rfl]
          refine not_sameView_of_write hm rfl ?_
          intro hview
          simp only [Milestone.view, MilestoneWrite.apply, Prod.mk.injEq] at hview
          exact hstatus hview.1.symm
      | disputeRaised =>
          push Not at h
          obtain ⟨hlive, hrow⟩ := h
          obtain ⟨m, hm⟩ := Option.ne_none_iff_exists'.mp hrow
          refine ⟨m.disputedAt.getD 0 + 1, ?_⟩
          change ¬ SameView _ (after (handleDisputeRaised _ _) _)
          rw [after_handleDisputeRaised,
            if_pos (marked_calm (.disputed _) _ (Bool.eq_false_iff.mpr hlive) hm trivial)]
          refine not_sameView_of_write hm rfl ?_
          intro hview
          simp only [Milestone.view, MilestoneWrite.apply, Prod.mk.injEq] at hview
          exact fresh_ne m.disputedAt hview.2.2.2.2
      | disputeResolved =>
          push Not at h
          obtain ⟨m, hm, hstatus⟩ := h
          refine ⟨0, ?_⟩
          have hresolves : Resolves (.calm 0) db (extractPayload event) :=
            ⟨rfl, rfl, trivial, Option.isSome_iff_exists.mpr ⟨m, hm⟩⟩
          change ¬ SameView _ (after (handleDisputeResolved _ _) _)
          rw [after_handleDisputeResolved, if_pos hresolves]
          refine not_sameView_of_write hm rfl ?_
          intro hview
          simp only [Milestone.view, apply_resolved, Prod.mk.injEq] at hview
          exact hstatus hview.1.symm
      | shipmentCancelled =>
          obtain ⟨s, hs⟩ := Option.ne_none_iff_exists'.mp h
          refine ⟨s.cancelledAt.getD 0 + 1, ?_⟩
          change ¬ SameView _ (after (handleShipmentCancelled _ _ _) _)
          rw [after_handleShipmentCancelled, if_neg (by simp [Env.calm])]
          intro hview
          have hship := hview.2 (payloadShipment (extractPayload event))
          simp only [Db.cancelShipment, Table.find?_modify_self, hs, Option.map_some,
            Option.some.injEq, Shipment.view, Shipment.cancel, Prod.mk.injEq] at hship
          exact fresh_ne s.cancelledAt hship.2.1

end Changing

/-- Let `processed` be the deliveries the service has handled, with their
faults. Replaying stretches of them is harmless exactly when each of the events
is inert in the state that was reached. -/
theorem replay_idempotent_iff_inert (db₀ : Db) (processed : List (Env × RawEvent)) :
    ReplayIdempotent (processed.foldl liveStep db₀) (processed.map Prod.snd) ↔
      ∀ event ∈ processed.map Prod.snd, Inert (processed.foldl liveStep db₀) event := by
  generalize processed.foldl liveStep db₀ = db
  generalize processed.map Prod.snd = events
  constructor
  · intro h event hevent
    by_contra hinert
    obtain ⟨chainEvents, hstep⟩ := replayStep_calm db event
    have hinert' : ¬ Inert { db with chainEvents := chainEvents } event := hinert
    obtain ⟨now, hchange⟩ := replay_changes_of_not_inert hinert'
    apply hchange
    rw [← hstep now]
    -- the event alone is a contiguous stretch of the history
    exact h [(.calm now, event)] ((List.singleton_infix_iff event events).mpr hevent)
  · intro h run hrun
    have hinert : ∀ delivery ∈ run, Inert db delivery.2 := by
      intro delivery hdelivery
      exact h _ (hrun.subset (List.mem_map_of_mem hdelivery))
    obtain ⟨chainEvents, hreplay⟩ := replay_of_inert db hinert
    rw [hreplay]
    exact ⟨fun _ => rfl, fun _ => rfl⟩

/-- The history of a paid milestone. -/
def paidHistory : List (Env × RawEvent) :=
  [(.calm 1, proofEvent), (.calm 2, confirmEvent)]

/-- Replaying its first event re-opens the milestone. -/
theorem replay_reopens_paid :
    ¬ ReplayIdempotent (paidHistory.foldl liveStep (Db.demo .pending))
      (paidHistory.map Prod.snd) := by
  intro h
  have hsame := h [(.calm 3, proofEvent)] ⟨[], [confirmEvent], rfl⟩
  have hview := hsame.1 ("SHIP-1", 0)
  revert hview
  decide

end ChainSettle
