import ChainSettle.Semantics.Events

/-!
What each helper and each event handler does to the database, decided from its
inputs and the state it starts in. Every function has one lemma for the state
it leaves and, where a caller depends on it, one for whether it returns
normally; the proofs about runs use these and never execute a body again.

`Written` and `Marked` list the conditions under which a milestone update is
made. An update of a row that does not exist is rejected, so the row is one of
them.
-/

namespace ChainSettle

open Lib Lib.Eff

variable (env : Env) (db : Db) (shipmentId : String) (index : Option Int)
  (write : MilestoneWrite) (payload : Json)

/-- The milestone row an index coerced from JavaScript addresses. -/
def Db.rowAt (db : Db) (shipmentId : String) (index : Option Int) : Option Milestone :=
  index.bind fun i => db.milestones.find? (shipmentId, i)

def Db.writeAt (db : Db) (shipmentId : String) (index : Option Int) (write : MilestoneWrite) :
    Db :=
  match index with
  | none => db
  | some i => db.writeMilestone (shipmentId, i) write

/-- An update of the addressed row goes through. -/
def Written : Prop :=
  env.fails .milestoneWrite = false ∧ write.Storable ∧ (db.rowAt shipmentId index).isSome

/-- The guard of the `mark*` helpers lets the update through as well. -/
def Marked : Prop :=
  env.fails .guardRead = false ∧ db.cancelled shipmentId = false ∧
    Written env db shipmentId index write

instance : Decidable (Written env db shipmentId index write) :=
  inferInstanceAs (Decidable (_ ∧ _ ∧ _))

instance : Decidable (Marked env db shipmentId index write) :=
  inferInstanceAs (Decidable (_ ∧ _ ∧ _))

/-- An execution in which nothing fails and the chain does not answer. -/
def Env.calm (now : Nat) : Env where
  now := now
  fails := fun _ => false
  getShipment := fun _ => none
  uploadFile := some "QmProof"

/-- The shipment cannot be read before the guarded update. -/
def Env.guardDown (now : Nat) : Env :=
  { Env.calm now with fails := fun call => call = .guardRead }

def demoMilestone (status : MilestoneStatus) : Milestone :=
  ⟨"m-1", "SHIP-1", 0, none, status, none, none, none, none, "Delivery", 100, none, none, none,
    none⟩

/-- One shipment with one milestone in the given status. -/
def Db.demo (status : MilestoneStatus) : Db where
  shipments := ⟨[⟨"SHIP-1", "GBUYER", "GSUPPLIER", "GLOGISTICS", 0, .active, none, none, none,
    1000, none, 7, "GARBITER", .pendingAcceptance, "CUSDC", "USDC", none, false⟩], by decide⟩
  milestones := ⟨[demoMilestone status], by simp⟩
  proofSubmissions := []
  approvals := []
  chainEvents := .empty
  failedEvents := .empty
  adminAlerts := []

/-- The participants of the shipment and one more, none of them verified. -/
def demoUsers : Table User.stellarAddress where
  rows := ["GBUYER", "GSUPPLIER", "GLOGISTICS", "GARBITER", "GOTHER"].map fun address =>
    ⟨address, .buyer, .unverified, none, none⟩
  nodup := by decide

def proofEvent : RawEvent :=
  ⟨"10-1", [some "proof_submitted"], .arr [.str "SHIP-1", .num 0], 10, some "tx-proof"⟩

theorem ordered_proofEvent : Ordered RawEvent.ledger [proofEvent] := List.pairwise_singleton _ _

def confirmEvent : RawEvent :=
  ⟨"20-1", [some "milestone_confirmed"], .arr [.str "SHIP-1", .num 0, .str "500"], 20,
    some "tx-confirm"⟩

/-- The second confirmation of the same transaction. -/
def batchConfirmEvent : RawEvent :=
  ⟨"20-2", [some "milestone_confirmed"], .arr [.str "SHIP-1", .num 1, .str "700"], 20,
    some "tx-confirm"⟩

section Calls

theorem exec_prismaCall (call : DbCall) :
    exec (prismaCall env call) db =
      if env.fails call then (.error (.unavailable call), db) else (.ok (), db) := by
  unfold prismaCall
  rw [exec_ite]
  rfl

theorem exec_shipmentFindUnique (call : DbCall) :
    exec (shipmentFindUnique env call shipmentId) db =
      if env.fails call then (.error (.unavailable call), db)
      else (.ok (db.shipments.find? shipmentId), db) := by
  unfold shipmentFindUnique
  rw [exec_bind, exec_prismaCall]
  cases env.fails call <;> rfl

theorem exec_milestoneFindUnique :
    exec (milestoneFindUnique env shipmentId index) db =
      if env.fails .milestoneRead then (.error (.unavailable .milestoneRead), db)
      else if index = none then (.error .invalidValue, db)
      else (.ok (db.rowAt shipmentId index), db) := by
  unfold milestoneFindUnique
  rw [exec_bind, exec_prismaCall]
  cases env.fails .milestoneRead with
  | true => rfl
  | false => cases index <;> rfl

@[simp] theorem after_milestoneFindUnique :
    after (milestoneFindUnique env shipmentId index) db = db := by
  unfold after
  rw [exec_milestoneFindUnique]
  split
  · rfl
  · split <;> rfl

theorem found_of_milestoneFindUnique {found : Option Milestone} {next : Db}
    (h : exec (milestoneFindUnique env shipmentId index) db = (.ok found, next)) :
    env.fails .milestoneRead = false ∧ found = db.rowAt shipmentId index ∧ next = db := by
  rw [exec_milestoneFindUnique] at h
  cases hcall : env.fails .milestoneRead with
  | true => simp [hcall] at h
  | false =>
      cases index with
      | none => simp [hcall] at h
      | some i =>
          simp only [hcall, Bool.false_eq_true, ↓reduceIte, reduceCtorEq, Prod.mk.injEq,
            Except.ok.injEq] at h
          exact ⟨rfl, h.1.symm, h.2.symm⟩

@[simp] theorem after_readRecipients : after (readRecipients env shipmentId) db = db := by
  unfold readRecipients
  rw [after_bind, exec_shipmentFindUnique]
  cases env.fails .recipientRead <;> rfl

theorem after_publishGraphqlUpdate :
    after (publishGraphqlUpdate env payload) db = db := by
  unfold publishGraphqlUpdate
  split
  · rfl
  · rfl
  · unfold after
    rw [exec_prismaCall]
    split <;> rfl

theorem milestoneUpdate_written (h : Written env db shipmentId index write) :
    ∃ m, db.rowAt shipmentId index = some m ∧
      exec (milestoneUpdate env shipmentId index write) db =
        (.ok (write.apply m), db.writeAt shipmentId index write) := by
  obtain ⟨hcall, hstorable, hrow⟩ := h
  cases index with
  | none => simp [Db.rowAt] at hrow
  | some i =>
      obtain ⟨m, hm⟩ := Option.isSome_iff_exists.mp hrow
      refine ⟨m, hm, ?_⟩
      have hfind : db.milestones.find? (shipmentId, i) = some m := hm
      unfold milestoneUpdate
      simp only [exec_bind, exec_prismaCall, hcall, exec_get, hfind, hstorable,
        not_true_eq_false, ↓reduceIte, exec_pure, exec_modify, Bool.false_eq_true]
      rfl

theorem milestoneUpdate_not_written (h : ¬ Written env db shipmentId index write) :
    ∃ err, exec (milestoneUpdate env shipmentId index write) db = (.error err, db) := by
  unfold milestoneUpdate
  simp only [exec_bind, exec_prismaCall]
  cases hcall : env.fails .milestoneWrite with
  | true => exact ⟨_, rfl⟩
  | false =>
      by_cases hstorable : write.Storable
      · cases index with
        | none => exact ⟨.invalidValue, by simp [hstorable]⟩
        | some i =>
            have hfind : db.milestones.find? (shipmentId, i) = none := by
              by_contra hrow
              exact h ⟨hcall, hstorable, by simpa [Db.rowAt, Option.isSome_iff_ne_none] using hrow⟩
            exact ⟨.recordNotFound, by simp [hstorable, exec_bind, hfind]⟩
      · exact ⟨.invalidValue, by simp [hstorable]⟩

end Calls

section Marks

variable (message : String)

theorem mark_marked (h : Marked env db shipmentId index write) :
    ∃ m, db.rowAt shipmentId index = some m ∧
      exec (markUnlessCancelled env message shipmentId index write) db =
        (.ok (write.apply m), db.writeAt shipmentId index write) := by
  obtain ⟨hguard, hlive, hwritten⟩ := h
  obtain ⟨m, hm, hrun⟩ := milestoneUpdate_written env db shipmentId index write hwritten
  refine ⟨m, hm, ?_⟩
  have hstatus : (db.shipments.find? shipmentId).map Shipment.status ≠ some .cancelled := by
    unfold Db.cancelled at hlive
    cases hship : db.shipments.find? shipmentId <;> simp_all
  unfold markUnlessCancelled
  simp only [exec_bind, exec_shipmentFindUnique, hguard, Bool.false_eq_true, ↓reduceIte,
    hstatus, hrun]

theorem mark_not_marked (h : ¬ Marked env db shipmentId index write) :
    ∃ err, exec (markUnlessCancelled env message shipmentId index write) db = (.error err, db) := by
  unfold markUnlessCancelled
  rw [exec_bind, exec_shipmentFindUnique]
  cases hguard : env.fails .guardRead with
  | true => exact ⟨_, rfl⟩
  | false =>
      simp only [Bool.false_eq_true, ↓reduceIte]
      by_cases hstatus : (db.shipments.find? shipmentId).map Shipment.status = some .cancelled
      · exact ⟨.conflict message, by simp [hstatus]⟩
      · have hlive : db.cancelled shipmentId = false := by
          unfold Db.cancelled
          cases hship : db.shipments.find? shipmentId <;> simp_all
        have hwritten : ¬ Written env db shipmentId index write :=
          fun hwritten => h ⟨hguard, hlive, hwritten⟩
        obtain ⟨err, herr⟩ := milestoneUpdate_not_written env db shipmentId index write hwritten
        exact ⟨err, by simp only [hstatus, ↓reduceIte, herr]⟩

theorem after_markUnlessCancelled :
    after (markUnlessCancelled env message shipmentId index write) db =
      if Marked env db shipmentId index write then db.writeAt shipmentId index write else db := by
  unfold after
  split
  · rename_i h
    obtain ⟨_, _, hrun⟩ := mark_marked env db shipmentId index write message h
    rw [hrun]
  · rename_i h
    obtain ⟨_, hrun⟩ := mark_not_marked env db shipmentId index write message h
    rw [hrun]

end Marks

section Sync

/-- The status and amount a sync of the shipment writes, when the chain
answers with something it can store and the write is not rejected. -/
def Env.synced (env : Env) (shipmentId : String) : Option (ShipmentStatus × Int) := do
  let onChain ← env.getShipment shipmentId
  let status ← statusMap onChain.status
  if env.fails .syncWrite ∨ ¬ fitsBigInt onChain.releasedAmount then none
  else some (status, onChain.releasedAmount)

def Db.syncShipment (db : Db) (shipmentId : String) (status : ShipmentStatus)
    (releasedAmount : Int) : Db :=
  { db with
    shipments := db.shipments.modify shipmentId (Shipment.sync status releasedAmount)
      (Shipment.sync_id status releasedAmount) }

theorem after_sync :
    after (syncStatusFromChain env shipmentId) db =
      match env.synced shipmentId with
      | none => db
      | some (status, releasedAmount) => db.syncShipment shipmentId status releasedAmount := by
  unfold syncStatusFromChain Env.synced
  cases env.getShipment shipmentId with
  | none => rfl
  | some onChain =>
      simp only [Option.bind_eq_bind, Option.bind_some]
      cases statusMap onChain.status with
      | none => rfl
      | some status =>
          simp only [Option.bind_some]
          unfold after
          rw [exec_ite]
          split <;> rfl

/-- The sync touches no milestone. -/
@[simp] theorem milestones_after_sync :
    (after (syncStatusFromChain env shipmentId) db).milestones = db.milestones := by
  rw [after_sync]
  split <;> rfl

/-- The sync touches nothing but the shipment rows, and keeps their keys. -/
theorem sync_frame : ∃ shipments : Table Shipment.id,
    after (syncStatusFromChain env shipmentId) db = { db with shipments := shipments } ∧
      ∀ id, (shipments.find? id).isSome = (db.shipments.find? id).isSome := by
  rw [after_sync]
  split
  · exact ⟨_, rfl, fun _ => rfl⟩
  · refine ⟨_, rfl, fun id => ?_⟩
    rw [Table.find?_modify]
    split
    · rename_i hid
      rw [Option.isSome_map, hid]
    · rfl

/-- A chain that cannot be read leaves everything as it is. -/
theorem after_sync_of_unreachable (h : env.getShipment shipmentId = none) :
    after (syncStatusFromChain env shipmentId) db = db := by
  rw [after_sync]
  simp [Env.synced, h]

end Sync

section Handlers

/-- The row an event's payload is about. -/
def Db.payloadRow (db : Db) (payload : Json) : Option Milestone :=
  db.rowAt (payloadShipment payload) (payloadIndex payload)

def Db.writePayload (db : Db) (payload : Json) (write : MilestoneWrite) : Db :=
  db.writeAt (payloadShipment payload) (payloadIndex payload) write

theorem shipments_writePayload :
    (db.writePayload payload write).shipments = db.shipments := by
  unfold Db.writePayload Db.writeAt
  split <;> rfl

/-- A guarded handler reaches its write. -/
abbrev MarkedPayload : Prop :=
  Marked env db (payloadShipment payload) (payloadIndex payload) write

/-- `handleDisputeResolved` reaches its write; it has no guard. -/
def Resolves : Prop :=
  env.fails .milestoneRead = false ∧
    Written env db (payloadShipment payload) (payloadIndex payload)
      (.resolved (payloadApproved payload) none env.now)

instance : Decidable (Resolves env db payload) := inferInstanceAs (Decidable (_ ∧ _))

/-- `handleMilestoneConfirmed` reaches its write of the given amount. -/
def Confirms (amount : Int) : Prop :=
  env.fails .milestoneRead = false ∧
    (db.payloadRow payload).map Milestone.status ≠ some .confirmed ∧
    payloadAmount payload = some amount ∧
    MarkedPayload env db (.confirmed amount env.now) payload

theorem after_handleProofSubmitted :
    after (handleProofSubmitted env payload) db =
      if MarkedPayload env db (.proofSubmitted "") payload then
        db.writePayload payload (.proofSubmitted "") else db := by
  unfold handleProofSubmitted
  rw [after_bind_readOnly _ (fun _ _ => after_readRecipients ..)]
  exact after_markUnlessCancelled ..

theorem after_handleDisputeRaised :
    after (handleDisputeRaised env payload) db =
      if MarkedPayload env db (.disputed env.now) payload then
        db.writePayload payload (.disputed env.now) else db := by
  unfold handleDisputeRaised
  rw [after_bind_readOnly _ (fun _ _ => after_readRecipients ..)]
  exact after_markUnlessCancelled ..

/-- Without an amount a resolution only sets the status. -/
theorem apply_resolved (approved : Bool) (at_ : Nat) (m : Milestone) :
    (MilestoneWrite.resolved approved none at_).apply m =
      { m with status := if approved then .resolved else .pending } := by
  cases approved <;> rfl

theorem after_handleDisputeResolved :
    after (handleDisputeResolved env payload) db =
      if Resolves env db payload then
        db.writePayload payload (.resolved (payloadApproved payload) none env.now) else db := by
  unfold handleDisputeResolved markResolved
  rw [after_bind_readOnly _ (fun _ _ => after_readRecipients ..), after_bind,
    exec_milestoneFindUnique]
  cases hread : env.fails .milestoneRead with
  | true => simp [Resolves, hread]
  | false =>
      cases hindex : payloadIndex payload with
      | none => simp [Resolves, Written, Db.rowAt, hindex]
      | some i =>
          simp only [Bool.false_eq_true, ↓reduceIte, reduceCtorEq]
          split
          · rename_i h
            obtain ⟨_, _, hrun⟩ := milestoneUpdate_written env db (payloadShipment payload)
              (some i) _ (hindex ▸ h.2)
            rw [after, hrun, Db.writePayload, hindex]
          · rename_i h
            have hwritten : ¬ Written env db (payloadShipment payload) (some i)
                (.resolved (payloadApproved payload) none env.now) :=
              fun hwritten => h ⟨hread, by rw [hindex]; exact hwritten⟩
            obtain ⟨_, hrun⟩ := milestoneUpdate_not_written _ _ _ _ _ hwritten
            rw [after, hrun]

theorem after_handleMilestoneConfirmed_of_confirms {amount : Int}
    (h : Confirms env db payload amount) :
    after (handleMilestoneConfirmed env payload) db =
      after (syncStatusFromChain env (payloadShipment payload))
        (db.writePayload payload (.confirmed amount env.now)) := by
  obtain ⟨hread, hstatus, hamount, hmarked⟩ := h
  obtain ⟨m, hrow, hrun⟩ := mark_marked env db _ _ _
    "Cannot confirm a milestone for a cancelled shipment" hmarked
  have hindex : payloadIndex payload ≠ none := by
    intro hnone
    rw [hnone] at hrow
    cases hrow
  unfold handleMilestoneConfirmed
  rw [after_bind, exec_milestoneFindUnique]
  simp only [hread, Bool.false_eq_true, ↓reduceIte, hindex]
  rw [if_neg (by exact hstatus), hamount]
  simp only
  rw [after_bind]
  unfold markConfirmed
  rw [hrun]
  simp only
  rw [after_bind_readOnly _ (fun _ _ => after_readRecipients ..)]
  rfl

theorem after_handleMilestoneConfirmed_of_not_confirms
    (h : ∀ amount, ¬ Confirms env db payload amount) :
    after (handleMilestoneConfirmed env payload) db = db := by
  unfold handleMilestoneConfirmed
  apply after_bind_reading (P := (· = db)) (after_milestoneFindUnique ..) rfl
  intro found hfound
  obtain ⟨hcall, rfl, _⟩ := found_of_milestoneFindUnique _ _ _ _ hfound
  split
  · rfl
  · rename_i hstatus
    split
    · rfl
    · rename_i amount hamount
      have hmarked : ¬ MarkedPayload env db (.confirmed amount env.now) payload :=
        fun hmarked => h amount ⟨hcall, hstatus, hamount, hmarked⟩
      obtain ⟨err, hrun⟩ := mark_not_marked env db _ _ _
        "Cannot confirm a milestone for a cancelled shipment" hmarked
      rw [after_bind]
      unfold markConfirmed
      rw [hrun]

theorem after_handleShipmentCancelled (txHash : Option String) :
    after (handleShipmentCancelled env payload txHash) db =
      if env.fails .shipmentWrite then db
      else db.cancelShipment (payloadShipment payload) env.now txHash := by
  unfold handleShipmentCancelled
  rw [after_bind, exec_prismaCall]
  cases env.fails .shipmentWrite with
  | true => rfl
  | false =>
      simp only [Bool.false_eq_true, ↓reduceIte]
      rw [after_bind, exec_get]
      simp only
      cases hrow : db.shipments.find? (payloadShipment payload) with
      | none =>
          unfold Db.cancelShipment
          rw [Table.modify_eq_self _ _ _ fun row h => by simp [hrow] at h]
          rfl
      | some _ => rfl

/-- Writing the raw event touches the event log only, and never throws. -/
theorem exec_saveRawEvent (event : RawEvent) (eventName : String) :
    ∃ chainEvents, exec (saveRawEvent env eventName event payload) db =
      (.ok (), { db with chainEvents := chainEvents }) := by
  unfold saveRawEvent
  simp only [exec_bind, exec_get, exec_ite]
  split
  · exact ⟨db.chainEvents, rfl⟩
  · exact ⟨_, rfl⟩

/-- The four things a handler can leave behind: nothing, one milestone update,
a confirmation followed by a sync, or a cancelled shipment. -/
theorem runHandler_cases (handler : Option Handler) (txHash : Option String) :
    after (runHandler env handler payload txHash) db = db ∨
      (∃ write, after (runHandler env handler payload txHash) db = db.writePayload payload write) ∨
      (∃ amount, after (runHandler env handler payload txHash) db =
        after (syncStatusFromChain env (payloadShipment payload))
          (db.writePayload payload (.confirmed amount env.now))) ∨
      after (runHandler env handler payload txHash) db =
        db.cancelShipment (payloadShipment payload) env.now txHash := by
  cases handler with
  | none => exact .inl rfl
  | some handler =>
      cases handler with
      | shipmentCreated => exact .inl rfl
      | proofSubmitted =>
          simp only [runHandler, after_handleProofSubmitted]
          split
          · exact .inr (.inl ⟨_, rfl⟩)
          · exact .inl rfl
      | disputeRaised =>
          simp only [runHandler, after_handleDisputeRaised]
          split
          · exact .inr (.inl ⟨_, rfl⟩)
          · exact .inl rfl
      | disputeResolved =>
          simp only [runHandler, after_handleDisputeResolved]
          split
          · exact .inr (.inl ⟨_, rfl⟩)
          · exact .inl rfl
      | milestoneConfirmed =>
          simp only [runHandler]
          by_cases hconfirms : ∃ amount, Confirms env db payload amount
          · obtain ⟨amount, hamount⟩ := hconfirms
            exact .inr (.inr (.inl ⟨amount,
              after_handleMilestoneConfirmed_of_confirms _ _ _ hamount⟩))
          · exact .inl (after_handleMilestoneConfirmed_of_not_confirms _ _ _
              fun amount hamount => hconfirms ⟨amount, hamount⟩)
      | shipmentCancelled =>
          simp only [runHandler, after_handleShipmentCancelled]
          split
          · exact .inl rfl
          · exact .inr (.inr (.inr rfl))

end Handlers

end ChainSettle
