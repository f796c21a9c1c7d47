import ChainSettle.Lib.Calls
import ChainSettle.Semantics.Shipments

/-!
The milestone operations and the sync cut at their awaits. A `Call` is one of
them suspended before its next statement, with the locals that the rest of it
uses; `Call.statement` is that statement followed by the checks up to the next
await. Statements and transactions are atomic, everything else interleaves.

The three guarded `mark*` helpers are shared by the API and the event handlers,
so their two statements are one pair of suspensions with what comes after as a
parameter. `assertQuorum` counts as one statement. What a call does after its
last write only reads and notifies, and is left out.

`World` adds to the database the contract's current records and, as a history
variable, the milestone updates committed so far with the status each of them
found.
-/

namespace ChainSettle

open Lib Lib.Eff

/-- Who makes an update: an API call or an event handler. -/
inductive Origin where
  | api | event
deriving DecidableEq

/-- Which of the guarded `mark*` helpers is running. -/
inductive Mark where
  | proofSubmitted (proofHash : String)
  | confirmed (paymentReleased : Int)
  | disputed
deriving DecidableEq

def Mark.message : Mark → String
  | .proofSubmitted _ => "Cannot submit proof for a cancelled shipment"
  | .confirmed _ => "Cannot confirm a milestone for a cancelled shipment"
  | .disputed => "Cannot raise a dispute for a cancelled shipment"

def Mark.write (now : Nat) : Mark → MilestoneWrite
  | .proofSubmitted proofHash => .proofSubmitted proofHash
  | .confirmed paymentReleased => .confirmed paymentReleased now
  | .disputed => .disputed now

/-- What a call still has to write after its milestone update. -/
inductive Follow where
  | done
  | record (row : ProofSubmission)
  | sync (shipmentId : String)
deriving DecidableEq

structure SubmitProofCall where
  shipmentId : String
  milestoneIndex : Int
  callerAddress : String
  file : ProofFile
deriving DecidableEq

structure ConfirmCall where
  shipmentId : String
  milestoneIndex : Int
  callerAddress : String
  paymentReleased : String
deriving DecidableEq

/-- A call suspended before the statement its constructor names. -/
inductive Call where
  -- `submitProof`
  | submitShipment (call : SubmitProofCall)
  | submitMilestone (call : SubmitProofCall)
  | submitUpload (call : SubmitProofCall) (milestoneId : String)
  | record (row : ProofSubmission)
  -- `confirmFromApi`
  | confirmShipment (call : ConfirmCall)
  | confirmQuorum (call : ConfirmCall)
  | confirmMilestone (call : ConfirmCall)
  -- `rejectProof`
  | rejectShipment (shipmentId : String) (milestoneIndex : Int) (buyerAddress : String)
  | rejectMilestone (shipmentId : String) (milestoneIndex : Int)
  -- `bulkConfirmFromApi` and `bulkRejectFromApi`
  | bulkConfirmShipment (shipmentId callerAddress : String) (items : List BulkConfirmItem)
  | bulkConfirmQuorum (shipmentId : String) (toConfirm : List BulkConfirmItem)
  | bulkRejectShipment (shipmentId buyerAddress : String) (indices : List Int)
  | transaction (writes : List (MilestoneKey × MilestoneWrite)) (follow : Follow)
  -- the `mark*` helpers
  | markGuard (origin : Origin) (shipmentId : String) (index : Option Int) (mark : Mark)
      (follow : Follow)
  | update (origin : Origin) (shipmentId : String) (index : Option Int) (write : MilestoneWrite)
      (follow : Follow)
  -- `handleMilestoneConfirmed` and `handleDisputeResolved`
  | confirmedEvent (payload : Json)
  | resolvedEvent (payload : Json)
  -- `syncStatusFromChain`
  | syncRead (shipmentId : String)
  | syncWrite (shipmentId : String) (status : ShipmentStatus) (releasedAmount : Int)

/-- The rest of a call whose milestone update went through. -/
def Follow.rest : Follow → Option Call
  | .done => none
  | .record row => some (.record row)
  | .sync shipmentId => some (.syncRead shipmentId)

/-- The statement a call is suspended before, and the checks that follow it. -/
def Call.statement (env : Env) : Call → Tx (Option Call)
  | .submitShipment call => do
      match ← shipmentFindUnique env .shipmentRead call.shipmentId with
      | none => throw (.notFound s!"Shipment {call.shipmentId} not found")
      | some shipment =>
          if shipment.status = .cancelled then
            throw (.conflict s!"Cannot submit proof: shipment {call.shipmentId} is CANCELLED")
          if shipment.supplierAddress ≠ call.callerAddress ∧
              shipment.logisticsAddress ≠ call.callerAddress then
            throw (.forbidden "Only the shipment supplier or logistics provider may submit proof")
          return some (.submitMilestone call)
  | .submitMilestone call => do
      let milestone ← findOne env call.shipmentId call.milestoneIndex
      return some (.submitUpload call milestone.id)
  | .submitUpload call milestoneId =>
      match env.uploadFile with
      | none => throw .uploadFailed
      | some cid =>
          return some (.markGuard .api call.shipmentId (some call.milestoneIndex)
            (.proofSubmitted cid)
            (.record ⟨milestoneId, cid, call.callerAddress, call.file.sha256, call.file.size⟩))
  | .record row => do
      prismaCall env .proofCreate
      modify fun db => { db with proofSubmissions := db.proofSubmissions ++ [row] }
      return none
  | .confirmShipment call => do
      match ← shipmentFindUnique env .shipmentRead call.shipmentId with
      | none => throw (.notFound s!"Shipment {call.shipmentId} not found")
      | some shipment =>
          if shipment.buyerAddress ≠ call.callerAddress then
            throw (.forbidden "Only the shipment buyer may confirm milestones")
          return some (.confirmQuorum call)
  | .confirmQuorum call => do
      assertQuorum env call.shipmentId
      return some (.confirmMilestone call)
  | .confirmMilestone call => do
      let milestone ← findOne env call.shipmentId call.milestoneIndex
      if milestone.status ≠ .proofSubmitted then
        throw (.conflict (s!"Milestone {call.milestoneIndex} must be in PROOF_SUBMITTED status " ++
          s!"to confirm (currently {milestone.status.name})"))
      match bigIntOfString call.paymentReleased with
      | none => throw .invalidValue
      | some amount =>
          return some (.markGuard .api call.shipmentId (some call.milestoneIndex)
            (.confirmed amount) (.sync call.shipmentId))
  | .rejectShipment shipmentId milestoneIndex buyerAddress => do
      match ← shipmentFindUnique env .shipmentRead shipmentId with
      | none => throw (.notFound s!"Shipment {shipmentId} not found")
      | some shipment =>
          if shipment.buyerAddress ≠ buyerAddress then
            throw (.forbidden "Only the shipment buyer may reject a proof")
          return some (.rejectMilestone shipmentId milestoneIndex)
  | .rejectMilestone shipmentId milestoneIndex => do
      let milestone ← findOne env shipmentId milestoneIndex
      if milestone.status ≠ .proofSubmitted then
        throw (.conflict (s!"Milestone {milestoneIndex} must be in PROOF_SUBMITTED status " ++
          s!"to reject (currently {milestone.status.name})"))
      return some (.update .api shipmentId (some milestoneIndex) .proofRejected .done)
  | .bulkConfirmShipment shipmentId callerAddress items => do
      match ← shipmentFindUnique env .shipmentRead shipmentId with
      | none => throw (.notFound s!"Shipment {shipmentId} not found")
      | some shipment =>
          -- the same query returns the milestones
          let snapshot ← get
          if shipment.buyerAddress ≠ callerAddress then
            throw (.forbidden "Only the shipment buyer may confirm milestones")
          if shipment.status = .cancelled then
            throw (.conflict "Cannot confirm a milestone for a cancelled shipment")
          return some (.bulkConfirmQuorum shipmentId (items.filter fun item =>
            (bulkRefusal snapshot shipmentId "confirm" item.milestoneIndex).isNone))
  | .bulkConfirmQuorum shipmentId toConfirm => do
      assertQuorum env shipmentId
      if toConfirm = [] then return none
      match bulkConfirmWrites env shipmentId toConfirm with
      | none => throw .invalidValue
      | some writes => return some (.transaction writes (.sync shipmentId))
  | .bulkRejectShipment shipmentId buyerAddress indices => do
      match ← shipmentFindUnique env .shipmentRead shipmentId with
      | none => throw (.notFound s!"Shipment {shipmentId} not found")
      | some shipment =>
          let snapshot ← get
          if shipment.buyerAddress ≠ buyerAddress then
            throw (.forbidden "Only the shipment buyer may reject a proof")
          let toReject := indices.filter fun i =>
            (bulkRefusal snapshot shipmentId "reject" i).isNone
          if toReject = [] then return none
          return some (.transaction (toReject.map fun i => ((shipmentId, i), .proofRejected)) .done)
  | .transaction writes follow => do
      milestoneTransaction env writes
      return follow.rest
  | .markGuard origin shipmentId index mark follow => do
      let shipment ← shipmentFindUnique env .guardRead shipmentId
      if shipment.map Shipment.status = some .cancelled then throw (.conflict mark.message)
      return some (.update origin shipmentId index (mark.write env.now) follow)
  | .update _ shipmentId index write follow => do
      let _ ← milestoneUpdate env shipmentId index write
      return follow.rest
  | .confirmedEvent payload => do
      let existing ← milestoneFindUnique env (payloadShipment payload) (payloadIndex payload)
      if existing.map Milestone.status = some .confirmed then return none
      match payloadAmount payload with
      | none => throw .invalidValue
      | some amount =>
          return some (.markGuard .event (payloadShipment payload) (payloadIndex payload)
            (.confirmed amount) (.sync (payloadShipment payload)))
  | .resolvedEvent payload => do
      let _ ← milestoneFindUnique env (payloadShipment payload) (payloadIndex payload)
      return some (.update .event (payloadShipment payload) (payloadIndex payload)
        (.resolved (payloadApproved payload) none env.now) .done)
  | .syncRead shipmentId =>
      match env.getShipment shipmentId with
      | none => return none
      | some onChain =>
          match statusMap onChain.status with
          | none => return none
          | some status => return some (.syncWrite shipmentId status onChain.releasedAmount)
  | .syncWrite shipmentId status releasedAmount => do
      if env.fails .syncWrite ∨ ¬ fitsBigInt releasedAmount then return none
      modify fun db =>
        { db with
          shipments := db.shipments.modify shipmentId (Shipment.sync status releasedAmount)
            (Shipment.sync_id status releasedAmount) }
      return none

/-- The calls as they begin. The `proof_submitted` and `dispute_raised` handlers
begin with the guard of their helper, and the reconciliation job with the sync. -/
def Call.starts : Call → Bool
  | .submitShipment _ | .confirmShipment _ | .rejectShipment _ _ _ | .bulkConfirmShipment _ _ _
  | .bulkRejectShipment _ _ _ | .confirmedEvent _ | .resolvedEvent _ | .syncRead _ => true
  | .markGuard .event _ _ (.proofSubmitted proofHash) .done => proofHash = ""
  | .markGuard .event _ _ .disputed .done => true
  | _ => false

/-- A committed milestone update and the status it found. -/
structure Committed where
  origin : Origin
  key : MilestoneKey
  found : MilestoneStatus
  write : MilestoneWrite
deriving DecidableEq

structure World where
  db : Db
  /-- the contract's record of each shipment -/
  chain : String → ContractState
  /-- the milestone updates committed so far -/
  history : List Committed

/-- The milestone updates that the statement makes when it does not throw. -/
def Call.writes : Call → List (MilestoneKey × MilestoneWrite)
  | .update _ shipmentId (some index) write _ => [((shipmentId, index), write)]
  | .transaction writes _ => writes
  | _ => []

/-- Only the API runs transactions. -/
def Call.origin : Call → Origin
  | .update origin _ _ _ _ => origin
  | _ => .api

/-- The same updates, with the status each finds before the statement. -/
def Call.commits (db : Db) (call : Call) : List Committed :=
  call.writes.filterMap fun (key, write) =>
    (db.milestones.find? key).map fun m => ⟨call.origin, key, m.status, write⟩

/-- A call whose statement throws is over. -/
def Call.resume (env : Env) (w : World) (call : Call) : World × Option Call :=
  match exec (call.statement env) w.db with
  | (.ok rest, db) => ({ w with db := db, history := w.history ++ call.commits w.db }, rest)
  | (.error _, db) => ({ w with db := db }, none)

/-- The contract's record of a shipment changes. -/
structure ChainMove where
  shipmentId : String
  record : ContractState
deriving DecidableEq

/-- The service: calls in flight over a database, and a contract that moves on
its own. -/
def service : CallSystem World Call Env ChainMove where
  starts := Call.starts
  resume := Call.resume
  external move w := { w with chain := Function.update w.chain move.shipmentId move.record }

abbrev Service := Calls World Call

abbrev ServiceAction := CallAction Call Env ChainMove

/-- No call in flight. -/
def Service.idle (db : Db) (chain : String → ContractState) : Service :=
  ⟨⟨db, chain, []⟩, fun _ => none⟩

end ChainSettle
