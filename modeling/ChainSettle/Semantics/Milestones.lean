import ChainSettle.Semantics.Database

/-!
`MilestonesService`: the helpers the event handlers call (`markProofSubmitted`,
`markConfirmed`, `markDisputed`, `markResolved`) and the API operations that
write a milestone, together with the two functions of other services they
call, `ShipmentApprovalsService.assertQuorum` and
`ShipmentsService.syncStatusFromChain`. Notifications, logs and metrics do not
feed back into any of these and are left out.
-/

namespace ChainSettle

open Lib

/-- The gate of milestone confirmation. -/
def assertQuorum (env : Env) (shipmentId : String) : Tx Unit := do
  prismaCall env .quorumRead
  let db ← get
  match (db.shipments.find? shipmentId).bind Shipment.requiredApprovals with
  | none => pure ()
  | some required =>
      let count := (db.approvals.filter fun a => a.shipmentId = shipmentId).length
      if count < required then
        throw (.forbidden (s!"Shipment {shipmentId} requires {required} approvals " ++
          s!"before a milestone can be confirmed. {count} recorded so far."))

def statusMap : String → Option ShipmentStatus
  | "Active" => some .active
  | "Completed" => some .completed
  | "Cancelled" => some .cancelled
  | _ => none

def Shipment.sync (status : ShipmentStatus) (releasedAmount : Int) (s : Shipment) : Shipment :=
  { s with status := status, releasedAmount := releasedAmount }

@[simp] theorem Shipment.sync_id (status : ShipmentStatus) (releasedAmount : Int) (s : Shipment) :
    (s.sync status releasedAmount).id = s.id := rfl

/-- Never throws: an RPC failure, a missing shipment, an unknown status and a
rejected write are logged and swallowed. -/
def syncStatusFromChain (env : Env) (shipmentId : String) : Tx Unit :=
  match env.getShipment shipmentId with
  | none => pure ()
  | some onChain =>
      match statusMap onChain.status with
      | none => pure ()
      | some status =>
          if env.fails .syncWrite ∨ ¬ fitsBigInt onChain.releasedAmount then pure ()
          else modify fun db =>
            { db with
              shipments := db.shipments.modify shipmentId
                (Shipment.sync status onChain.releasedAmount)
                (Shipment.sync_id status onChain.releasedAmount) }

/-- The common body of three of the `mark*` helpers: the shipment is read, a
cancelled one is refused, then the row is updated whatever its status is. -/
def markUnlessCancelled (env : Env) (message shipmentId : String)
    (milestoneIndex : Option Int) (write : MilestoneWrite) : Tx Milestone := do
  let shipment ← shipmentFindUnique env .guardRead shipmentId
  if shipment.map Shipment.status = some .cancelled then throw (.conflict message)
  milestoneUpdate env shipmentId milestoneIndex write

def markProofSubmitted (env : Env) (shipmentId : String) (milestoneIndex : Option Int)
    (proofHash : String) : Tx Milestone :=
  markUnlessCancelled env "Cannot submit proof for a cancelled shipment"
    shipmentId milestoneIndex (.proofSubmitted proofHash)

def markConfirmed (env : Env) (shipmentId : String) (milestoneIndex : Option Int)
    (paymentReleased : Int) : Tx Milestone :=
  markUnlessCancelled env "Cannot confirm a milestone for a cancelled shipment"
    shipmentId milestoneIndex (.confirmed paymentReleased env.now)

def markDisputed (env : Env) (shipmentId : String) (milestoneIndex : Option Int) :
    Tx Milestone :=
  markUnlessCancelled env "Cannot raise a dispute for a cancelled shipment"
    shipmentId milestoneIndex (.disputed env.now)

/-- Unlike its siblings this helper does not look at the shipment. The row it
reads first only feeds a metric. -/
def markResolved (env : Env) (shipmentId : String) (milestoneIndex : Option Int)
    (approved : Bool) (paymentReleased : Option Int) : Tx Milestone := do
  let _ ← milestoneFindUnique env shipmentId milestoneIndex
  milestoneUpdate env shipmentId milestoneIndex (.resolved approved paymentReleased env.now)

def findOne (env : Env) (shipmentId : String) (milestoneIndex : Int) : Tx Milestone := do
  let found ← milestoneFindUnique env shipmentId (some milestoneIndex)
  match found.filter fun m => m.deletedAt.isNone with
  | none => throw (.notFound s!"Milestone {milestoneIndex} not found on shipment {shipmentId}")
  | some m => return m

structure ProofFile where
  sha256 : String
  size : Nat
deriving DecidableEq

def submitProof (env : Env) (shipmentId : String) (milestoneIndex : Int)
    (callerAddress : String) (file : ProofFile) : Tx (Milestone × String) := do
  match ← shipmentFindUnique env .shipmentRead shipmentId with
  | none => throw (.notFound s!"Shipment {shipmentId} not found")
  | some shipment =>
      if shipment.status = .cancelled then
        throw (.conflict s!"Cannot submit proof: shipment {shipmentId} is CANCELLED")
      if shipment.supplierAddress ≠ callerAddress ∧ shipment.logisticsAddress ≠ callerAddress then
        throw (.forbidden "Only the shipment supplier or logistics provider may submit proof")
      let milestone ← findOne env shipmentId milestoneIndex
      match env.uploadFile with
      | none => throw .uploadFailed
      | some cid =>
          let updated ← markProofSubmitted env shipmentId (some milestoneIndex) cid
          prismaCall env .proofCreate
          modify fun db =>
            { db with
              proofSubmissions := db.proofSubmissions ++
                [⟨milestone.id, cid, callerAddress, file.sha256, file.size⟩] }
          prismaCall env .checklistRead
          return (updated, cid)

def confirmFromApi (env : Env) (shipmentId : String) (milestoneIndex : Int)
    (callerAddress paymentReleased : String) : Tx Milestone := do
  match ← shipmentFindUnique env .shipmentRead shipmentId with
  | none => throw (.notFound s!"Shipment {shipmentId} not found")
  | some shipment =>
      if shipment.buyerAddress ≠ callerAddress then
        throw (.forbidden "Only the shipment buyer may confirm milestones")
      assertQuorum env shipmentId
      let milestone ← findOne env shipmentId milestoneIndex
      if milestone.status ≠ .proofSubmitted then
        throw (.conflict (s!"Milestone {milestoneIndex} must be in PROOF_SUBMITTED status " ++
          s!"to confirm (currently {milestone.status.name})"))
      match bigIntOfString paymentReleased with
      | none => throw .invalidValue
      | some amount =>
          let updated ← markConfirmed env shipmentId (some milestoneIndex) amount
          syncStatusFromChain env shipmentId
          return updated

/-- Only the shipment's buyer, only from `PROOF_SUBMITTED`. -/
def rejectProof (env : Env) (shipmentId : String) (milestoneIndex : Int)
    (buyerAddress : String) : Tx Milestone := do
  match ← shipmentFindUnique env .shipmentRead shipmentId with
  | none => throw (.notFound s!"Shipment {shipmentId} not found")
  | some shipment =>
      if shipment.buyerAddress ≠ buyerAddress then
        throw (.forbidden "Only the shipment buyer may reject a proof")
      let milestone ← findOne env shipmentId milestoneIndex
      if milestone.status ≠ .proofSubmitted then
        throw (.conflict (s!"Milestone {milestoneIndex} must be in PROOF_SUBMITTED status " ++
          s!"to reject (currently {milestone.status.name})"))
      milestoneUpdate env shipmentId (some milestoneIndex) .proofRejected

structure BulkResult where
  milestoneIndex : Int
  success : Bool
  error : Option String
deriving DecidableEq

/-- The row that `byIndex` holds for an index: rows that are not soft-deleted. -/
def Db.liveMilestone (db : Db) (shipmentId : String) (milestoneIndex : Int) : Option Milestone :=
  (db.milestones.find? (shipmentId, milestoneIndex)).filter fun m => m.deletedAt.isNone

/-- Why a batch refuses an index, if it does. -/
def bulkRefusal (db : Db) (shipmentId verb : String) (milestoneIndex : Int) : Option String :=
  match db.liveMilestone shipmentId milestoneIndex with
  | none => some s!"Milestone {milestoneIndex} not found on shipment {shipmentId}"
  | some m =>
      if m.status ≠ .proofSubmitted then
        some (s!"Milestone {milestoneIndex} must be in PROOF_SUBMITTED status " ++
          s!"to {verb} (currently {m.status.name})")
      else none

/-- The response lists the request's indices in order. Refusals are recorded
before successes and a later record of the same index replaces an earlier one. -/
def bulkResults (refused : List (Int × String)) (accepted indices : List Int) :
    List BulkResult :=
  let results := refused.map (fun (i, message) => ⟨i, false, some message⟩) ++
    accepted.map fun i => ⟨i, true, none⟩
  indices.map fun i =>
    (results.reverse.find? fun r => r.milestoneIndex = i).getD ⟨i, false, some "Unknown error"⟩

/-- The indices of a batch that are refused, with the reason. -/
def bulkRefused (db : Db) (shipmentId verb : String) (indices : List Int) : List (Int × String) :=
  indices.filterMap fun i => (bulkRefusal db shipmentId verb i).map (i, ·)

structure BulkConfirmItem where
  milestoneIndex : Int
  paymentReleased : String
deriving DecidableEq

/-- `BigInt` of every amount; one malformed amount fails the whole batch before
anything is written. -/
def bulkConfirmWrites (env : Env) (shipmentId : String) (items : List BulkConfirmItem) :
    Option (List (MilestoneKey × MilestoneWrite)) :=
  items.mapM fun item => do
    let amount ← bigIntOfString item.paymentReleased
    return ((shipmentId, item.milestoneIndex), .confirmed amount env.now)

def bulkConfirmFromApi (env : Env) (shipmentId callerAddress : String)
    (items : List BulkConfirmItem) : Tx (List BulkResult) := do
  match ← shipmentFindUnique env .shipmentRead shipmentId with
  | none => throw (.notFound s!"Shipment {shipmentId} not found")
  | some shipment =>
      -- one query returns the shipment together with its milestones
      let snapshot ← get
      if shipment.buyerAddress ≠ callerAddress then
        throw (.forbidden "Only the shipment buyer may confirm milestones")
      if shipment.status = .cancelled then
        throw (.conflict "Cannot confirm a milestone for a cancelled shipment")
      assertQuorum env shipmentId
      let indices := items.map BulkConfirmItem.milestoneIndex
      let refused := bulkRefused snapshot shipmentId "confirm" indices
      let toConfirm := items.filter fun item =>
        (bulkRefusal snapshot shipmentId "confirm" item.milestoneIndex).isNone
      if toConfirm ≠ [] then
        match bulkConfirmWrites env shipmentId toConfirm with
        | none => throw .invalidValue
        | some writes =>
            milestoneTransaction env writes
            syncStatusFromChain env shipmentId
      return bulkResults refused (toConfirm.map BulkConfirmItem.milestoneIndex) indices

def bulkRejectFromApi (env : Env) (shipmentId buyerAddress : String) (indices : List Int) :
    Tx (List BulkResult) := do
  match ← shipmentFindUnique env .shipmentRead shipmentId with
  | none => throw (.notFound s!"Shipment {shipmentId} not found")
  | some shipment =>
      let snapshot ← get
      if shipment.buyerAddress ≠ buyerAddress then
        throw (.forbidden "Only the shipment buyer may reject a proof")
      let refused := bulkRefused snapshot shipmentId "reject" indices
      let toReject := indices.filter fun i => (bulkRefusal snapshot shipmentId "reject" i).isNone
      if toReject ≠ [] then
        milestoneTransaction env (toReject.map fun i => ((shipmentId, i), .proofRejected))
      return bulkResults refused toReject indices

end ChainSettle
