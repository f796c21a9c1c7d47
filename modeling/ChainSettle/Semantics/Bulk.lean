import ChainSettle.Semantics.Preferences

/-!
What the confirming and rejecting operations answer and send, next to what they write.
Each operation sends its notifications after its writes, with the row of the shipment
that it has read first; `notifyUser` throws nothing.
-/

namespace ChainSettle

open Lib

/-- The arguments of a call of `notifyUser`. -/
structure NotifyRequest where
  recipient : String
  type : NotificationType
  title : String
  message : String
  data : List (String × Json)

/-- The `summary` of a batch. -/
structure BulkSummary where
  total : Nat
  succeeded : Nat
  failed : Nat
deriving DecidableEq

/-- What a batch answers, and what it has sent. -/
structure BulkResponse where
  results : List BulkResult
  summary : BulkSummary
  sent : List NotifyRequest

def bulkSummary (total succeeded : Nat) : BulkSummary :=
  ⟨total, succeeded, total - succeeded⟩

/-- The supplier in the row that an operation on a shipment reads first. -/
def Db.supplierAddress (db : Db) (shipmentId : String) : String :=
  ((db.shipments.find? shipmentId).map Shipment.supplierAddress).getD ""

section Confirm

structure ConfirmRequest extends BulkConfirmItem where
  txHash : String
deriving DecidableEq

def paymentReleasedNotice (db : Db) (shipmentId : String) (item : ConfirmRequest) :
    NotifyRequest where
  recipient := db.supplierAddress shipmentId
  type := .paymentReleased
  title := "Payment released"
  message := s!"Payment has been released for milestone {item.milestoneIndex} on shipment " ++
    s!"{shipmentId}. Tx: {item.txHash}"
  data := [("shipmentId", .str shipmentId), ("milestoneIndex", .num item.milestoneIndex),
    ("paymentReleased", .str item.paymentReleased), ("txHash", .str item.txHash)]

def confirmAndNotify (env : Env) (shipmentId callerAddress : String) (item : ConfirmRequest) :
    Tx NotifyRequest := do
  let before ← get
  let _ ← confirmFromApi env shipmentId item.milestoneIndex callerAddress item.paymentReleased
  return paymentReleasedNotice before shipmentId item

/-- The items that a batch goes on with. -/
def acceptedItems (db : Db) (shipmentId : String) (items : List ConfirmRequest) :
    List ConfirmRequest :=
  items.filter fun item => (bulkRefusal db shipmentId "confirm" item.milestoneIndex).isNone

def bulkConfirmAndNotify (env : Env) (shipmentId callerAddress : String)
    (items : List ConfirmRequest) : Tx BulkResponse := do
  let before ← get
  let results ← bulkConfirmFromApi env shipmentId callerAddress
    (items.map ConfirmRequest.toBulkConfirmItem)
  let toConfirm := acceptedItems before shipmentId items
  return {
    results
    summary := bulkSummary items.length toConfirm.length
    sent := toConfirm.map (paymentReleasedNotice before shipmentId) }

end Confirm

section Reject

/-- The name is that of the row as it was read. -/
def proofRejectedNotice (db : Db) (shipmentId reason : String) (milestoneIndex : Int) :
    NotifyRequest :=
  let name := ((db.liveMilestone shipmentId milestoneIndex).map Milestone.name).getD ""
  { recipient := db.supplierAddress shipmentId
    type := .proofRejected
    title := "Proof rejected — resubmission requested"
    message := s!"Your proof for milestone {milestoneIndex} (\"" ++ name ++
      s!"\") on shipment {shipmentId} was rejected. Reason: {reason}"
    data := [("shipmentId", .str shipmentId), ("milestoneIndex", .num milestoneIndex),
      ("reason", .str reason)] }

def rejectAndNotify (env : Env) (shipmentId buyerAddress reason : String) (milestoneIndex : Int) :
    Tx NotifyRequest := do
  let before ← get
  let _ ← rejectProof env shipmentId milestoneIndex buyerAddress
  return proofRejectedNotice before shipmentId reason milestoneIndex

def acceptedIndices (db : Db) (shipmentId : String) (indices : List Int) : List Int :=
  indices.filter fun i => (bulkRefusal db shipmentId "reject" i).isNone

def bulkRejectAndNotify (env : Env) (shipmentId buyerAddress reason : String)
    (indices : List Int) : Tx BulkResponse := do
  let before ← get
  let results ← bulkRejectFromApi env shipmentId buyerAddress indices
  let toReject := acceptedIndices before shipmentId indices
  return {
    results
    summary := bulkSummary indices.length toReject.length
    sent := toReject.map (proofRejectedNotice before shipmentId reason) }

end Reject

end ChainSettle
