import ChainSettle.Lib.Double
import ChainSettle.Semantics.Events
import Mathlib.Data.List.MinMax

/-!
`ShipmentsService` as far as it moves a shipment's status or reports what was
paid or refunded, and `ReconciliationJob`, the weekly comparison with the
contract. `shipmentCreate` is the nested insert in which both `create` and
`clone` end; the checks that precede it do not look at the columns used here.

The reconciliation job simulates `get_shipment` itself before it calls
`syncStatusFromChain`, which asks the contract once more. The two answers are
separate inputs. The job's row in `reconciliation_runs` is what it returns.
Notifications swallow their own failures and are left out.

`TransactionBuilderService` is here up to the point where it turns to the network: the checks
of `prepareConfirmMilestone` and `prepareCancelShipment`, and the contract invocation each of
them offers for signing. Building, simulating and assembling the transaction is the Stellar
SDK's and the RPC node's part and is a parameter, `build`.
-/

namespace ChainSettle

open Lib

/-- The contract's record of one shipment. -/
structure ContractState where
  status : ShipmentStatus
  releasedAmount : Int
deriving DecidableEq

/-- The columns of a row that mirror the contract. -/
def Shipment.mirrored (s : Shipment) : ContractState := ⟨s.status, s.releasedAmount⟩

/-- The contract's spelling of a status. -/
def onChainName : ShipmentStatus → String
  | .active => "Active"
  | .completed => "Completed"
  | .cancelled => "Cancelled"

@[simp] theorem statusMap_onChainName (status : ShipmentStatus) :
    statusMap (onChainName status) = some status := by
  cases status <;> rfl

def ContractState.onChain (c : ContractState) : OnChainShipment :=
  ⟨onChainName c.status, c.releasedAmount⟩

/-- The columns `prisma.shipment.create` is given. -/
structure NewShipment where
  id : String
  buyerAddress : String
  supplierAddress : String
  logisticsAddress : String
  requiredApprovals : Option Nat
  totalAmount : Int
  txHash : Option String
  tokenDecimals : Nat
  arbiterAddress : String
  tokenAddress : String
  tokenSymbol : String
  referenceNumber : Option String
  isDraft : Bool
deriving DecidableEq

/-- One element of the nested `checklistItems.create`. -/
structure NewChecklistItem where
  label : String
  required : Bool
deriving DecidableEq

/-- One element of the nested `milestones.create`; the id is generated. -/
structure NewMilestone where
  id : String
  name : String
  paymentPercent : Int
  dueAt : Option Int
  checklistItems : List NewChecklistItem
deriving DecidableEq

/-- The inserted row: what is not given starts at the column's default. -/
def NewShipment.row (new : NewShipment) : Shipment where
  id := new.id
  buyerAddress := new.buyerAddress
  supplierAddress := new.supplierAddress
  logisticsAddress := new.logisticsAddress
  releasedAmount := 0
  status := .active
  requiredApprovals := new.requiredApprovals
  cancelledAt := none
  refundTxHash := none
  totalAmount := new.totalAmount
  txHash := new.txHash
  tokenDecimals := new.tokenDecimals
  arbiterAddress := new.arbiterAddress
  arbiterStatus := .pendingAcceptance
  tokenAddress := new.tokenAddress
  tokenSymbol := new.tokenSymbol
  referenceNumber := new.referenceNumber
  isDraft := new.isDraft

def NewMilestone.row (shipmentId : String) (milestoneIndex : Int) (new : NewMilestone) :
    Milestone where
  id := new.id
  shipmentId := shipmentId
  milestoneIndex := milestoneIndex
  proofHash := none
  status := .pending
  paymentReleased := none
  confirmedAt := none
  disputedAt := none
  deletedAt := none
  name := new.name
  paymentPercent := new.paymentPercent
  dueAt := new.dueAt
  overdueNotifiedAt := none
  overdueReminder3dAt := none
  disputeEscalatedAt := none

/-- The milestones are numbered by their position. -/
def milestoneRows (shipmentId : String) (milestones : List NewMilestone) : List Milestone :=
  milestones.mapIdx fun index new => new.row shipmentId index

/-- A taken id violates the primary key and nothing is inserted. -/
def shipmentCreate (env : Env) (new : NewShipment) (milestones : List NewMilestone) : Tx Unit := do
  prismaCall env .shipmentWrite
  if ((← get).shipments.find? new.id).isSome then throw .invalidValue
  modify fun db =>
    { db with
      shipments := db.shipments.insert new.row
      milestones := (milestoneRows new.id milestones).foldl Table.insert db.milestones }

section Cancellation

/-- An empty transaction hash leaves `refundTxHash` alone. -/
def Shipment.registerCancel (at_ : Nat) (txHash : String) (s : Shipment) : Shipment :=
  { s with
    status := .cancelled
    txHash := some txHash
    cancelledAt := some at_
    refundTxHash := if txHash = "" then s.refundTxHash else some txHash }

@[simp] theorem Shipment.registerCancel_id (at_ : Nat) (txHash : String) (s : Shipment) :
    (s.registerCancel at_ txHash).id = s.id := rfl

theorem Shipment.registerCancel_now_id (env : Env) (txHash : String) (s : Shipment) :
    (s.registerCancel env.now txHash).id = s.id := rfl

def cancel (env : Env) (id buyerAddress txHash : String) : Tx Unit := do
  match ← shipmentFindUnique env .shipmentRead id with
  | none => throw (.notFound s!"Shipment {id} not found")
  | some shipment =>
      if shipment.buyerAddress ≠ buyerAddress then
        throw (.forbidden "Only the shipment buyer can cancel it")
      if shipment.status ≠ .active then
        throw (.conflict s!"Shipment is not ACTIVE (current status: {shipment.status.name})")
      prismaCall env .shipmentWrite
      modify fun db =>
        { db with
          shipments := db.shipments.modify id (Shipment.registerCancel env.now txHash)
            (Shipment.registerCancel_now_id env txHash) }

/-- `String.prototype.padStart` with zeros. -/
def padStart (text : String) (length : Nat) : String :=
  String.ofList (List.replicate (length - text.length) '0') ++ text

/-- `10 ** decimals`, which is a double. -/
def powerOfTen (decimals : Nat) : Nat :=
  nearestDouble (10 ^ decimals)

/-- `bigint` division truncates and the remainder has the sign of the dividend. -/
def toHumanAmount (amount : Int) (decimals : Nat) : String :=
  let divisor : Int := powerOfTen decimals
  s!"{amount.tdiv divisor}.{padStart (toString (amount.tmod divisor)) decimals}"

/-- `none` is the `SyntaxError`. What follows a second point is dropped. -/
def toBaseUnit (amount : String) (decimals : Nat) : Option Int :=
  let parts := amount.toList.splitOn '.'
  let fraction := (parts[1]?).getD []
  let paddedFraction := (fraction.rightpad decimals '0').take decimals
  match bigIntOfString (String.ofList (parts.headD [])),
    bigIntOfString (String.ofList paddedFraction) with
  | some whole, some fraction => some (whole * powerOfTen decimals + fraction)
  | _, _ => none

/-- The `shipment_cancelled` event of the shipment with the highest ledger. -/
def Db.cancelEvent (db : Db) (id : String) : Option ChainEvent :=
  (db.chainEvents.rows.filter fun e =>
    e.shipmentId = some id ∧ e.eventName = "shipment_cancelled").argmax ChainEvent.ledger

/-- The second entry of the payload, or the whole escrow when there is none or
it is not a number. -/
def refundedAmountRaw (payload : Json) (totalAmount : Int) : Int :=
  match payload with
  | .arr items =>
      if 2 ≤ items.length then (jsBigIntOrZero items[1]?).getD totalAmount else totalAmount
  | _ => totalAmount

structure RefundDetail where
  cancelledAt : Nat
  refundTxHash : String
  refundedAmount : String
  refundedTo : String
deriving DecidableEq

def getRefundDetail (env : Env) (id : String) : Tx RefundDetail := do
  match ← shipmentFindUnique env .shipmentRead id with
  | none => throw (.notFound s!"Shipment {id} not found")
  | some shipment =>
      match shipment.cancelledAt with
      | none => throw (.notFound s!"Shipment {id} has not been cancelled")
      | some cancelledAt =>
          prismaCall env .refundEventRead
          match (← get).cancelEvent id with
          | none =>
              throw (.internalServerError (s!"Cancellation chain event not found for shipment " ++
                s!"{id}. The on-chain event may not have been processed yet."))
          | some event =>
              return {
                cancelledAt := cancelledAt
                refundTxHash := shipment.refundTxHash.getD event.txHash
                refundedAmount := toHumanAmount
                  (refundedAmountRaw event.payload shipment.totalAmount) shipment.tokenDecimals
                refundedTo := shipment.buyerAddress }

end Cancellation

section Reconciliation

/-- An entry of the `errors` column: a shipment that could not be checked, with
the text of the exception, or the exception that ended the job. -/
inductive ReconciliationError where
  | shipment (id message : String)
  | job (err : Exn)
deriving DecidableEq

structure ReconciliationRun where
  checkedCount : Nat
  mismatchCount : Nat
  errors : List ReconciliationError
deriving DecidableEq

/-- The job's own simulation: a failed call, or an answer that may be empty. -/
abbrev ChainRead := String → Except String (Option OnChainShipment)

/-- One turn of the loop. The comparison is with the status the list was read
with, and only a terminal status of the contract is copied. -/
def reconcileShipment (env : Env) (read : ChainRead) (run : ReconciliationRun)
    (shipment : Shipment) : Tx ReconciliationRun :=
  match read shipment.id with
  | .error message =>
      return { run with errors := run.errors ++ [.shipment shipment.id message] }
  | .ok none => return run
  | .ok (some onChain) =>
      match statusMap onChain.status with
      | none => return run
      | some onChainStatus => do
          if onChainStatus = shipment.status then return run
          if onChainStatus = .completed ∨ onChainStatus = .cancelled then
            syncStatusFromChain env shipment.id
          return { run with mismatchCount := run.mismatchCount + 1 }

/-- The catch block of the job. -/
def failReconciliation (env : Env) (run : ReconciliationRun) (err : Exn) :
    Tx ReconciliationRun := do
  prismaCall env .reconciliationFailureWrite
  return { run with errors := run.errors ++ [.job err] }

/-- `none` when another run holds the lock. -/
def runReconciliation (env : Env) (read : ChainRead) (lockHeld : Bool) :
    Tx (Option ReconciliationRun) := do
  if lockHeld then return none
  prismaCall env .reconciliationCreate
  if env.fails .activeRead then
    return some (← failReconciliation env ⟨0, 0, []⟩ (.unavailable .activeRead))
  let activeShipments := (← get).shipments.rows.filter fun s => s.status = .active
  if env.fails .adminRead then
    return some (← failReconciliation env ⟨activeShipments.length, 0, []⟩ (.unavailable .adminRead))
  let run ← activeShipments.foldlM (reconcileShipment env read) ⟨activeShipments.length, 0, []⟩
  if env.fails .reconciliationWrite then
    return some (← failReconciliation env run (.unavailable .reconciliationWrite))
  return some run

end Reconciliation

section Payments

/-- The rows of the query behind the time series, by confirmation time. -/
def Db.paidMilestones (db : Db) (id : String) : List Milestone :=
  (db.milestones.rows.filter fun m =>
    m.shipmentId = id ∧ m.status.Terminal ∧ m.confirmedAt.isSome).mergeSort
      fun m m' => m.confirmedAt.getD 0 ≤ m'.confirmedAt.getD 0

structure PaymentEntry where
  milestoneIndex : Int
  name : String
  releasedAt : Nat
  amount : String
  cumulativeReleased : String
  percentComplete : Int
deriving DecidableEq

structure PaymentSummary where
  totalReleased : String
  totalAmount : String
  percentComplete : Int
  remainingAmount : String
deriving DecidableEq

structure PaymentTimeSeries where
  entries : List PaymentEntry
  summary : PaymentSummary
deriving DecidableEq

/-- In hundredths of a percent, truncated. -/
def percentComplete (cumulative totalAmount : Int) : Int :=
  if 0 < totalAmount then (cumulative * 10000).tdiv totalAmount else 0

/-- The entries of the rows, and the total, from what was released before them. -/
def paymentEntries (shipment : Shipment) : Int → List Milestone → List PaymentEntry × Int
  | cumulative, [] => ([], cumulative)
  | cumulative, m :: rest =>
      let amount := m.paymentReleased.getD 0
      let (entries, total) := paymentEntries shipment (cumulative + amount) rest
      ({ milestoneIndex := m.milestoneIndex
         name := m.name
         releasedAt := m.confirmedAt.getD 0
         amount := toHumanAmount amount shipment.tokenDecimals
         cumulativeReleased := toHumanAmount (cumulative + amount) shipment.tokenDecimals
         percentComplete := percentComplete (cumulative + amount) shipment.totalAmount } :: entries,
        total)

def getPaymentTimeSeries (env : Env) (id : String) : Tx PaymentTimeSeries := do
  match ← shipmentFindUnique env .shipmentRead id with
  | none => throw (.notFound s!"Shipment {id} not found")
  | some shipment =>
      prismaCall env .seriesRead
      let (entries, cumulative) := paymentEntries shipment 0 ((← get).paidMilestones id)
      return {
        entries := entries
        summary := {
          totalReleased := toHumanAmount cumulative shipment.tokenDecimals
          totalAmount := toHumanAmount shipment.totalAmount shipment.tokenDecimals
          percentComplete := percentComplete cumulative shipment.totalAmount
          remainingAmount := toHumanAmount
            (if cumulative < shipment.totalAmount then shipment.totalAmount - cumulative else 0)
            shipment.tokenDecimals } }

end Payments

section Prepare

/-- An argument of a contract invocation, tagged as `nativeToScVal` tags it. -/
inductive ScVal where
  | address (value : String)
  | string (value : String)
  | u32 (value : Int)
deriving DecidableEq

/-- What `build` is asked for. -/
structure ContractCall where
  source : String
  method : String
  args : List ScVal
deriving DecidableEq

structure PreparedTransaction where
  xdr : String
  networkPassphrase : String
  simulatedFee : String
  expiresAtLedger : Nat
deriving DecidableEq

def loadActiveShipment (env : Env) (id : String) : Tx Shipment := do
  match ← shipmentFindUnique env .shipmentRead id with
  | none => throw (.notFound s!"Shipment {id} not found")
  | some shipment =>
      if shipment.status ≠ .active then
        throw (.conflict s!"Shipment is not ACTIVE (current status: {shipment.status.name})")
      return shipment

/-- Unlike `findOne` this reads a soft-deleted row as well. -/
def loadMilestone (env : Env) (shipmentId : String) (milestoneIndex : Int) : Tx Milestone := do
  match ← milestoneFindUnique env shipmentId (some milestoneIndex) with
  | none => throw (.notFound s!"Milestone {milestoneIndex} not found")
  | some milestone => return milestone

variable (build : ContractCall → Tx PreparedTransaction)

def prepareConfirmMilestone (env : Env) (shipmentId : String) (index : Int) (caller : String) :
    Tx PreparedTransaction := do
  let shipment ← loadActiveShipment env shipmentId
  if shipment.buyerAddress ≠ caller then
    throw (.forbidden "Only the shipment buyer may confirm milestones")
  let milestone ← loadMilestone env shipmentId index
  if milestone.status ≠ .proofSubmitted then
    throw (.conflict s!"Milestone {index} is not in PROOF_SUBMITTED status")
  build ⟨caller, "confirm_milestone", [.address caller, .string shipmentId, .u32 index]⟩

def prepareCancelShipment (env : Env) (shipmentId caller : String) : Tx PreparedTransaction := do
  let shipment ← loadActiveShipment env shipmentId
  if shipment.buyerAddress ≠ caller then
    throw (.forbidden "Only the shipment buyer can cancel it")
  build ⟨caller, "cancel_shipment", [.address caller, .string shipmentId]⟩

end Prepare

end ChainSettle
