import ChainSettle.Lib.Effect
import ChainSettle.Lib.Register
import ChainSettle.Semantics.Values

/-!
The database as the milestone, shipment and event services use it, and the
Prisma calls they make. A row carries the columns that a modelled function
reads or writes. Unique indexes are part of the tables' types.

Every call can reject. Which calls of an execution do is an input (`Env.fails`),
like the clock reading behind `new Date()` and the answers of the chain, so a
statement about an operation quantifies over all of them. A rejected call has
no effect on the tables.
-/

namespace ChainSettle

open Lib

inductive ShipmentStatus where
  | active | completed | cancelled
deriving DecidableEq

inductive MilestoneStatus where
  | pending | proofSubmitted | confirmed | disputed | resolved
deriving DecidableEq

/-- The enumeration's spelling in error texts. -/
def ShipmentStatus.name : ShipmentStatus → String
  | .active => "ACTIVE"
  | .completed => "COMPLETED"
  | .cancelled => "CANCELLED"

/-- The enumeration's spelling in error texts. -/
def MilestoneStatus.name : MilestoneStatus → String
  | .pending => "PENDING"
  | .proofSubmitted => "PROOF_SUBMITTED"
  | .confirmed => "CONFIRMED"
  | .disputed => "DISPUTED"
  | .resolved => "RESOLVED"

/-- The statuses the lifecycle document calls terminal. -/
def MilestoneStatus.Terminal (status : MilestoneStatus) : Prop :=
  status = .confirmed ∨ status = .resolved

instance (status : MilestoneStatus) : Decidable status.Terminal :=
  inferInstanceAs (Decidable (_ ∨ _))

inductive ArbiterStatus where
  | pendingAcceptance | accepted | declined
deriving DecidableEq

/-- The enumeration's spelling in lower case, as the error texts have it. -/
def ArbiterStatus.lowerName : ArbiterStatus → String
  | .pendingAcceptance => "pending_acceptance"
  | .accepted => "accepted"
  | .declined => "declined"

structure Shipment where
  id : String
  buyerAddress : String
  supplierAddress : String
  logisticsAddress : String
  releasedAmount : Int
  status : ShipmentStatus
  requiredApprovals : Option Nat
  cancelledAt : Option Nat
  refundTxHash : Option String
  totalAmount : Int
  txHash : Option String
  tokenDecimals : Nat
  arbiterAddress : String
  arbiterStatus : ArbiterStatus
  tokenAddress : String
  tokenSymbol : String
  referenceNumber : Option String
  isDraft : Bool
deriving DecidableEq

structure Milestone where
  id : String
  shipmentId : String
  milestoneIndex : Int
  proofHash : Option String
  status : MilestoneStatus
  paymentReleased : Option Int
  confirmedAt : Option Nat
  disputedAt : Option Nat
  deletedAt : Option Nat
  name : String
  paymentPercent : Int
  /-- a date of a request, possibly before 1970 -/
  dueAt : Option Int
  overdueNotifiedAt : Option Nat
  overdueReminder3dAt : Option Nat
  disputeEscalatedAt : Option Nat
deriving DecidableEq

abbrev MilestoneKey := String × Int

instance : LawfulBEq MilestoneKey := inferInstance

/-- The unique index on (shipmentId, milestoneIndex). -/
def Milestone.key (m : Milestone) : MilestoneKey := (m.shipmentId, m.milestoneIndex)

structure ProofSubmission where
  milestoneId : String
  ipfsCid : String
  submittedBy : String
  sha256 : String
  fileSize : Nat
deriving DecidableEq

structure ShipmentApproval where
  shipmentId : String
  approverAddress : String
deriving DecidableEq

inductive UserRole where
  | buyer | supplier | logistics | arbiter | admin
deriving DecidableEq

inductive KycStatus where
  | unverified | pending | verified | rejected
deriving DecidableEq

structure User where
  stellarAddress : String
  role : UserRole
  kycStatus : KycStatus
  kycExpiresAt : Option Nat
  arbiterAwayUntil : Option Nat := none
deriving DecidableEq

inductive ExtensionRequestStatus where
  | pending | approved | denied
deriving DecidableEq

/-- The enumeration's spelling in error texts. -/
def ExtensionRequestStatus.name : ExtensionRequestStatus → String
  | .pending => "PENDING"
  | .approved => "APPROVED"
  | .denied => "DENIED"

structure DeadlineExtensionRequest where
  id : String
  milestoneId : String
  requestedBy : String
  proposedDueAt : Nat
  previousDueAt : Option Int
  reason : String
  status : ExtensionRequestStatus
  decidedAt : Option Nat
  decidedBy : Option String
deriving DecidableEq

def DeadlineExtensionRequest.isPending (request : DeadlineExtensionRequest) : Bool :=
  request.status = .pending

inductive SettlementProposalStatus where
  | pending | accepted | rejected | withdrawn
deriving DecidableEq

structure SettlementProposal where
  id : String
  milestoneId : String
  proposedBy : String
  supplierPercent : Int
  message : Option String
  status : SettlementProposalStatus
  respondedAt : Option Nat
deriving DecidableEq

def SettlementProposal.isPending (proposal : SettlementProposal) : Bool :=
  proposal.status = .pending

structure ChecklistItemTemplate where
  label : String
  required : Option Bool
deriving DecidableEq

/-- An element of the `milestoneTemplates` column, which is JSON. A key that is not
there is `none`. -/
structure MilestoneTemplate where
  name : String
  paymentPercent : Int
  dueDays : Option Int
  checklist : Option (List ChecklistItemTemplate)
deriving DecidableEq

structure ShipmentTemplate where
  id : String
  ownerId : String
  name : String
  description : Option String
  isPublic : Bool
  supplierAddress : Option String
  logisticsAddress : Option String
  arbiterAddress : Option String
  tokenAddress : Option String
  milestoneTemplates : List MilestoneTemplate
  deletedAt : Option Nat
deriving DecidableEq

inductive RecurringInterval where
  | weekly | monthly
deriving DecidableEq

/-- The owner is a foreign key to a user, whose address stands for it here. -/
structure RecurringSchedule where
  id : String
  ownerAddress : String
  templateId : String
  totalAmount : Int
  nextRunAt : Nat
  lastRunAt : Option Nat
  active : Bool
  interval : RecurringInterval := .weekly
deriving DecidableEq

/-- The call sites whose rejection a caller can observe. -/
inductive DbCall where
  | shipmentRead | quorumRead | milestoneRead | guardRead | milestoneWrite
  | syncWrite | proofCreate | recipientRead | shipmentWrite | rawEventWrite
  | checklistRead | graphqlPublish
  | failedEventUpsert | failedEventRead | resolveWrite | attemptWrite | adminRead
  | progressWrite
  | reconciliationCreate | reconciliationWrite | reconciliationFailureWrite
  | activeRead | refundEventRead | seriesRead
  | userRead | templateRead | templateWrite | scheduleRead | scheduleWrite
  | approvalRead | approvalWrite | arbiterWrite
  | extensionRead | extensionCreate | decideWrite
  | proposalRead | proposalCreate | respondWrite
  | jobRead | flagWrite
  | responseRead
deriving DecidableEq

inductive Exn where
  | notFound (message : String)
  | forbidden (message : String)
  | conflict (message : String)
  | preconditionFailed (message : String)
  | badRequest (message : String)
  /-- with a body that has a code -/
  | badRequestWith (code message : String)
  | internalServerError (message : String)
  | recordNotFound
  | invalidValue
  | uploadFailed
  | unavailable (call : DbCall)
deriving DecidableEq

/-- An `HttpException`, as the client sees it. -/
structure HttpError where
  status : Nat
  message : String
deriving DecidableEq

/-- The unique index on (txHash, eventName), shared by the raw event log and
the dead-letter queue. -/
abbrev EventKey := String × String

structure ChainEvent where
  shipmentId : Option String
  eventName : String
  ledger : Nat
  txHash : String
  payload : Json

def ChainEvent.key (e : ChainEvent) : EventKey := (e.txHash, e.eventName)

/-- A row of the dead-letter queue. Rows are never deleted and never change
their key, so the key stands for the generated `id`. The `error` column holds
the exception whose message the service stores. -/
structure FailedEvent where
  eventName : String
  ledger : Nat
  txHash : String
  payload : Json
  error : Exn
  attemptCount : Nat
  lastAttemptAt : Nat
  resolvedAt : Option Nat

def FailedEvent.key (e : FailedEvent) : EventKey := (e.txHash, e.eventName)

/-- A `SYSTEM_ALERT` to every administrator about a row of the queue. -/
structure AdminAlert where
  failedEvent : EventKey
  error : Exn
deriving DecidableEq

structure Db where
  shipments : Table Shipment.id
  milestones : Table Milestone.key
  proofSubmissions : List ProofSubmission
  approvals : List ShipmentApproval
  chainEvents : Table ChainEvent.key
  failedEvents : Table FailedEvent.key
  adminAlerts : List AdminAlert
  users : Table User.stellarAddress := .empty
  /-- with the partial unique index on pending requests -/
  extensionRequests : Register DeadlineExtensionRequest.id DeadlineExtensionRequest.milestoneId
    DeadlineExtensionRequest.isPending := .empty
  /-- with the partial unique index on pending proposals -/
  settlementProposals : Register SettlementProposal.id SettlementProposal.milestoneId
    SettlementProposal.isPending := .empty
  templates : Table ShipmentTemplate.id := .empty
  schedules : Table RecurringSchedule.id := .empty

/-- What `get_shipment` answers. -/
structure OnChainShipment where
  status : String
  releasedAmount : Int
deriving DecidableEq

/-- The inputs of one execution that are not arguments of the call. -/
structure Env where
  /-- the reading of the clock -/
  now : Nat
  /-- which call sites reject -/
  fails : DbCall → Bool
  /-- the `get_shipment` simulation; `none` is an error or an empty answer -/
  getShipment : String → Option OnChainShipment
  /-- the CID Pinata returns; `none` is a failed upload -/
  uploadFile : Option String

abbrev Tx := Eff Exn Db

/-- A round trip to the database. -/
def prismaCall (env : Env) (call : DbCall) : Tx Unit :=
  if env.fails call then throw (.unavailable call) else pure ()

/-- The writes to a milestone row that the services make. `resolved` carries
the optional amount that `markResolved` accepts. -/
inductive MilestoneWrite where
  | proofSubmitted (proofHash : String)
  | confirmed (paymentReleased : Int) (confirmedAt : Nat)
  | disputed (disputedAt : Nat)
  | resolved (approved : Bool) (paymentReleased : Option Int) (confirmedAt : Nat)
  | proofRejected
deriving DecidableEq

def MilestoneWrite.apply (m : Milestone) : MilestoneWrite → Milestone
  | .proofSubmitted proofHash =>
      { m with proofHash := some proofHash, status := .proofSubmitted }
  | .confirmed paymentReleased confirmedAt =>
      { m with
        status := .confirmed
        paymentReleased := some paymentReleased
        confirmedAt := some confirmedAt }
  | .disputed disputedAt =>
      { m with status := .disputed, disputedAt := some disputedAt }
  | .resolved approved paymentReleased confirmedAt =>
      let status := if approved then .resolved else .pending
      match approved, paymentReleased with
      | true, some amount =>
          -- `approved && paymentReleased`: a zero amount is falsy
          if amount = 0 then { m with status := status }
          else
            { m with
              status := status
              paymentReleased := some amount
              confirmedAt := some confirmedAt }
      | _, _ => { m with status := status }
  | .proofRejected => { m with status := .pending, proofHash := none }

/-- The amount of the write fits the `BigInt` column. -/
def MilestoneWrite.Storable : MilestoneWrite → Prop
  | .confirmed paymentReleased _ => fitsBigInt paymentReleased
  | .resolved _ (some paymentReleased) _ => fitsBigInt paymentReleased
  | _ => True

instance : (write : MilestoneWrite) → Decidable write.Storable
  | .confirmed paymentReleased _ => inferInstanceAs (Decidable (fitsBigInt paymentReleased))
  | .resolved _ (some paymentReleased) _ =>
      inferInstanceAs (Decidable (fitsBigInt paymentReleased))
  | .resolved _ none _ | .proofSubmitted _ | .disputed _ | .proofRejected => isTrue trivial

@[simp] theorem MilestoneWrite.apply_key (write : MilestoneWrite) (m : Milestone) :
    (write.apply m).key = m.key := by
  cases write with
  | resolved approved amount at_ =>
      simp only [MilestoneWrite.apply]
      split
      · split <;> rfl
      · rfl
  | _ => rfl

def Db.writeMilestone (db : Db) (key : MilestoneKey) (write : MilestoneWrite) : Db :=
  { db with milestones := db.milestones.modify key write.apply write.apply_key }

def Db.cancelled (db : Db) (shipmentId : String) : Bool :=
  match db.shipments.find? shipmentId with
  | some shipment => shipment.status = .cancelled
  | none => false

def shipmentFindUnique (env : Env) (call : DbCall) (id : String) : Tx (Option Shipment) := do
  prismaCall env call
  return (← get).shipments.find? id

/-- Prisma rejects an index that is not an `Int`. -/
def milestoneFindUnique (env : Env) (shipmentId : String) (milestoneIndex : Option Int) :
    Tx (Option Milestone) := do
  prismaCall env .milestoneRead
  match milestoneIndex with
  | none => throw .invalidValue
  | some index => return (← get).milestones.find? (shipmentId, index)

def milestoneUpdate (env : Env) (shipmentId : String) (milestoneIndex : Option Int)
    (write : MilestoneWrite) : Tx Milestone := do
  prismaCall env .milestoneWrite
  if ¬ write.Storable then throw .invalidValue
  match milestoneIndex with
  | none => throw .invalidValue
  | some index =>
      match (← get).milestones.find? (shipmentId, index) with
      | none => throw .recordNotFound
      | some m =>
          modify fun db => db.writeMilestone (shipmentId, index) write
          return write.apply m

/-- `$transaction` over milestone updates: all of them or none. -/
def milestoneTransaction (env : Env) (writes : List (MilestoneKey × MilestoneWrite)) :
    Tx Unit := do
  prismaCall env .milestoneWrite
  if writes.any fun (_, write) => ¬ write.Storable then throw .invalidValue
  let db ← get
  if writes.any fun (key, _) => (db.milestones.find? key).isNone then throw .recordNotFound
  modify fun db => writes.foldl (fun acc (key, write) => acc.writeMilestone key write) db

end ChainSettle
