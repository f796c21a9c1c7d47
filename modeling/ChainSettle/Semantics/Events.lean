import ChainSettle.Lib.Page
import ChainSettle.Semantics.Milestones

/-!
`EventsService`: how a raw contract event is decoded, logged and dispatched to
its domain handler. The dead-letter queue, the cursor and the poller are in
modules of their own. Notifications are left out, except for the read of the
recipient that precedes them, because it can make a handler fail after its
write has been made.

Contract events are read through `StellarService`. The contract's events on the chain are a
log in ledger order; `getEvents` returns the first hundred of them at or after a ledger, or
fails, and the wrapper `fetchContractEvents` turns a failure into an empty page.
-/

namespace ChainSettle

open Lib

/-- An event as the RPC returns it. Only its `id` identifies it: one
transaction can emit several events with the same name, even with the same
value. An absent `value` is `null`. -/
structure RawEvent where
  id : String
  topic : List (Option String)
  value : Json
  ledger : Nat
  txHash : Option String

def extractEventName (event : RawEvent) : String :=
  match event.topic with
  | some name :: _ => name
  | _ => "unknown"

/-- A falsy value has no payload. -/
def extractPayload (event : RawEvent) : Json :=
  if event.value.truthy then event.value else .null

def extractShipmentId : Json → Option String
  | .str s => some s
  | .arr (.str s :: _) => some s
  | _ => none

/-- `payload ?? {}`. -/
def payloadOrEmpty : Json → Json
  | .null => .obj []
  | payload => payload

/-- The row is written once per (txHash, eventName); an existing row is left as
it is. A shipment id without a shipments row violates the foreign key. Errors
are swallowed. -/
def saveRawEvent (env : Env) (eventName : String) (event : RawEvent) (payload : Json) :
    Tx Unit := do
  let row : ChainEvent :=
    { shipmentId := (extractShipmentId payload).filter (· ≠ "")
      eventName := eventName
      ledger := event.ledger
      txHash := event.txHash.getD ""
      payload := payloadOrEmpty payload }
  let db ← get
  let dangling := row.shipmentId.any fun id => (db.shipments.find? id).isNone
  if env.fails .rawEventWrite ∨ dangling then pure ()
  else modify fun db => { db with chainEvents := db.chainEvents.insert row }

/-- The cases of the dispatch. -/
inductive Handler where
  | shipmentCreated | proofSubmitted | milestoneConfirmed
  | disputeRaised | disputeResolved | shipmentCancelled
deriving DecidableEq

def handlerOf : String → Option Handler
  | "shipment_created" => some .shipmentCreated
  | "proof_submitted" => some .proofSubmitted
  | "milestone_confirmed" => some .milestoneConfirmed
  | "dispute_raised" => some .disputeRaised
  | "dispute_resolved" => some .disputeResolved
  | "shipment_cancelled" => some .shipmentCancelled
  | _ => none

/-- `String(shipmentId)` of the payload's first entry. -/
def payloadShipment (payload : Json) : String :=
  jsString (payloadItem payload [] 0)

/-- `Number(milestoneIndex)` of the second entry; a bare value means index 0. -/
def payloadIndex (payload : Json) : Option Int :=
  jsNumber (payloadItem payload [.num 0] 1)

/-- `BigInt(paymentAmount ?? 0)` of the third entry. -/
def payloadAmount (payload : Json) : Option Int :=
  jsBigIntOrZero (payloadItem payload [.num 0, .num 0] 2)

/-- `Boolean(approved)` of the third entry. -/
def payloadApproved (payload : Json) : Bool :=
  jsBoolean (payloadItem payload [.num 0, .bool false] 2)

/-- The read of the shipment whose participants are notified. -/
def readRecipients (env : Env) (shipmentId : String) : Tx Unit := do
  let _ ← shipmentFindUnique env .recipientRead shipmentId
  return ()

def handleProofSubmitted (env : Env) (payload : Json) : Tx Unit := do
  let _ ← markProofSubmitted env (payloadShipment payload) (payloadIndex payload) ""
  readRecipients env (payloadShipment payload)

def handleMilestoneConfirmed (env : Env) (payload : Json) : Tx Unit := do
  let existing ← milestoneFindUnique env (payloadShipment payload) (payloadIndex payload)
  if existing.map Milestone.status = some .confirmed then return ()
  match payloadAmount payload with
  | none => throw .invalidValue
  | some amount =>
      let _ ← markConfirmed env (payloadShipment payload) (payloadIndex payload) amount
      syncStatusFromChain env (payloadShipment payload)
      readRecipients env (payloadShipment payload)

def handleDisputeRaised (env : Env) (payload : Json) : Tx Unit := do
  let _ ← markDisputed env (payloadShipment payload) (payloadIndex payload)
  readRecipients env (payloadShipment payload)

/-- The amount is never passed on. -/
def handleDisputeResolved (env : Env) (payload : Json) : Tx Unit := do
  let _ ← markResolved env (payloadShipment payload) (payloadIndex payload)
    (payloadApproved payload) none
  readRecipients env (payloadShipment payload)

def Shipment.cancel (at_ : Nat) (txHash : Option String) (s : Shipment) : Shipment :=
  { s with status := .cancelled, cancelledAt := some at_, refundTxHash := txHash }

@[simp] theorem Shipment.cancel_id (at_ : Nat) (txHash : Option String) (s : Shipment) :
    (s.cancel at_ txHash).id = s.id := rfl

def Db.cancelShipment (db : Db) (shipmentId : String) (at_ : Nat) (txHash : Option String) : Db :=
  { db with
    shipments := db.shipments.modify shipmentId (Shipment.cancel at_ txHash)
      (Shipment.cancel_id at_ txHash) }

def handleShipmentCancelled (env : Env) (payload : Json) (txHash : Option String) : Tx Unit := do
  prismaCall env .shipmentWrite
  match (← get).shipments.find? (payloadShipment payload) with
  | none => throw .recordNotFound
  | some _ =>
      modify fun db => db.cancelShipment (payloadShipment payload) env.now txHash

/-- `shipment_created` is a safety net and an unknown name only logs. -/
def runHandler (env : Env) (handler : Option Handler) (payload : Json)
    (txHash : Option String) : Tx Unit :=
  match handler with
  | none | some .shipmentCreated => pure ()
  | some .proofSubmitted => handleProofSubmitted env payload
  | some .milestoneConfirmed => handleMilestoneConfirmed env payload
  | some .disputeRaised => handleDisputeRaised env payload
  | some .disputeResolved => handleDisputeResolved env payload
  | some .shipmentCancelled => handleShipmentCancelled env payload txHash

def executeHandler (env : Env) (eventName : String) (payload : Json)
    (txHash : Option String) : Tx Unit :=
  runHandler env (handlerOf eventName) payload txHash

/-- Reads the shipment it publishes, unless the payload names none. -/
def publishGraphqlUpdate (env : Env) (payload : Json) : Tx Unit :=
  match payloadItem payload [] 0 with
  | none | some .null => pure ()
  | some _ => prismaCall env .graphqlPublish

/-- The live path. -/
def processEvent (env : Env) (event : RawEvent) : Tx Unit := do
  saveRawEvent env (extractEventName event) event (extractPayload event)
  executeHandler env (extractEventName event) (extractPayload event) event.txHash
  publishGraphqlUpdate env (extractPayload event)

/-- The backfill path: the same without the GraphQL fan-out. -/
def processEventForBackfill (env : Env) (event : RawEvent) : Tx Unit := do
  saveRawEvent env (extractEventName event) event (extractPayload event)
  executeHandler env (extractEventName event) (extractPayload event) event.txHash

section Log

/-- The contract's events in chain order. -/
structure ContractLog where
  events : List RawEvent
  ordered : Ordered RawEvent.ledger events

/-- The part of the log that is closed at a chain tip. -/
def ContractLog.upTo (log : ContractLog) (tip : Nat) : ContractLog where
  events := log.events.filter fun event => event.ledger ≤ tip
  ordered := log.ordered.filter _

def PAGE_LIMIT : Nat := 100

def ContractLog.getEvents (log : ContractLog) (startLedger : Nat) : List RawEvent :=
  page RawEvent.ledger PAGE_LIMIT startLedger log.events

/-- The declared result is a promise that could reject; it never does. -/
def fetchContractEvents (log : ContractLog) (rpcOk : Bool) (startLedger : Nat) :
    Except Exn (List RawEvent) :=
  .ok (if rpcOk then log.getEvents startLedger else [])

end Log

end ChainSettle
