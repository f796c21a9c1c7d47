import ChainSettle.Lib.Fields
import ChainSettle.Semantics.Etag

/-!
The responses of `ShipmentsService`. A query returns the columns and the relations that its
`include` or `select` names, and `serialize` makes the response of whatever it is given: a
missing relation is no exception there. `findOne` may be asked for some fields only; it then
selects less, and takes the rest of the response away afterwards.

The estimated value in another currency is computed and not returned, and is left out.
-/

namespace ChainSettle

open Lib Lib.Eff

section Values

inductive JsValue where
  | undefined
  | null
  | bool (b : Bool)
  | num (n : Int)
  | bigint (n : Int)
  | str (s : String)
  /-- in milliseconds -/
  | date (time : Nat)
  | json (value : Json)
  | arr (items : List JsValue)
  | obj (fields : List (String × JsValue))

abbrev JsObject := Fields String JsValue

def JsObject.get (o : JsObject) (key : String) : JsValue := (Fields.get? o key).getD .undefined

namespace JsValue

/-- `value ?? default` -/
def orElse (value default : JsValue) : JsValue :=
  match value with
  | undefined | null => default
  | _ => value

/-- `value?.map(f)` -/
def mapItems (f : JsObject → JsObject) : JsValue → JsValue
  | arr items => arr (items.map fun item =>
      match item with
      | obj fields => obj (f fields)
      | _ => item)
  | _ => undefined

/-- `value?.toString()` of a `bigint` column. -/
def digits : JsValue → JsValue
  | bigint n => str (toString n)
  | _ => undefined

/-- `value?.toISOString()` of a date column. -/
def isoString : JsValue → JsValue
  | date time => str (toISOString time)
  | _ => undefined

def isText (value : JsValue) (text : String) : Bool :=
  match value with
  | str s => s = text
  | _ => false

/-- An array, or nothing. -/
def items : JsValue → List JsValue
  | arr items => items
  | _ => []

/-- An optional column. -/
def ofOption {α : Type} (f : α → JsValue) (value : Option α) : JsValue := (value.map f).getD null

end JsValue

end Values

section Rows

def ArbiterStatus.name : ArbiterStatus → String
  | .pendingAcceptance => "PENDING_ACCEPTANCE"
  | .accepted => "ACCEPTED"
  | .declined => "DECLINED"

/-- A row of `shipments`, with the columns that the rest of the model does without. -/
structure ShipmentRow extends Shipment where
  createdLedger : Option Int
  description : Option String
  metadata : Option Json
  tags : List String
  expectedDeliveryAt : Option Nat
  createdAt : Nat
  updatedAt : Nat

/-- The columns as Prisma returns them. -/
def ShipmentRow.columns (row : ShipmentRow) : JsObject :=
  [("id", .str row.id),
    ("buyerAddress", .str row.buyerAddress),
    ("supplierAddress", .str row.supplierAddress),
    ("logisticsAddress", .str row.logisticsAddress),
    ("arbiterAddress", .str row.arbiterAddress),
    ("tokenAddress", .str row.tokenAddress),
    ("totalAmount", .bigint row.totalAmount),
    ("releasedAmount", .bigint row.releasedAmount),
    ("status", .str row.status.name),
    ("arbiterStatus", .str row.arbiterStatus.name),
    ("txHash", .ofOption .str row.txHash),
    ("createdLedger", .ofOption .num row.createdLedger),
    ("tokenDecimals", .num row.tokenDecimals),
    ("tokenSymbol", .str row.tokenSymbol),
    ("requiredApprovals", .ofOption (fun count : Nat => .num count) row.requiredApprovals),
    ("description", .ofOption .str row.description),
    ("referenceNumber", .ofOption .str row.referenceNumber),
    ("metadata", .ofOption .json row.metadata),
    ("tags", .arr (row.tags.map .str)),
    ("expectedDeliveryAt", .ofOption .date row.expectedDeliveryAt),
    ("cancelledAt", .ofOption .date row.cancelledAt),
    ("refundTxHash", .ofOption .str row.refundTxHash),
    ("createdAt", .date row.createdAt),
    ("updatedAt", .date row.updatedAt),
    ("isDraft", .bool row.isDraft)]

inductive ShipmentRelation where
  | milestones | events | trackingUpdates | approvals | favorites
deriving DecidableEq

def ShipmentRelation.name : ShipmentRelation → String
  | .milestones => "milestones"
  | .events => "events"
  | .trackingUpdates => "trackingUpdates"
  | .approvals => "approvals"
  | .favorites => "favorites"

/-- A row with the rows of each relation that a query may load, filtered and sorted as the
query has it. -/
structure LoadedShipment where
  row : ShipmentRow
  related : ShipmentRelation → List JsObject

/-- The result of a query with `include`. -/
def LoadedShipment.withRelations (s : LoadedShipment) (relations : List ShipmentRelation) :
    JsObject :=
  s.row.columns ++ relations.map fun r => (r.name, .arr ((s.related r).map .obj))

end Rows

section Serialize

def serializeTracking (t : JsObject) : JsObject :=
  [("id", t.get "id"),
    ("location", t.get "location"),
    ("latitude", t.get "latitude"),
    ("longitude", t.get "longitude"),
    ("status", t.get "status"),
    ("estimatedArrival", (t.get "estimatedArrival").isoString.orElse .null),
    ("notes", t.get "notes"),
    ("createdAt", (t.get "createdAt").isoString)]

def serializeMilestone (now : Nat) (m : JsObject) : JsObject :=
  let isOverdue :=
    match m.get "dueAt" with
    | .date dueAt =>
        dueAt < now && !(m.get "status").isText "CONFIRMED" && !(m.get "status").isText "RESOLVED"
    | _ => false
  Fields.set (Fields.set m "paymentReleased" ((m.get "paymentReleased").digits.orElse .null))
    "isOverdue" (.bool isOverdue)

/-- The progress of the approvals. A relation that is not loaded counts as empty. -/
def approvalStatus (requiredApprovals approvals : JsValue) : JsObject :=
  let required := requiredApprovals.orElse .null
  let quorumMet :=
    match required with
    | .num count => count ≤ (approvals.items.length : Int)
    | _ => true
  [("required", required),
    ("count", .num approvals.items.length),
    ("quorumMet", .bool quorumMet),
    ("approvals", .arr approvals.items)]

/-- `amount ?? 0n` in units of the token. -/
def amountFormatted (amount decimals : JsValue) : JsValue :=
  let value := match amount with
    | .bigint n => n
    | _ => 0
  match decimals with
  | .num n => .str (toHumanAmount value n.toNat)
  | _ => .undefined

/-- What `serialize` adds to the columns, or puts in their place. -/
def computedFields (now : Nat) (callerUserId : Option String) (shipment : JsObject) : JsObject :=
  let decimals := (shipment.get "tokenDecimals").orElse (.num 7)
  let symbol := (shipment.get "tokenSymbol").orElse (.str "USDC")
  let trackingUpdates := (shipment.get "trackingUpdates").mapItems serializeTracking
  let latestTracking := trackingUpdates.items.getLast?.getD .null
  let isFavorited := (truthyText callerUserId).isSome && !(shipment.get "favorites").items.isEmpty
  [("approvalStatus",
      .obj (approvalStatus (shipment.get "requiredApprovals") (shipment.get "approvals"))),
    ("tokenSymbol", symbol),
    ("tokenDecimals", decimals),
    ("totalAmount", (shipment.get "totalAmount").digits),
    ("releasedAmount", (shipment.get "releasedAmount").digits),
    ("totalAmountFormatted", amountFormatted (shipment.get "totalAmount") decimals),
    ("releasedAmountFormatted", amountFormatted (shipment.get "releasedAmount") decimals),
    ("isFavorited", .bool isFavorited),
    ("milestones", (shipment.get "milestones").mapItems (serializeMilestone now)),
    ("trackingUpdates", trackingUpdates),
    ("latestTracking", latestTracking)]

/-- All of the record is passed on but two relations, which are reported in another form. -/
def serialize (now : Nat) (callerUserId : Option String) (shipment : JsObject) : JsObject :=
  Fields.assign (Fields.without shipment ["favorites", "approvals"])
    (computedFields now callerUserId shipment)

end Serialize

section Fields

def SHIPMENT_SCALAR_FIELDS : List String :=
  ["id", "buyerAddress", "supplierAddress", "logisticsAddress", "arbiterAddress", "tokenAddress",
    "totalAmount", "releasedAmount", "status", "arbiterStatus", "txHash", "createdLedger",
    "tokenDecimals", "tokenSymbol", "description", "referenceNumber", "metadata", "tags",
    "expectedDeliveryAt", "cancelledAt", "refundTxHash", "isDraft", "createdAt", "updatedAt"]

def SHIPMENT_LIST_FIELDS : List String := SHIPMENT_SCALAR_FIELDS ++ ["milestones"]

def SHIPMENT_DETAIL_FIELDS : List String :=
  SHIPMENT_LIST_FIELDS ++ ["events", "trackingUpdates", "approvals"]

/-- The names in a `fields` parameter. -/
def requestedFields (raw : String) : List String :=
  ((raw.toList.splitOn ',').map fun f => String.ofList (jsTrim f)).filter (· ≠ "")

/-- Nothing stands for the full response. -/
def parseFields (raw : Option String) (allowed : List String) :
    Except Exn (Option (List String)) :=
  match raw with
  | none => .ok none
  | some raw =>
      let requested := requestedFields raw
      if requested = [] then .ok none
      else
        let unknown := requested.filter (· ∉ allowed)
        if unknown ≠ [] then
          .error (.badRequest ("Unknown field(s): " ++ ", ".intercalate unknown))
        else .ok (some (("id" :: requested).eraseDups.insertionSort (· ≤ ·)))

def pickFields (o : JsObject) (fields : List String) : JsObject := Fields.pick o fields

/-- The relations of the detail query. -/
def detailRelations (callerUserId : Option String) : List ShipmentRelation :=
  [.milestones, .events, .trackingUpdates, .approvals] ++
    if (truthyText callerUserId).isSome then [.favorites] else []

/-- The keys that a sparse query selects. -/
def buildSelect (fields : List String) (relations : List ShipmentRelation) : List String :=
  ["id", "createdAt", "tokenDecimals", "tokenSymbol"] ++ fields ++
    if .favorites ∈ relations then ["favorites"] else []

def findOneShipment (shipment : Option LoadedShipment) (now : Nat) (id : String)
    (callerUserId : Option String) (fields : Option (List String)) : Except Exn JsObject :=
  match shipment with
  | none => .error (.notFound s!"Shipment {id} not found")
  | some shipment =>
      let relations := detailRelations callerUserId
      let found := shipment.withRelations relations
      match fields with
      | none => .ok (serialize now callerUserId found)
      | some fields =>
          let selected := Fields.restrict found (buildSelect fields relations)
          .ok (pickFields (serialize now callerUserId selected) fields)

end Fields

section Operations

/-- `ShipmentApprovalsService.hasQuorum` -/
def hasQuorum (env : Env) (shipmentId : String) : Tx Bool := do
  prismaCall env .quorumRead
  let db ← get
  match (db.shipments.find? shipmentId).bind Shipment.requiredApprovals with
  | none => return true
  | some required => return required ≤ (db.approvals.filter fun a => a.shipmentId = shipmentId).length

/-- The requests that are answered with one serialized shipment. -/
inductive SerializedOp where
  | create (env : Env) (dto : CreateShipmentDto)
  | findOne (env : Env) (id : String) (callerUserId : Option String)
  | addTag (env : Env) (id buyerAddress tag : String) (at_ : Nat)
  | removeTag (env : Env) (id buyerAddress tag : String)
  | replaceTags (input : TagsInput) (request : TagsRequest)
  | replaceArbiter (env : Env) (id buyerAddress arbiterAddress : String)
  | arbiterAccept (env : Env) (id callerAddress : String)
  | arbiterDecline (env : Env) (id callerAddress : String)
  | cancel (env : Env) (id buyerAddress txHash : String)
  | clone (env : Env) (id buyerAddress : String) (dto : CloneShipmentDto)

namespace SerializedOp

/-- The shipment that is returned. -/
def shipmentId : SerializedOp → String
  | create _ dto => dto.shipmentId
  | findOne _ id _ | addTag _ id _ _ _ | removeTag _ id _ _ => id
  | replaceTags _ request => request.id
  | replaceArbiter _ id _ _ | arbiterAccept _ id _ | arbiterDecline _ id _ | cancel _ id _ _ => id
  | clone _ _ _ dto => dto.newId

def callerUserId : SerializedOp → Option String
  | findOne _ _ callerUserId => callerUserId
  | _ => none

/-- The `include` of the statement whose result is serialized. -/
def relations : SerializedOp → List ShipmentRelation
  | create _ _ | cancel _ _ _ _ | clone _ _ _ _ => [.milestones]
  | findOne _ _ callerUserId => detailRelations callerUserId
  | addTag _ _ _ _ _ | removeTag _ _ _ _ | replaceTags _ _ => [.milestones, .events]
  | replaceArbiter _ _ _ _ | arbiterAccept _ _ _ | arbiterDecline _ _ _ => []

end SerializedOp

/-- What `Db` does not have of a row and its relations. -/
structure OtherColumns where
  createdLedger : Option Int
  description : Option String
  metadata : Option Json
  expectedDeliveryAt : Option Nat
  createdAt : Nat
  related : ShipmentRelation → List JsObject

def ShipmentApproval.columns (a : ShipmentApproval) : JsObject :=
  [("shipmentId", .str a.shipmentId), ("approverAddress", .str a.approverAddress)]

def Versioned.load (s : Versioned) (others : OtherColumns) (shipment : Shipment) :
    LoadedShipment where
  row :=
    { shipment with
      createdLedger := others.createdLedger
      description := others.description
      metadata := others.metadata
      tags := s.tags shipment.id
      expectedDeliveryAt := others.expectedDeliveryAt
      createdAt := others.createdAt
      updatedAt := s.updatedAt shipment.id }
  related
    | .approvals =>
        (s.db.approvals.filter fun a => a.shipmentId = shipment.id).map ShipmentApproval.columns
    | relation => others.related relation

/-- An operation of `Db` where rows have their time stamps. -/
def onDb {α : Type} (times : WriteTimes) (m : Tx α) : Eff Exn Versioned α := do
  let s ← get
  match exec m s.db with
  | (.ok value, next) =>
      modify fun _ => s.restamp next times
      return value
  | (.error err, next) =>
      modify fun _ => s.restamp next times
      throw err

variable (services : Services) (config : TagsConfig) (times : WriteTimes)

/-- What a request does before its result is serialized. -/
def SerializedOp.run : SerializedOp → Eff Exn Versioned Unit
  | .create env dto => onDb times (ShipmentsService.create services env dto)
  | .findOne env _ _ => versionedCall env .shipmentRead
  | .addTag env id buyerAddress tag at_ => ChainSettle.addTag env id buyerAddress tag at_
  -- the row is read again, as the update is raw SQL
  | .removeTag env id buyerAddress tag => do
      ChainSettle.removeTag env id buyerAddress tag
      versionedCall env .responseRead
  | .replaceTags input request => whole (TagsCall.statement config input) 3 (.findUnique request)
  | .replaceArbiter env id buyerAddress arbiterAddress =>
      onDb times (ChainSettle.replaceArbiter services.text env id buyerAddress arbiterAddress)
  | .arbiterAccept env id callerAddress =>
      onDb times (ChainSettle.arbiterAccept env id callerAddress)
  | .arbiterDecline env id callerAddress =>
      onDb times (ChainSettle.arbiterDecline env id callerAddress)
  | .cancel env id buyerAddress txHash =>
      onDb times (ChainSettle.cancel env id buyerAddress txHash)
  | .clone env id buyerAddress dto =>
      onDb times (ChainSettle.clone services env id buyerAddress dto)

/-- The response. The arbiter warnings next to it in two of them are left out. -/
def SerializedOp.respond (others : OtherColumns) (now : Nat) (op : SerializedOp) :
    Eff Exn Versioned JsObject := do
  op.run services config times
  let s ← get
  match s.db.shipments.find? op.shipmentId with
  | none => throw (.notFound s!"Shipment {op.shipmentId} not found")
  | some shipment =>
      return serialize now op.callerUserId ((s.load others shipment).withRelations op.relations)

end Operations

end ChainSettle
