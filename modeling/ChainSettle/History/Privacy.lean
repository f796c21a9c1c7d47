import ChainSettle.History.Changes
import ChainSettle.Semantics.AuditLog

/-!
What a reader of the history who is no admin learns of the metadata in the updates of a shipment.
When something has changed, `update` builds the entry for its changes with `callerId`, which is
declared nowhere, and ends in a `ReferenceError` before it records anything. What the interceptor
records of an update that ends well holds the request, and no changes.
-/

namespace ChainSettle

open Lib JsonTree

variable {ν : Type}

section Update

/-- A shipment, with the columns that may be updated as `computeFieldChanges` reads them. -/
structure HistoryShipment (ν : Type) where
  id : String
  buyerAddress : String
  status : ShipmentStatus
  columns : Fields String (JsonTree ν)

structure HistoryWorld (ν : Type) where
  shipments : Table (HistoryShipment.id (ν := ν))
  auditLogs : Table (HistoryEntry.id (ν := ν))

/-- A `PATCH` of a shipment; `dto` has the fields that the body has. -/
structure UpdateRequest (ν : Type) where
  id : String
  path : String
  buyerAddress : String
  dto : Fields String (JsonTree ν)
  ifMatch : Option String
  impersonation : Option ImpersonationMetadata

/-- What the statements of a request come to. -/
structure UpdateInput where
  findUniqueThrows : Bool
  /-- `ifMatchSatisfied` for the ETag on the read client -/
  ifMatchSatisfied : Bool
  findReferenceThrows : Bool
  updateThrows : Bool
  /-- another writer has come between the check of the precondition and the update -/
  overtaken : Bool
  /-- the cache is invalidated, the response built, and its ETag computed -/
  responseThrows : Bool
  recordThrows : Bool
  entryId : String

def stringOf : Option (JsonTree ν) → Option String
  | some (.str value) => some value
  | _ => none

/-- A `Date` has no keys of its own. -/
def dateColumn : JsonTree ν → JsonTree ν
  | .null | .str "" => .null
  | _ => .obj []

variable (numbers : NumberFormat ν) (requireIfMatch : Bool)

/-- The columns of an update but for `expectedDeliveryAt`, which comes last. -/
def updateFields : List String :=
  ["description", "referenceNumber", "metadata", "tags"]

def updateData (dto : Fields String (JsonTree ν)) : Fields String (JsonTree ν) :=
  (updateFields.filterMap fun field => (dto.get? field).map (field, ·)) ++
    ((dto.get? "expectedDeliveryAt").map fun date => ("expectedDeliveryAt", dateColumn date)).toList

/-- `assertIfMatch` -/
def checkIfMatch (input : UpdateInput) (ifMatch : Option String) : Except HttpError Unit :=
  match truthyText ifMatch with
  | none => if requireIfMatch then .error ⟨412, "If-Match header is required"⟩ else .ok ()
  | some _ =>
      if input.ifMatchSatisfied then .ok ()
      else .error ⟨412, "Shipment has been modified; refetch and retry"⟩

/-- `update` up to its write, with the shipment that it has read. -/
def updateChecks (input : UpdateInput) (w : HistoryWorld ν) (request : UpdateRequest ν) :
    Except HttpError (HistoryShipment ν) := do
  if input.findUniqueThrows then throw ⟨500, "Internal server error"⟩
  let some shipment := w.shipments.find? request.id
    | throw ⟨404, s!"Shipment {request.id} not found"⟩
  checkIfMatch requireIfMatch input request.ifMatch
  if shipment.buyerAddress ≠ request.buyerAddress then
    throw ⟨403, "Only the shipment buyer can update it"⟩
  if let some referenceNumber := truthyText (stringOf (request.dto.get? "referenceNumber")) then
    if stringOf (shipment.columns.get? "referenceNumber") ≠ some referenceNumber then
      if input.findReferenceThrows then throw ⟨500, "Internal server error"⟩
      if w.shipments.rows.any fun other =>
          stringOf (other.columns.get? "referenceNumber") = some referenceNumber then
        throw ⟨409, s!"Shipment with referenceNumber \"{referenceNumber}\" already exists"⟩
  if (request.dto.get? "expectedDeliveryAt").isSome ∧ shipment.status ≠ .active then
    throw ⟨409, s!"Shipment is not ACTIVE (current status: {shipment.status.name})"⟩
  if input.overtaken ∧ (truthyText request.ifMatch).isSome then
    throw ⟨412, "Shipment has been modified; refetch and retry"⟩
  if input.updateThrows then throw ⟨500, "Internal server error"⟩
  return shipment

/-- The write stays when what follows it throws. -/
def update (input : UpdateInput) (w : HistoryWorld ν) (request : UpdateRequest ν) :
    Except HttpError Unit × HistoryWorld ν :=
  match updateChecks requireIfMatch input w request with
  | .error err => (.error err, w)
  | .ok shipment =>
      let data := updateData request.dto
      let w : HistoryWorld ν := { w with
        shipments := w.shipments.modify request.id
          (fun row => { row with columns := row.columns.assign data }) fun _ => rfl }
      let changes := computeFieldChanges numbers shipment.columns data (data.map Prod.fst)
      -- the entry of the changes names `callerId`
      if ¬ changes.isEmpty then (.error ⟨500, "Internal server error"⟩, w)
      else if input.responseThrows then (.error ⟨500, "Internal server error"⟩, w)
      else (.ok (), w)

end Update

section Record

/-- `sanitizeBody` of an object. -/
def sanitizeFields (body : Fields String (JsonTree ν)) : Fields String (JsonTree ν) :=
  body.map fun field =>
    if field.1 ∈ AuditLogInterceptor.sensitiveFields then (field.1, .str "[REDACTED]") else field

def optionalText (value : Option String) : JsonTree ν :=
  (value.map .str).getD .null

variable (numbers : NumberFormat ν) (requireIfMatch : Bool) (text : CaseMapping) (ok : ν)

/-- The entry of the interceptor for an update that has ended with the status 200. -/
def interceptorEntry (input : UpdateInput) (request : UpdateRequest ν) : HistoryEntry ν :=
  let (_, resourceType, resourceId) :=
    AuditLogInterceptor.deriveActionAndResource text .patch request.path
  { id := input.entryId
    resourceType := some resourceType
    resourceId := some resourceId
    entityType := resourceType
    entityId := some resourceId
    metadata := .obj
      ([("method", .str "PATCH"), ("path", .str request.path), ("statusCode", .num ok),
        ("requestBody", .obj (sanitizeFields request.dto))] ++
      match request.impersonation with
      | none => []
      | some session =>
          [("impersonation", .bool true), ("targetUserId", .str session.targetUserId),
            ("targetStellarAddress", optionalText session.targetStellarAddress),
            ("impersonatorAdminId", optionalText session.impersonatorAdminId),
            ("impersonatorAddress", optionalText session.impersonatorAddress)]) }

/-- A request, with the interceptor around it; `record` swallows what the database throws. -/
def HistoryWorld.patch (w : HistoryWorld ν) (request : UpdateRequest ν × UpdateInput) :
    HistoryWorld ν :=
  match update numbers requireIfMatch request.2 w request.1 with
  | (.error _, w) => w
  | (.ok (), w) =>
      if request.2.recordThrows ∨ (w.auditLogs.find? request.2.entryId).isSome then w
      else { w with auditLogs := w.auditLogs.insert (interceptorEntry text ok request.2 request.1) }

end Record

section Runs

variable (numbers : NumberFormat ν) (requireIfMatch : Bool) (text : CaseMapping) (ok : ν)

end Runs

end ChainSettle
