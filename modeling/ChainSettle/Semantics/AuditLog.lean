import ChainSettle.Lib.Page
import ChainSettle.Semantics.Accounts
import Mathlib.Data.List.Sort

/-!
What happens to a request between its authentication and its handler: the
`ImpersonationGuard` looks at the handler's and the controller's metadata, and the
`AuditLogInterceptor` records the response. Both read `request.user`.

A path is percent-encoded, so its characters are those of ASCII.

`record` swallows what the database throws, here that the user of an entry does not exist.
Entries are only inserted. A caller of `record` is any part of the application; the users change
beside it, as far as the foreign key lets them.
-/

namespace ChainSettle

section Guard

/-- `reflector.getAllAndOverride`: the first that is defined. -/
def Reflector.getAllAndOverride {α : Type} (targets : List (Option α)) : Option α :=
  targets.findSome? id

/-- The metadata of a handler and of its controller under `BLOCK_IMPERSONATION_KEY`;
`@BlockImpersonation` sets it to true. -/
structure Route where
  handler : Option Bool
  controller : Option Bool
deriving DecidableEq

def Route.marked (route : Route) : Bool :=
  route.handler = some true || route.controller = some true

/-- `!!user?.isImpersonation`. -/
def isImpersonation (user : Option RequestUser) : Bool :=
  decide (user.bind RequestUser.isImpersonation = some true)

def ImpersonationGuard.canActivate (route : Route) (user : Option RequestUser) :
    Except HttpError Bool :=
  let blocked := Reflector.getAllAndOverride [route.handler, route.controller]
  if blocked ≠ some true then .ok true
  else if isImpersonation user then
    .error ⟨403, "This action is not allowed while impersonating another user"⟩
  else .ok true

end Guard

section Interceptor

inductive HttpMethod where
  | get | head | options | post | put | patch | delete
  | other (name : String)
deriving DecidableEq

/-- A request, with what the interceptor reads of it. -/
structure ApiRequest where
  method : HttpMethod
  path : String
  body : Option Json
  forwardedFor : Option String
  realIp : Option String
  remoteAddress : Option String
  user : Option RequestUser

/-- The part of the metadata that is only there for an impersonation. -/
structure ImpersonationMetadata where
  targetUserId : String
  targetStellarAddress : Option String
  impersonatorAdminId : Option String
  impersonatorAddress : Option String
deriving DecidableEq

structure AuditMetadata where
  method : HttpMethod
  path : String
  statusCode : Nat
  requestBody : Option Json
  impersonation : Option ImpersonationMetadata

structure RecordAuditLogDto where
  actorId : Option String
  actorAddress : String
  action : String
  resourceType : String
  resourceId : String
  metadata : AuditMetadata
  ipAddress : Option String

namespace AuditLogInterceptor

/-- `/^v\d+$/`. -/
def isVersion (segment : String) : Bool :=
  match segment.toList with
  | 'v' :: digits => !digits.isEmpty && digits.all Char.isDigit
  | _ => false

/-- `replace(/s$/, '')`. -/
def withoutPlural (text : List Char) : List Char :=
  if text.getLast? = some 's' then text.dropLast else text

/-- The action, the type and the id of the resource. -/
def deriveActionAndResource (text : CaseMapping) (method : HttpMethod) (path : String) :
    String × String × String :=
  let segments := ((path.toList.splitOn '/').map String.ofList).filter (· ≠ "")
  let resourceIdx := if segments[0]? = some "api" ∧ isVersion (segments[1]?.getD "") then 2 else 1
  let resourceType := (segments[resourceIdx]?.map fun raw =>
    text.toUpperCase (String.ofList (raw.toList.take 1)) ++
      String.ofList (withoutPlural (raw.toList.drop 1))).getD "Unknown"
  let resourceId := segments[resourceIdx + 1]?.getD "unknown-id"
  let subAction := segments[resourceIdx + 2]?.getD ""
  let name := text.toLowerCase resourceType
  let action := match method with
    | .get | .head => name ++ ".read"
    | .patch | .put => name ++ ".update"
    | .delete => name ++ ".delete"
    | .post => if subAction ≠ "" then name ++ "." ++ subAction else name ++ ".create"
    | .options | .other _ => name ++ ".create"
  (action, resourceType, resourceId)

def sensitiveFields : List String :=
  ["password", "token", "secret", "privateKey", "seed", "mnemonic", "accessToken"]

/-- An array is spread into an object by its indices. -/
def sanitizeBody : Json → Json
  | .obj fields => .obj (fields.map fun field =>
      if field.1 ∈ sensitiveFields then (field.1, .str "[REDACTED]") else field)
  | .arr items => .obj (items.zipIdx.map fun item => (toString item.2, item.1))
  | body => body

def getClientIp (request : ApiRequest) : Option String :=
  let forwarded := request.forwardedFor.map fun value =>
    String.ofList (value.toList.takeWhile (· ≠ ','))
  ((truthyText forwarded).or (truthyText request.realIp)).or (truthyText request.remoteAddress)

def isMutation : HttpMethod → Bool
  | .get | .head | .options => false
  | _ => true

/-- What is recorded; the response is a status code, or the handler has thrown. -/
def intercept (text : CaseMapping) (request : ApiRequest) (response : Except HttpError Nat) :
    Option RecordAuditLogDto :=
  let user := request.user
  let impersonated := isImpersonation user
  if !isMutation request.method && !impersonated then none
  else
    let actorId := if impersonated then user.bind RequestUser.impersonatorAdminId
      else user.map RequestUser.id
    let actorAddress := if impersonated then
        (user.bind RequestUser.impersonatorAddress).getD "SYSTEM"
      else (user.bind RequestUser.stellarAddress).getD "SYSTEM"
    let (action, resourceType, resourceId) :=
      deriveActionAndResource text request.method request.path
    match response with
    | .error _ => none
    | .ok statusCode =>
        if 200 ≤ statusCode ∧ statusCode < 300 then
          some {
            actorId := actorId
            actorAddress := actorAddress
            action := if impersonated then "impersonation." ++ action else action
            resourceType := resourceType
            resourceId := resourceId
            metadata := {
              method := request.method
              path := request.path
              statusCode := statusCode
              requestBody := (request.body.filter Json.truthy).map sanitizeBody
              impersonation := if impersonated then user.map fun user =>
                  ⟨user.id, user.stellarAddress, user.impersonatorAdminId, user.impersonatorAddress⟩
                else none }
            ipAddress := getClientIp request }
        else none

end AuditLogInterceptor

end Interceptor

section Entries

open Lib

structure AuditLogDto where
  actorId : Option String
  actorAddress : String
  action : String
  resourceType : String
  resourceId : String
  metadata : Option Json
  ipAddress : Option String

/-- A row of `audit_logs`. The ids that the database makes up are numbers here. -/
structure AuditLogRow where
  id : Nat
  userId : String
  actorId : Option String
  actorAddress : String
  action : String
  entityType : String
  entityId : String
  resourceType : String
  resourceId : String
  metadata : Json
  ipAddress : Option String
  createdAt : Nat

/-- The row that `record` inserts. -/
def AuditLogDto.data (dto : AuditLogDto) (id createdAt : Nat) : AuditLogRow where
  id := id
  userId := dto.actorId.getD ""
  actorId := dto.actorId
  actorAddress := dto.actorAddress
  action := dto.action
  entityType := dto.resourceType
  entityId := dto.resourceId
  resourceType := dto.resourceType
  resourceId := dto.resourceId
  metadata := dto.metadata.getD (.obj [])
  ipAddress := dto.ipAddress
  createdAt := createdAt

/-- The ids of the users, the entries, and the calls of `record` so far. -/
structure AuditWorld where
  userIds : List String
  rows : List AuditLogRow
  calls : List AuditLogDto

/-- A query without a complete order leaves the rest of the order to the database. -/
structure AuditScan where
  order : List AuditLogRow → List AuditLogRow
  perm : ∀ rows, (order rows).Perm rows

structure AuditFilters where
  actorAddress : Option String := none
  action : Option String := none
  resourceType : Option String := none
  resourceId : Option String := none
  startDate : Option Int := none
  endDate : Option Int := none
  page : Nat := 1
  limit : Nat := 50

/-- The `where` of `findAll`. An empty filter is none. -/
def AuditFilters.selects (filters : AuditFilters) (row : AuditLogRow) : Bool :=
  (truthyText filters.actorAddress).all (fun actorAddress => row.userId = actorAddress) &&
  (truthyText filters.action).all (fun action => includes row.action.toLower action.toLower) &&
  (truthyText filters.resourceType).all (fun resourceType => row.entityType = resourceType) &&
  (truthyText filters.resourceId).all (fun resourceId => row.entityId = resourceId) &&
  filters.startDate.all (fun startDate : Int => startDate ≤ row.createdAt) &&
  filters.endDate.all (fun endDate : Int => row.createdAt ≤ endDate)

structure AuditPage where
  data : List AuditLogRow
  total : Nat
  page : Nat
  limit : Nat
  totalPages : Nat

namespace AuditWorld

variable (w : AuditWorld)

def record (dto : AuditLogDto) (now : Nat) : AuditWorld :=
  let calls := w.calls ++ [dto]
  let data := dto.data w.rows.length now
  if data.userId ∈ w.userIds then { w with rows := w.rows ++ [data], calls := calls }
  else { w with calls := calls }

/-- Rows that are found, newest first. -/
def newestFirst (scan : AuditScan) (p : AuditLogRow → Bool) : List AuditLogRow :=
  (scan.order (w.rows.filter p)).insertionSort fun a b => b.createdAt ≤ a.createdAt

def findAll (scan : AuditScan) (filters : AuditFilters) : AuditPage :=
  let total := (w.rows.filter filters.selects).length
  { data := ((w.newestFirst scan filters.selects).drop ((filters.page - 1) * filters.limit)).take
      filters.limit
    total := total
    page := filters.page
    limit := filters.limit
    totalPages := (total + filters.limit - 1) / filters.limit }

def findByActor (scan : AuditScan) (actorAddress : String) (limit : Nat := 100) :
    List AuditLogRow :=
  (w.newestFirst scan fun row => row.userId = actorAddress).take limit

end AuditWorld

inductive AuditAction where
  | record (dto : AuditLogDto) (now : Nat)
  | users (userIds : List String)

def AuditWorld.step (w : AuditWorld) : AuditAction → AuditWorld
  | .record dto now => w.record dto now
  | .users userIds =>
      if w.rows.all fun row => row.userId ∈ userIds then { w with userIds := userIds } else w

/-- No entry and no call yet. -/
def AuditWorld.fresh (userIds : List String) : AuditWorld := ⟨userIds, [], []⟩

end Entries

end ChainSettle
