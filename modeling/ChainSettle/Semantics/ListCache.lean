import ChainSettle.Semantics.Etag

/-!
The list cache of the shipments service: `findAllCached` and the writers that
invalidate it. A call of `findAllCached` looks its key up in Redis, asks the
database on a miss, and stores what it got. A writer changes the database and
then, if it is one of those that do, deletes every key of the shipment's buyer.
All of them are cut where another request can come between.

`findAll` is a function of the state of the primary, and so a parameter, like the
digest of the filters. To say how old an answer is, the model counts the writes:
a list carries the number of writes that the state it was computed from had seen,
and every request the writes that had returned when it asked Redis. A Redis call
may reject, and a key may expire at any time. Addresses have none of the
characters that are special in the pattern of a `SCAN`.
-/

namespace ChainSettle

open Lib Lib.Eff

/-- The filters of a list request. -/
structure ListFilters where
  callerStellarAddress : Option String
  search : Option String
  /-- `JSON.stringify(filters)` -/
  json : String
deriving DecidableEq

/-- What the service is configured with. -/
structure ListService where
  sha256 : String → String
  hex : ∀ text, ∀ c ∈ (sha256 text).toList, isHex c
  findAll : ListFilters → Versioned → String
  tags : TagsConfig
  services : Services

def buildCacheKey (sha256 : String → String) (callerStellarAddress : String)
    (filters : ListFilters) : String :=
  let hash := String.ofList ((sha256 filters.json).toList.take 16)
  "shipments:" ++ callerStellarAddress ++ ":" ++ hash

section Cache

/-- A stored list, with the writes that its state had seen. -/
structure CachedList where
  json : String
  version : Nat
deriving DecidableEq

abbrev ListCache := String → Option CachedList

/-- Redis `SCAN` and `DEL`. -/
def delByPrefix (cache : ListCache) (start : String) : ListCache :=
  fun key => if start.toList.isPrefixOf key.toList then none else cache key

def invalidateUserCache (cache : ListCache) (callerStellarAddress : String) : ListCache :=
  delByPrefix cache ("shipments:" ++ callerStellarAddress ++ ":")

end Cache

section Writers

/-- The writers of shipments, each with the inputs of its execution. -/
inductive ShipmentWrite where
  | create (env : Env) (dto : CreateShipmentDto) (times : WriteTimes)
  | addTag (env : Env) (id buyerAddress tag : String) (at_ : Nat)
  | removeTag (env : Env) (id buyerAddress tag : String)
  | replaceTags (input : TagsInput) (request : TagsRequest)
  | cancel (env : Env) (id buyerAddress txHash : String) (times : WriteTimes)
  | replaceArbiter (env : Env) (id buyerAddress arbiterAddress : String) (times : WriteTimes)
  | clone (env : Env) (id buyerAddress : String) (dto : CloneShipmentDto) (times : WriteTimes)

namespace ShipmentWrite

/-- The shipment that is written. -/
def id : ShipmentWrite → String
  | .create _ dto _ => dto.shipmentId
  | .addTag _ id _ _ _ | .removeTag _ id _ _ | .cancel _ id _ _ _ | .replaceArbiter _ id _ _ _ => id
  | .replaceTags _ request => request.id
  | .clone _ _ _ dto _ => dto.newId

/-- What a writer does after its last statement on the database. -/
inductive Outcome where
  | threw
  | returns
  | invalidates (address : String)
deriving DecidableEq

/-- A program over the tables, with the stamps of its writes. -/
def stamped (s : Versioned) (program : Tx Unit) (times : WriteTimes) : Except Exn Unit × Versioned :=
  let (outcome, next) := exec program s.db
  (outcome, s.restamp next times)

def outcome (next : Outcome) : Except Exn Unit → Outcome
  | .ok _ => next
  | .error _ => .threw

/-- The state after the write, and what follows. -/
def commit (service : ListService) (s : Versioned) : ShipmentWrite → Versioned × Outcome
  | .create env dto times =>
      let (result, next) := stamped s (ShipmentsService.create service.services env dto) times
      (next, outcome (.invalidates dto.buyerAddress) result)
  | .addTag env id buyerAddress tag at_ =>
      let (result, next) := exec (ChainSettle.addTag env id buyerAddress tag at_) s
      (next, outcome (.invalidates buyerAddress) result)
  | .removeTag env id buyerAddress tag =>
      let (result, next) := exec (ChainSettle.removeTag env id buyerAddress tag) s
      (next, outcome (.invalidates buyerAddress) result)
  | .cancel env id buyerAddress txHash times =>
      let (result, next) := stamped s (ChainSettle.cancel env id buyerAddress txHash) times
      (next, outcome (.invalidates buyerAddress) result)
  | .replaceTags input request =>
      let (result, next) :=
        exec (whole (TagsCall.statement service.tags input) 3 (.findUnique request)) s
      (next, outcome .returns result)
  | .replaceArbiter env id buyerAddress arbiterAddress times =>
      let (result, next) := stamped s
        (ChainSettle.replaceArbiter service.services.text env id buyerAddress arbiterAddress) times
      (next, outcome .returns result)
  | .clone env id buyerAddress dto times =>
      let (result, next) :=
        stamped s (ChainSettle.clone service.services env id buyerAddress dto) times
      (next, outcome .returns result)

end ShipmentWrite

end Writers

/-- A write that has returned: how many writes there were with it, the row of its
shipment before and after it, and whether it has deleted the buyer's lists. -/
structure ReturnedWrite where
  version : Nat
  before : Option Shipment
  after : Option Shipment
  invalidated : Bool

def ReturnedWrite.participants (write : ReturnedWrite) : List String :=
  write.before.toList.flatMap Shipment.participants ++
    write.after.toList.flatMap Shipment.participants

/-- What a list request got: the writes its data had seen, and those that had
returned when it began. -/
structure ListAnswer where
  filters : ListFilters
  began : List ReturnedWrite
  json : String
  version : Nat

structure ListWorld where
  state : Versioned
  version : Nat
  cache : ListCache
  returned : List ReturnedWrite
  answers : List ListAnswer

/-- A request suspended before the statement its constructor names. -/
inductive ListCall where
  -- `findAllCached`
  | findAllCached (filters : ListFilters)
  | findAll (filters : ListFilters) (caller : String) (began : List ReturnedWrite)
  | setJson (filters : ListFilters) (caller : String) (began : List ReturnedWrite)
      (result : CachedList)
  -- a writer
  | write (op : ShipmentWrite)
  | invalidateUserCache (address : String) (record : ReturnedWrite)

def ListCall.starts : ListCall → Bool
  | .findAllCached _ | .write _ => true
  | _ => false

def ListWorld.answer (w : ListWorld) (filters : ListFilters) (began : List ReturnedWrite)
    (result : CachedList) : ListWorld :=
  { w with answers := ⟨filters, began, result.json, result.version⟩ :: w.answers }

/-- The input of a statement: its Redis call rejects. -/
abbrev RedisDown := Bool

def ListCall.resume (service : ListService) (redisDown : RedisDown) (w : ListWorld) :
    ListCall → ListWorld × Option ListCall
  | .findAllCached filters =>
      let current : CachedList := ⟨service.findAll filters w.state, w.version⟩
      match truthyText filters.callerStellarAddress, truthyText filters.search with
      | some caller, none =>
          let cached := if redisDown then none
            else w.cache (buildCacheKey service.sha256 caller filters)
          match cached with
          | some list => (w.answer filters w.returned list, none)
          | none => (w, some (.findAll filters caller w.returned))
      | _, _ => (w.answer filters w.returned current, none)
  | .findAll filters caller began =>
      (w, some (.setJson filters caller began ⟨service.findAll filters w.state, w.version⟩))
  | .setJson filters caller began result =>
      let cache := if redisDown then w.cache
        else Function.update w.cache (buildCacheKey service.sha256 caller filters) (some result)
      ({ w with cache := cache }.answer filters began result, none)
  | .write op =>
      let (next, outcome) := op.commit service w.state
      let record (invalidated : Bool) : ReturnedWrite :=
        ⟨w.version + 1, w.state.db.shipments.find? op.id, next.db.shipments.find? op.id, invalidated⟩
      let committed := { w with state := next, version := w.version + 1 }
      match outcome with
      | .threw => (committed, none)
      | .returns => ({ committed with returned := record false :: w.returned }, none)
      | .invalidates address => (committed, some (.invalidateUserCache address (record true)))
  | .invalidateUserCache address record =>
      -- where Redis rejects, so does the writer
      if redisDown then (w, none)
      else
        ({ w with
          cache := ChainSettle.invalidateUserCache w.cache address
          returned := record :: w.returned }, none)

/-- Requests in flight; a key of the cache may expire at any time. -/
def listing (service : ListService) : CallSystem ListWorld ListCall RedisDown String where
  starts := ListCall.starts
  resume redisDown w call := call.resume service redisDown w
  external key w := { w with cache := Function.update w.cache key none }

abbrev Listing := Calls ListWorld ListCall

abbrev ListAction := CallAction ListCall RedisDown String

/-- Before the first of the writes that are counted, with any lists in Redis. -/
def Listing.idle (s : Versioned) (cache : ListCache) : Listing :=
  ⟨⟨s, 0, cache, [], []⟩, fun _ => none⟩

end ChainSettle
