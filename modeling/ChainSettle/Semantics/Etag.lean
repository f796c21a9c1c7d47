import ChainSettle.Lib.Calendar
import ChainSettle.Lifecycle.Services

/-!
The validator of a shipment's detail representation (`getDetailEtag`), and what
writes the rows it is computed from: the tag operations and the operations of
the other services. `replaceTags` is the one that honours `If-Match`; it is cut
into its statements.

The rows of `Db` are joined by the `tags` column and by the `updatedAt` columns
of shipments and milestones. Prisma sets `updatedAt` in every row it writes,
whether or not another column changes, and raw SQL does not. The operations that
are defined over `Db` do not say which rows they write without a change, so
these are an input, like the readings of the clock.

`sha1` is a parameter: all that is used of it is its output alphabet and that it
has no collisions.
-/

namespace ChainSettle

open Lib Lib.Eff

structure Versioned where
  db : Db
  tags : String → List String
  updatedAt : String → Nat
  milestoneUpdatedAt : MilestoneKey → Nat

section Validator

variable (sha1 : HexDigest)

def shipmentEtag (id : String) (updatedAt : Nat) (milestoneUpdatedAt : Option Nat) : String :=
  let hash := sha1.digest
    (id ++ ":" ++ toISOString updatedAt ++ ":" ++ (milestoneUpdatedAt.map toISOString).getD "")
  "W/\"" ++ hash ++ "\""

/-- `value.trim().replace(/^W\//, '')`. -/
def normalize (value : List Char) : List Char :=
  let trimmed := jsTrim value
  if trimmed.take 2 = ['W', '/'] then trimmed.drop 2 else trimmed

def ifMatchSatisfied (ifMatch currentEtag : String) : Bool :=
  ((ifMatch.toList.splitOn ',').map normalize).any fun v =>
    v = ['*'] || v = normalize currentEtag.toList

/-- The `updatedAt` of the live milestone that was written last. -/
def Versioned.latest (s : Versioned) (id : String) : Option Nat :=
  ((s.db.live id).map fun m => s.milestoneUpdatedAt m.key).max?

def getDetailEtag (s : Versioned) (id : String) : Except Exn String :=
  match s.db.shipments.find? id with
  | none => throw (.notFound s!"Shipment {id} not found")
  | some _ => return shipmentEtag sha1 id (s.updatedAt id) (s.latest id)

end Validator

/-- `text.length`: characters beyond the basic plane count twice. -/
def utf16Length (text : List Char) : Nat :=
  (text.map fun c => if c.toNat < 0x10000 then 1 else 2).sum

section Tags

def Versioned.setTags (s : Versioned) (id : String) (tags : List String) : Versioned :=
  { s with tags := Function.update s.tags id tags }

/-- A Prisma update of the `tags` column. -/
def Versioned.updateTags (s : Versioned) (id : String) (tags : List String) (at_ : Nat) :
    Versioned :=
  { s.setTags id tags with updatedAt := Function.update s.updatedAt id at_ }

def versionedCall (env : Env) (call : DbCall) : Eff Exn Versioned Unit :=
  if env.fails call then throw (.unavailable call) else pure ()

/-- `addTag` and `removeTag` begin alike. Returns the tags of the row. -/
def tagChecks (env : Env) (id buyerAddress : String) : Eff Exn Versioned (List String) := do
  versionedCall env .shipmentRead
  let s ← get
  match s.db.shipments.find? id with
  | none => throw (.notFound s!"Shipment {id} not found")
  | some shipment =>
      if shipment.buyerAddress ≠ buyerAddress then
        throw (.forbidden "Only the shipment buyer can modify tags")
      if shipment.status ≠ .active then
        throw (.conflict s!"Shipment is not ACTIVE (current status: {shipment.status.name})")
      return s.tags id

def addTag (env : Env) (id buyerAddress tag : String) (at_ : Nat) : Eff Exn Versioned Unit := do
  let tags ← tagChecks env id buyerAddress
  if tag ∈ tags then
    throw (.conflict s!"Tag \"{tag}\" already exists on shipment {id}")
  versionedCall env .shipmentWrite
  modify fun s => s.updateTags id (s.tags id ++ [tag]) at_

/-- The update is an `$executeRaw` with `array_remove`. -/
def removeTag (env : Env) (id buyerAddress tag : String) : Eff Exn Versioned Unit := do
  let tags ← tagChecks env id buyerAddress
  if tag ∉ tags then
    throw (.notFound s!"Tag \"{tag}\" not found on shipment {id}")
  versionedCall env .shipmentWrite
  modify fun s => s.setTags id ((s.tags id).filter (· ≠ tag))

/-- The configuration of the shipments service that `replaceTags` reads. -/
structure TagsConfig where
  sha1 : HexDigest
  text : CaseMapping
  /-- `SHIPMENT_REQUIRE_IF_MATCH === 'true'` -/
  requireIfMatch : Bool

/-- One pass of the loop that fills `normalizedTags`, a map in insertion order. -/
def normalizeTag (text : CaseMapping) (normalizedTags : List (String × String)) :
    Json → Except Exn (List (String × String))
  | .str tag =>
      let trimmed := jsTrim tag.toList
      if utf16Length trimmed < 1 ∨ utf16Length trimmed > 30 then
        throw (.badRequest "each tag must be between 1 and 30 characters")
      else
        let value := String.ofList trimmed
        let key := text.toLowerCase value
        return if normalizedTags.any (·.1 = key) then normalizedTags
          else normalizedTags ++ [(key, value)]
  | _ => throw (.badRequest "each tag must be a string")

/-- The tags to store, from the body of the request. -/
def nextTags (text : CaseMapping) : Option Json → Except Exn (List String)
  | some (.arr tags) => do
      let normalizedTags ← tags.foldlM (normalizeTag text) []
      if normalizedTags.length > 20 then
        throw (.badRequest "A shipment can have at most 20 tags")
      return normalizedTags.map Prod.snd
  | _ => throw (.badRequest "tags must be an array")

structure TagsRequest where
  id : String
  tags : Option Json
  ifMatch : Option String

/-- `replaceTags` suspended before the statement its constructor names, with the
`updatedAt` it has read. -/
inductive TagsCall where
  | findUnique (request : TagsRequest)
  | assertIfMatch (request : TagsRequest) (updatedAt : Nat)
  | conditionalUpdate (request : TagsRequest) (updatedAt : Nat) (nextTags : List String)

/-- The inputs of one statement. -/
structure TagsInput where
  env : Env
  /-- what `prisma.read` sees -/
  read : Versioned
  /-- the clock of the update -/
  at_ : Nat

/-- Without a precondition nothing is read. -/
def ifMatchRead (env : Env) (ifMatch : Option String) : Eff Exn Versioned Unit :=
  if (truthyText ifMatch).isSome then versionedCall env .shipmentRead else pure ()

/-- The precondition, on the read client. -/
def assertIfMatch (config : TagsConfig) (read : Versioned) (id : String) (ifMatch : Option String) :
    Except Exn Unit :=
  match truthyText ifMatch with
  | none =>
      if config.requireIfMatch then throw (.preconditionFailed "If-Match header is required")
      else return
  | some ifMatch => do
      let currentEtag ← getDetailEtag config.sha1 read id
      if ifMatchSatisfied ifMatch currentEtag then return
      else throw (.preconditionFailed "Shipment has been modified; refetch and retry")

/-- With a precondition the update also asks for the `updatedAt` that was read. -/
def conditionalUpdate (env : Env) (id : String) (updatedAt : Nat) (ifMatch : Option String)
    (tags : List String) (at_ : Nat) : Eff Exn Versioned Unit := do
  versionedCall env .shipmentWrite
  let s ← get
  match truthyText ifMatch with
  | none =>
      if (s.db.shipments.find? id).isNone then throw .recordNotFound
      modify fun s => s.updateTags id tags at_
  | some _ =>
      if (s.db.shipments.find? id).isNone ∨ s.updatedAt id ≠ updatedAt then
        throw (.preconditionFailed "Shipment has been modified; refetch and retry")
      modify fun s => s.updateTags id tags at_

def TagsCall.statement (config : TagsConfig) (input : TagsInput) :
    TagsCall → Eff Exn Versioned (Option TagsCall)
  | .findUnique request => do
      versionedCall input.env .shipmentRead
      let s ← get
      match s.db.shipments.find? request.id with
      | none => throw (.notFound s!"Shipment {request.id} not found")
      | some _ => return some (.assertIfMatch request (s.updatedAt request.id))
  | .assertIfMatch request updatedAt => do
      ifMatchRead input.env request.ifMatch
      match ChainSettle.assertIfMatch config input.read request.id request.ifMatch with
      | .error err => throw err
      | .ok () =>
          match nextTags config.text request.tags with
          | .error err => throw err
          | .ok nextTags => return some (.conditionalUpdate request updatedAt nextTags)
  | .conditionalUpdate request updatedAt nextTags => do
      ChainSettle.conditionalUpdate input.env request.id updatedAt request.ifMatch nextTags
        input.at_
      return none

end Tags

section Writers

/-- The writers of a shipment and its milestones that are defined over `Db`. -/
inductive RowWrite where
  | cancel (env : Env) (id buyerAddress txHash : String)
  | replaceArbiter (env : Env) (id buyerAddress arbiterAddress : String)
  | arbiterAccept (env : Env) (id callerAddress : String)
  | syncStatusFromChain (env : Env) (id : String)
  | appendMilestone (env : Env) (shipmentId callerAddress : String) (dto : MilestoneDto)
  | rebalance (env : Env) (shipmentId callerAddress : String) (updates : List MilestonePercentDto)
  | removeMilestone (env : Env) (shipmentId : String) (milestoneIndex : Int)
      (callerAddress : String)
  | milestoneStatus (op : Operation)

def RowWrite.toServiceOp : RowWrite → ServiceOp
  | .cancel env id buyerAddress txHash => .cancel env id buyerAddress txHash
  | .replaceArbiter env id buyerAddress arbiterAddress =>
      .replaceArbiter env id buyerAddress arbiterAddress
  | .arbiterAccept env id callerAddress => .arbiterAccept env id callerAddress
  | .syncStatusFromChain env id => .sync env id
  | .appendMilestone env shipmentId callerAddress dto =>
      .plan env (.appendShipment shipmentId callerAddress dto)
  | .rebalance env shipmentId callerAddress updates =>
      .plan env (.rebalanceShipment shipmentId callerAddress updates)
  | .removeMilestone env shipmentId milestoneIndex callerAddress =>
      .plan env (.removeShipment shipmentId milestoneIndex callerAddress)
  | .milestoneStatus op => .milestone op

/-- The clock readings of an operation's writes, and the rows it writes without
changing them. -/
structure WriteTimes where
  shipmentAt : String → Nat
  milestoneAt : MilestoneKey → Nat
  rewrites : String → Bool
  rewritesMilestone : MilestoneKey → Bool

def WriteTimes.writesShipment (times : WriteTimes) (db next : Db) (id : String) : Prop :=
  next.shipments.find? id ≠ db.shipments.find? id ∨ times.rewrites id = true

def WriteTimes.writesMilestone (times : WriteTimes) (db next : Db) (key : MilestoneKey) : Prop :=
  next.milestones.find? key ≠ db.milestones.find? key ∨ times.rewritesMilestone key = true

instance (times : WriteTimes) (db next : Db) (id : String) :
    Decidable (times.writesShipment db next id) :=
  inferInstanceAs (Decidable (_ ∨ _))

instance (times : WriteTimes) (db next : Db) (key : MilestoneKey) :
    Decidable (times.writesMilestone db next key) :=
  inferInstanceAs (Decidable (_ ∨ _))

/-- The state after an operation that takes `s.db` to `next`. -/
def Versioned.restamp (s : Versioned) (next : Db) (times : WriteTimes) : Versioned where
  db := next
  tags := s.tags
  updatedAt id :=
    if times.writesShipment s.db next id then times.shipmentAt id else s.updatedAt id
  milestoneUpdatedAt key :=
    if times.writesMilestone s.db next key then times.milestoneAt key
    else s.milestoneUpdatedAt key

/-- The writers of what the validator stands for, each run to its end. -/
inductive DetailWrite where
  | addTag (env : Env) (id buyerAddress tag : String) (at_ : Nat)
  | removeTag (env : Env) (id buyerAddress tag : String)
  | replaceTags (input : TagsInput) (request : TagsRequest)
  | row (write : RowWrite) (times : WriteTimes)

/-- `replaceTags` has three statements. -/
def DetailWrite.apply (config : TagsConfig) (services : Services) (s : Versioned) :
    DetailWrite → Versioned
  | .addTag env id buyerAddress tag at_ => after (ChainSettle.addTag env id buyerAddress tag at_) s
  | .removeTag env id buyerAddress tag => after (ChainSettle.removeTag env id buyerAddress tag) s
  | .replaceTags input request =>
      complete (TagsCall.statement config input) 3 (.findUnique request) s
  | .row write times => s.restamp (write.toServiceOp.apply services s.db) times

end Writers

section Concurrent

/-- The primary, with the states it was in before, newest first. -/
structure TagsWorld where
  now : Versioned
  past : List Versioned

def TagsWorld.history (w : TagsWorld) : List Versioned := w.now :: w.past

def TagsWorld.push (w : TagsWorld) (next : Versioned) : TagsWorld := ⟨next, w.history⟩

def TagsCall.starts : TagsCall → Bool
  | .findUnique _ => true
  | _ => false

/-- Calls of `replaceTags` in flight over the primary, which other writers take to
any other state. -/
def tagging (config : TagsConfig) : CallSystem TagsWorld TagsCall TagsInput Versioned where
  starts := TagsCall.starts
  resume input w call :=
    let (next, rest) := resume (call.statement config input) w.now
    (w.push next, rest)
  external next w := w.push next

abbrev Tagging := Calls TagsWorld TagsCall

abbrev TaggingAction := CallAction TagsCall TagsInput Versioned

def Tagging.idle (s : Versioned) : Tagging := ⟨⟨s, []⟩, fun _ => none⟩

end Concurrent

end ChainSettle
