import ChainSettle.Lib.Calls
import ChainSettle.Semantics.Milestones

/-!
`ExtensionRequestsService`: the supplier or the logistics provider asks for a
later deadline, the buyer approves or denies. The two operations are cut at
their awaits. The decision is one transaction over the request and, for an
approval, the milestone; whether the request was still pending is looked at
after it has committed.

The audit log and the notifications that follow do not feed back.
-/

namespace ChainSettle

open Lib Lib.Eff

/-- The columns an approval writes. -/
def Milestone.extend (proposedDueAt : Nat) (m : Milestone) : Milestone :=
  { m with dueAt := some proposedDueAt, overdueNotifiedAt := none, overdueReminder3dAt := none }

@[simp] theorem Milestone.extend_key (proposedDueAt : Nat) (m : Milestone) :
    (m.extend proposedDueAt).key = m.key := rfl

/-- What the buyer decides. -/
inductive Decision where
  | approved | denied
deriving DecidableEq

def Decision.status : Decision → ExtensionRequestStatus
  | .approved => .approved
  | .denied => .denied

def DeadlineExtensionRequest.decide (decision : Decision) (at_ : Nat) (decidedBy : String)
    (request : DeadlineExtensionRequest) : DeadlineExtensionRequest :=
  { request with status := decision.status, decidedAt := some at_, decidedBy := some decidedBy }

@[simp] theorem DeadlineExtensionRequest.decide_id (decision : Decision) (at_ : Nat)
    (decidedBy : String) (request : DeadlineExtensionRequest) :
    (request.decide decision at_ decidedBy).id = request.id := rfl

@[simp] theorem DeadlineExtensionRequest.decide_isPending (decision : Decision) (at_ : Nat)
    (decidedBy : String) (request : DeadlineExtensionRequest) :
    (request.decide decision at_ decidedBy).isPending = false := by
  cases decision <;> rfl

/-- `where: { id }`. -/
def Db.milestoneById (db : Db) (id : String) : Option Milestone :=
  db.milestones.rows.find? fun m => m.id = id

/-- The conditional update of the request. -/
def Db.decideRequest (db : Db) (requestId : String) (decision : Decision) (at_ : Nat)
    (decidedBy : String) : Db :=
  { db with
    extensionRequests := db.extensionRequests.close requestId
      (DeadlineExtensionRequest.decide decision at_ decidedBy) (fun _ => rfl)
      (DeadlineExtensionRequest.decide_isPending decision at_ decidedBy) }

/-- The update of the milestone that an approval adds to the transaction. -/
def Db.extendMilestone (db : Db) (key : MilestoneKey) (proposedDueAt : Nat) : Db :=
  { db with
    milestones := db.milestones.modify key (Milestone.extend proposedDueAt)
      (Milestone.extend_key proposedDueAt) }

/-- The request that the conditional update would answer. -/
def Db.awaits (db : Db) (requestId : String) : Bool :=
  (db.extensionRequests.find? requestId).any DeadlineExtensionRequest.isPending

structure ExtensionDto where
  /-- the generated id of the request -/
  id : String
  proposedDueAt : Nat
  reason : String
deriving DecidableEq

/-- An operation suspended before the statement its constructor names. -/
inductive ExtensionCall where
  -- `create`
  | createShipment (shipmentId : String) (milestoneIndex : Int) (dto : ExtensionDto)
      (callerAddress : String)
  | createMilestone (shipmentId : String) (milestoneIndex : Int) (dto : ExtensionDto)
      (callerAddress : String)
  | createPending (milestoneIndex : Int) (milestone : Milestone) (dto : ExtensionDto)
      (callerAddress : String)
  | createInsert (milestoneIndex : Int) (milestone : Milestone) (dto : ExtensionDto)
      (callerAddress : String)
  -- `approve` and `deny`
  | decideShipment (shipmentId : String) (milestoneIndex : Int) (requestId : String)
      (decision : Decision) (callerAddress : String)
  | decideMilestone (shipmentId : String) (milestoneIndex : Int) (requestId : String)
      (decision : Decision) (callerAddress : String)
  | decideRequest (milestone : Milestone) (requestId : String) (decision : Decision)
      (callerAddress : String)
  | decideTransaction (milestone : Milestone) (request : DeadlineExtensionRequest)
      (decision : Decision) (callerAddress : String)
deriving DecidableEq

def findShipment (env : Env) (shipmentId : String) : Tx Shipment := do
  match ← shipmentFindUnique env .shipmentRead shipmentId with
  | none => throw (.notFound s!"Shipment {shipmentId} not found")
  | some shipment => return shipment

/-- The statement a call is suspended before, and the checks that follow it. -/
def ExtensionCall.statement (env : Env) : ExtensionCall → Tx (Option ExtensionCall)
  | .createShipment shipmentId milestoneIndex dto callerAddress => do
      let shipment ← findShipment env shipmentId
      if shipment.supplierAddress ≠ callerAddress ∧ shipment.logisticsAddress ≠ callerAddress then
        throw (.forbidden ("Only the shipment supplier or logistics provider may request " ++
          "a deadline extension"))
      return some (.createMilestone shipmentId milestoneIndex dto callerAddress)
  | .createMilestone shipmentId milestoneIndex dto callerAddress => do
      let milestone ← findOne env shipmentId milestoneIndex
      if milestone.status.Terminal then
        throw (.conflict (s!"Milestone {milestoneIndex} is {milestone.status.name}; " ++
          "its deadline can no longer change"))
      if dto.proposedDueAt ≤ env.now then
        throw (.badRequest "proposedDueAt must be in the future")
      if milestone.dueAt.any fun dueAt : Int => dto.proposedDueAt ≤ dueAt then
        throw (.badRequest "proposedDueAt must be later than the current dueAt")
      return some (.createPending milestoneIndex milestone dto callerAddress)
  | .createPending milestoneIndex milestone dto callerAddress => do
      prismaCall env .extensionRead
      match (← get).extensionRequests.openOf milestone.id with
      | some pending =>
          throw (.conflict (s!"Milestone {milestoneIndex} already has a pending " ++
            s!"extension request ({pending.id})"))
      | none => return some (.createInsert milestoneIndex milestone dto callerAddress)
  | .createInsert milestoneIndex milestone dto callerAddress => do
      prismaCall env .extensionCreate
      let request : DeadlineExtensionRequest :=
        { id := dto.id
          milestoneId := milestone.id
          requestedBy := callerAddress
          proposedDueAt := dto.proposedDueAt
          previousDueAt := milestone.dueAt
          reason := String.ofList (jsTrim dto.reason.toList)
          status := .pending
          decidedAt := none
          decidedBy := none }
      match (← get).extensionRequests.insert? request with
      | none =>
          throw (.conflict s!"Milestone {milestoneIndex} already has a pending extension request")
      | some extensionRequests =>
          modify fun db => { db with extensionRequests := extensionRequests }
          return none
  | .decideShipment shipmentId milestoneIndex requestId decision callerAddress => do
      let shipment ← findShipment env shipmentId
      if shipment.buyerAddress ≠ callerAddress then
        throw (.forbidden "Only the shipment buyer may decide extension requests")
      return some (.decideMilestone shipmentId milestoneIndex requestId decision callerAddress)
  | .decideMilestone shipmentId milestoneIndex requestId decision callerAddress => do
      let milestone ← findOne env shipmentId milestoneIndex
      return some (.decideRequest milestone requestId decision callerAddress)
  | .decideRequest milestone requestId decision callerAddress => do
      prismaCall env .extensionRead
      match ((← get).extensionRequests.find? requestId).filter fun r =>
          r.milestoneId = milestone.id with
      | none => throw (.notFound s!"Extension request {requestId} not found")
      | some request =>
          if request.status ≠ .pending then
            throw (.conflict s!"Extension request {requestId} is already {request.status.name}")
          return some (.decideTransaction milestone request decision callerAddress)
  | .decideTransaction milestone request decision callerAddress => do
      prismaCall env .decideWrite
      let db ← get
      match decision with
      | .denied => modify fun db => db.decideRequest request.id .denied env.now callerAddress
      | .approved =>
          match db.milestoneById milestone.id with
          | none => throw .recordNotFound
          | some m =>
              modify fun db => (db.decideRequest request.id .approved env.now callerAddress).extendMilestone
                m.key request.proposedDueAt
      -- the batch has committed
      if ¬ db.awaits request.id then
        throw (.conflict s!"Extension request {request.id} was already decided")
      return none

def ExtensionCall.starts : ExtensionCall → Bool
  | .createShipment _ _ _ _ | .decideShipment _ _ _ _ _ => true
  | _ => false

/-- How a call of `approve` or `deny` has been answered, with the row of the
milestone before and after the statement that answered it. -/
structure Answer where
  requestId : String
  milestoneId : String
  conflict : Bool
  before : Option Milestone
  after : Option Milestone
deriving DecidableEq

def ExtensionCall.answer (db next : Db) (outcome : Except Exn (Option ExtensionCall)) :
    ExtensionCall → Option Answer
  | .decideRequest milestone requestId _ _ =>
      match outcome with
      | .error (.conflict _) =>
          some ⟨requestId, milestone.id, true, db.milestoneById milestone.id,
            next.milestoneById milestone.id⟩
      | _ => none
  | .decideTransaction milestone request _ _ =>
      match outcome with
      | .ok _ =>
          some ⟨request.id, milestone.id, false, db.milestoneById milestone.id,
            next.milestoneById milestone.id⟩
      | .error (.conflict _) =>
          some ⟨request.id, milestone.id, true, db.milestoneById milestone.id,
            next.milestoneById milestone.id⟩
      | .error _ => none
  | _ => none

/-- The database and, as a history variable, the answers given so far. -/
structure ExtensionWorld where
  db : Db
  answers : List Answer

def ExtensionCall.resume (env : Env) (w : ExtensionWorld) (call : ExtensionCall) :
    ExtensionWorld × Option ExtensionCall :=
  match exec (call.statement env) w.db with
  | (.ok rest, db) => (⟨db, w.answers ++ (call.answer w.db db (.ok rest)).toList⟩, rest)
  | (.error err, db) => (⟨db, w.answers ++ (call.answer w.db db (.error err)).toList⟩, none)

/-- Calls on extension requests in flight; nothing else changes the database. -/
def extensions : CallSystem ExtensionWorld ExtensionCall Env Empty where
  starts := ExtensionCall.starts
  resume := ExtensionCall.resume
  external := nofun

abbrev Extensions := Calls ExtensionWorld ExtensionCall

abbrev ExtensionAction := CallAction ExtensionCall Env Empty

def Extensions.idle (db : Db) : Extensions := ⟨⟨db, []⟩, fun _ => none⟩

end ChainSettle
