import ChainSettle.Lib.Calls
import ChainSettle.Semantics.Shipments
import Mathlib.Data.List.Sort

/-!
The milestone plan of a shipment: `create` and the three operations that change
the plan afterwards, `appendMilestone`, `rebalance` and `removeMilestone`. The
three are cut at their awaits like the milestone operations, and run over the
database alone.

The request bodies carry the bounds that their validation decorators check. A
percentage that is not an integer is not modelled: the column rejects it, and
then nothing is written.
-/

namespace ChainSettle

open Lib Lib.Eff

/-- A milestone of a create or append request: `@Min(1) @Max(100)`. -/
structure MilestoneDto extends NewMilestone where
  min : 1 ≤ paymentPercent
  max : paymentPercent ≤ 100
  /-- not in the class, so the validation strips it -/
  no_checklist : checklistItems = []
deriving DecidableEq

/-- One element of a rebalance request: `@Min(0) @Max(100)`. -/
@[ext] structure MilestonePercentDto where
  milestoneIndex : Int
  paymentPercent : Int
  index_min : 0 ≤ milestoneIndex
  min : 0 ≤ paymentPercent
  max : paymentPercent ≤ 100

instance : DecidableEq MilestonePercentDto :=
  fun _ _ => decidable_of_iff' _ MilestonePercentDto.ext_iff

/-- The guard on the percentages, and the insert. `ShipmentsService.create` has
what is asked of other services in between. -/
def create (env : Env) (new : NewShipment) (milestones : List MilestoneDto) : Tx Unit := do
  let sum := (milestones.map fun m => m.paymentPercent).sum
  if milestones ≠ [] ∧ sum ≠ 100 then
    throw (.badRequest s!"Milestone payment percentages must sum to exactly 100. Got {sum}.")
  shipmentCreate env new (milestones.map fun m => m.toNewMilestone)

/-- The milestones of a shipment that are not soft-deleted. -/
def Db.live (db : Db) (shipmentId : String) : List Milestone :=
  db.milestones.rows.filter fun m => m.shipmentId = shipmentId ∧ m.deletedAt = none

/-- `findMany` with `orderBy: { milestoneIndex: 'asc' }`. -/
def Db.findMany (db : Db) (shipmentId : String) : List Milestone :=
  (db.live shipmentId).insertionSort fun a b => a.milestoneIndex ≤ b.milestoneIndex

/-- Soft-deleted rows still hold their index. -/
def Db.nextIndex (db : Db) (shipmentId : String) : Int :=
  match ((db.milestones.rows.filter fun m => m.shipmentId = shipmentId).map
      Milestone.milestoneIndex).max? with
  | some index => index + 1
  | none => 0

/-- What `updateMap` holds for an index: the last entry of the request. -/
def updateMap (updates : List MilestonePercentDto) (milestoneIndex : Int) : Option Int :=
  (updates.reverse.find? fun u => u.milestoneIndex = milestoneIndex).map
    MilestonePercentDto.paymentPercent

/-- The percentage a milestone has after the request. -/
def percentAfter (updates : List MilestonePercentDto) (m : Milestone) : Int :=
  (updateMap updates m.milestoneIndex).getD m.paymentPercent

/-- Why `rebalance` refuses an element of the request, if it does. -/
def rebalanceRefusal (allMilestones : List Milestone) (shipmentId : String)
    (update : MilestonePercentDto) : Option Exn :=
  match allMilestones.find? fun m => m.milestoneIndex = update.milestoneIndex with
  | none => some (.notFound s!"Milestone {update.milestoneIndex} not found on shipment {shipmentId}")
  | some m =>
      if m.status ≠ .pending then
        some (.conflict
          s!"Milestone {update.milestoneIndex} is not PENDING (status: {m.status.name})")
      else none

/-- The update of one element of the request. -/
def Db.setPercent (shipmentId : String) (db : Db) (update : MilestonePercentDto) : Db :=
  { db with
    milestones := db.milestones.modify (shipmentId, update.milestoneIndex)
      (fun m => { m with paymentPercent := update.paymentPercent }) fun _ => rfl }

def Db.softDelete (db : Db) (key : MilestoneKey) (now : Nat) : Db :=
  { db with
    milestones := db.milestones.modify key (fun m => { m with deletedAt := some now }) fun _ => rfl }

/-- An operation on the plan suspended before the statement its constructor
names. -/
inductive PlanCall where
  -- `appendMilestone`
  | appendShipment (shipmentId callerAddress : String) (dto : MilestoneDto)
  | appendList (shipmentId : String) (dto : MilestoneDto)
  | appendIndex (shipmentId : String) (dto : MilestoneDto)
  | appendCreate (shipmentId : String) (dto : MilestoneDto) (nextIndex : Int)
  -- `rebalance`
  | rebalanceShipment (shipmentId callerAddress : String) (updates : List MilestonePercentDto)
  | rebalanceList (shipmentId : String) (updates : List MilestonePercentDto)
  | rebalanceWrite (shipmentId : String) (updates : List MilestonePercentDto)
  -- `removeMilestone`
  | removeShipment (shipmentId : String) (milestoneIndex : Int) (callerAddress : String)
  | removeFind (shipmentId : String) (milestoneIndex : Int)
  | removeList (shipmentId : String) (milestoneIndex : Int) (milestone : Milestone)
  | removeWrite (shipmentId : String) (milestoneIndex : Int) (milestone : Milestone)
deriving DecidableEq

/-- The three operations begin alike. -/
def buyerOnly (env : Env) (shipmentId callerAddress verb : String) (next : PlanCall) :
    Tx (Option PlanCall) := do
  match ← shipmentFindUnique env .shipmentRead shipmentId with
  | none => throw (.notFound s!"Shipment {shipmentId} not found")
  | some shipment =>
      if shipment.buyerAddress ≠ callerAddress then
        throw (.forbidden s!"Only the shipment buyer may {verb} milestones")
      return some next

/-- The statement a call is suspended before, and the checks that follow it. -/
def PlanCall.statement (env : Env) : PlanCall → Tx (Option PlanCall)
  | .appendShipment shipmentId callerAddress dto =>
      buyerOnly env shipmentId callerAddress "append" (.appendList shipmentId dto)
  | .appendList shipmentId dto => do
      prismaCall env .milestoneRead
      let existingMilestones := (← get).findMany shipmentId
      match existingMilestones.find? fun m => m.status ≠ .pending with
      | some m =>
          throw (.conflict (s!"Cannot append milestone: milestone {m.milestoneIndex} " ++
            s!"(\"{m.name}\") is in status {m.status.name}, expected PENDING. " ++
            "Work has already started on this shipment."))
      | none =>
          let existingSum := (existingMilestones.map Milestone.paymentPercent).sum
          if existingSum + dto.paymentPercent > 100 then
            throw (.badRequest (s!"Appending a milestone with {dto.paymentPercent}% would push " ++
              s!"the total sum to {existingSum + dto.paymentPercent}%, exceeding the maximum of 100%."))
          return some (.appendIndex shipmentId dto)
  | .appendIndex shipmentId dto => do
      prismaCall env .milestoneRead
      return some (.appendCreate shipmentId dto ((← get).nextIndex shipmentId))
  | .appendCreate shipmentId dto nextIndex => do
      prismaCall env .milestoneWrite
      let milestone := dto.row shipmentId nextIndex
      let rows := (← get).milestones.rows
      -- the unique indexes on the id and on (shipmentId, milestoneIndex)
      if milestone.id ∈ rows.map Milestone.id ∨ milestone.key ∈ rows.map Milestone.key then
        throw .invalidValue
      modify fun db => { db with milestones := db.milestones.insert milestone }
      return none
  | .rebalanceShipment shipmentId callerAddress updates =>
      buyerOnly env shipmentId callerAddress "rebalance" (.rebalanceList shipmentId updates)
  | .rebalanceList shipmentId updates => do
      prismaCall env .milestoneRead
      let allMilestones := (← get).findMany shipmentId
      match updates.findSome? (rebalanceRefusal allMilestones shipmentId) with
      | some err => throw err
      | none =>
          let totalPercent := (allMilestones.map (percentAfter updates)).sum
          if totalPercent ≠ 100 then
            throw (.badRequest s!"Rebalanced percentages must sum to 100. Got {totalPercent}.")
          return some (.rebalanceWrite shipmentId updates)
  | .rebalanceWrite shipmentId updates => do
      prismaCall env .milestoneWrite
      let db ← get
      if updates.any fun u => (db.milestones.find? (shipmentId, u.milestoneIndex)).isNone then
        throw .recordNotFound
      modify fun db => updates.foldl (Db.setPercent shipmentId) db
      return none
  | .removeShipment shipmentId milestoneIndex callerAddress =>
      buyerOnly env shipmentId callerAddress "remove" (.removeFind shipmentId milestoneIndex)
  | .removeFind shipmentId milestoneIndex => do
      prismaCall env .milestoneRead
      match (← get).liveMilestone shipmentId milestoneIndex with
      | none => throw (.notFound s!"Milestone {milestoneIndex} not found on shipment {shipmentId}")
      | some milestone =>
          if milestone.status ≠ .pending then
            throw (.conflict (s!"Cannot remove milestone {milestoneIndex} (\"{milestone.name}\"): " ++
              s!"status is {milestone.status.name}, expected PENDING."))
          return some (.removeList shipmentId milestoneIndex milestone)
  | .removeList shipmentId milestoneIndex milestone => do
      prismaCall env .milestoneRead
      let allMilestones := (← get).findMany shipmentId
      match allMilestones.find? fun m =>
          m.milestoneIndex ≠ milestoneIndex ∧ m.status ≠ .pending with
      | some m =>
          throw (.conflict (s!"Cannot remove milestone: milestone {m.milestoneIndex} " ++
            s!"(\"{m.name}\") is in status {m.status.name}, expected PENDING. " ++
            "Work has already started on this shipment."))
      | none =>
          if allMilestones.length ≤ 1 then
            throw (.badRequest ("Cannot remove the only milestone on a shipment. " ++
              "A shipment must have at least one milestone."))
          return some (.removeWrite shipmentId milestoneIndex milestone)
  | .removeWrite _ _ milestone => do
      prismaCall env .milestoneWrite
      match (← get).milestones.rows.find? fun m => m.id = milestone.id with
      | none => throw .recordNotFound
      | some m =>
          modify fun db => db.softDelete m.key env.now
          return none

def PlanCall.starts : PlanCall → Bool
  | .appendShipment _ _ _ | .rebalanceShipment _ _ _ | .removeShipment _ _ _ => true
  | _ => false

/-- A call whose statement throws is over. -/
def PlanCall.resume (env : Env) (db : Db) (call : PlanCall) : Db × Option PlanCall :=
  match exec (call.statement env) db with
  | (.ok rest, next) => (next, rest)
  | (.error _, next) => (next, none)

/-- `rebalance` with nothing in between: its three statements, and the read of what it
answers with. -/
def rebalance (env : Env) (shipmentId callerAddress : String)
    (updates : List MilestonePercentDto) : Tx (List Milestone) := do
  whole (PlanCall.statement env) 3 (.rebalanceShipment shipmentId callerAddress updates)
  prismaCall env .responseRead
  return (← get).findMany shipmentId

/-- Operations on plans in flight over a database; nothing else changes it. -/
def planning : CallSystem Db PlanCall Env Empty where
  starts := PlanCall.starts
  resume := PlanCall.resume
  external := nofun

abbrev Planning := Calls Db PlanCall

abbrev PlanAction := CallAction PlanCall Env Empty

def Planning.idle (db : Db) : Planning := ⟨db, fun _ => none⟩

end ChainSettle
