import ChainSettle.Semantics.Creation

/-!
The arbiter of a shipment: the buyer may replace him until he has accepted
(`replaceArbiter`), and he answers the assignment (`arbiterAccept` and
`arbiterDecline`). Each of the three reads the shipment, checks address and
status on what it read, and then updates the row by its id; a call is cut
between the two statements. `ShipmentApprovalsService.approve` records the
approval of a participant.
-/

namespace ChainSettle

open Lib Lib.Eff

section Operations

def Shipment.assignArbiter (arbiterAddress : String) (s : Shipment) : Shipment :=
  { s with arbiterAddress := arbiterAddress, arbiterStatus := .pendingAcceptance }

def Shipment.setArbiterStatus (arbiterStatus : ArbiterStatus) (s : Shipment) : Shipment :=
  { s with arbiterStatus := arbiterStatus }

/-- The checks of `replaceArbiter`. -/
def replaceChecks (text : CaseMapping) (env : Env) (id buyerAddress arbiterAddress : String) :
    Tx Unit := do
  match ← shipmentFindUnique env .shipmentRead id with
  | none => throw (.notFound s!"Shipment {id} not found")
  | some shipment =>
      if shipment.buyerAddress ≠ buyerAddress then
        throw (.forbidden "Only the buyer may replace the arbiter")
      if shipment.arbiterStatus = .accepted then
        throw (.conflict "An accepted arbiter cannot be replaced")
      if arbiterConflict text arbiterAddress
          [shipment.buyerAddress, shipment.supplierAddress, shipment.logisticsAddress] then
        throw (.badRequestWith "ARBITER_CONFLICT" "Arbiter cannot be a shipment party")
      return

def Db.assignArbiter (db : Db) (id arbiterAddress : String) : Db :=
  { db with
    shipments := db.shipments.modify id (Shipment.assignArbiter arbiterAddress) fun _ => rfl }

def Db.setArbiterStatus (db : Db) (id : String) (arbiterStatus : ArbiterStatus) : Db :=
  { db with
    shipments := db.shipments.modify id (Shipment.setArbiterStatus arbiterStatus) fun _ => rfl }

/-- Its update; the arbiter is a foreign key to a user. -/
def replaceUpdate (env : Env) (id arbiterAddress : String) : Tx Unit := do
  prismaCall env .arbiterWrite
  if ((← get).shipments.find? id).isNone then throw .recordNotFound
  if ((← get).users.find? arbiterAddress).isNone then throw .invalidValue
  modify fun db => db.assignArbiter id arbiterAddress

def replaceArbiter (text : CaseMapping) (env : Env) (id buyerAddress arbiterAddress : String) :
    Tx Unit := do
  replaceChecks text env id buyerAddress arbiterAddress
  replaceUpdate env id arbiterAddress

inductive ArbiterAnswer where
  | accept | decline
deriving DecidableEq

def ArbiterAnswer.name : ArbiterAnswer → String
  | .accept => "accept"
  | .decline => "decline"

def ArbiterAnswer.status : ArbiterAnswer → ArbiterStatus
  | .accept => .accepted
  | .decline => .declined

/-- The checks that `arbiterAccept` and `arbiterDecline` share. -/
def answerChecks (env : Env) (answer : ArbiterAnswer) (id callerAddress : String) : Tx Unit := do
  match ← shipmentFindUnique env .shipmentRead id with
  | none => throw (.notFound s!"Shipment {id} not found")
  | some shipment =>
      if shipment.arbiterAddress ≠ callerAddress then
        throw (.forbidden s!"Only the designated arbiter can {answer.name} this assignment")
      if shipment.arbiterStatus ≠ .pendingAcceptance then
        throw (.conflict s!"Arbiter assignment is already {shipment.arbiterStatus.lowerName}")
      return

def answerUpdate (env : Env) (answer : ArbiterAnswer) (id : String) : Tx Unit := do
  prismaCall env .arbiterWrite
  if ((← get).shipments.find? id).isNone then throw .recordNotFound
  modify fun db => db.setArbiterStatus id answer.status

def arbiterAccept (env : Env) (id callerAddress : String) : Tx Unit := do
  answerChecks env .accept id callerAddress
  answerUpdate env .accept id

def arbiterDecline (env : Env) (id callerAddress : String) : Tx Unit := do
  answerChecks env .decline id callerAddress
  answerUpdate env .decline id

end Operations

section Approvals

def Shipment.participants (s : Shipment) : List String :=
  [s.buyerAddress, s.supplierAddress, s.logisticsAddress, s.arbiterAddress]

/-- Record a co-approver's sign-off. The note is left out. -/
def approve (env : Env) (shipmentId approverAddress : String) : Tx Unit := do
  match ← shipmentFindUnique env .shipmentRead shipmentId with
  | none => throw (.notFound s!"Shipment {shipmentId} not found")
  | some shipment =>
      if approverAddress ∉ shipment.participants then
        throw (.forbidden "Only a participant on this shipment may record an approval")
      if shipment.requiredApprovals = none then
        throw (.badRequest s!"Shipment {shipmentId} does not require multi-signature approval")
      prismaCall env .approvalRead
      if ⟨shipmentId, approverAddress⟩ ∈ (← get).approvals then
        throw (.conflict "This address has already approved this shipment")
      prismaCall env .approvalWrite
      modify fun db => { db with approvals := db.approvals ++ [⟨shipmentId, approverAddress⟩] }

end Approvals

section Calls

/-- A call suspended before the statement its constructor names. -/
inductive ArbiterCall where
  -- `replaceArbiter`
  | replaceRead (id buyerAddress arbiterAddress : String)
  | replaceUpdate (id arbiterAddress : String)
  -- `arbiterAccept` and `arbiterDecline`
  | answerRead (answer : ArbiterAnswer) (id callerAddress : String)
  | answerUpdate (answer : ArbiterAnswer) (id callerAddress : String)
deriving DecidableEq

/-- The statement a call is suspended before, and the checks that follow it. -/
def ArbiterCall.statement (text : CaseMapping) (env : Env) : ArbiterCall → Tx (Option ArbiterCall)
  | .replaceRead id buyerAddress arbiterAddress => do
      replaceChecks text env id buyerAddress arbiterAddress
      return some (.replaceUpdate id arbiterAddress)
  | .replaceUpdate id arbiterAddress => do
      ChainSettle.replaceUpdate env id arbiterAddress
      return none
  | .answerRead answer id callerAddress => do
      answerChecks env answer id callerAddress
      return some (.answerUpdate answer id callerAddress)
  | .answerUpdate answer id _ => do
      ChainSettle.answerUpdate env answer id
      return none

def ArbiterCall.starts : ArbiterCall → Bool
  | .replaceRead _ _ _ | .answerRead _ _ _ => true
  | _ => false

/-- The database with two history variables: for each shipment who has called
with which answer since its arbiter was assigned, and the statuses in which
arbiters have been replaced. -/
structure ArbiterWorld where
  db : Db
  answers : String → List (ArbiterAnswer × String)
  replaced : List ArbiterStatus

/-- What the statement adds to the histories when it does not throw. An answer is
given when the call reads the shipment. -/
def ArbiterCall.record (w : ArbiterWorld) (db : Db) : ArbiterCall → ArbiterWorld
  | .answerRead answer id callerAddress =>
      { w with
        db := db
        answers := Function.update w.answers id ((answer, callerAddress) :: w.answers id) }
  | .replaceUpdate id _ =>
      { db := db
        answers := Function.update w.answers id []
        replaced := w.replaced ++ ((w.db.shipments.find? id).map Shipment.arbiterStatus).toList }
  | .replaceRead _ _ _ | .answerUpdate _ _ _ => { w with db := db }

def ArbiterCall.resume (text : CaseMapping) (env : Env) (w : ArbiterWorld) (call : ArbiterCall) :
    ArbiterWorld × Option ArbiterCall :=
  match exec (call.statement text env) w.db with
  | (.ok rest, db) => (call.record w db, rest)
  | (.error _, db) => ({ w with db := db }, none)

def assignments (text : CaseMapping) : CallSystem ArbiterWorld ArbiterCall Env Empty where
  starts := ArbiterCall.starts
  resume := ArbiterCall.resume text
  external := nofun

abbrev Assignments := Calls ArbiterWorld ArbiterCall

abbrev AssignmentStep := CallAction ArbiterCall Env Empty

def Assignments.idle (db : Db) : Assignments := ⟨⟨db, fun _ => [], []⟩, fun _ => none⟩

end Calls

end ChainSettle
