import ChainSettle.Lib.Calls
import ChainSettle.Semantics.Milestones

/-!
`SettlementProposalsController`: buyer and supplier propose to each other how to
split a disputed payment. `create` and `respond` are cut at their awaits. The
context query returns the milestone with its shipment; the answer to a proposal
is a compare-and-set whose count decides who notifies the arbiter.
-/

namespace ChainSettle

open Lib Lib.Eff

/-- The body of a proposal with its generated id: `@Min(0) @Max(100)`. -/
structure ProposalDto where
  id : String
  supplierPercent : Int
  message : Option String
  min : 0 ≤ supplierPercent
  max : supplierPercent ≤ 100
deriving DecidableEq

/-- The actions of `respond`. -/
inductive Response where
  | accept | reject | withdraw
deriving DecidableEq

def Response.ofString : String → Option Response
  | "accept" => some .accept
  | "reject" => some .reject
  | "withdraw" => some .withdraw
  | _ => none

def Response.status : Response → SettlementProposalStatus
  | .accept => .accepted
  | .reject => .rejected
  | .withdraw => .withdrawn

def SettlementProposal.respond (response : Response) (at_ : Nat) (p : SettlementProposal) :
    SettlementProposal :=
  { p with status := response.status, respondedAt := some at_ }

@[simp] theorem SettlementProposal.respond_id (response : Response) (at_ : Nat)
    (p : SettlementProposal) : (p.respond response at_).id = p.id := rfl

@[simp] theorem SettlementProposal.respond_isPending (response : Response) (at_ : Nat)
    (p : SettlementProposal) : (p.respond response at_).isPending = false := by
  cases response <;> rfl

/-- The conditional update of a proposal. -/
def Db.respond (db : Db) (id : String) (response : Response) (at_ : Nat) : Db :=
  { db with
    settlementProposals := db.settlementProposals.close id (SettlementProposal.respond response at_)
      (SettlementProposal.respond_id response at_)
      (SettlementProposal.respond_isPending response at_) }

/-- The party that has to answer a proposal. -/
def counterparty (shipment : Shipment) (proposal : SettlementProposal) : String :=
  if proposal.proposedBy = shipment.buyerAddress then shipment.supplierAddress
  else shipment.buyerAddress

/-- What the arbiter is told about an agreement. -/
structure Agreement where
  proposalId : String
  arbiterAddress : String
  message : String
deriving DecidableEq

def agreement (milestone : Milestone) (shipment : Shipment) (proposal : SettlementProposal) :
    Agreement where
  proposalId := proposal.id
  arbiterAddress := shipment.arbiterAddress
  message := s!"The buyer and supplier agreed to a {proposal.supplierPercent}% supplier / " ++
    s!"{100 - proposal.supplierPercent}% buyer split for milestone {milestone.milestoneIndex} " ++
    s!"on shipment {milestone.shipmentId}."

/-- A request suspended before the statement its constructor names. -/
inductive SettlementCall where
  -- `create`
  | createContext (shipmentId : String) (index : Option Int) (address : String) (dto : ProposalDto)
  | createPending (milestone : Milestone) (address : String) (dto : ProposalDto)
  | createInsert (milestone : Milestone) (address : String) (dto : ProposalDto)
  -- `respond`
  | respondContext (shipmentId : String) (index : Option Int) (id action address : String)
  | respondFind (milestone : Milestone) (shipment : Shipment) (id : String) (response : Response)
      (address : String)
  | respondUpdate (milestone : Milestone) (shipment : Shipment) (proposal : SettlementProposal)
      (response : Response) (address : String)
  | respondNotify (notice : Agreement)
deriving DecidableEq

/-- One query returns the milestone with its shipment; `Number(index)` may not be
an integer, which Prisma rejects. -/
def settlementContext (env : Env) (shipmentId : String) (index : Option Int) :
    Tx (Milestone × Shipment) := do
  match ← milestoneFindUnique env shipmentId index with
  | none => throw (.notFound "Milestone not found")
  | some milestone =>
      match (← get).shipments.find? shipmentId with
      -- excluded by the foreign key
      | none => throw .invalidValue
      | some shipment =>
          if milestone.status ≠ .disputed then
            throw (.conflict "Settlement proposals require an open dispute")
          return (milestone, shipment)

/-- The statement a request is suspended before, and the checks that follow it. -/
def SettlementCall.statement (env : Env) : SettlementCall → Tx (Option SettlementCall)
  | .createContext shipmentId index address dto => do
      let (milestone, shipment) ← settlementContext env shipmentId index
      if address ≠ shipment.buyerAddress ∧ address ≠ shipment.supplierAddress then
        throw (.forbidden "Only buyer or supplier may propose settlement")
      return some (.createPending milestone address dto)
  | .createPending milestone address dto => do
      prismaCall env .proposalRead
      if ((← get).settlementProposals.openOf milestone.id).isSome then
        throw (.conflict "A pending proposal already exists")
      return some (.createInsert milestone address dto)
  | .createInsert milestone address dto => do
      prismaCall env .proposalCreate
      let proposal : SettlementProposal :=
        { id := dto.id
          milestoneId := milestone.id
          proposedBy := address
          supplierPercent := dto.supplierPercent
          message := dto.message
          status := .pending
          respondedAt := none }
      match (← get).settlementProposals.insert? proposal with
      -- the violation of a unique index is not caught
      | none => throw .invalidValue
      | some settlementProposals =>
          modify fun db => { db with settlementProposals := settlementProposals }
          return none
  | .respondContext shipmentId index id action address => do
      match Response.ofString action with
      | none => throw (.badRequest "Action must be accept, reject, or withdraw")
      | some response =>
          let (milestone, shipment) ← settlementContext env shipmentId index
          return some (.respondFind milestone shipment id response address)
  | .respondFind milestone shipment id response address => do
      prismaCall env .proposalRead
      match ((← get).settlementProposals.find? id).filter fun p =>
          p.milestoneId = milestone.id ∧ p.isPending with
      | none => throw (.notFound "Pending proposal not found")
      | some proposal =>
          if response = .withdraw ∧ address ≠ proposal.proposedBy then
            throw (.forbidden "Only the proposer may withdraw")
          if response ≠ .withdraw ∧ address ≠ counterparty shipment proposal then
            throw (.forbidden "Only the counterparty may respond")
          return some (.respondUpdate milestone shipment proposal response address)
  | .respondUpdate milestone shipment proposal response _ => do
      prismaCall env .respondWrite
      let pending := ((← get).settlementProposals.find? proposal.id).any SettlementProposal.isPending
      modify fun db => db.respond proposal.id response env.now
      if ¬ pending then throw (.conflict "Proposal was already answered")
      match response with
      | .accept => return some (.respondNotify (agreement milestone shipment proposal))
      | .reject | .withdraw => return none
  | .respondNotify _ => return none

def SettlementCall.starts : SettlementCall → Bool
  | .createContext _ _ _ _ | .respondContext _ _ _ _ _ => true
  | _ => false

/-- An answer that went through. -/
structure Responded where
  proposalId : String
  response : Response
  address : String
deriving DecidableEq

/-- The database, the notifications the arbiter has been sent and, as a history
variable, the answers that went through. -/
structure SettlementWorld where
  db : Db
  agreements : List Agreement
  responses : List Responded

/-- What the statement adds to the notifications when it does not throw. -/
def SettlementCall.notifies : SettlementCall → List Agreement
  | .respondNotify notice => [notice]
  | _ => []

/-- What it adds to the history. -/
def SettlementCall.responds : SettlementCall → List Responded
  | .respondUpdate _ _ proposal response address => [⟨proposal.id, response, address⟩]
  | _ => []

def SettlementCall.resume (env : Env) (w : SettlementWorld) (call : SettlementCall) :
    SettlementWorld × Option SettlementCall :=
  match exec (call.statement env) w.db with
  | (.ok rest, db) =>
      (⟨db, w.agreements ++ call.notifies, w.responses ++ call.responds⟩, rest)
  | (.error _, db) => ({ w with db := db }, none)

/-- Meanwhile the rest of the service moves milestones. -/
structure MilestoneMove where
  key : MilestoneKey
  write : MilestoneWrite

def settlements : CallSystem SettlementWorld SettlementCall Env MilestoneMove where
  starts := SettlementCall.starts
  resume := SettlementCall.resume
  external move w := { w with db := w.db.writeMilestone move.key move.write }

abbrev Settlements := Calls SettlementWorld SettlementCall

abbrev SettlementStep := CallAction SettlementCall Env MilestoneMove

def Settlements.idle (db : Db) : Settlements := ⟨⟨db, [], []⟩, fun _ => none⟩

end ChainSettle
