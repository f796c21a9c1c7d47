import ChainSettle.Semantics.Concurrent
import ChainSettle.Semantics.Extensions

/-!
The hourly jobs over milestones. `notifyUser` catches its errors, so what is sent
is a call of it.

`DisputeEscalationJob` runs here without interruption. The age of a dispute is
read off the column `updatedAt`, which Prisma sets in every update of a row; it is
kept beside the database because nothing else looks at it.

`MilestoneDeadlineJob` is cut at its awaits and runs beside extension requests,
calls of the milestone service and cancellations. The clock is part of the state,
so it does not run backwards between two statements of a call.
-/

namespace ChainSettle

open Lib Lib.Eff

/-- A `SYSTEM_ALERT` about an unresolved dispute. Title and message are made of
these. -/
structure EscalationAlert where
  recipient : String
  shipmentId : String
  milestoneIndex : Int
  arbiterAddress : Option String
  arbiterAwayUntil : Option Nat
deriving DecidableEq

def EscalationAlert.key (alert : EscalationAlert) : MilestoneKey :=
  (alert.shipmentId, alert.milestoneIndex)

/-- A run of the job: the database with `updatedAt`, and the alerts it sent. -/
structure EscalationRun where
  db : Db
  updatedAt : MilestoneKey → Nat
  sent : List EscalationAlert

/-- The alert for one administrator. The foreign keys make sure that the shipment
is there. -/
def escalationAlert (env : Env) (db : Db) (milestone : Milestone) (admin : User) :
    EscalationAlert :=
  let shipment := db.shipments.find? milestone.shipmentId
  let arbiter := shipment.bind fun s => db.users.find? s.arbiterAddress
  { recipient := admin.stellarAddress
    shipmentId := milestone.shipmentId
    milestoneIndex := milestone.milestoneIndex
    arbiterAddress := shipment.map Shipment.arbiterAddress
    arbiterAwayUntil := (arbiter.bind User.arbiterAwayUntil).filter fun until_ => env.now < until_ }

def Milestone.escalated (at_ : Nat) (m : Milestone) : Milestone :=
  { m with disputeEscalatedAt := some at_ }

@[simp] theorem Milestone.escalated_key (at_ : Nat) (m : Milestone) :
    (m.escalated at_).key = m.key := rfl

def Db.flagEscalated (db : Db) (key : MilestoneKey) (at_ : Nat) : Db :=
  { db with
    milestones := db.milestones.modify key (Milestone.escalated at_) (Milestone.escalated_key at_) }

/-- Every administrator is alerted, then the row is flagged. An update that is
rejected is logged. -/
def escalate (env : Env) (admins : List User) (run : EscalationRun) (milestone : Milestone) :
    EscalationRun :=
  let sent := run.sent ++ admins.map (escalationAlert env run.db milestone)
  if env.fails .flagWrite then { run with sent := sent }
  else
    match run.db.milestoneById milestone.id with
    | none => { run with sent := sent }
    | some m =>
        { db := run.db.flagEscalated m.key env.now
          updatedAt := Function.update run.updatedAt m.key env.now
          sent := sent }

/-- The rows the job selects: `updatedAt` is older than the threshold. -/
def EscalationRun.Overdue (env : Env) (days : Nat) (run : EscalationRun) (m : Milestone) : Prop :=
  m.status = .disputed ∧ run.updatedAt m.key + days * dayLength < env.now ∧
    m.disputeEscalatedAt = none

instance (env : Env) (days : Nat) (run : EscalationRun) (m : Milestone) :
    Decidable (run.Overdue env days m) :=
  inferInstanceAs (Decidable (_ ∧ _ ∧ _))

def Db.admins (db : Db) : List User :=
  db.users.rows.filter fun user => user.role = .admin

/-- A rejected query ends the run. Without administrators nobody is alerted and
the rows are flagged all the same. -/
def checkAndEscalateDisputes (env : Env) (days : Nat) (run : EscalationRun) : EscalationRun :=
  if env.fails .jobRead then run
  else
    let overdue := run.db.milestones.rows.filter fun m => run.Overdue env days m
    if overdue = [] then run
    else if env.fails .adminRead then run
    else overdue.foldl (escalate env run.db.admins) run

section Deadlines

/-- The two notices of the deadline job. -/
inductive Reminder where
  | overdue | escalation
deriving DecidableEq

/-- How long a deadline has to be over. -/
def Reminder.lag (reminder3Days : Nat) : Reminder → Nat
  | .overdue => 0
  | .escalation => reminder3Days * dayLength

/-- The column that prevents a second notice. -/
def Milestone.remind (reminder : Reminder) (at_ : Nat) (m : Milestone) : Milestone :=
  match reminder with
  | .overdue => { m with overdueNotifiedAt := some at_ }
  | .escalation => { m with overdueReminder3dAt := some at_ }

@[simp] theorem Milestone.remind_key (reminder : Reminder) (at_ : Nat) (m : Milestone) :
    (m.remind reminder at_).key = m.key := by
  cases reminder <;> rfl

/-- `PENDING` or `PROOF_SUBMITTED`. -/
def MilestoneStatus.IsOpen (status : MilestoneStatus) : Prop :=
  status = .pending ∨ status = .proofSubmitted

instance (status : MilestoneStatus) : Decidable status.IsOpen :=
  inferInstanceAs (Decidable (_ ∨ _))

/-- The rows the first query selects. -/
def Db.overdueMilestones (db : Db) (now : Nat) : List Milestone :=
  db.milestones.rows.filter fun m =>
    (m.dueAt.any fun dueAt : Int => dueAt < now) ∧ m.status.IsOpen ∧ m.deletedAt = none ∧
      m.overdueNotifiedAt = none

/-- The rows the second query selects. It looks at the age of the first notice. -/
def Db.escalationMilestones (db : Db) (reminder3Days now : Nat) : List Milestone :=
  db.milestones.rows.filter fun m =>
    m.status.IsOpen ∧ m.deletedAt = none ∧
      (m.overdueNotifiedAt.any fun at_ => at_ + reminder3Days * dayLength < now) ∧
      m.overdueReminder3dAt = none

/-- A call suspended before the statement its constructor names. A run of the job
is suspended before the update of the milestone it has just notified about, with
the milestones that come after it. -/
inductive DeadlineCall where
  -- `checkAndNotifyOverdue`
  | overdueRead
  | notifyOverdue (now : Nat) (milestone : Milestone) (rest : List Milestone)
  | escalationRead (now : Nat)
  | notifyEscalation (milestone : Milestone) (rest : List Milestone)
  -- the other operations
  | extension (call : ExtensionCall)
  | service (call : Call)
  | cancelShipment (id buyerAddress txHash : String)
  | cancelUpdate (id txHash : String)
  | cancelledEvent (payload : Json) (txHash : Option String)

/-- The first loop goes on, or is over. -/
def DeadlineCall.nextOverdue (now : Nat) : List Milestone → DeadlineCall
  | [] => .escalationRead now
  | milestone :: rest => .notifyOverdue now milestone rest

def DeadlineCall.nextEscalation : List Milestone → Option DeadlineCall
  | [] => none
  | milestone :: rest => some (.notifyEscalation milestone rest)

def Db.remind (db : Db) (key : MilestoneKey) (reminder : Reminder) (at_ : Nat) : Db :=
  { db with
    milestones := db.milestones.modify key (Milestone.remind reminder at_)
      (Milestone.remind_key reminder at_) }

/-- The update after a notice; a rejected one is logged. -/
def setReminder (env : Env) (reminder : Reminder) (milestone : Milestone) : Tx Unit := do
  if env.fails .flagWrite then return ()
  match (← get).milestoneById milestone.id with
  | none => return ()
  | some m => modify fun db => db.remind m.key reminder env.now

/-- The statement a call is suspended before, and what follows it up to the next
suspension. -/
def DeadlineCall.statement (reminder3Days : Nat) (env : Env) :
    DeadlineCall → Tx (Option DeadlineCall)
  | .overdueRead => do
      prismaCall env .jobRead
      return some (.nextOverdue env.now ((← get).overdueMilestones env.now))
  | .notifyOverdue now milestone rest => do
      setReminder env .overdue milestone
      return some (.nextOverdue now rest)
  | .escalationRead now => do
      prismaCall env .jobRead
      return nextEscalation ((← get).escalationMilestones reminder3Days now)
  | .notifyEscalation milestone rest => do
      setReminder env .escalation milestone
      return nextEscalation rest
  | .extension call => do
      return (← call.statement env).map .extension
  | .service call => do
      return (← call.statement env).map .service
  | .cancelShipment id buyerAddress txHash => do
      match ← shipmentFindUnique env .shipmentRead id with
      | none => throw (.notFound s!"Shipment {id} not found")
      | some shipment =>
          if shipment.buyerAddress ≠ buyerAddress then
            throw (.forbidden "Only the shipment buyer can cancel it")
          if shipment.status ≠ .active then
            throw (.conflict s!"Shipment is not ACTIVE (current status: {shipment.status.name})")
          return some (.cancelUpdate id txHash)
  | .cancelUpdate id txHash => do
      prismaCall env .shipmentWrite
      modify fun db =>
        { db with
          shipments := db.shipments.modify id (Shipment.registerCancel env.now txHash)
            (Shipment.registerCancel_now_id env txHash) }
      return none
  | .cancelledEvent payload txHash => do
      handleShipmentCancelled env payload txHash
      return none

def DeadlineCall.starts : DeadlineCall → Bool
  | .overdueRead | .cancelShipment _ _ _ | .cancelledEvent _ _ => true
  | .extension call => call.starts
  | .service call => call.starts
  | _ => false

/-- A flag the job has set, with the row and the shipment as they were at that
instant. -/
structure OverdueNotice where
  reminder : Reminder
  at_ : Nat
  milestone : Milestone
  shipment : Option Shipment
deriving DecidableEq

/-- The database, the clock and, as a history variable, the flags set so far. -/
structure DeadlineWorld where
  db : Db
  clock : Nat
  notices : List OverdueNotice

/-- What an update of the job adds to the history. -/
def Db.noticed (db : Db) (env : Env) (reminder : Reminder) (milestone : Milestone) :
    List OverdueNotice :=
  if env.fails .flagWrite then []
  else ((db.milestoneById milestone.id).map fun m =>
    ⟨reminder, env.now, m, db.shipments.find? m.shipmentId⟩).toList

def DeadlineCall.notices (env : Env) (db : Db) : DeadlineCall → List OverdueNotice
  | .notifyOverdue _ milestone _ => db.noticed env .overdue milestone
  | .notifyEscalation milestone _ => db.noticed env .escalation milestone
  | _ => []

/-- A statement reads the clock of the world. -/
def DeadlineWorld.env (w : DeadlineWorld) (env : Env) : Env := { env with now := w.clock }

def DeadlineCall.resume (reminder3Days : Nat) (env : Env) (w : DeadlineWorld) (call : DeadlineCall) :
    DeadlineWorld × Option DeadlineCall :=
  match Eff.resume (call.statement reminder3Days (w.env env)) w.db with
  | (db, rest) =>
      ({ w with db := db, notices := w.notices ++ call.notices (w.env env) w.db }, rest)

/-- Calls in flight, and time that passes between their statements. -/
def deadlines (reminder3Days : Nat) : CallSystem DeadlineWorld DeadlineCall Env Nat where
  starts := DeadlineCall.starts
  resume := DeadlineCall.resume reminder3Days
  external elapsed w := { w with clock := w.clock + elapsed }

abbrev Deadlines := Calls DeadlineWorld DeadlineCall

abbrev DeadlineStep := CallAction DeadlineCall Env Nat

def Deadlines.idle (db : Db) (clock : Nat) : Deadlines := ⟨⟨db, clock, []⟩, fun _ => none⟩

end Deadlines

end ChainSettle
