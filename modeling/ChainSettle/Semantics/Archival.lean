import ChainSettle.Semantics.Creation

/-!
`ShipmentArchivalJob`, which moves finished shipments to `archived_shipments`.
A run reads a batch of candidates with an explicit list of relations, works
through the copies it holds, and for each of them upserts the archive and
deletes the shipment in one transaction. What is deleted follows the foreign
keys of the schema, not the list of the read.

The tables of `Db` are joined by the ones that hang on a shipment or a
milestone and that nothing else here uses. Their rows carry the columns the job
needs to find them; the rest is `contents`. The lock expires after ten minutes
whether or not the run is over, so any number of runs are in flight.
-/

namespace ChainSettle

open Lib

/-- The remaining tables with a cascading foreign key. -/
inductive SideTable where
  -- to a milestone
  | disputeEvidence | checklistItems
  -- to a shipment
  | comments | shipmentNotes | trackingUpdates | watchers | favorites | reminders
deriving DecidableEq

def SideTable.ofMilestone : SideTable → Bool
  | .disputeEvidence | .checklistItems => true
  | _ => false

structure SideRow where
  id : String
  /-- the milestone or the shipment the row hangs on -/
  parentId : String
  contents : String
deriving DecidableEq

/-- A candidate with the relations that `include` names. -/
structure Snapshot where
  shipment : Shipment
  updatedAt : Nat
  milestones : List Milestone
  disputeEvidence : List SideRow
  proofSubmissions : List ProofSubmission
  events : List ChainEvent
  comments : List SideRow
  shipmentNotes : List SideRow
  trackingUpdates : List SideRow
  watchers : List SideRow

/-- A row of `archived_shipments`. The payload is the JSON of the candidate. -/
structure ArchivedShipment where
  id : String
  status : ShipmentStatus
  buyerAddress : String
  supplierAddress : String
  logisticsAddress : String
  arbiterAddress : String
  referenceNumber : Option String
  terminalAt : Nat
  archivedAt : Nat
  payload : Snapshot

structure ArchiveDb where
  hot : Db
  /-- the column of `shipments` -/
  updatedAt : String → Nat
  side : SideTable → List SideRow
  archived : Table ArchivedShipment.id

namespace ArchiveDb

variable (db : ArchiveDb) (shipmentId : String)

/-- Soft-deleted ones included. -/
def milestonesOf : List Milestone :=
  db.hot.milestones.rows.filter fun m => m.shipmentId = shipmentId

def milestoneIdsOf : List String :=
  (db.milestonesOf shipmentId).map Milestone.id

/-- Whether a row of the table hangs on the shipment. -/
def hangsOn (table : SideTable) (row : SideRow) : Bool :=
  if table.ofMilestone then row.parentId ∈ db.milestoneIdsOf shipmentId
  else row.parentId = shipmentId

def sideOf (table : SideTable) : List SideRow :=
  (db.side table).filter (db.hangsOn shipmentId table)

/-- One element of the `findMany`. The order of the lists is left out. -/
def snapshot (shipment : Shipment) : Snapshot where
  shipment := shipment
  updatedAt := db.updatedAt shipment.id
  milestones := db.milestonesOf shipment.id
  disputeEvidence := db.sideOf shipment.id .disputeEvidence
  proofSubmissions := db.hot.proofSubmissions.filter fun p =>
    p.milestoneId ∈ db.milestoneIdsOf shipment.id
  events := db.hot.chainEvents.rows.filter fun e => e.shipmentId = some shipment.id
  comments := db.sideOf shipment.id .comments
  shipmentNotes := db.sideOf shipment.id .shipmentNotes
  trackingUpdates := db.sideOf shipment.id .trackingUpdates
  watchers := db.sideOf shipment.id .watchers

end ArchiveDb

namespace ShipmentArchivalJob

def BATCH_SIZE : Nat := 50

/-- The `findMany` of the loop. -/
def candidates (db : ArchiveDb) (cutoff : Int) : List Snapshot :=
  let due := db.hot.shipments.rows.filter fun s =>
    s.status ∈ [.completed, .cancelled] ∧ (db.updatedAt s.id : Int) ≤ cutoff
  let oldest := due.insertionSort fun s s' => db.updatedAt s.id ≤ db.updatedAt s'.id
  (oldest.take BATCH_SIZE).map db.snapshot

/-- `cancelledAt ?? latest confirmedAt ?? updatedAt` -/
def terminalAt (snap : Snapshot) : Nat :=
  (snap.shipment.cancelledAt.or (snap.milestones.filterMap Milestone.confirmedAt).max?).getD
    snap.updatedAt

/-- Still within the retention window. -/
def skips (cutoff : Int) (snap : Snapshot) : Bool :=
  cutoff < (terminalAt snap : Int)

def archiveRow (snap : Snapshot) (now : Nat) : ArchivedShipment where
  id := snap.shipment.id
  status := snap.shipment.status
  buyerAddress := snap.shipment.buyerAddress
  supplierAddress := snap.shipment.supplierAddress
  logisticsAddress := snap.shipment.logisticsAddress
  arbiterAddress := snap.shipment.arbiterAddress
  referenceNumber := snap.shipment.referenceNumber
  terminalAt := terminalAt snap
  archivedAt := now
  payload := snap

/-- The `update` of the upsert. -/
def overwriteRow (snap : Snapshot) (now : Nat) (row : ArchivedShipment) : ArchivedShipment :=
  { row with
    status := snap.shipment.status
    terminalAt := terminalAt snap
    payload := snap
    archivedAt := now }

@[simp] theorem overwriteRow_id (snap : Snapshot) (now : Nat) (row : ArchivedShipment) :
    (overwriteRow snap now row).id = row.id := rfl

/-- `milestone.deleteMany` and `shipment.delete`, with every row that the
foreign keys of the schema take along, and the events detached before. -/
def deleteShipment (db : ArchiveDb) (id : String) : ArchiveDb :=
  { db with
    hot := { db.hot with
      shipments := db.hot.shipments.filter fun s => s.id ≠ id
      milestones := db.hot.milestones.filter fun m => m.shipmentId ≠ id
      proofSubmissions := db.hot.proofSubmissions.filter fun p =>
        p.milestoneId ∉ db.milestoneIdsOf id
      approvals := db.hot.approvals.filter fun a => a.shipmentId ≠ id
      chainEvents := db.hot.chainEvents.updateMany (fun e => e.shipmentId = some id)
        (fun e => { e with shipmentId := none }) fun _ => rfl
      extensionRequests := db.hot.extensionRequests.filter fun r =>
        r.milestoneId ∉ db.milestoneIdsOf id
      settlementProposals := db.hot.settlementProposals.filter fun p =>
        p.milestoneId ∉ db.milestoneIdsOf id }
    side := fun table => (db.side table).filter fun row => ¬ db.hangsOn id table row }

/-- The transaction of one candidate. Deleting a shipment that is gone rejects,
and the upsert is rolled back with it. -/
def archive (db : ArchiveDb) (snap : Snapshot) (now : Nat) : Option ArchiveDb :=
  if (db.hot.shipments.find? snap.shipment.id).isNone then none
  else
    some { deleteShipment db snap.shipment.id with
      archived := db.archived.upsert (archiveRow snap now) (overwriteRow snap now)
        (overwriteRow_id snap now) }

end ShipmentArchivalJob

/-- A run of the job suspended before its next round trip: the read of a batch,
or the transaction of the first of the copies that are left. `full` records that
the batch had the maximal size, in which case another one is read. -/
inductive ArchivalCall where
  | select (cutoff : Int)
  | archive (cutoff : Int) (snap : Snapshot) (rest : List Snapshot) (full : Bool)

/-- The copies that a run is still to archive. -/
def ArchivalCall.batch : ArchivalCall → List Snapshot
  | .select _ => []
  | .archive cutoff snap rest _ =>
      snap :: rest.filter fun later => ¬ ShipmentArchivalJob.skips cutoff later

structure ArchivalInput where
  now : Nat
  /-- the round trip rejects; the run logs that and is over -/
  rejects : Bool

/-- `runArchival` past the lock: how it goes on with the copies it holds. -/
def ArchivalCall.loop (cutoff : Int) (full : Bool) : List Snapshot → Option ArchivalCall
  | [] => if full then some (.select cutoff) else none
  | snap :: rest =>
      if ShipmentArchivalJob.skips cutoff snap then ArchivalCall.loop cutoff full rest
      else some (.archive cutoff snap rest full)

def ArchivalCall.resume (input : ArchivalInput) (db : ArchiveDb) :
    ArchivalCall → ArchiveDb × Option ArchivalCall
  | .select cutoff =>
      if input.rejects then (db, none)
      else
        match ShipmentArchivalJob.candidates db cutoff with
        | [] => (db, none)
        | found => (db, loop cutoff (found.length = ShipmentArchivalJob.BATCH_SIZE) found)
  | .archive cutoff snap rest full =>
      if input.rejects then (db, none)
      else
        match ShipmentArchivalJob.archive db snap input.now with
        | none => (db, none)
        | some next => (next, loop cutoff full rest)

/-- A run on its own, after so many round trips; each has its reading of the clock. -/
def runArchival (clock : Nat → Nat) (cutoff : Int) (db : ArchiveDb) :
    Nat → ArchiveDb × Option ArchivalCall
  | 0 => (db, some (.select cutoff))
  | trips + 1 =>
      match runArchival clock cutoff db trips with
      | (next, none) => (next, none)
      | (next, some call) => call.resume ⟨clock trips, false⟩ next

/-- Runs of the job over a database that others write to as well. -/
def archival {ω : Type} (external : ω → ArchiveDb → ArchiveDb) :
    CallSystem ArchiveDb ArchivalCall ArchivalInput ω where
  starts
    | .select _ => true
    | .archive _ _ _ _ => false
  resume := fun input db call => call.resume input db
  external := external

abbrev Archival := Calls ArchiveDb ArchivalCall

def Archival.idle (db : ArchiveDb) : Archival := ⟨db, fun _ => none⟩

end ChainSettle
