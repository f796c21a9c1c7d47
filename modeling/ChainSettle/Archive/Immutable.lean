import ChainSettle.Archive.Completeness
import ChainSettle.Lifecycle.Services

/-!
Is an archived row final? The archive is written by an upsert on the id, and
`create` asks only the table of live shipments whether an id is taken. As long as
no id is in both tables (`Separate`) a transaction of the job inserts a row and
touches no other. A `create` or `clone` under an archived id is what breaks that,
and it is the only thing that does.
-/

namespace ChainSettle

open Lib ShipmentArchivalJob

/-- An operation of the services, and the `updatedAt` column it leaves. -/
structure ArchiveWrite where
  op : ServiceOp
  updatedAt : String → Nat

def serviceWrite (services : Services) (write : ArchiveWrite) (db : ArchiveDb) : ArchiveDb :=
  { db with hot := write.op.apply services db.hot, updatedAt := write.updatedAt }

/-- No id is live and archived at once. -/
def ArchiveDb.Separate (db : ArchiveDb) : Prop :=
  ∀ id, (db.hot.shipments.find? id).isSome → db.archived.find? id = none

/-- A shipment is created under an id that is not in the archive. -/
def NoReuse (s : Archival) : CallAction ArchivalCall ArchivalInput ArchiveWrite → Prop
  | .external write => ∀ id, write.op.newId = some id → s.shared.archived.find? id = none
  | .begin _ _ | .resume _ _ => True

variable {db next : ArchiveDb} {services : Services}

/-- A transaction moves its id: it was live and is not any more, and the rest of
the archive stays as it is. -/
theorem archive_moves {snap : Snapshot} {now : Nat} (h : archive db snap now = some next) :
    (db.hot.shipments.find? snap.shipment.id).isSome ∧
      (∀ id, (next.hot.shipments.find? id).isSome →
        id ≠ snap.shipment.id ∧ (db.hot.shipments.find? id).isSome) ∧
      ∀ id, id ≠ snap.shipment.id → next.archived.find? id = db.archived.find? id := by
  unfold archive at h
  split at h
  · cases h
  · rename_i hlive
    cases h
    refine ⟨by simpa [Option.isSome_iff_ne_none] using hlive, fun id hid => ?_,
      fun id hother => (Table.find?_upsert ..).trans (if_neg hother)⟩
    obtain ⟨row, hrow⟩ := Option.isSome_iff_exists.mp hid
    obtain ⟨hbefore, hkept⟩ := Table.find?_filter_eq_some_iff.mp hrow
    have hkey : row.id = id := Table.key_of_find? hbefore
    refine ⟨fun hsame => ?_, by rw [hbefore]; rfl⟩
    exact of_decide_eq_true hkept (hkey.trans hsame)

theorem ArchiveDb.Separate.archive {snap : Snapshot} {now : Nat} (hsep : db.Separate)
    (h : archive db snap now = some next) : next.Separate := by
  obtain ⟨_, hhot, hothers⟩ := archive_moves h
  intro id hid
  obtain ⟨hother, hlive⟩ := hhot id hid
  rw [hothers id hother]
  exact hsep id hlive

/-- An operation of the services leaves the archive alone. -/
theorem ArchiveDb.Separate.serviceWrite {write : ArchiveWrite} (hsep : db.Separate)
    (hfresh : ∀ id, write.op.newId = some id → db.archived.find? id = none) :
    (serviceWrite services write db).Separate := by
  intro id hid
  rcases onlyAdds_apply services write.op id hid with hlive | hnew
  · exact hsep id hlive
  · exact hfresh id hnew

/-- A step that creates nothing under an archived id keeps the tables apart and
every archived row as it is. -/
theorem archived_step {s t : Archival} {a : CallAction ArchivalCall ArchivalInput ArchiveWrite}
    (hallowed : NoReuse s a) (hstep : (archival (serviceWrite services)).step s a = some t)
    (hsep : s.shared.Separate) :
    t.shared.Separate ∧ ∀ id row, s.shared.archived.find? id = some row →
      t.shared.archived.find? id = some row := by
  rcases (archival (serviceWrite services)).step_cases hstep with ⟨slot, call, rfl, _, _, rfl⟩ |
    ⟨slot, input, call, rfl, _, rfl⟩ | ⟨write, rfl, rfl⟩
  · exact ⟨hsep, fun _ _ hrow => hrow⟩
  · change ArchiveDb.Separate (call.resume input s.shared).1 ∧ ∀ id row, _ →
      (call.resume input s.shared).1.archived.find? id = some row
    rcases archival_resume_cases call input s.shared with hended |
      ⟨cutoff, full, rfl, hread⟩ | ⟨cutoff, snap, rest, full, next, rfl, harchive, hwritten⟩
    · rw [hended]
      exact ⟨hsep, fun _ _ hrow => hrow⟩
    · rw [hread]
      exact ⟨hsep, fun _ _ hrow => hrow⟩
    · rw [hwritten]
      refine ⟨hsep.archive harchive, fun id row hrow => ?_⟩
      obtain ⟨hlive, _, hothers⟩ := archive_moves harchive
      have hother : id ≠ snap.shipment.id := by
        rintro rfl
        rw [hsep _ hlive] at hrow
        cases hrow
      exact (hothers id hother).trans hrow
  · exact ⟨hsep.serviceWrite hallowed, fun _ _ hrow => hrow⟩

/-- The tables are apart and the archive has this row. -/
def Archival.Holds (id : String) (row : ArchivedShipment) (s : Archival) : Prop :=
  s.shared.Separate ∧ s.shared.archived.find? id = some row

def Archival.Apart (s : Archival) : Prop :=
  s.shared.Separate

/-- In a history in which no shipment is created under an archived id, a row of
the archive stays what it was when it came there. -/
theorem archived_forever {start : ArchiveDb} (hstart : start.Separate) {s t : Archival}
    (hbefore : StepsAlong (archival (serviceWrite services)).step NoReuse (Archival.idle start) s)
    (hafter : StepsAlong (archival (serviceWrite services)).step NoReuse s t) {id : String}
    {row : ArchivedShipment} (hrow : s.shared.archived.find? id = some row) :
    t.shared.archived.find? id = some row := by
  have hsep : s.Apart := by
    refine hbefore.invariant (fun _ _ _ hallowed hstep h => ?_) hstart
    exact (archived_step hallowed hstep h).1
  have hkept : t.Holds id row := by
    refine hafter.invariant (fun _ _ _ hallowed hstep h => ?_) ⟨hsep, hrow⟩
    obtain ⟨hnext, hrows⟩ := archived_step hallowed hstep h.1
    exact ⟨hnext, hrows id row h.2⟩
  exact hkept.2

section Reuse

/-- The request for a shipment with one milestone. -/
def requestFor (shipmentId : String) : CreateShipmentDto where
  shipmentId := shipmentId
  templateId := none
  buyerAddress := "GBUYER"
  supplierAddress := some "GSUPPLIER"
  logisticsAddress := some "GLOGISTICS"
  arbiterAddress := some "GARBITER"
  tokenAddress := some "CUSDC"
  milestones := some [⟨⟨"m-2", "Return", 100, none, []⟩, by decide, by decide, rfl⟩]
  totalAmount := "700"
  txHash := some "tx-2"
  referenceNumber := none
  requiredApprovals := none
  milestoneIds index := toString index
  buyer_nonempty := by decide

/-- A completed shipment between registered parties. -/
def registeredDb : ArchiveDb :=
  { finishedDb fun _ => [] with
    hot := { (finishedDb fun _ => []).hot with users := demoUsers } }

def archiveAll : List (CallAction ArchivalCall ArchivalInput ArchiveWrite) :=
  [.begin 0 (.select 1000), .resume 0 ⟨1000, false⟩, .resume 0 ⟨1000, false⟩]

def request (shipmentId : String) : CallAction ArchivalCall ArchivalInput ArchiveWrite :=
  .external ⟨.create (.calm 1100) (requestFor shipmentId), fun _ => 0⟩

/-- What the archive says about the shipment. -/
def ArchiveDb.terminal (db : ArchiveDb) : Option (ShipmentStatus × Nat × Int) :=
  (db.archived.find? "SHIP-1").map fun row =>
    (row.status, row.terminalAt, row.payload.shipment.totalAmount)

theorem registeredDb_separate : registeredDb.Separate :=
  fun _ _ => rfl

/-- Another shipment is created afterwards, and the archived row stays. -/
theorem archived_row_stays :
    ∃ s t row, s.shared.archived.find? "SHIP-1" = some row ∧
      (archival (serviceWrite openServices)).step s (request "SHIP-2") = some t ∧
      t.shared.archived.find? "SHIP-1" = some row := by
  obtain ⟨s, hs⟩ : ∃ s, archiveAll.foldlM (archival (serviceWrite openServices)).step
    (Archival.idle registeredDb) = some s := ⟨_, rfl⟩
  have hallowed : ∀ a ∈ archiveAll, ∀ u, NoReuse u a := by
    intro a ha u
    rcases ha with _ | ⟨_, _ | ⟨_, _ | ⟨_, hnil⟩⟩⟩
    · trivial
    · trivial
    · trivial
    · cases hnil
  have hfree : NoReuse s (request "SHIP-2") := by
    rintro id ⟨rfl⟩
    cases hs
    rfl
  obtain ⟨row, hrow⟩ : ∃ row, s.shared.archived.find? "SHIP-1" = some row := by
    cases hs
    exact ⟨_, rfl⟩
  refine ⟨s, _, row, hrow, rfl, ?_⟩
  exact archived_forever registeredDb_separate (.of_foldlM hallowed hs)
    (.tail (.refl s) hfree rfl) hrow

def takeAgain : List (CallAction ArchivalCall ArchivalInput ArchiveWrite) :=
  [request "SHIP-1", .external ⟨.cancel (.calm 1150) "SHIP-1" "GBUYER" "tx-3", fun _ => 0⟩,
    .begin 0 (.select 1200), .resume 0 ⟨1200, false⟩, .resume 0 ⟨1200, false⟩]

/-- The id is taken again, the new shipment cancelled and archived in its turn:
status, time and payload of the first one are overwritten. -/
theorem archived_row_overwritten :
    ∃ s t, StepsAlong (archival (serviceWrite openServices)).step (fun _ _ => True)
        (Archival.idle registeredDb) s ∧
      StepsAlong (archival (serviceWrite openServices)).step (fun _ _ => True) s t ∧
      s.shared.terminal = some (.completed, 0, 1000) ∧
      t.shared.terminal = some (.cancelled, 1150, 700) := by
  obtain ⟨s, hs⟩ : ∃ s, archiveAll.foldlM (archival (serviceWrite openServices)).step
    (Archival.idle registeredDb) = some s := ⟨_, rfl⟩
  obtain ⟨t, ht⟩ : ∃ t, takeAgain.foldlM (archival (serviceWrite openServices)).step s = some t := by
    cases hs
    exact ⟨_, rfl⟩
  refine ⟨s, t, .of_foldlM (fun _ _ _ => trivial) hs, .of_foldlM (fun _ _ _ => trivial) ht, ?_, ?_⟩
  · cases hs
    rfl
  · cases hs
    cases ht
    rfl

end Reuse

end ChainSettle
