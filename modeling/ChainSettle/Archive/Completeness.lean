import ChainSettle.Lifecycle.Handlers
import ChainSettle.Semantics.Archival

/-!
Does the archive keep everything that archiving deletes? The job promises a full
snapshot. A transaction removes the rows that hang on the shipment when it runs
(`has_deleteShipment_iff`), and stores the copy that was made when the batch was
read. So nothing is lost exactly when the copy holds every row of the family
(`archive_losesNothing_iff`), and over a run that is the case as long as nobody
adds or changes a row of a shipment in a batch and the shipments of a batch have
no rows in the tables that `include` leaves out.
-/

namespace ChainSettle

open Lib ShipmentArchivalJob

/-- A row of any of the tables that an archived shipment may have rows in. -/
inductive Row where
  | shipment (row : Shipment) (updatedAt : Nat)
  | milestone (row : Milestone)
  | proofSubmission (row : ProofSubmission)
  | approval (row : ShipmentApproval)
  | extensionRequest (row : DeadlineExtensionRequest)
  | settlementProposal (row : SettlementProposal)
  | side (table : SideTable) (row : SideRow)

/-- The row is stored, with these contents. -/
def ArchiveDb.Has (db : ArchiveDb) : Row → Prop
  | .shipment s updatedAt => db.hot.shipments.find? s.id = some s ∧ db.updatedAt s.id = updatedAt
  | .milestone m => m ∈ db.hot.milestones.rows
  | .proofSubmission p => p ∈ db.hot.proofSubmissions
  | .approval a => a ∈ db.hot.approvals
  | .extensionRequest r => r ∈ db.hot.extensionRequests.rows
  | .settlementProposal p => p ∈ db.hot.settlementProposals.rows
  | .side table row => row ∈ db.side table

/-- The row is the shipment's own or refers to it, directly or through a
milestone. -/
def ArchiveDb.Hangs (db : ArchiveDb) (shipmentId : String) : Row → Prop
  | .shipment s _ => s.id = shipmentId
  | .milestone m => m.shipmentId = shipmentId
  | .proofSubmission p => p.milestoneId ∈ db.milestoneIdsOf shipmentId
  | .approval a => a.shipmentId = shipmentId
  | .extensionRequest r => r.milestoneId ∈ db.milestoneIdsOf shipmentId
  | .settlementProposal p => p.milestoneId ∈ db.milestoneIdsOf shipmentId
  | .side table row => db.hangsOn shipmentId table row = true

/-- The rows that archiving the shipment deletes. -/
def ArchiveDb.Family (db : ArchiveDb) (shipmentId : String) (row : Row) : Prop :=
  db.Has row ∧ db.Hangs shipmentId row

def Snapshot.sideRows (snap : Snapshot) : SideTable → List SideRow
  | .disputeEvidence => snap.disputeEvidence
  | .comments => snap.comments
  | .shipmentNotes => snap.shipmentNotes
  | .trackingUpdates => snap.trackingUpdates
  | .watchers => snap.watchers
  | .checklistItems | .favorites | .reminders => []

def Snapshot.Contains (snap : Snapshot) : Row → Prop
  | .shipment s updatedAt => s = snap.shipment ∧ updatedAt = snap.updatedAt
  | .milestone m => m ∈ snap.milestones
  | .proofSubmission p => p ∈ snap.proofSubmissions
  | .approval _ | .extensionRequest _ | .settlementProposal _ => False
  | .side table row => row ∈ snap.sideRows table

/-- The row's table is one that the job reads. -/
def Row.Included : Row → Prop
  | .approval _ | .extensionRequest _ | .settlementProposal _ => False
  | .side table _ => table ∉ [.checklistItems, .favorites, .reminders]
  | .shipment _ _ | .milestone _ | .proofSubmission _ => True

variable {db next : ArchiveDb} {snap : Snapshot} {now : Nat}

section Deletion

/-- The cascades take the family and nothing else. -/
theorem has_deleteShipment_iff (id : String) (row : Row) :
    (deleteShipment db id).Has row ↔ db.Has row ∧ ¬ db.Hangs id row := by
  cases row with
  | shipment s updatedAt =>
      simp only [ArchiveDb.Has, ArchiveDb.Hangs, deleteShipment, Table.find?_filter_eq_some_iff,
        decide_eq_true_eq]
      tauto
  | milestone m | proofSubmission p | approval a | extensionRequest r | settlementProposal p =>
      simp [ArchiveDb.Has, ArchiveDb.Hangs, deleteShipment, Table.filter, Register.filter]
  | side table row => simp [ArchiveDb.Has, ArchiveDb.Hangs, deleteShipment]

/-- What hangs on a shipment after another one was deleted did so before. -/
theorem hangs_of_deleteShipment {id other : String} {row : Row}
    (h : (deleteShipment db other).Hangs id row) : db.Hangs id row := by
  have hids : ∀ milestoneId ∈ (deleteShipment db other).milestoneIdsOf id,
      milestoneId ∈ db.milestoneIdsOf id := by
    have hsub : ((deleteShipment db other).milestonesOf id).Sublist (db.milestonesOf id) :=
      List.filter_sublist.filter _
    exact fun _ hmem => (hsub.map Milestone.id).subset hmem
  cases row with
  | shipment s updatedAt => exact h
  | milestone m => exact h
  | approval a => exact h
  | proofSubmission p | extensionRequest r | settlementProposal p => exact hids _ h
  | side table row =>
      simp only [ArchiveDb.Hangs, ArchiveDb.hangsOn] at h ⊢
      split at h
      · rename_i htable
        simp only [htable, ↓reduceIte, decide_eq_true_eq] at h ⊢
        exact hids _ h
      · rename_i htable
        simpa [htable] using h

end Deletion

section Transaction

/-- The copy holds every row that hangs on the shipment now. -/
def Captured (db : ArchiveDb) (snap : Snapshot) : Prop :=
  ∀ row, db.Family snap.shipment.id row → snap.Contains row

/-- Every row that `next` lacks is in the archive of the shipment. -/
def LosesNothing (db next : ArchiveDb) (shipmentId : String) : Prop :=
  ∀ row, db.Has row → ¬ next.Has row → db.Hangs shipmentId row ∧
    ∃ archived, next.archived.find? shipmentId = some archived ∧ archived.payload.Contains row

theorem archive_eq_some (h : archive db snap now = some next) :
    (∀ row, next.Has row ↔ db.Has row ∧ ¬ db.Hangs snap.shipment.id row) ∧
      (∀ id row, next.Hangs id row → db.Hangs id row) ∧
      ∃ archived, next.archived.find? snap.shipment.id = some archived ∧
        archived.payload = snap := by
  unfold archive at h
  split at h
  · cases h
  · cases h
    refine ⟨has_deleteShipment_iff snap.shipment.id, fun _ _ => hangs_of_deleteShipment, ?_⟩
    refine ⟨_, (Table.find?_upsert ..).trans (if_pos rfl), ?_⟩
    cases db.archived.find? (archiveRow snap now).id <;> rfl

/-- A transaction that goes through loses nothing exactly when the copy it stores
is still complete. -/
theorem archive_losesNothing_iff (h : archive db snap now = some next) :
    LosesNothing db next snap.shipment.id ↔ Captured db snap := by
  obtain ⟨hhas, _, archived, harchived, hpayload⟩ := archive_eq_some h
  constructor
  · intro hnothing row hrow
    have hgone : ¬ next.Has row := fun hkept => ((hhas row).mp hkept).2 hrow.2
    obtain ⟨_, found, hfound, hcontains⟩ := hnothing row hrow.1 hgone
    rw [harchived] at hfound
    cases hfound
    rwa [hpayload] at hcontains
  · intro hcaptured row hrow hgone
    have hhangs : db.Hangs snap.shipment.id row := by
      by_contra hother
      exact hgone ((hhas row).mpr ⟨hrow, hother⟩)
    refine ⟨hhangs, archived, harchived, ?_⟩
    rw [hpayload]
    exact hcaptured row ⟨hrow, hhangs⟩

/-- A transaction only removes rows, so the other copies stay complete. -/
theorem Captured.archive {other : Snapshot} (hcaptured : Captured db other)
    (h : archive db snap now = some next) : Captured next other := by
  obtain ⟨hhas, hhangs, _⟩ := archive_eq_some h
  intro row hrow
  exact hcaptured row ⟨((hhas row).mp hrow.1).1, hhangs _ row hrow.2⟩

end Transaction

section Selection

/-- A fresh copy holds every row of the family that is in an included table. -/
theorem snapshot_contains {s : Shipment} (hs : db.hot.shipments.find? s.id = some s) {row : Row}
    (hrow : db.Family s.id row) (hincluded : row.Included) : (db.snapshot s).Contains row := by
  obtain ⟨hhas, hhangs⟩ := hrow
  cases row with
  | shipment s' updatedAt =>
      obtain ⟨hfind, htime⟩ := hhas
      have hid : s'.id = s.id := hhangs
      rw [hid, hs] at hfind
      cases hfind
      exact ⟨rfl, htime.symm⟩
  | milestone m => exact List.mem_filter.mpr ⟨hhas, decide_eq_true hhangs⟩
  | proofSubmission p => exact List.mem_filter.mpr ⟨hhas, decide_eq_true hhangs⟩
  | approval a | extensionRequest r | settlementProposal p => exact hincluded.elim
  | side table row =>
      have hside : row ∈ db.sideOf s.id table := List.mem_filter.mpr ⟨hhas, hhangs⟩
      cases table with
      | checklistItems | favorites | reminders => exact absurd hincluded (by simp [Row.Included])
      | disputeEvidence | comments | shipmentNotes | trackingUpdates | watchers => exact hside

theorem mem_candidates {cutoff : Int} (h : snap ∈ candidates db cutoff) :
    ∃ s, db.hot.shipments.find? s.id = some s ∧ snap = db.snapshot s := by
  obtain ⟨s, hs, rfl⟩ := List.mem_map.mp h
  have hsorted := List.mem_of_mem_take hs
  have hrow := List.mem_filter.mp ((List.mem_insertionSort _).mp hsorted)
  exact ⟨s, Table.find?_of_mem hrow.1, rfl⟩

/-- A candidate without rows in the tables that are left out is captured. -/
theorem captured_of_included {cutoff : Int} (h : snap ∈ candidates db cutoff)
    (hincluded : ∀ row, db.Family snap.shipment.id row → row.Included) : Captured db snap := by
  obtain ⟨s, hs, rfl⟩ := mem_candidates h
  exact fun row hrow => snapshot_contains hs hrow (hincluded row hrow)

theorem batch_loop {cutoff : Int} {full : Bool} {found : List Snapshot} {call : ArchivalCall}
    (h : ArchivalCall.loop cutoff full found = some call) :
    ∀ snap ∈ call.batch, snap ∈ found ∧ ¬ skips cutoff snap := by
  induction found with
  | nil =>
      unfold ArchivalCall.loop at h
      split at h
      · cases h
        exact List.forall_mem_nil _
      · cases h
  | cons first rest ih =>
      unfold ArchivalCall.loop at h
      split at h
      · exact fun snap hsnap => (ih h snap hsnap).imp_left (.tail _)
      · rename_i hskips
        cases h
        refine List.forall_mem_cons.mpr ⟨⟨.head _, hskips⟩, fun snap hsnap => ?_⟩
        obtain ⟨hmem, hskips⟩ := List.mem_filter.mp hsnap
        exact ⟨.tail _ hmem, of_decide_eq_true hskips⟩

/-- Everything a step of a run can do: end it, read a batch, archive one. -/
theorem archival_resume_cases (call : ArchivalCall) (input : ArchivalInput) (db : ArchiveDb) :
    call.resume input db = (db, none) ∨
    (∃ cutoff full, call = .select cutoff ∧
      call.resume input db = (db, ArchivalCall.loop cutoff full (candidates db cutoff))) ∨
    (∃ cutoff snap rest full next, call = .archive cutoff snap rest full ∧
      archive db snap input.now = some next ∧
      call.resume input db = (next, ArchivalCall.loop cutoff full rest)) := by
  cases hrejects : input.rejects with
  | true =>
      refine .inl ?_
      cases call <;> simp [ArchivalCall.resume, hrejects]
  | false =>
      cases call with
      | select cutoff =>
          cases hfound : candidates db cutoff with
          | nil => exact .inl (by simp [ArchivalCall.resume, hrejects, hfound])
          | cons first rest =>
              refine .inr (.inl
                ⟨cutoff, (first :: rest).length = ShipmentArchivalJob.BATCH_SIZE, rfl, ?_⟩)
              simp only [ArchivalCall.resume, hrejects, hfound, Bool.false_eq_true, ↓reduceIte]
      | archive cutoff snap rest full =>
          cases harchive : archive db snap input.now with
          | none => exact .inl (by simp [ArchivalCall.resume, hrejects, harchive])
          | some next =>
              refine .inr (.inr ⟨cutoff, snap, rest, full, next, rfl, harchive, ?_⟩)
              simp [ArchivalCall.resume, hrejects, harchive]

end Selection

section Run

variable {ω : Type} (external : ω → ArchiveDb → ArchiveDb)

/-- A write by others adds and changes no row of a shipment that a run is to archive, and a batch
is read while those of its shipments that are not skipped have no approvals, extension requests,
settlement proposals, checklist items, favorites and reminders. -/
def Undisturbed (s : Archival) : CallAction ArchivalCall ArchivalInput ω → Prop
  | .begin _ _ => True
  | .external event =>
      ∀ slot call, s.pending slot = some call → ∀ snap ∈ call.batch, ∀ row,
        (external event s.shared).Family snap.shipment.id row →
        s.shared.Family snap.shipment.id row
  | .resume slot _ =>
      ∀ cutoff, s.pending slot = some (.select cutoff) → ∀ snap ∈ candidates s.shared cutoff,
        ¬ skips cutoff snap → ∀ row, s.shared.Family snap.shipment.id row → row.Included

/-- Every copy that a run holds is complete. -/
def Archival.Captures (s : Archival) : Prop :=
  ∀ slot call, s.pending slot = some call → ∀ snap ∈ call.batch, Captured s.shared snap

theorem captures_update {s : Archival} {slot : Nat} {rest : Option ArchivalCall}
    (hothers : ∀ other call, s.pending other = some call → ∀ snap ∈ call.batch,
      Captured next snap)
    (hown : ∀ call, rest = some call → ∀ snap ∈ call.batch, Captured next snap) :
    Archival.Captures ⟨next, Function.update s.pending slot rest⟩ := by
  intro other call hcall
  rcases pending_update hcall with ⟨_, hrest⟩ | ⟨_, hpending⟩
  · exact hown call hrest
  · exact hothers other call hpending

theorem Archival.Captures.resume {s : Archival} (h : s.Captures) {slot : Nat}
    {call : ArchivalCall} (hcall : s.pending slot = some call) (input : ArchivalInput)
    (hselect : ∀ cutoff, call = .select cutoff → ∀ snap ∈ candidates s.shared cutoff,
      ¬ skips cutoff snap → ∀ row, s.shared.Family snap.shipment.id row → row.Included) :
    Archival.Captures ⟨(call.resume input s.shared).1,
      Function.update s.pending slot (call.resume input s.shared).2⟩ := by
  rcases archival_resume_cases call input s.shared with hended |
    ⟨cutoff, full, rfl, hread⟩ | ⟨cutoff, snap, rest, full, next, rfl, harchive, hwritten⟩
  · rw [hended]
    exact captures_update h fun _ hnone => by cases hnone
  · rw [hread]
    refine captures_update h fun call hloop snap hsnap => ?_
    obtain ⟨hfound, hskips⟩ := batch_loop hloop snap hsnap
    exact captured_of_included hfound (hselect cutoff rfl snap hfound hskips)
  · rw [hwritten]
    refine captures_update (fun other call hother snap' hsnap' => ?_)
      fun call hloop snap' hsnap' => ?_
    · exact (h other call hother snap' hsnap').archive harchive
    · obtain ⟨hheld, hskips⟩ := batch_loop hloop snap' hsnap'
      refine (h slot _ hcall snap' (.tail _ ?_)).archive harchive
      exact List.mem_filter.mpr ⟨hheld, decide_eq_true hskips⟩

theorem Archival.Captures.step {s t : Archival} {a : CallAction ArchivalCall ArchivalInput ω}
    (hallowed : Undisturbed external s a) (hstep : (archival external).step s a = some t)
    (h : s.Captures) : t.Captures := by
  rcases (archival external).step_cases hstep with ⟨slot, call, rfl, hstart, _, rfl⟩ |
    ⟨slot, input, call, rfl, hcall, rfl⟩ | ⟨event, rfl, rfl⟩
  · refine captures_update h fun started hstarted => ?_
    cases hstarted
    cases call with
    | select cutoff => exact fun _ hsnap => by cases hsnap
    | archive _ _ _ _ => cases hstart
  · refine h.resume hcall input fun cutoff hselect => ?_
    exact hallowed cutoff (by rw [hcall, hselect])
  · intro slot call hcall snap hsnap row hrow
    exact h slot call hcall snap hsnap row (hallowed slot call hcall snap hsnap row hrow)

/-- In a run that nobody disturbs, whatever a step of the job deletes is in the
archive of its shipment, with the contents it had. -/
theorem archival_loses_nothing {start : ArchiveDb} {s t : Archival} {slot : Nat}
    {input : ArchivalInput}
    (hrun : StepsAlong (archival external).step (Undisturbed external) (Archival.idle start)
      s)
    (hstep : (archival external).step s (.resume slot input) = some t) (row : Row)
    (hrow : s.shared.Has row) (hgone : ¬ t.shared.Has row) :
    ∃ shipmentId archived, s.shared.Hangs shipmentId row ∧
      t.shared.archived.find? shipmentId = some archived ∧ archived.payload.Contains row := by
  have hcaptures : s.Captures :=
    hrun.invariant (fun _ _ _ hallowed hstep h => h.step external hallowed hstep)
      fun _ _ hnone => by cases hnone
  obtain ⟨call, hcall, rfl⟩ := Option.map_eq_some_iff.mp hstep
  change ¬ (call.resume input s.shared).1.Has row at hgone
  rcases archival_resume_cases call input s.shared with hended |
    ⟨cutoff, full, rfl, hread⟩ | ⟨cutoff, snap, rest, full, next, rfl, harchive, hwritten⟩
  · rw [hended] at hgone
    exact absurd hrow hgone
  · rw [hread] at hgone
    exact absurd hrow hgone
  · rw [hwritten] at hgone
    have hcaptured := hcaptures slot _ hcall snap (.head _)
    obtain ⟨hhangs, archived, harchived, hcontains⟩ :=
      (archive_losesNothing_iff harchive).mpr hcaptured row hrow hgone
    refine ⟨snap.shipment.id, archived, hhangs, ?_, hcontains⟩
    change ((ArchivalCall.archive cutoff snap rest full).resume input s.shared).1.archived.find? _ =
      some archived
    rw [hwritten]
    exact harchived

/-- A completed shipment with one milestone and these rows in the other tables. -/
def finishedDb (side : SideTable → List SideRow) : ArchiveDb where
  hot := (Db.demo .confirmed).syncShipment "SHIP-1" .completed 1000
  updatedAt := fun _ => 0
  side := side
  archived := .empty

/-- Nobody else writes. -/
def noWrites : Unit → ArchiveDb → ArchiveDb := fun _ db => db

/-- The shipment has been read and waits for its transaction. -/
def Archival.held (db : ArchiveDb) (s : Shipment) : Archival :=
  ⟨db, Function.update (Function.update (Archival.idle db).pending 0 (some (.select 0))) 0
    (some (.archive 0 (db.snapshot s) [] false))⟩

def finishedShipment : Shipment :=
  ⟨"SHIP-1", "GBUYER", "GSUPPLIER", "GLOGISTICS", 1000, .completed, none, none, none,
    1000, none, 7, "GARBITER", .pendingAcceptance, "CUSDC", "USDC", none, false⟩

theorem included_of_bare {row : Row} (h : (finishedDb fun _ => []).Has row) : row.Included := by
  cases row with
  | shipment _ _ | milestone _ | proofSubmission _ => trivial
  | approval _ | extensionRequest _ | settlementProposal _ => cases h
  | side _ _ => cases h

/-- The milestone of a bare shipment is in the archive afterwards. -/
theorem bare_shipment_archived :
    ∃ t, (archival noWrites).step (Archival.held (finishedDb fun _ => []) finishedShipment)
        (.resume 0 ⟨100, false⟩) = some t ∧
      ∃ shipmentId archived,
        (finishedDb fun _ => []).Hangs shipmentId (.milestone (demoMilestone .confirmed)) ∧
        t.shared.archived.find? shipmentId = some archived ∧
        archived.payload.Contains (.milestone (demoMilestone .confirmed)) := by
  have hrun : StepsAlong (archival noWrites).step (Undisturbed noWrites)
      (Archival.idle (finishedDb fun _ => []))
      (Archival.held (finishedDb fun _ => []) finishedShipment) := by
    refine .tail (a := .resume 0 ⟨50, false⟩)
      (.tail (a := .begin 0 (.select 0)) (.refl _) trivial rfl) ?_ rfl
    exact fun _ _ _ _ _ _ hrow => included_of_bare hrow.1
  obtain ⟨t, ht⟩ : ∃ t, (archival noWrites).step
      (Archival.held (finishedDb fun _ => []) finishedShipment) (.resume 0 ⟨100, false⟩) = some t :=
    ⟨_, rfl⟩
  refine ⟨t, ht, archival_loses_nothing noWrites hrun ht _ (.head _) ?_⟩
  cases ht
  exact List.not_mem_nil

/-- A shipment that somebody marked as a favorite. -/
def favoredDb : ArchiveDb :=
  finishedDb fun table => if table = .favorites then [⟨"f-1", "SHIP-1", "u-1"⟩] else []

/-- The favorite is deleted with the shipment and is not in the archive. -/
theorem favorite_lost :
    ∃ s t row, StepsAlong (archival noWrites).step (fun _ _ => True) (Archival.idle favoredDb) s ∧
      (archival noWrites).step s (.resume 0 ⟨100, false⟩) = some t ∧
      s.shared.Has row ∧ ¬ t.shared.Has row ∧
      ¬ ∃ shipmentId archived, t.shared.archived.find? shipmentId = some archived ∧
        archived.payload.Contains row := by
  have hread : [.begin 0 (.select 0), .resume 0 ⟨50, false⟩].foldlM (archival noWrites).step
      (Archival.idle favoredDb) = some (Archival.held favoredDb finishedShipment) := rfl
  refine ⟨Archival.held favoredDb finishedShipment, _, .side .favorites ⟨"f-1", "SHIP-1", "u-1"⟩,
    .of_foldlM (fun _ _ _ => trivial) hread, rfl, .head _, ?_, ?_⟩
  · exact List.not_mem_nil
  · rintro ⟨_, _, _, hcontains⟩
    exact List.not_mem_nil hcontains

end Run

end ChainSettle
