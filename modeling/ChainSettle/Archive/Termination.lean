import ChainSettle.Archive.Immutable

/-!
Does a run of the archival job come to its end? A batch that is full is followed by
another one. Rows that are skipped stay selectable, so fifty of them fill every batch;
with fewer, each full batch has a row that is moved.
-/

namespace ChainSettle

open Lib ShipmentArchivalJob

section Rows

/-- The `where` of the loop's `findMany`. -/
def Selectable (db : ArchiveDb) (cutoff : Int) (s : Shipment) : Prop :=
  s.status ∈ [ShipmentStatus.completed, .cancelled] ∧ (db.updatedAt s.id : Int) ≤ cutoff

instance (db : ArchiveDb) (cutoff : Int) (s : Shipment) : Decidable (Selectable db cutoff s) :=
  inferInstanceAs (Decidable (_ ∧ _))

/-- Selectable, and its terminal time is not after the cutoff. -/
def Archivable (db : ArchiveDb) (cutoff : Int) (s : Shipment) : Prop :=
  Selectable db cutoff s ∧ skips cutoff (db.snapshot s) = false

/-- The rows that are selectable and stay. -/
def skippedRows (db : ArchiveDb) (cutoff : Int) : List Shipment :=
  db.hot.shipments.rows.filter fun s => Selectable db cutoff s ∧ skips cutoff (db.snapshot s)

/-- Gone from the shipments, and in the archive. -/
def Moved (db : ArchiveDb) (s : Shipment) : Prop :=
  s ∉ db.hot.shipments.rows ∧ (db.archived.find? s.id).isSome

variable {db d next : ArchiveDb} {cutoff : Int} {s : Shipment}

theorem terminalAt_congr (hmilestones : d.milestonesOf s.id = db.milestonesOf s.id)
    (hupdated : d.updatedAt = db.updatedAt) :
    terminalAt (d.snapshot s) = terminalAt (db.snapshot s) := by
  unfold terminalAt ArchiveDb.snapshot
  dsimp only
  rw [hmilestones, hupdated]

theorem milestonesOf_deleteShipment {id other : String} (h : other ≠ id) :
    (deleteShipment db id).milestonesOf other = db.milestonesOf other := by
  unfold ArchiveDb.milestonesOf deleteShipment
  simp only [Table.filter, List.filter_filter]
  refine List.filter_congr fun m _ => ?_
  by_cases hm : m.shipmentId = other
  · simp [hm, h]
  · simp [hm]

theorem nodup_shipments (db : ArchiveDb) : db.hot.shipments.rows.Nodup :=
  List.Nodup.of_map _ db.hot.shipments.nodup

theorem shipment_eq_of_id {s t : Shipment} (hs : s ∈ db.hot.shipments.rows)
    (ht : t ∈ db.hot.shipments.rows) (h : s.id = t.id) : s = t :=
  List.inj_on_of_nodup_map db.hot.shipments.nodup hs ht h

/-- What a transaction of the job does to shipments and their milestones. -/
theorem archive_rows {snap : Snapshot} {now : Nat} (h : archive d snap now = some next) :
    next.hot.shipments.rows = d.hot.shipments.rows.filter (fun s => s.id ≠ snap.shipment.id) ∧
      next.updatedAt = d.updatedAt ∧
      (∀ id, id ≠ snap.shipment.id → next.milestonesOf id = d.milestonesOf id) ∧
      (next.archived.find? snap.shipment.id).isSome ∧
      ∀ id, (d.archived.find? id).isSome → (next.archived.find? id).isSome := by
  unfold archive at h
  split at h
  · cases h
  · cases h
    have hself : (archiveRow snap now).id = snap.shipment.id := rfl
    refine ⟨rfl, rfl, fun id hid => milestonesOf_deleteShipment hid, ?_, fun id hid => ?_⟩
    · rw [Table.find?_upsert, if_pos hself.symm]
      rfl
    · rw [Table.find?_upsert]
      split
      · rfl
      · exact hid

end Rows

section Sweep

variable {db d next : ArchiveDb} {cutoff : Int}

/-- What a run has done to a database so far: rows that are gone could be archived and are
in the archive, and nothing has changed about the others. -/
structure Swept (cutoff : Int) (db d : ArchiveDb) : Prop where
  rows : ∀ s ∈ d.hot.shipments.rows, s ∈ db.hot.shipments.rows
  milestones : ∀ s ∈ d.hot.shipments.rows, d.milestonesOf s.id = db.milestonesOf s.id
  updatedAt : d.updatedAt = db.updatedAt
  gone : ∀ s ∈ db.hot.shipments.rows, s ∉ d.hot.shipments.rows →
    Archivable db cutoff s ∧ (d.archived.find? s.id).isSome

namespace Swept

theorem refl (db : ArchiveDb) : Swept cutoff db db :=
  ⟨fun _ h => h, fun _ _ => rfl, rfl, fun _ h hnot => absurd h hnot⟩

theorem selectable_iff (h : Swept cutoff db d) (s : Shipment) :
    Selectable d cutoff s ↔ Selectable db cutoff s := by
  unfold Selectable
  rw [h.updatedAt]

theorem skips_eq (h : Swept cutoff db d) {s : Shipment} (hs : s ∈ d.hot.shipments.rows) :
    skips cutoff (d.snapshot s) = skips cutoff (db.snapshot s) := by
  unfold skips
  rw [terminalAt_congr (h.milestones s hs) h.updatedAt]

theorem archivable_iff (h : Swept cutoff db d) {s : Shipment} (hs : s ∈ d.hot.shipments.rows) :
    Archivable d cutoff s ↔ Archivable db cutoff s := by
  unfold Archivable
  rw [h.selectable_iff s, h.skips_eq hs]

/-- Rows that are skipped are there from the start to the end. -/
theorem mem_skippedRows_iff (h : Swept cutoff db d) (s : Shipment) :
    s ∈ skippedRows d cutoff ↔ s ∈ skippedRows db cutoff := by
  simp only [skippedRows, List.mem_filter, decide_eq_true_eq]
  constructor
  · rintro ⟨hs, hselectable, hskips⟩
    exact ⟨h.rows s hs, (h.selectable_iff s).mp hselectable, (h.skips_eq hs).symm.trans hskips⟩
  · rintro ⟨hs, hselectable, hskips⟩
    have hkept : s ∈ d.hot.shipments.rows := by
      by_contra hgone
      rw [(h.gone s hs hgone).1.2] at hskips
      cases hskips
    exact ⟨hkept, (h.selectable_iff s).mpr hselectable, (h.skips_eq hkept).trans hskips⟩

theorem length_skippedRows (h : Swept cutoff db d) :
    (skippedRows d cutoff).length = (skippedRows db cutoff).length :=
  List.Perm.length_eq ((List.perm_ext_iff_of_nodup ((nodup_shipments d).filter _)
    ((nodup_shipments db).filter _)).mpr h.mem_skippedRows_iff)

theorem archive (h : Swept cutoff db d) {snap : Snapshot} {now : Nat}
    (hnext : ShipmentArchivalJob.archive d snap now = some next)
    (hsnap : snap.shipment ∈ d.hot.shipments.rows)
    (harchivable : Archivable d cutoff snap.shipment) :
    Swept cutoff db next := by
  obtain ⟨hrows, hupdated, hmilestones, hself, harchived⟩ := archive_rows hnext
  have hmem (s : Shipment) : s ∈ next.hot.shipments.rows ↔
      s ∈ d.hot.shipments.rows ∧ s.id ≠ snap.shipment.id := by
    rw [hrows, List.mem_filter, decide_eq_true_eq]
  refine ⟨fun s hs => h.rows s ((hmem s).mp hs).1, fun s hs => ?_, hupdated.trans h.updatedAt,
    fun s hs hgone => ?_⟩
  · obtain ⟨hs, hid⟩ := (hmem s).mp hs
    exact (hmilestones s.id hid).trans (h.milestones s hs)
  · by_cases hd : s ∈ d.hot.shipments.rows
    · have hid : s.id = snap.shipment.id := by
        by_contra hid
        exact hgone ((hmem s).mpr ⟨hd, hid⟩)
      obtain rfl := shipment_eq_of_id hd hsnap hid
      exact ⟨(h.archivable_iff hd).mp harchivable, hself⟩
    · obtain ⟨hold, hthere⟩ := h.gone s hs hd
      exact ⟨hold, harchived s.id hthere⟩

end Swept

/-- The copies that a run holds are those of rows that are still there; without `full` all
rows that can be archived are among them. -/
structure Holding (d : ArchiveDb) (cutoff : Int) (batch : List Snapshot) (full : Bool) : Prop where
  copies : ∀ snap ∈ batch, snap.shipment ∈ d.hot.shipments.rows ∧
    Selectable d cutoff snap.shipment ∧
    skips cutoff snap = skips cutoff (d.snapshot snap.shipment)
  nodup : (batch.map fun snap => snap.shipment.id).Nodup
  complete : full = false → ∀ s ∈ d.hot.shipments.rows, Archivable d cutoff s →
    ∃ snap ∈ batch, snap.shipment = s

/-- What holds before each round trip of a run, and after its last one. -/
def AtTrip (d : ArchiveDb) (cutoff : Int) : Option ArchivalCall → Prop
  | none => ∀ s ∈ d.hot.shipments.rows, ¬ Archivable d cutoff s
  | some (.select cutoff') => cutoff' = cutoff
  | some (.archive cutoff' snap rest full) =>
      cutoff' = cutoff ∧ skips cutoff snap = false ∧ Holding d cutoff (snap :: rest) full

theorem Holding.tail {snap : Snapshot} {rest : List Snapshot} {full : Bool}
    (h : Holding d cutoff (snap :: rest) full) (hskips : skips cutoff snap = true) :
    Holding d cutoff rest full where
  copies other hmem := h.copies other (.tail _ hmem)
  nodup := (List.nodup_cons.mp h.nodup).2
  complete hfull s hs harchivable := by
    obtain ⟨other, hmem, rfl⟩ := h.complete hfull s hs harchivable
    rcases List.mem_cons.mp hmem with rfl | hrest
    · obtain ⟨-, -, hsame⟩ := h.copies other (.head _)
      rw [harchivable.2, hskips] at hsame
      cases hsame
    · exact ⟨other, hrest, rfl⟩

theorem atTrip_loop {batch : List Snapshot} {full : Bool} (h : Holding d cutoff batch full) :
    AtTrip d cutoff (ArchivalCall.loop cutoff full batch) := by
  induction batch with
  | nil =>
      unfold ArchivalCall.loop
      cases full with
      | true => rfl
      | false =>
          intro s hs harchivable
          obtain ⟨_, hmem, -⟩ := h.complete rfl s hs harchivable
          cases hmem
  | cons snap rest ih =>
      unfold ArchivalCall.loop
      cases hskips : skips cutoff snap with
      | true => exact ih (h.tail hskips)
      | false => exact ⟨rfl, hskips, h⟩

/-- Another batch is read only when this one was full and all that was left is skipped. -/
theorem loop_select {batch : List Snapshot} {full : Bool} {cutoff' : Int}
    (h : ArchivalCall.loop cutoff full batch = some (.select cutoff')) :
    full = true ∧ ∀ snap ∈ batch, skips cutoff snap = true := by
  induction batch with
  | nil =>
      unfold ArchivalCall.loop at h
      cases full with
      | true => exact ⟨rfl, List.forall_mem_nil _⟩
      | false => cases h
  | cons snap rest ih =>
      unfold ArchivalCall.loop at h
      cases hskips : skips cutoff snap with
      | true =>
          rw [hskips] at h
          obtain ⟨hfull, hrest⟩ := ih h
          exact ⟨hfull, List.forall_mem_cons.mpr ⟨hskips, hrest⟩⟩
      | false =>
          rw [hskips] at h
          cases h

/-- After a full batch the run goes on. -/
theorem loop_full (cutoff : Int) (batch : List Snapshot) :
    (∃ cutoff', ArchivalCall.loop cutoff true batch = some (.select cutoff')) ∨
      ∃ cutoff' snap rest,
        ArchivalCall.loop cutoff true batch = some (.archive cutoff' snap rest true) := by
  induction batch with
  | nil => exact .inl ⟨cutoff, rfl⟩
  | cons snap rest ih =>
      unfold ArchivalCall.loop
      cases skips cutoff snap with
      | true => exact ih
      | false => exact .inr ⟨cutoff, snap, rest, rfl⟩

end Sweep

section Batch

variable {db d : ArchiveDb} {cutoff : Int}

/-- The rows that a batch is taken from. -/
def selectableRows (d : ArchiveDb) (cutoff : Int) : List Shipment :=
  d.hot.shipments.rows.filter fun s => Selectable d cutoff s

theorem candidates_eq (d : ArchiveDb) (cutoff : Int) :
    ∃ oldest : List Shipment, oldest.Perm (selectableRows d cutoff) ∧
      candidates d cutoff = (oldest.take ShipmentArchivalJob.BATCH_SIZE).map d.snapshot :=
  ⟨_, List.perm_insertionSort .., rfl⟩

theorem length_candidates (d : ArchiveDb) (cutoff : Int) :
    (candidates d cutoff).length =
      min ShipmentArchivalJob.BATCH_SIZE (selectableRows d cutoff).length := by
  obtain ⟨oldest, hperm, hcandidates⟩ := candidates_eq d cutoff
  rw [hcandidates, List.length_map, List.length_take, hperm.length_eq]

theorem holding_candidates (d : ArchiveDb) (cutoff : Int) :
    Holding d cutoff (candidates d cutoff)
      ((candidates d cutoff).length = ShipmentArchivalJob.BATCH_SIZE) := by
  have hlength := length_candidates d cutoff
  obtain ⟨oldest, hperm, hcandidates⟩ := candidates_eq d cutoff
  refine ⟨fun snap hsnap => ?_, ?_, fun hfull s hs harchivable => ?_⟩
  · rw [hcandidates] at hsnap
    obtain ⟨s, hs, rfl⟩ := List.mem_map.mp hsnap
    obtain ⟨hrow, hselectable⟩ :=
      List.mem_filter.mp (hperm.mem_iff.mp (List.mem_of_mem_take hs))
    exact ⟨hrow, of_decide_eq_true hselectable, rfl⟩
  · have hids : ((selectableRows d cutoff).map Shipment.id).Nodup :=
      d.hot.shipments.nodup.sublist (List.filter_sublist.map _)
    rw [hcandidates, List.map_map]
    exact ((hperm.map Shipment.id).nodup_iff.mpr hids).sublist ((List.take_sublist ..).map _)
  · have hshort : oldest.length ≤ ShipmentArchivalJob.BATCH_SIZE := by
      have hsmall := of_decide_eq_false hfull
      rw [hperm.length_eq]
      omega
    refine ⟨d.snapshot s, ?_, rfl⟩
    rw [hcandidates, List.take_of_length_le hshort]
    refine List.mem_map_of_mem (hperm.mem_iff.mpr (List.mem_filter.mpr ⟨hs, ?_⟩))
    exact decide_eq_true harchivable.1

theorem holding_archive {snap : Snapshot} {rest : List Snapshot} {full : Bool} {now : Nat}
    {next : ArchiveDb} (h : Holding d cutoff (snap :: rest) full)
    (hnext : ShipmentArchivalJob.archive d snap now = some next) :
    Holding next cutoff rest full := by
  obtain ⟨hrows, hupdated, hmilestones, -, -⟩ := archive_rows hnext
  obtain ⟨hfresh, hnodup⟩ := List.nodup_cons.mp h.nodup
  have hselectable (s : Shipment) : Selectable next cutoff s ↔ Selectable d cutoff s := by
    unfold Selectable
    rw [hupdated]
  have hskips (s : Shipment) (hid : s.id ≠ snap.shipment.id) :
      skips cutoff (next.snapshot s) = skips cutoff (d.snapshot s) := by
    unfold skips
    rw [terminalAt_congr (hmilestones s.id hid) hupdated]
  refine ⟨fun other hmem => ?_, hnodup, fun hfull s hs harchivable => ?_⟩
  · obtain ⟨hrow, hsel, hsame⟩ := h.copies other (.tail _ hmem)
    have hid : other.shipment.id ≠ snap.shipment.id := fun heq =>
      hfresh (List.mem_map.mpr ⟨other, hmem, heq⟩)
    refine ⟨?_, (hselectable _).mpr hsel, hsame.trans (hskips _ hid).symm⟩
    rw [hrows]
    exact List.mem_filter.mpr ⟨hrow, decide_eq_true hid⟩
  · rw [hrows] at hs
    obtain ⟨hrow, hid⟩ := List.mem_filter.mp hs
    have hid := of_decide_eq_true hid
    obtain ⟨other, hmem, rfl⟩ := h.complete hfull s hrow
      ⟨(hselectable s).mp harchivable.1, (hskips s hid).symm.trans harchivable.2⟩
    rcases List.mem_cons.mp hmem with rfl | hrest
    · exact absurd rfl hid
    · exact ⟨other, hrest, rfl⟩

/-- A transaction takes one row out of those that can be selected. -/
theorem selectableRows_archive {snap : Snapshot} {now : Nat} {next : ArchiveDb}
    (hnext : ShipmentArchivalJob.archive d snap now = some next)
    (hsnap : snap.shipment ∈ d.hot.shipments.rows)
    (hselectable : Selectable d cutoff snap.shipment) :
    (selectableRows next cutoff).length < (selectableRows d cutoff).length := by
  obtain ⟨hrows, hupdated, -⟩ := archive_rows hnext
  have hsame (s : Shipment) : Selectable next cutoff s ↔ Selectable d cutoff s := by
    unfold Selectable
    rw [hupdated]
  have hfilter : selectableRows next cutoff =
      (selectableRows d cutoff).filter fun s => s.id ≠ snap.shipment.id := by
    unfold selectableRows
    rw [hrows, List.filter_filter, List.filter_filter]
    refine List.filter_congr fun s _ => ?_
    rw [Bool.and_comm, decide_eq_decide.mpr (hsame s)]
  rw [hfilter, List.length_filter_lt_length_iff_exists]
  refine ⟨snap.shipment, List.mem_filter.mpr ⟨hsnap, decide_eq_true hselectable⟩, ?_⟩
  simp

end Batch

section Runs

variable {db d : ArchiveDb} {cutoff : Int} {now : Nat}

theorem resume_select (d : ArchiveDb) (cutoff : Int) (now : Nat) :
    (ArchivalCall.select cutoff).resume ⟨now, false⟩ d =
      (d, ArchivalCall.loop cutoff ((candidates d cutoff).length = ShipmentArchivalJob.BATCH_SIZE)
        (candidates d cutoff)) := by
  dsimp only [ArchivalCall.resume]
  rw [if_neg Bool.false_ne_true]
  cases candidates d cutoff with
  | nil => rfl
  | cons snap rest => rfl

/-- The shipment of a copy is still there, so that the transaction goes through. -/
theorem resume_archive {snap : Snapshot} {rest : List Snapshot} {full : Bool}
    (h : Holding d cutoff (snap :: rest) full) (now : Nat) :
    ∃ next, ShipmentArchivalJob.archive d snap now = some next ∧
      (ArchivalCall.archive cutoff snap rest full).resume ⟨now, false⟩ d =
        (next, ArchivalCall.loop cutoff full rest) := by
  obtain ⟨hsnap, -, -⟩ := h.copies snap (.head _)
  have hfound : d.hot.shipments.find? snap.shipment.id = some snap.shipment :=
    Table.find?_of_mem hsnap
  have harchive : ∃ next, ShipmentArchivalJob.archive d snap now = some next := by
    unfold ShipmentArchivalJob.archive
    rw [hfound]
    exact ⟨_, rfl⟩
  obtain ⟨next, hnext⟩ := harchive
  refine ⟨next, hnext, ?_⟩
  unfold ArchivalCall.resume
  simp only [hnext]
  rfl

/-- One round trip of a run that is on its own. -/
theorem resume_swept {call : ArchivalCall} (hswept : Swept cutoff db d)
    (hat : AtTrip d cutoff (some call)) :
    Swept cutoff db (call.resume ⟨now, false⟩ d).1 ∧
      AtTrip (call.resume ⟨now, false⟩ d).1 cutoff (call.resume ⟨now, false⟩ d).2 := by
  cases call with
  | select cutoff' =>
      obtain rfl : cutoff' = cutoff := hat
      rw [resume_select]
      exact ⟨hswept, atTrip_loop (holding_candidates d cutoff')⟩
  | archive cutoff' snap rest full =>
      obtain ⟨rfl, hskips, hholding⟩ := hat
      obtain ⟨next, hnext, hresume⟩ := resume_archive hholding now
      obtain ⟨hsnap, hselectable, hsame⟩ := hholding.copies snap (.head _)
      rw [hresume]
      exact ⟨hswept.archive hnext hsnap ⟨hselectable, hsame.symm.trans hskips⟩,
        atTrip_loop (holding_archive hholding hnext)⟩

theorem runArchival_swept (clock : Nat → Nat) (cutoff : Int) (db : ArchiveDb) (trips : Nat) :
    Swept cutoff db (runArchival clock cutoff db trips).1 ∧
      AtTrip (runArchival clock cutoff db trips).1 cutoff
        (runArchival clock cutoff db trips).2 := by
  induction trips with
  | zero => exact ⟨Swept.refl db, rfl⟩
  | succ trips ih =>
      unfold runArchival
      generalize runArchival clock cutoff db trips = reached at ih ⊢
      obtain ⟨d, call | call⟩ := reached
      · exact ih
      · exact resume_swept ih.1 ih.2

/-- Whatever could be archived has been when a run is over. -/
theorem runArchival_moved {clock : Nat → Nat} {trips : Nat}
    (hend : (runArchival clock cutoff db trips).2 = none) {s : Shipment}
    (hs : s ∈ db.hot.shipments.rows) (harchivable : Archivable db cutoff s) :
    Moved (runArchival clock cutoff db trips).1 s := by
  obtain ⟨hswept, hat⟩ := runArchival_swept clock cutoff db trips
  rw [hend] at hat
  have hgone : s ∉ (runArchival clock cutoff db trips).1.hot.shipments.rows := fun hthere =>
    hat s hthere ((hswept.archivable_iff hthere).mpr harchivable)
  exact ⟨hgone, (hswept.gone s hs hgone).2⟩

/-- A batch that is skipped as a whole is one of rows that all stay. -/
theorem length_le_skippedRows {batch : List Snapshot} {full : Bool}
    (h : Holding d cutoff batch full) (hskips : ∀ snap ∈ batch, skips cutoff snap = true) :
    batch.length ≤ (skippedRows d cutoff).length := by
  have hnodup : (batch.map Snapshot.shipment).Nodup := by
    refine List.Nodup.of_map Shipment.id ?_
    rw [List.map_map]
    exact h.nodup
  have hsubset : batch.map Snapshot.shipment ⊆ skippedRows d cutoff := by
    intro s hs
    obtain ⟨snap, hmem, rfl⟩ := List.mem_map.mp hs
    obtain ⟨hrow, hselectable, hsame⟩ := h.copies snap hmem
    exact List.mem_filter.mpr
      ⟨hrow, decide_eq_true ⟨hselectable, hsame.symm.trans (hskips snap hmem)⟩⟩
  have hle := (List.subperm_of_subset hnodup hsubset).length_le
  rwa [List.length_map] at hle

/-- At most so many round trips are left: each transaction takes a row, and there is a
transaction between any two batches. -/
def tripsLeft (d : ArchiveDb) (cutoff : Int) : Option ArchivalCall → Nat
  | none => 0
  | some (.archive _ _ _ _) => 2 * (selectableRows d cutoff).length + 1
  | some (.select _) => 2 * (selectableRows d cutoff).length + 2

theorem tripsLeft_le (d : ArchiveDb) (cutoff : Int) (call : Option ArchivalCall) :
    tripsLeft d cutoff call ≤ 2 * (selectableRows d cutoff).length + 2 := by
  unfold tripsLeft
  split <;> omega

theorem resume_tripsLeft {call : ArchivalCall} (now : Nat) (hat : AtTrip d cutoff (some call))
    (hfew : (skippedRows d cutoff).length < ShipmentArchivalJob.BATCH_SIZE) :
    tripsLeft (call.resume ⟨now, false⟩ d).1 cutoff (call.resume ⟨now, false⟩ d).2 <
      tripsLeft d cutoff (some call) := by
  cases call with
  | select cutoff' =>
      obtain rfl : cutoff' = cutoff := hat
      rw [resume_select]
      have hholding := holding_candidates d cutoff'
      cases hloop : ArchivalCall.loop cutoff'
          ((candidates d cutoff').length = ShipmentArchivalJob.BATCH_SIZE)
          (candidates d cutoff') with
      | none => exact Nat.succ_pos _
      | some call =>
          cases call with
          | archive _ _ _ _ => exact Nat.lt_succ_self _
          | select _ =>
              -- fifty rows that are skipped
              obtain ⟨hfull, hskips⟩ := loop_select hloop
              have hle := length_le_skippedRows hholding hskips
              have hlength := of_decide_eq_true hfull
              omega
  | archive cutoff' snap rest full =>
      obtain ⟨rfl, -, hholding⟩ := hat
      obtain ⟨next, hnext, hresume⟩ := resume_archive hholding now
      obtain ⟨hsnap, hselectable, -⟩ := hholding.copies snap (.head _)
      have hrow := selectableRows_archive hnext hsnap hselectable
      have hleft := tripsLeft_le next cutoff' (ArchivalCall.loop cutoff' full rest)
      rw [hresume]
      dsimp only [tripsLeft] at hleft ⊢
      omega

theorem runArchival_tripsLeft (clock : Nat → Nat)
    (hfew : (skippedRows db cutoff).length < ShipmentArchivalJob.BATCH_SIZE) (trips : Nat) :
    (runArchival clock cutoff db trips).2 = none ∨
      tripsLeft (runArchival clock cutoff db trips).1 cutoff
        (runArchival clock cutoff db trips).2 + trips ≤
        tripsLeft db cutoff (some (.select cutoff)) := by
  induction trips with
  | zero => exact .inr le_rfl
  | succ trips ih =>
      obtain ⟨hswept, hat⟩ := runArchival_swept clock cutoff db trips
      unfold runArchival
      generalize runArchival clock cutoff db trips = reached at ih hswept hat ⊢
      obtain ⟨d, call | call⟩ := reached
      · exact .inl rfl
      · obtain hend | hleft := ih
        · cases hend
        · have hstep := resume_tripsLeft (clock trips) hat
            (hswept.length_skippedRows.trans_lt hfew)
          dsimp only at hleft hstep ⊢
          exact .inr (by omega)

theorem runArchival_ends (clock : Nat → Nat)
    (hfew : (skippedRows db cutoff).length < ShipmentArchivalJob.BATCH_SIZE) :
    ∃ trips, (runArchival clock cutoff db trips).2 = none := by
  refine ⟨tripsLeft db cutoff (some (.select cutoff)), ?_⟩
  obtain hend | hleft :=
    runArchival_tripsLeft clock hfew (tripsLeft db cutoff (some (.select cutoff)))
  · exact hend
  · cases hcall : (runArchival clock cutoff db (tripsLeft db cutoff (some (.select cutoff)))).2 with
    | none => rfl
    | some call =>
        rw [hcall] at hleft
        cases call <;> simp only [tripsLeft] at hleft <;> omega

/-- A run that goes on whatever the copies it holds are. -/
def Endless : Option ArchivalCall → Prop
  | none => False
  | some (.select _) => True
  | some (.archive _ _ _ full) => full = true

theorem endless_loop (cutoff : Int) (batch : List Snapshot) :
    Endless (ArchivalCall.loop cutoff true batch) := by
  obtain ⟨_, hselect⟩ | ⟨_, _, _, harchive⟩ := loop_full cutoff batch
  · rw [hselect]
    trivial
  · rw [harchive]
    rfl

theorem resume_endless {call : ArchivalCall} (hat : AtTrip d cutoff (some call))
    (hendless : Endless (some call))
    (hmany : ShipmentArchivalJob.BATCH_SIZE ≤ (skippedRows d cutoff).length) :
    Endless (call.resume ⟨now, false⟩ d).2 := by
  cases call with
  | select cutoff' =>
      obtain rfl : cutoff' = cutoff := hat
      have hskipped : (skippedRows d cutoff').length ≤ (selectableRows d cutoff').length := by
        refine (List.monotone_filter_right _ fun s hs => ?_).length_le
        exact decide_eq_true (of_decide_eq_true hs).1
      have hfull : (candidates d cutoff').length = ShipmentArchivalJob.BATCH_SIZE := by
        rw [length_candidates]
        omega
      rw [resume_select, decide_eq_true hfull]
      exact endless_loop cutoff' _
  | archive cutoff' snap rest full =>
      obtain ⟨rfl, -, hholding⟩ := hat
      obtain ⟨next, -, hresume⟩ := resume_archive hholding now
      obtain rfl : full = true := hendless
      rw [hresume]
      exact endless_loop cutoff' rest

theorem runArchival_endless (clock : Nat → Nat)
    (hmany : ShipmentArchivalJob.BATCH_SIZE ≤ (skippedRows db cutoff).length) (trips : Nat) :
    Endless (runArchival clock cutoff db trips).2 := by
  induction trips with
  | zero => trivial
  | succ trips ih =>
      obtain ⟨hswept, hat⟩ := runArchival_swept clock cutoff db trips
      unfold runArchival
      generalize runArchival clock cutoff db trips = reached at ih hswept hat ⊢
      obtain ⟨d, call | call⟩ := reached
      · exact ih
      · exact resume_endless hat ih (hmany.trans_eq hswept.length_skippedRows.symm)

/-- A run ends, with everything moved that could be, exactly when fewer rows are skipped
than a batch has. -/
theorem runArchival_ends_iff (clock : Nat → Nat) (cutoff : Int) (db : ArchiveDb) :
    (∃ trips, (runArchival clock cutoff db trips).2 = none ∧
      ∀ s ∈ db.hot.shipments.rows, Archivable db cutoff s →
        Moved (runArchival clock cutoff db trips).1 s) ↔
      (skippedRows db cutoff).length < ShipmentArchivalJob.BATCH_SIZE := by
  constructor
  · rintro ⟨trips, hend, -⟩
    by_contra hmany
    have hendless := runArchival_endless clock (not_lt.mp hmany) trips
    rw [hend] at hendless
    exact hendless
  · intro hfew
    obtain ⟨trips, hend⟩ := runArchival_ends clock hfew
    exact ⟨trips, hend, fun s hs harchivable => runArchival_moved hend hs harchivable⟩

/-- One confirmation after the cutoff keeps a shipment that was not cancelled. -/
theorem skips_of_confirmed {s : Shipment} {m : Milestone} {time : Nat}
    (hcancelled : s.cancelledAt = none) (hm : m ∈ d.milestonesOf s.id)
    (hconfirmed : m.confirmedAt = some time) (hlate : cutoff < time) :
    skips cutoff (d.snapshot s) = true := by
  have hmem : time ∈ (d.milestonesOf s.id).filterMap Milestone.confirmedAt :=
    List.mem_filterMap.mpr ⟨m, hm, hconfirmed⟩
  have hterminal : time ≤ terminalAt (d.snapshot s) := by
    unfold terminalAt ArchiveDb.snapshot
    dsimp only
    rw [hcancelled, Option.none_or]
    cases hmax : ((d.milestonesOf s.id).filterMap Milestone.confirmedAt).max? with
    | none =>
        rw [List.max?_eq_none_iff.mp hmax] at hmem
        cases hmem
    | some latest => exact (List.max?_eq_some_iff.mp hmax).2 time hmem
  exact decide_eq_true (hlate.trans_le (Int.ofNat_le.mpr hterminal))

/-- Names of any length, to have as many as needed. -/
def nameOf (length : Nat) : String := String.ofList (List.replicate length 'x')

theorem nameOf_injective : Function.Injective nameOf := fun n n' h => by
  have hlists := String.ofList_injective h
  rwa [List.replicate_left_inj] at hlists

/-- Completed shipments that were last updated at 0, each with a milestone that was
confirmed at 2000. -/
def retainedDb (count : Nat) : ArchiveDb where
  hot := { Db.demo .confirmed with
    shipments :=
      { rows := (List.range count).map fun i => { finishedShipment with id := nameOf i }
        nodup := by
          rw [List.map_map]
          exact List.nodup_range.map nameOf_injective }
    milestones :=
      { rows := (List.range count).map fun i =>
          { demoMilestone .confirmed with
            id := nameOf i, shipmentId := nameOf i, confirmedAt := some 2000 }
        nodup := by
          rw [List.map_map]
          refine List.nodup_range.map fun i j hkey => nameOf_injective ?_
          exact congrArg Prod.fst hkey } }
  updatedAt := fun _ => 0
  side := fun _ => []
  archived := .empty

theorem length_skippedRows_retainedDb (count : Nat) :
    (skippedRows (retainedDb count) 1000).length = count := by
  have hall : skippedRows (retainedDb count) 1000 = (retainedDb count).hot.shipments.rows := by
    refine List.filter_eq_self.mpr fun s hs => decide_eq_true ?_
    obtain ⟨i, hi, rfl⟩ := List.mem_map.mp hs
    have hmilestone : { demoMilestone .confirmed with
        id := nameOf i, shipmentId := nameOf i, confirmedAt := some 2000 } ∈
        (retainedDb count).milestonesOf (nameOf i) :=
      List.mem_filter.mpr ⟨List.mem_map_of_mem hi, decide_eq_true rfl⟩
    have hlate : (1000 : Int) < (2000 : Nat) := by decide
    exact ⟨⟨.head _, Int.natCast_nonneg 1000⟩, skips_of_confirmed rfl hmilestone rfl hlate⟩
  rw [hall]
  simp [retainedDb]

/-- Fifty shipments that are all within the retention window fill every batch. -/
theorem retained_batch_repeats :
    ¬ ∃ trips, (runArchival (fun _ => 3000) 1000 (retainedDb 50) trips).2 = none := by
  rintro ⟨trips, hend⟩
  have hendless := runArchival_endless (fun _ => 3000)
    (length_skippedRows_retainedDb 50).ge trips
  rw [hend] at hendless
  exact hendless

end Runs

end ChainSettle
