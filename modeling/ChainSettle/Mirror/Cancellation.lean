import ChainSettle.Lib.Run
import ChainSettle.Mirror.Reconciliation

/-!
Is a shipment cancelled exactly when its `cancelledAt` is set? The schema says
the column is set when the shipment is cancelled on-chain and the refund
endpoint decides by it. `cancel` and the `shipment_cancelled` handler write
status and time together. `syncStatusFromChain` writes the status alone, in
both directions, and the reconciliation job writes through it.

From a state in which the two columns agree, each operation has one lemma that
says when they agree afterwards; runs follow by induction.
-/

namespace ChainSettle

open Lib Lib.Eff

/-- What creates a shipment or moves its status, with the inputs of one
execution. -/
inductive ShipmentOperation where
  | create (env : Env) (new : NewShipment) (milestones : List NewMilestone)
  | cancel (env : Env) (id buyerAddress txHash : String)
  | shipmentCancelled (env : Env) (payload : Json) (txHash : Option String)
  | sync (env : Env) (id : String)
  | reconcile (env : Env) (read : ChainRead) (lockHeld : Bool)

/-- One execution to its end, whether it returns or throws. -/
def ShipmentOperation.step (db : Db) : ShipmentOperation → Db
  | .create env new milestones => after (shipmentCreate env new milestones) db
  | .cancel env id buyerAddress txHash => after (ChainSettle.cancel env id buyerAddress txHash) db
  | .shipmentCancelled env payload txHash => after (handleShipmentCancelled env payload txHash) db
  | .sync env id => after (syncStatusFromChain env id) db
  | .reconcile env read lockHeld => after (runReconciliation env read lockHeld) db

/-- The status says cancelled exactly when the time is recorded. -/
def Shipment.CancellationAgrees (s : Shipment) : Prop :=
  s.status = .cancelled ↔ s.cancelledAt.isSome

/-- Every stored shipment agrees with itself, and the refund endpoint turns it
away as not cancelled exactly when it is not. -/
def CancellationRecorded (db : Db) : Prop :=
  ∀ id s, db.shipments.find? id = some s →
    s.CancellationAgrees ∧
    ∀ env : Env, env.fails .shipmentRead = false →
      ((exec (getRefundDetail env id) db).1 =
          .error (.notFound s!"Shipment {id} has not been cancelled") ↔
        s.status ≠ .cancelled)

/-- A sync that goes through must not move the row into or out of `CANCELLED`. -/
def Env.KeepsCancellation (env : Env) (s : Shipment) : Prop :=
  ∀ status releasedAmount, env.synced s.id = some (status, releasedAmount) →
    (status = .cancelled ↔ s.status = .cancelled)

/-- The steps after which the columns still agree: a sync keeps the row on its
side of `CANCELLED`, and the reconciliation job, which only visits active rows,
copies no cancellation. -/
def ShipmentOperation.KeepsRecord (db : Db) : ShipmentOperation → Prop
  | .sync env id => ∀ s, db.shipments.find? id = some s → env.KeepsCancellation s
  | .reconcile env read lockHeld => ReachesLoop env lockHeld →
      ∀ id s, db.shipments.find? id = some s → s.status = .active → read.Drifted id →
        env.KeepsCancellation s
  | _ => True

section Rows

/-- The refund endpoint adds nothing: it looks at `cancelledAt` only. -/
theorem cancellationRecorded_iff (db : Db) :
    CancellationRecorded db ↔
      ∀ id s, db.shipments.find? id = some s → s.CancellationAgrees := by
  refine ⟨fun h id s hs => (h id s hs).1, fun h id s hs => ⟨h id s hs, fun env hread => ?_⟩⟩
  have hagrees : s.status = .cancelled ↔ s.cancelledAt.isSome := h id s hs
  rw [getRefundDetail_refuses_iff env db id hread hs, ne_eq, hagrees,
    Option.not_isSome_iff_eq_none]

/-- An operation that replaces rows one by one keeps the record exactly when
each new row agrees with itself. -/
theorem recorded_map_iff {db db' : Db} {f : Shipment → Shipment}
    (h : ∀ id, db'.shipments.find? id = (db.shipments.find? id).map f) :
    CancellationRecorded db' ↔
      ∀ id s, db.shipments.find? id = some s → (f s).CancellationAgrees := by
  rw [cancellationRecorded_iff]
  constructor
  · intro hall id s hs
    exact hall id (f s) (by rw [h, hs]; rfl)
  · intro hall id s hs
    rw [h] at hs
    obtain ⟨old, hold, rfl⟩ := Option.map_eq_some_iff.mp hs
    exact hall id old hold

theorem syncedRow_agrees_iff (env : Env) {s : Shipment} (hs : s.CancellationAgrees) :
    (env.syncedRow s).CancellationAgrees ↔ env.KeepsCancellation s := by
  unfold Env.syncedRow Env.KeepsCancellation
  cases env.synced s.id with
  | none => simp [hs]
  | some written =>
      obtain ⟨status, releasedAmount⟩ := written
      unfold Shipment.CancellationAgrees at hs ⊢
      simp only [Shipment.sync, Option.some.injEq, Prod.mk.injEq, and_imp]
      rw [← hs]
      exact ⟨fun h _ _ hstatus _ => hstatus ▸ h, fun h => h _ _ rfl rfl⟩

/-- An update of one row that makes it cancelled and records the time. -/
theorem recorded_modify {db : Db} (h : CancellationRecorded db) (id : String)
    (f : Shipment → Shipment) (hf : ∀ s, (f s).id = s.id)
    (hagrees : ∀ s, (f s).CancellationAgrees) :
    CancellationRecorded { db with shipments := db.shipments.modify id f hf } := by
  rw [cancellationRecorded_iff] at h ⊢
  intro other s hs
  rw [Table.find?_modify] at hs
  split at hs
  · obtain ⟨old, _, rfl⟩ := Option.map_eq_some_iff.mp hs
    exact hagrees old
  · exact h other s hs

end Rows

section Steps

variable {db : Db} (h : CancellationRecorded db)
include h

theorem create_records (env : Env) (new : NewShipment) (milestones : List NewMilestone) :
    CancellationRecorded (after (shipmentCreate env new milestones) db) := by
  unfold shipmentCreate
  rw [after_bind, exec_prismaCall]
  cases env.fails .shipmentWrite with
  | true => exact h
  | false =>
      simp only [Bool.false_eq_true, ↓reduceIte]
      rw [after_bind, exec_get]
      simp only
      split
      · exact h
      · rw [cancellationRecorded_iff] at h ⊢
        intro id s hs
        change (db.shipments.insert new.row).find? id = some s at hs
        rw [Table.find?_insert] at hs
        rcases Option.or_eq_some_iff.mp hs with hold | ⟨_, hnew⟩
        · exact h id s hold
        · split at hnew
          · cases hnew
            exact ⟨(by rintro ⟨⟩), (by rintro ⟨⟩)⟩
          · cases hnew

theorem cancel_records (env : Env) (id buyerAddress txHash : String) :
    CancellationRecorded (after (cancel env id buyerAddress txHash) db) := by
  by_cases hcancels : Cancels env db id buyerAddress
  · rw [after_cancel_of_cancels env db id buyerAddress txHash hcancels]
    exact recorded_modify h id _ _ fun s => ⟨fun _ => rfl, fun _ => rfl⟩
  · rw [after_cancel_of_not_cancels env db id buyerAddress txHash hcancels]
    exact h

theorem shipmentCancelled_records (env : Env) (payload : Json) (txHash : Option String) :
    CancellationRecorded (after (handleShipmentCancelled env payload txHash) db) := by
  rw [after_handleShipmentCancelled]
  split
  · exact h
  · exact recorded_modify h _ _ _ fun s => ⟨fun _ => rfl, fun _ => rfl⟩

theorem sync_records_iff (env : Env) (id : String) :
    CancellationRecorded (after (syncStatusFromChain env id) db) ↔
      ∀ s, db.shipments.find? id = some s → env.KeepsCancellation s := by
  have hagrees := (cancellationRecorded_iff db).mp h
  rw [cancellationRecorded_iff]
  constructor
  · intro hall s hs
    rw [← syncedRow_agrees_iff env (hagrees id s hs)]
    exact hall id _ (by rw [find?_after_sync, if_pos rfl, hs]; rfl)
  · intro hkeeps other s hs
    rw [find?_after_sync] at hs
    split at hs
    · obtain ⟨old, hold, rfl⟩ := Option.map_eq_some_iff.mp hs
      exact (syncedRow_agrees_iff env (hagrees id old hold)).mpr (hkeeps old hold)
    · exact hagrees other s hs

theorem reconcile_records_iff (env : Env) (read : ChainRead) (lockHeld : Bool) :
    CancellationRecorded (after (runReconciliation env read lockHeld) db) ↔
      (ReachesLoop env lockHeld → ∀ id s, db.shipments.find? id = some s →
        s.status = .active → read.Drifted id → env.KeepsCancellation s) := by
  by_cases hreaches : ReachesLoop env lockHeld
  · have hagrees := (cancellationRecorded_iff db).mp h
    rw [recorded_map_iff (find?_after_runReconciliation env db read hreaches)]
    simp only [hreaches, forall_const]
    refine forall₂_congr fun id s => imp_congr_right fun hs => ?_
    have hkey : s.id = id := Table.key_of_find? hs
    by_cases hactive : s.status = .active
    · by_cases hdrifted : read.Drifted id
      · simp only [hactive, ↓reduceIte, ChainRead.corrected, hkey, hdrifted, forall_const]
        exact syncedRow_agrees_iff env (hagrees id s hs)
      · simp only [hactive, ↓reduceIte, ChainRead.corrected, hkey, hdrifted, IsEmpty.forall_iff,
          implies_true, iff_true]
        exact hagrees id s hs
    · simp only [hactive, ↓reduceIte, IsEmpty.forall_iff, iff_true]
      exact hagrees id s hs
  · rw [after_runReconciliation_of_not_reaches env db read hreaches]
    exact iff_of_true h fun hreached => absurd hreached hreaches

theorem step_records_iff (op : ShipmentOperation) :
    CancellationRecorded (op.step db) ↔ op.KeepsRecord db := by
  cases op with
  | create env new milestones => exact iff_of_true (create_records h env new milestones) trivial
  | cancel env id buyerAddress txHash =>
      exact iff_of_true (cancel_records h env id buyerAddress txHash) trivial
  | shipmentCancelled env payload txHash =>
      exact iff_of_true (shipmentCancelled_records h env payload txHash) trivial
  | sync env id => exact sync_records_iff h env id
  | reconcile env read lockHeld => exact reconcile_records_iff h env read lockHeld

end Steps

/-- From a state in which status and time agree, they agree in every state of
the run exactly when no sync moves a row into or out of `CANCELLED`. -/
theorem cancellation_recorded_iff_syncs_keep_it (db : Db) (hinit : CancellationRecorded db)
    (ops : List ShipmentOperation) :
    (∀ pre post, ops = pre ++ post →
        CancellationRecorded (pre.foldl ShipmentOperation.step db)) ↔
      Along ShipmentOperation.step (fun db op => op.KeepsRecord db) db ops := by
  have hstep (db : Db) (op : ShipmentOperation) (h : CancellationRecorded db) :
      CancellationRecorded (op.step db) ↔ op.KeepsRecord db := step_records_iff h op
  exact along_iff_invariant hstep hinit ops

/-- No rows at all. -/
def Db.blank : Db where
  shipments := .empty
  milestones := .empty
  proofSubmissions := []
  approvals := []
  chainEvents := .empty
  failedEvents := .empty
  adminAlerts := []

def demoShipment : NewShipment :=
  ⟨"SHIP-1", "GBUYER", "GSUPPLIER", "GLOGISTICS", none, 1000, none, 7, "GARBITER", "CUSDC", "USDC",
    none, false⟩

/-- The contract answers with this status and released amount. -/
def Env.answering (now : Nat) (status : String) (releasedAmount : Int) : Env :=
  { Env.calm now with getShipment := fun _ => some ⟨status, releasedAmount⟩ }

/-- The buyer registers the cancellation before the contract is read again. -/
def registeredCancellation : List ShipmentOperation :=
  [.create (.calm 1) demoShipment [], .cancel (.calm 2) "SHIP-1" "GBUYER" "tx-cancel",
    .sync (.answering 3 "Cancelled" 0) "SHIP-1"]

theorem registered_cancellation_recorded :
    CancellationRecorded (registeredCancellation.foldl ShipmentOperation.step Db.blank) := by
  refine (cancellation_recorded_iff_syncs_keep_it Db.blank (fun id s hs => ?_)
    registeredCancellation).mpr ⟨trivial, trivial, ?_, trivial⟩ registeredCancellation []
    (List.append_nil _).symm
  · cases hs
  · intro s hs status releasedAmount hsynced
    have hrow : (((registeredCancellation.take 2).foldl ShipmentOperation.step
        Db.blank).shipments.find? "SHIP-1").map Shipment.status = some .cancelled := by decide
    have hwritten : (Env.answering 3 "Cancelled" 0).synced s.id = some (.cancelled, 0) := rfl
    rw [hwritten] at hsynced
    cases hsynced
    obtain ⟨s', hs', hstatus⟩ := Option.map_eq_some_iff.mp hrow
    cases hs.symm.trans hs'
    exact iff_of_true rfl hstatus

/-- The weekly job learns of a cancellation whose event was lost. -/
def lostCancellation : List ShipmentOperation :=
  [.create (.calm 1) demoShipment [],
    .reconcile (.answering 2 "Cancelled" 0) (fun _ => .ok (some ⟨"Cancelled", 0⟩)) false]

theorem reconciled_cancellation_not_recorded :
    ¬ CancellationRecorded (lostCancellation.foldl ShipmentOperation.step Db.blank) := by
  intro h
  have hrow : ((lostCancellation.foldl ShipmentOperation.step Db.blank).shipments.find?
      "SHIP-1").map (fun s => (s.status, s.cancelledAt)) = some (.cancelled, none) := by decide
  obtain ⟨s, hs, hpair⟩ := Option.map_eq_some_iff.mp hrow
  obtain ⟨hstatus, htime⟩ := Prod.mk.inj hpair
  have hagrees := (h "SHIP-1" s hs).1
  unfold Shipment.CancellationAgrees at hagrees
  rw [hstatus, htime] at hagrees
  exact absurd (hagrees.mp rfl) nofun

end ChainSettle
