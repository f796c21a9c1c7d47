import ChainSettle.Lifecycle.Api
import ChainSettle.Semantics.Shipments

/-!
What the shipment operations and the reconciliation job do to the shipment
table, row by row. The job works through the active rows one after the other;
since it visits no row twice, what it leaves at an id depends on that id alone.
-/

namespace ChainSettle

open Lib Lib.Eff

variable (env : Env) (db : Db) (read : ChainRead)

section Cancel

variable (id buyerAddress txHash : String)

/-- Everything `cancel` checks before its write. -/
def Cancels : Prop :=
  env.fails .shipmentRead = false ∧ env.fails .shipmentWrite = false ∧
    ∃ shipment, db.shipments.find? id = some shipment ∧
      shipment.buyerAddress = buyerAddress ∧ shipment.status = .active

theorem after_cancel_of_cancels (h : Cancels env db id buyerAddress) :
    after (cancel env id buyerAddress txHash) db =
      { db with
        shipments := db.shipments.modify id (Shipment.registerCancel env.now txHash)
          (Shipment.registerCancel_id env.now txHash) } := by
  obtain ⟨hread, hwrite, shipment, hfind, hbuyer, hactive⟩ := h
  unfold cancel after
  simp only [exec_bind, exec_shipmentFindUnique, hread, Bool.false_eq_true, ↓reduceIte, hfind,
    hbuyer, hactive, ne_eq, not_true_eq_false, exec_prismaCall, hwrite]
  rfl

theorem after_cancel_of_not_cancels (h : ¬ Cancels env db id buyerAddress) :
    after (cancel env id buyerAddress txHash) db = db := by
  unfold cancel
  refine after_found env db id fun shipment hread hfind => ?_
  refine after_guard fun hbuyer => after_guard fun hactive => ?_
  have hwrite : env.fails .shipmentWrite = true := by
    by_contra hwrite
    exact h ⟨hread, by simpa using hwrite, shipment, hfind, not_not.mp hbuyer, not_not.mp hactive⟩
  rw [after_bind, exec_prismaCall, hwrite]
  rfl

/-- The refusal of `getRefundDetail` depends on `cancelledAt` alone. -/
theorem getRefundDetail_refuses_iff {shipment : Shipment}
    (hread : env.fails .shipmentRead = false) (hfind : db.shipments.find? id = some shipment) :
    (exec (getRefundDetail env id) db).1 =
        .error (.notFound s!"Shipment {id} has not been cancelled") ↔
      shipment.cancelledAt = none := by
  unfold getRefundDetail
  simp only [exec_bind, exec_shipmentFindUnique, hread, Bool.false_eq_true, ↓reduceIte, hfind]
  cases shipment.cancelledAt with
  | none => simp
  | some at_ =>
      simp only [exec_bind, exec_prismaCall, exec_get]
      cases env.fails .refundEventRead with
      | true => simp
      | false =>
          simp only [Bool.false_eq_true, ↓reduceIte]
          cases db.cancelEvent id <;> simp

end Cancel

section Sync

variable (id : String)

/-- The sync always returns. -/
theorem exec_sync :
    exec (syncStatusFromChain env id) db = (.ok (), after (syncStatusFromChain env id) db) := by
  unfold syncStatusFromChain after
  cases env.getShipment id with
  | none => rfl
  | some onChain =>
      simp only
      cases statusMap onChain.status with
      | none => rfl
      | some status =>
          simp only [exec_ite]
          split <;> rfl

/-- The row a sync leaves: the old one with the contract's columns, if it gets
as far as its write. -/
def Env.syncedRow (env : Env) (shipment : Shipment) : Shipment :=
  match env.synced shipment.id with
  | none => shipment
  | some (status, releasedAmount) => shipment.sync status releasedAmount

theorem find?_after_sync (other : String) :
    (after (syncStatusFromChain env id) db).shipments.find? other =
      if other = id then (db.shipments.find? id).map env.syncedRow
      else db.shipments.find? other := by
  rw [after_sync]
  cases hsynced : env.synced id with
  | none =>
      simp only
      split
      · rename_i hother
        subst hother
        cases hfind : db.shipments.find? other with
        | none => rfl
        | some shipment =>
            have hid : shipment.id = other := Table.key_of_find? hfind
            simp [Env.syncedRow, hid, hsynced]
      · rfl
  | some written =>
      simp only [Db.syncShipment, Table.find?_modify]
      split
      · cases hfind : db.shipments.find? id with
        | none => rfl
        | some shipment =>
            have hid : shipment.id = id := Table.key_of_find? hfind
            simp [Env.syncedRow, hid, hsynced]
      · rfl

end Sync

section Reconcile

/-- The status the job's own simulation shows. -/
def ChainRead.status (read : ChainRead) (id : String) : Option ShipmentStatus :=
  match read id with
  | .ok (some onChain) => statusMap onChain.status
  | _ => none

/-- It shows a status other than `ACTIVE`. -/
def ChainRead.Drifted (read : ChainRead) (id : String) : Prop :=
  (read.status id).any (· ≠ .active) = true

instance (id : String) : Decidable (read.Drifted id) := inferInstanceAs (Decidable (_ = true))

/-- One turn of the loop over an active row: a sync if the contract has moved
on, nothing otherwise. It never throws. -/
theorem exec_reconcileShipment (run : ReconciliationRun) {shipment : Shipment}
    (hactive : shipment.status = .active) :
    ∃ run', exec (reconcileShipment env read run shipment) db =
      (.ok run', if read.Drifted shipment.id then after (syncStatusFromChain env shipment.id) db
        else db) := by
  have hsettled (h : read.status shipment.id = none ∨ read.status shipment.id = some .active) :
      ¬ read.Drifted shipment.id := by
    rcases h with h | h <;> simp [ChainRead.Drifted, h]
  unfold reconcileShipment
  cases hread : read shipment.id with
  | error message =>
      rw [if_neg (hsettled (.inl (by simp [ChainRead.status, hread])))]
      exact ⟨_, rfl⟩
  | ok answer =>
      cases answer with
      | none =>
          rw [if_neg (hsettled (.inl (by simp [ChainRead.status, hread])))]
          exact ⟨_, rfl⟩
      | some onChain =>
          have hstatus : read.status shipment.id = statusMap onChain.status := by
            simp [ChainRead.status, hread]
          simp only
          cases hmapped : statusMap onChain.status with
          | none =>
              rw [if_neg (hsettled (.inl (hstatus.trans hmapped)))]
              exact ⟨_, rfl⟩
          | some status =>
              by_cases hsame : status = .active
              · rw [if_neg (hsettled (.inr (by rw [hstatus, hmapped, hsame])))]
                exact ⟨run, by simp [hsame, hactive]⟩
              · have hdrifted : read.Drifted shipment.id := by
                  simp [ChainRead.Drifted, hstatus, hmapped, hsame]
                have hterminal : status = .completed ∨ status = .cancelled := by
                  cases status <;> simp_all
                rw [if_pos hdrifted]
                refine ⟨{ run with mismatchCount := run.mismatchCount + 1 }, ?_⟩
                simp only [hactive, hsame, ↓reduceIte, hterminal]
                rw [exec_bind, exec_sync]
                rfl

/-- The row a turn of the loop leaves. -/
def ChainRead.corrected (read : ChainRead) (env : Env) (shipment : Shipment) : Shipment :=
  if read.Drifted shipment.id then env.syncedRow shipment else shipment

/-- The loop over active rows with distinct ids leaves at each of them the
corrected row. It never throws. -/
theorem exec_reconcileShipments (rows : List Shipment) (hnodup : (rows.map Shipment.id).Nodup)
    (hactive : ∀ s ∈ rows, s.status = .active) (run : ReconciliationRun) :
    ∃ run' db', exec (rows.foldlM (reconcileShipment env read) run) db = (.ok run', db') ∧
      ∀ id, db'.shipments.find? id =
        if id ∈ rows.map Shipment.id then (db.shipments.find? id).map (read.corrected env)
        else db.shipments.find? id := by
  induction rows generalizing db run with
  | nil => exact ⟨run, db, rfl, by simp⟩
  | cons shipment rest ih =>
      rw [List.map_cons, List.nodup_cons] at hnodup
      obtain ⟨hfresh, hnodup⟩ := hnodup
      obtain ⟨run₁, hturn⟩ := exec_reconcileShipment env db read run (hactive shipment (.head _))
      obtain ⟨run', db', hloop, hfind⟩ := ih
        (if read.Drifted shipment.id then after (syncStatusFromChain env shipment.id) db else db)
        hnodup (fun s hs => hactive s (.tail _ hs)) run₁
      refine ⟨run', db', ?_, fun id => ?_⟩
      · rw [List.foldlM_cons, exec_bind, hturn]
        exact hloop
      · -- the row of this turn is not visited again
        rw [hfind]
        by_cases hid : id = shipment.id
        · subst hid
          simp only [hfresh, ↓reduceIte, List.map_cons, List.mem_cons, true_or]
          split
          · rename_i hdrifted
            rw [find?_after_sync, if_pos rfl]
            cases hrow : db.shipments.find? shipment.id with
            | none => rfl
            | some row =>
                have hkey : row.id = shipment.id := Table.key_of_find? hrow
                simp [ChainRead.corrected, hkey, hdrifted]
          · rename_i hsettled
            cases hrow : db.shipments.find? shipment.id with
            | none => rfl
            | some row =>
                have hkey : row.id = shipment.id := Table.key_of_find? hrow
                simp [ChainRead.corrected, hkey, hsettled]
        · have hturnfind : (if read.Drifted shipment.id then
              after (syncStatusFromChain env shipment.id) db else db).shipments.find? id =
                db.shipments.find? id := by
            split
            · rw [find?_after_sync, if_neg hid]
            · rfl
          simp [hid, hturnfind]

/-- The job gets as far as its loop. -/
def ReachesLoop (lockHeld : Bool) : Prop :=
  lockHeld = false ∧ env.fails .reconciliationCreate = false ∧ env.fails .activeRead = false ∧
    env.fails .adminRead = false

instance (lockHeld : Bool) : Decidable (ReachesLoop env lockHeld) :=
  inferInstanceAs (Decidable (_ ∧ _ ∧ _ ∧ _))

theorem after_failReconciliation (run : ReconciliationRun) (err : Exn) :
    after (failReconciliation env run err) db = db := by
  unfold failReconciliation
  rw [after_bind, exec_prismaCall]
  cases env.fails .reconciliationFailureWrite <;> rfl

theorem after_runReconciliation_of_not_reaches {lockHeld : Bool}
    (h : ¬ ReachesLoop env lockHeld) :
    after (runReconciliation env read lockHeld) db = db := by
  unfold runReconciliation
  cases lockHeld with
  | true => rfl
  | false =>
      simp only [Bool.false_eq_true, ↓reduceIte]
      rw [after_bind, exec_prismaCall]
      cases hcreate : env.fails .reconciliationCreate with
      | true => rfl
      | false =>
          simp only [Bool.false_eq_true, ↓reduceIte]
          cases hactive : env.fails .activeRead with
          | true =>
              simp only [↓reduceIte]
              rw [after_bind_readOnly _ (fun _ _ => rfl), after_failReconciliation]
          | false =>
              have hadmin : env.fails .adminRead = true := by
                by_contra hadmin
                exact h ⟨rfl, hcreate, hactive, by simpa using hadmin⟩
              simp only [Bool.false_eq_true, ↓reduceIte, hadmin]
              rw [after_bind, exec_get]
              simp only
              rw [after_bind_readOnly _ (fun _ _ => rfl), after_failReconciliation]

theorem find?_after_runReconciliation {lockHeld : Bool} (h : ReachesLoop env lockHeld)
    (id : String) :
    (after (runReconciliation env read lockHeld) db).shipments.find? id =
      (db.shipments.find? id).map fun s =>
        if s.status = .active then read.corrected env s else s := by
  obtain ⟨rfl, hcreate, hactive, hadmin⟩ := h
  have hsublist : ((db.shipments.rows.filter fun s => s.status = .active).map Shipment.id).Nodup :=
    db.shipments.nodup.sublist (List.filter_sublist.map _)
  obtain ⟨run', db', hloop, hfind⟩ := exec_reconcileShipments env db read _ hsublist
    (by simp) ⟨(db.shipments.rows.filter fun s => s.status = .active).length, 0, []⟩
  have hafter : after (runReconciliation env read false) db = db' := by
    unfold runReconciliation
    simp only [Bool.false_eq_true, ↓reduceIte]
    rw [after_bind, exec_prismaCall, hcreate]
    simp only [Bool.false_eq_true, ↓reduceIte, hactive, hadmin]
    rw [after_bind, exec_get]
    simp only
    rw [after_bind, hloop]
    simp only
    split
    · rw [after_bind_readOnly _ (fun _ _ => rfl), after_failReconciliation]
    · rfl
  rw [hafter, hfind]
  cases hrow : db.shipments.find? id with
  | none => simp
  | some row =>
      have hkey : row.id = id := Table.key_of_find? hrow
      have hlisted : id ∈ (db.shipments.rows.filter fun s => s.status = .active).map Shipment.id ↔
          row.status = .active := by
        constructor
        · intro hmem
          obtain ⟨s, hs, hid⟩ := List.mem_map.mp hmem
          obtain ⟨hs, hstatus⟩ := List.mem_filter.mp hs
          have hsame := Table.find?_of_mem hs
          rw [hid, hrow] at hsame
          cases hsame
          simpa using hstatus
        · intro hstatus
          exact List.mem_map.mpr ⟨row, List.mem_filter.mpr
            ⟨Table.mem_of_find? hrow, by simpa using hstatus⟩, hkey⟩
      simp only [hlisted, Option.map_some]
      split <;> rfl

end Reconcile

end ChainSettle
