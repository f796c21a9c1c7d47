import ChainSettle.Mirror.Reconciliation

/-!
Preparing a transaction against submitting it. `TransactionBuilderService`
promises that its role and state checks mirror the submit endpoints. For a
cancellation they do. For a confirmation the two sides were written apart: each
has its own list of checks, `PreparesConfirm` and `ConfirmsFromApi`, and the
lists differ on approvals, on soft-deleted milestones and on completed
shipments.
-/

namespace ChainSettle

open Lib Lib.Eff

/-- No call of the execution is rejected. -/
def Env.Available (env : Env) : Prop :=
  ∀ call, env.fails call = false

theorem Env.calm_available (now : Nat) : (Env.calm now).Available :=
  fun _ => rfl

/-- The network answers: whatever is asked for is built. -/
def Builds (build : ContractCall → Tx PreparedTransaction) : Prop :=
  ∀ call db, Succeeds (build call) db

variable {env : Env} {build : ContractCall → Tx PreparedTransaction} (db : Db)
  (shipmentId : String) (index : Int) (caller : String)

section Loads

theorem exec_loadActiveShipment (henv : env.Available) :
    exec (loadActiveShipment env shipmentId) db =
      match db.shipments.find? shipmentId with
      | none => (.error (.notFound s!"Shipment {shipmentId} not found"), db)
      | some shipment =>
          if shipment.status = .active then (.ok shipment, db)
          else (.error (.conflict
            s!"Shipment is not ACTIVE (current status: {shipment.status.name})"), db) := by
  unfold loadActiveShipment
  rw [exec_bind, exec_shipmentFindUnique, henv]
  cases db.shipments.find? shipmentId with
  | none => rfl
  | some shipment =>
      by_cases hactive : shipment.status = .active
      · simp [hactive]
      · simp only [hactive, Bool.false_eq_true, ↓reduceIte, ne_eq, not_false_eq_true]
        rfl

theorem exec_loadMilestone (henv : env.Available) :
    exec (loadMilestone env shipmentId index) db =
      match db.milestones.find? (shipmentId, index) with
      | none => (.error (.notFound s!"Milestone {index} not found"), db)
      | some m => (.ok m, db) := by
  unfold loadMilestone
  rw [exec_bind, exec_milestoneFindUnique, henv]
  simp only [Bool.false_eq_true, ↓reduceIte, reduceCtorEq, Db.rowAt,
    Option.bind_some]
  cases db.milestones.find? (shipmentId, index) <;> rfl

end Loads

section Confirm

/-- Everything `prepareConfirmMilestone` checks. -/
def PreparesConfirm : Prop :=
  ∃ shipment m, db.shipments.find? shipmentId = some shipment ∧ shipment.status = .active ∧
    shipment.buyerAddress = caller ∧ db.milestones.find? (shipmentId, index) = some m ∧
    m.status = .proofSubmitted

/-- What is left of `ConfirmsFromApi` when every call is answered and the amount
is one the column can hold. -/
def SubmitsConfirm : Prop :=
  ∃ shipment m, db.shipments.find? shipmentId = some shipment ∧ shipment.status ≠ .cancelled ∧
    shipment.buyerAddress = caller ∧ QuorumMet db shipmentId ∧
    db.milestones.find? (shipmentId, index) = some m ∧ m.deletedAt = none ∧
    m.status = .proofSubmitted

theorem succeeds_prepareConfirmMilestone_iff (henv : env.Available) (hbuild : Builds build) :
    Succeeds (prepareConfirmMilestone build env shipmentId index caller) db ↔
      PreparesConfirm db shipmentId index caller := by
  unfold prepareConfirmMilestone PreparesConfirm
  have hload := exec_loadActiveShipment db shipmentId henv
  cases hship : db.shipments.find? shipmentId with
  | none =>
      rw [hship] at hload
      exact iff_of_false (not_succeeds_bind_of_error hload) (by simp)
  | some shipment =>
      simp only [hship] at hload
      by_cases hactive : shipment.status = .active
      · rw [if_pos hactive] at hload
        rw [succeeds_bind_of_ok hload, succeeds_guard_iff]
        have hrow := exec_loadMilestone db shipmentId index henv
        cases hm : db.milestones.find? (shipmentId, index) with
        | none =>
            rw [hm] at hrow
            exact iff_of_false (fun h => not_succeeds_bind_of_error hrow h.2) (by simp)
        | some m =>
            rw [hm] at hrow
            rw [succeeds_bind_of_ok hrow, succeeds_guard_iff, iff_true_intro (hbuild _ db)]
            simp [hactive]
      · rw [if_neg hactive] at hload
        exact iff_of_false (not_succeeds_bind_of_error hload) (by simp [hactive])

theorem exec_assertQuorum_of_not_met (h : ¬ QuorumMet db shipmentId) :
    ∃ err, exec (assertQuorum env shipmentId) db = (.error err, db) := by
  cases hrun : exec (assertQuorum env shipmentId) db with
  | mk outcome next =>
      have hnext : next = db := by
        have hafter := after_assertQuorum env db shipmentId
        rwa [after, hrun] at hafter
      subst hnext
      cases outcome with
      | error err => exact ⟨err, rfl⟩
      | ok value => exact absurd (quorum_of_assertQuorum env next shipmentId hrun).2 h

variable {payment : String} {amount : Int}

/-- `syncStatusFromChain` swallows its failures, so the guarded update decides. -/
theorem succeeds_confirmWrite_iff (amount : Int) :
    Succeeds (do
      let updated ← markConfirmed env shipmentId (some index) amount
      syncStatusFromChain env shipmentId
      return updated) db ↔
      Marked env db shipmentId (some index) (.confirmed amount env.now) := by
  unfold markConfirmed
  by_cases h : Marked env db shipmentId (some index) (.confirmed amount env.now)
  · obtain ⟨m, _, hrun⟩ := mark_marked env db shipmentId (some index) _
      "Cannot confirm a milestone for a cancelled shipment" h
    rw [succeeds_bind_of_ok hrun, succeeds_bind_of_ok (exec_sync env _ shipmentId)]
    exact iff_of_true (succeeds_pure _ _) h
  · obtain ⟨err, hrun⟩ := mark_not_marked env db shipmentId (some index) _
      "Cannot confirm a milestone for a cancelled shipment" h
    exact iff_of_false (not_succeeds_bind_of_error hrun) h

/-- Of the guarded update's own conditions only the shipment's status is left. -/
theorem marked_confirmed_iff (henv : env.Available) (hfits : fitsBigInt amount)
    {shipment : Shipment} (hship : db.shipments.find? shipmentId = some shipment) {m : Milestone}
    (hm : db.milestones.find? (shipmentId, index) = some m) :
    Marked env db shipmentId (some index) (.confirmed amount env.now) ↔
      shipment.status ≠ .cancelled := by
  have hstorable : (MilestoneWrite.confirmed amount env.now).Storable := hfits
  simp [Marked, Written, henv _, Db.cancelled, hship, hstorable, Db.rowAt, hm]

theorem succeeds_confirmFromApi_iff (henv : env.Available)
    (hamount : bigIntOfString payment = some amount) (hfits : fitsBigInt amount) :
    Succeeds (confirmFromApi env shipmentId index caller payment) db ↔
      SubmitsConfirm db shipmentId index caller := by
  unfold confirmFromApi SubmitsConfirm
  have hread := exec_shipmentFindUnique env db shipmentId .shipmentRead
  rw [henv] at hread
  rw [succeeds_bind_of_ok hread]
  cases hship : db.shipments.find? shipmentId with
  | none => exact iff_of_false (not_succeeds_throw _ _) (by simp)
  | some shipment =>
      simp only [succeeds_guard_iff, Option.some.injEq, exists_and_left, exists_eq_left', ne_eq,
        not_not]
      by_cases hquorum : QuorumMet db shipmentId
      · rw [succeeds_bind_of_ok (exec_assertQuorum_of_met env db shipmentId (henv _) hquorum)]
        have hrow := exec_findOne env db shipmentId index
        rw [henv, Db.liveMilestone] at hrow
        cases hm : db.milestones.find? (shipmentId, index) with
        | none =>
            rw [hm] at hrow
            exact iff_of_false (fun h => not_succeeds_bind_of_error hrow h.2) (by simp)
        | some m =>
            rw [hm] at hrow
            by_cases hlive : m.deletedAt = none
            · simp only [Option.filter, hlive, Option.isNone_none, ↓reduceIte,
                Bool.false_eq_true] at hrow
              rw [succeeds_bind_of_ok hrow, succeeds_guard_iff]
              simp only [hamount]
              rw [succeeds_confirmWrite_iff,
                marked_confirmed_iff db shipmentId index henv hfits hship hm]
              constructor
              · rintro ⟨hbuyer, hstatus, hopen⟩
                exact ⟨hopen, hbuyer, hquorum, m, rfl, hlive, not_not.mp hstatus⟩
              · rintro ⟨hopen, hbuyer, _, row, hrow, _, hstatus⟩
                cases hrow
                exact ⟨hbuyer, not_not.mpr hstatus, hopen⟩
            · have hhidden : Option.filter (fun m => m.deletedAt.isNone) (some m) = none := by
                simpa [Option.filter, Option.isSome_iff_ne_none] using hlive
              rw [hhidden] at hrow
              exact iff_of_false (fun h => not_succeeds_bind_of_error hrow h.2) (by simp [hlive])
      · obtain ⟨err, herr⟩ : ∃ err, exec (assertQuorum env shipmentId) db = (.error err, db) :=
          exec_assertQuorum_of_not_met db shipmentId hquorum
        exact iff_of_false (fun h => not_succeeds_bind_of_error herr h.2) (by simp [hquorum])

/-- Where a buyer's milestone with a submitted proof is concerned: on an active
shipment the approvals are there and the row is live, on a completed one the
approvals are missing or the row is soft-deleted. -/
def ConfirmChecksAgree : Prop :=
  ∀ shipment m, db.shipments.find? shipmentId = some shipment → shipment.buyerAddress = caller →
    db.milestones.find? (shipmentId, index) = some m → m.status = .proofSubmitted →
    (shipment.status = .active → QuorumMet db shipmentId ∧ m.deletedAt = none) ∧
      (shipment.status = .completed → ¬ (QuorumMet db shipmentId ∧ m.deletedAt = none))

theorem prepares_iff_submits :
    (PreparesConfirm db shipmentId index caller ↔ SubmitsConfirm db shipmentId index caller) ↔
      ConfirmChecksAgree db shipmentId index caller := by
  constructor
  · intro hmirror shipment m hship hbuyer hm hstatus
    refine ⟨fun hactive => ?_, fun hcompleted hchecks => ?_⟩
    · obtain ⟨_, row, _, _, _, hquorum, hrow, hlive, _⟩ :=
        hmirror.mp ⟨shipment, m, hship, hactive, hbuyer, hm, hstatus⟩
      cases hm.symm.trans hrow
      exact ⟨hquorum, hlive⟩
    · have hopen : shipment.status ≠ .cancelled := by
        rw [hcompleted]
        nofun
      obtain ⟨other, _, hother, hactive, _⟩ :=
        hmirror.mpr ⟨shipment, m, hship, hopen, hbuyer, hchecks.1, hm, hchecks.2, hstatus⟩
      cases hship.symm.trans hother
      cases hcompleted.symm.trans hactive
  · intro hagree
    constructor
    · rintro ⟨shipment, m, hship, hactive, hbuyer, hm, hstatus⟩
      obtain ⟨hquorum, hlive⟩ := (hagree shipment m hship hbuyer hm hstatus).1 hactive
      have hopen : shipment.status ≠ .cancelled := by
        rw [hactive]
        nofun
      exact ⟨shipment, m, hship, hopen, hbuyer, hquorum, hm, hlive, hstatus⟩
    · rintro ⟨shipment, m, hship, hopen, hbuyer, hquorum, hm, hlive, hstatus⟩
      have hnotcompleted : shipment.status ≠ .completed := fun hcompleted =>
        (hagree shipment m hship hbuyer hm hstatus).2 hcompleted ⟨hquorum, hlive⟩
      have hactive : shipment.status = .active := by
        cases hcase : shipment.status with
        | active => rfl
        | completed => exact absurd hcase hnotcompleted
        | cancelled => exact absurd hcase hopen
      exact ⟨shipment, m, hship, hactive, hbuyer, hm, hstatus⟩

/-- With the database and the network answering and an amount that can be
stored, a confirmation is offered for signing exactly when it would be accepted
afterwards, as long as `ConfirmChecksAgree`, and only then. -/
theorem prepareConfirm_mirrors_iff (henv : env.Available) (hbuild : Builds build)
    (hamount : bigIntOfString payment = some amount) (hfits : fitsBigInt amount) :
    (Succeeds (prepareConfirmMilestone build env shipmentId index caller) db ↔
        Succeeds (confirmFromApi env shipmentId index caller payment) db) ↔
      ConfirmChecksAgree db shipmentId index caller := by
  rw [succeeds_prepareConfirmMilestone_iff db shipmentId index caller henv hbuild,
    succeeds_confirmFromApi_iff db shipmentId index caller henv hamount hfits]
  exact prepares_iff_submits db shipmentId index caller

/-- A node that answers everything. -/
def demoBuild (call : ContractCall) : Tx PreparedTransaction :=
  pure ⟨call.method, "Test SDF Network ; September 2015", "100", 60⟩

theorem demoBuild_builds : Builds demoBuild :=
  fun _ _ => succeeds_pure _ _

/-- On the plain single-approver shipment the two sides agree. -/
theorem prepareConfirm_mirrors_demo :
    (Succeeds (prepareConfirmMilestone demoBuild (Env.calm 0) "SHIP-1" 0 "GBUYER")
        (Db.demo .proofSubmitted) ↔
      Succeeds (confirmFromApi (Env.calm 0) "SHIP-1" 0 "GBUYER" "500")
        (Db.demo .proofSubmitted)) ↔
      ConfirmChecksAgree (Db.demo .proofSubmitted) "SHIP-1" 0 "GBUYER" :=
  prepareConfirm_mirrors_iff (Db.demo .proofSubmitted) "SHIP-1" 0 "GBUYER" (Env.calm_available 0)
    demoBuild_builds (show bigIntOfString "500" = some 500 by decide) (by decide)

/-- A submitted proof on a shipment that still needs one approval. -/
def Db.unapproved : Db :=
  { Db.demo .proofSubmitted with
    shipments := (Db.demo .proofSubmitted).shipments.modify "SHIP-1"
      (fun s => { s with requiredApprovals := some 1 }) (fun _ => rfl) }

/-- The buyer is handed a confirmation to sign that the backend refuses. -/
theorem unapproved_confirmation_is_prepared :
    Succeeds (prepareConfirmMilestone demoBuild (Env.calm 0) "SHIP-1" 0 "GBUYER") Db.unapproved ∧
      ¬ Succeeds (confirmFromApi (Env.calm 0) "SHIP-1" 0 "GBUYER" "500") Db.unapproved := by
  decide

end Confirm

section Cancel

/-- The checks come in another order, but they are the same ones. -/
theorem prepareCancel_mirrors (henv : env.Available) (hbuild : Builds build) (txHash : String) :
    Succeeds (prepareCancelShipment build env shipmentId caller) db ↔
      Succeeds (cancel env shipmentId caller txHash) db := by
  unfold prepareCancelShipment cancel
  have hload := exec_loadActiveShipment db shipmentId henv
  have hread := exec_shipmentFindUnique env db shipmentId .shipmentRead
  rw [henv] at hread
  rw [succeeds_bind_of_ok hread]
  cases hship : db.shipments.find? shipmentId with
  | none =>
      rw [hship] at hload
      exact iff_of_false (not_succeeds_bind_of_error hload) (not_succeeds_throw _ _)
  | some shipment =>
      have hwrite : exec (prismaCall env .shipmentWrite) db = (.ok (), db) := by
        rw [exec_prismaCall, henv]
        rfl
      simp only [hship] at hload
      by_cases hactive : shipment.status = .active
      · rw [if_pos hactive] at hload
        rw [succeeds_bind_of_ok hload]
        simp only [succeeds_guard_iff, hactive, succeeds_bind_of_ok hwrite, hbuild _ db]
        exact ⟨fun h => ⟨h.1, by simp, (), rfl⟩, fun h => ⟨h.1, trivial⟩⟩
      · rw [if_neg hactive] at hload
        refine iff_of_false (not_succeeds_bind_of_error hload) ?_
        simp only [succeeds_guard_iff]
        exact fun h => h.2.1 hactive

end Cancel

end ChainSettle
