import ChainSettle.Lib.Run
import ChainSettle.Lifecycle.Api

/-!
Are `CONFIRMED` and `RESOLVED` terminal? The lifecycle document says so and the
confirming and rejecting API operations check the status before they write.
`submitProof` and the helpers behind the event handlers do not, except for the
replay check of `handleMilestoneConfirmed`.

The run theorem says exactly which steps break the law. The step lemma is one
equivalence per operation; runs follow because keeping every settled row is
reflexive and transitive.
-/

namespace ChainSettle

open Lib Lib.Eff

/-- The operations that write a milestone, each with the inputs of one execution. -/
inductive Operation where
  | submitProof (env : Env) (shipmentId : String) (milestoneIndex : Int)
      (callerAddress : String) (file : ProofFile)
  | confirmFromApi (env : Env) (shipmentId : String) (milestoneIndex : Int)
      (callerAddress paymentReleased : String)
  | bulkConfirmFromApi (env : Env) (shipmentId callerAddress : String)
      (items : List BulkConfirmItem)
  | rejectProof (env : Env) (shipmentId : String) (milestoneIndex : Int) (buyerAddress : String)
  | bulkRejectFromApi (env : Env) (shipmentId buyerAddress : String) (indices : List Int)
  | handle (env : Env) (handler : Handler) (payload : Json) (txHash : Option String)

/-- One execution to its end, whether it returns or throws. -/
def Operation.step (db : Db) : Operation → Db
  | .submitProof env shipmentId milestoneIndex callerAddress file =>
      after (ChainSettle.submitProof env shipmentId milestoneIndex callerAddress file) db
  | .confirmFromApi env shipmentId milestoneIndex callerAddress paymentReleased =>
      after (ChainSettle.confirmFromApi env shipmentId milestoneIndex callerAddress
        paymentReleased) db
  | .bulkConfirmFromApi env shipmentId callerAddress items =>
      after (ChainSettle.bulkConfirmFromApi env shipmentId callerAddress items) db
  | .rejectProof env shipmentId milestoneIndex buyerAddress =>
      after (ChainSettle.rejectProof env shipmentId milestoneIndex buyerAddress) db
  | .bulkRejectFromApi env shipmentId buyerAddress indices =>
      after (ChainSettle.bulkRejectFromApi env shipmentId buyerAddress indices) db
  | .handle env handler payload txHash => after (runHandler env (some handler) payload txHash) db

/-- The columns that settle a milestone. -/
def Milestone.SameSettlement (m m' : Milestone) : Prop :=
  m'.status = m.status ∧ m'.paymentReleased = m.paymentReleased ∧ m'.confirmedAt = m.confirmedAt

/-- Every row that is settled before is settled the same way afterwards. -/
def KeepsSettled (db db' : Db) : Prop :=
  ∀ key m, db.milestones.find? key = some m → m.status.Terminal →
    ∃ m', db'.milestones.find? key = some m' ∧ m.SameSettlement m'

/-- At no point of the run does a settled row change any more. -/
def SettledForever (db : Db) (ops : List Operation) : Prop :=
  ∀ pre mid post, ops = pre ++ mid ++ post →
    KeepsSettled (pre.foldl Operation.step db) ((pre ++ mid).foldl Operation.step db)

/-- The addressed row exists and is settled. -/
def Db.SettledAt (db : Db) (shipmentId : String) (index : Option Int) : Prop :=
  ∃ m, db.rowAt shipmentId index = some m ∧ m.status.Terminal

/-- The steps that re-open or re-settle a settled milestone: an upload or a
`proof_submitted` or `dispute_raised` event that gets through, a confirmation
of a `RESOLVED` row, and a resolution that finds a `CONFIRMED` row or sends a
`RESOLVED` one back to `PENDING`. -/
def Operation.Reopens (db : Db) : Operation → Prop
  | .submitProof env shipmentId milestoneIndex callerAddress _ =>
      (∃ cid, Submits env db shipmentId milestoneIndex callerAddress cid) ∧
        db.SettledAt shipmentId (some milestoneIndex)
  | .handle env .proofSubmitted payload _ =>
      MarkedPayload env db (.proofSubmitted "") payload ∧
        db.SettledAt (payloadShipment payload) (payloadIndex payload)
  | .handle env .disputeRaised payload _ =>
      MarkedPayload env db (.disputed env.now) payload ∧
        db.SettledAt (payloadShipment payload) (payloadIndex payload)
  | .handle env .milestoneConfirmed payload _ =>
      (∃ amount, Confirms env db payload amount) ∧
        db.SettledAt (payloadShipment payload) (payloadIndex payload)
  | .handle env .disputeResolved payload _ =>
      Resolves env db payload ∧ ∃ m, db.payloadRow payload = some m ∧
        (m.status = .confirmed ∨ m.status = .resolved ∧ payloadApproved payload = false)
  | _ => False

section Keeping

theorem Milestone.SameSettlement.refl (m : Milestone) : m.SameSettlement m :=
  ⟨rfl, rfl, rfl⟩

theorem KeepsSettled.refl (db : Db) : KeepsSettled db db :=
  fun _ m hm _ => ⟨m, hm, .refl m⟩

theorem KeepsSettled.trans (first second third : Db) (h : KeepsSettled first second)
    (h' : KeepsSettled second third) : KeepsSettled first third := by
  intro key m hm hterminal
  obtain ⟨m', hm', hstatus, hpaid, hconfirmed⟩ := h key m hm hterminal
  have hterminal' : m'.status.Terminal := by
    rw [hstatus]
    exact hterminal
  obtain ⟨m'', hm'', hstatus', hpaid', hconfirmed'⟩ := h' key m' hm' hterminal'
  exact ⟨m'', hm'', hstatus'.trans hstatus, hpaid'.trans hpaid, hconfirmed'.trans hconfirmed⟩

theorem keepsSettled_congr {db db' other : Db} (h : db'.milestones = other.milestones) :
    KeepsSettled db db' ↔ KeepsSettled db other := by
  unfold KeepsSettled
  rw [h]

/-- An operation that only touches submitted rows touches no settled one. -/
theorem OnlySubmittedChange.keepsSettled {db db' : Db} (h : OnlySubmittedChange db db') :
    KeepsSettled db db' := by
  intro key m hm hterminal
  have hother : m.status ≠ .proofSubmitted := by
    rcases hterminal with hstatus | hstatus <;> rw [hstatus] <;> nofun
  exact ⟨m, h key m hm hother, .refl m⟩

/-- A single update keeps the settled rows when it keeps the one it addresses. -/
theorem keepsSettled_writeAt_iff (db : Db) (shipmentId : String) (index : Option Int)
    (write : MilestoneWrite) :
    KeepsSettled db (db.writeAt shipmentId index write) ↔
      ∀ m, db.rowAt shipmentId index = some m → m.status.Terminal →
        m.SameSettlement (write.apply m) := by
  cases index with
  | none =>
      refine ⟨fun _ m hm => ?_, fun _ => .refl db⟩
      cases hm
  | some i =>
      have hfind : ∀ key, (db.writeAt shipmentId (some i) write).milestones.find? key =
          if key = (shipmentId, i) then
            (db.milestones.find? (shipmentId, i)).map write.apply
          else db.milestones.find? key :=
        Table.find?_modify _ _ _ write.apply_key
      constructor
      · intro h m hm hterminal
        obtain ⟨m', hm', hsame⟩ := h (shipmentId, i) m hm hterminal
        have hrow : db.milestones.find? (shipmentId, i) = some m := hm
        rw [hfind, if_pos rfl, hrow] at hm'
        cases hm'
        exact hsame
      · intro h key m hm hterminal
        rw [hfind]
        split
        · rename_i hkey
          subst hkey
          exact ⟨write.apply m, by rw [hm]; rfl, h m hm hterminal⟩
        · exact ⟨m, hm, .refl m⟩

/-- An update that always moves the status breaks every settled row it hits. -/
theorem keepsSettled_writeAt_iff_of_moves (db : Db) (shipmentId : String) (index : Option Int)
    (write : MilestoneWrite)
    (hmoves : ∀ m, db.rowAt shipmentId index = some m → m.status.Terminal →
      (write.apply m).status ≠ m.status) :
    KeepsSettled db (db.writeAt shipmentId index write) ↔ ¬ db.SettledAt shipmentId index := by
  rw [keepsSettled_writeAt_iff]
  constructor
  · rintro h ⟨m, hm, hterminal⟩
    exact hmoves m hm hterminal (h m hm hterminal).1
  · intro h m hm hterminal
    exact absurd ⟨m, hm, hterminal⟩ h

end Keeping

section Steps

variable (db : Db) (env : Env) (payload : Json)

theorem submitProof_keeps_iff (shipmentId : String) (milestoneIndex : Int)
    (callerAddress : String) (file : ProofFile) :
    KeepsSettled db (after (submitProof env shipmentId milestoneIndex callerAddress file) db) ↔
      ¬ ((∃ cid, Submits env db shipmentId milestoneIndex callerAddress cid) ∧
        db.SettledAt shipmentId (some milestoneIndex)) := by
  by_cases hsubmits : ∃ cid, Submits env db shipmentId milestoneIndex callerAddress cid
  · obtain ⟨cid, hcid⟩ := hsubmits
    rw [keepsSettled_congr
      (milestones_after_submitProof env db shipmentId milestoneIndex callerAddress file cid hcid)]
    have hmoves := keepsSettled_writeAt_iff_of_moves db shipmentId (some milestoneIndex)
      (.proofSubmitted cid) (by
        rintro m _ (hstatus | hstatus) <;> rw [hstatus] <;> nofun)
    refine hmoves.trans ⟨fun h hboth => h hboth.2, fun h hsettled => h ⟨⟨cid, hcid⟩, hsettled⟩⟩
  · rw [after_submitProof_of_not_submits env db shipmentId milestoneIndex callerAddress file
      (fun cid hcid => hsubmits ⟨cid, hcid⟩)]
    exact ⟨fun _ hboth => hsubmits hboth.1, fun _ => .refl db⟩

/-- The two handlers whose guarded write always moves the status. -/
theorem guarded_keeps_iff {handled : Db} {write : MilestoneWrite}
    (hafter : handled = if MarkedPayload env db write payload then
      db.writePayload payload write else db)
    (hmoves : ∀ m : Milestone, m.status.Terminal → (write.apply m).status ≠ m.status) :
    KeepsSettled db handled ↔
      ¬ (MarkedPayload env db write payload ∧
        db.SettledAt (payloadShipment payload) (payloadIndex payload)) := by
  rw [hafter]
  split
  · rename_i hmarked
    have hiff := keepsSettled_writeAt_iff_of_moves db (payloadShipment payload)
      (payloadIndex payload) write fun m _ => hmoves m
    exact hiff.trans ⟨fun h hboth => h hboth.2, fun h hsettled => h ⟨hmarked, hsettled⟩⟩
  · rename_i hmarked
    exact ⟨fun _ hboth => hmarked hboth.1, fun _ => .refl db⟩

theorem handleMilestoneConfirmed_keeps_iff :
    KeepsSettled db (after (handleMilestoneConfirmed env payload) db) ↔
      ¬ ((∃ amount, Confirms env db payload amount) ∧
        db.SettledAt (payloadShipment payload) (payloadIndex payload)) := by
  by_cases hconfirms : ∃ amount, Confirms env db payload amount
  · obtain ⟨amount, hamount⟩ := hconfirms
    have hwrite : (after (handleMilestoneConfirmed env payload) db).milestones =
        (db.writePayload payload (.confirmed amount env.now)).milestones := by
      rw [after_handleMilestoneConfirmed_of_confirms env db payload hamount,
        milestones_after_sync]
    rw [keepsSettled_congr hwrite]
    have hiff := keepsSettled_writeAt_iff_of_moves db (payloadShipment payload)
      (payloadIndex payload) (.confirmed amount env.now) (by
        intro m hm _ hsame
        -- the handler has already returned on a confirmed row
        apply hamount.2.1
        have hstatus : m.status = .confirmed := hsame.symm
        rw [Db.payloadRow, hm, Option.map_some, hstatus])
    exact hiff.trans
      ⟨fun h hboth => h hboth.2, fun h hsettled => h ⟨⟨amount, hamount⟩, hsettled⟩⟩
  · rw [after_handleMilestoneConfirmed_of_not_confirms env db payload
      fun amount hamount => hconfirms ⟨amount, hamount⟩]
    exact ⟨fun _ hboth => hconfirms hboth.1, fun _ => .refl db⟩

theorem handleDisputeResolved_keeps_iff :
    KeepsSettled db (after (handleDisputeResolved env payload) db) ↔
      ¬ (Resolves env db payload ∧ ∃ m, db.payloadRow payload = some m ∧
        (m.status = .confirmed ∨ m.status = .resolved ∧ payloadApproved payload = false)) := by
  rw [after_handleDisputeResolved]
  split
  · rename_i hresolves
    unfold Db.writePayload
    rw [keepsSettled_writeAt_iff]
    constructor
    · rintro h ⟨_, m, hm, hbroken⟩
      rcases hbroken with hstatus | ⟨hstatus, hrejected⟩
      · have hsame := (h m hm (.inl hstatus)).1
        rw [hstatus] at hsame
        cases happroved : payloadApproved payload <;> simp [apply_resolved, happroved] at hsame
      · have hsame := (h m hm (.inr hstatus)).1
        rw [hstatus] at hsame
        simp [apply_resolved, hrejected] at hsame
    · intro h m hm hterminal
      have hintact : ¬ (m.status = .confirmed ∨
          m.status = .resolved ∧ payloadApproved payload = false) :=
        fun hbroken => h ⟨hresolves, m, hm, hbroken⟩
      have hresolved : m.status = .resolved := by
        rcases hterminal with hstatus | hstatus
        · exact absurd (.inl hstatus) hintact
        · exact hstatus
      have happroved : payloadApproved payload = true := by
        cases happroved : payloadApproved payload
        · exact absurd (.inr ⟨hresolved, happroved⟩) hintact
        · rfl
      simp [Milestone.SameSettlement, apply_resolved, happroved, hresolved]
  · rename_i hresolves
    exact ⟨fun _ hboth => hresolves hboth.1, fun _ => .refl db⟩

/-- One step keeps the settled rows exactly when it is not one that re-opens. -/
theorem step_keeps_iff (op : Operation) : KeepsSettled db (op.step db) ↔ ¬ op.Reopens db := by
  cases op with
  | submitProof env shipmentId milestoneIndex callerAddress file =>
      exact submitProof_keeps_iff db env shipmentId milestoneIndex callerAddress file
  | confirmFromApi env shipmentId milestoneIndex callerAddress paymentReleased =>
      exact iff_of_true (confirmFromApi_onlySubmitted env db shipmentId milestoneIndex callerAddress
        paymentReleased).keepsSettled not_false
  | bulkConfirmFromApi env shipmentId callerAddress items =>
      exact iff_of_true (bulkConfirmFromApi_onlySubmitted env db shipmentId callerAddress
        items).keepsSettled not_false
  | rejectProof env shipmentId milestoneIndex buyerAddress =>
      exact iff_of_true (rejectProof_onlySubmitted env db shipmentId milestoneIndex
        buyerAddress).keepsSettled not_false
  | bulkRejectFromApi env shipmentId buyerAddress indices =>
      exact iff_of_true (bulkRejectFromApi_onlySubmitted env db shipmentId buyerAddress
        indices).keepsSettled not_false
  | handle env handler payload txHash =>
      cases handler with
      | shipmentCreated => exact iff_of_true (.refl db) not_false
      | proofSubmitted =>
          exact guarded_keeps_iff db env payload (after_handleProofSubmitted env db payload)
            (by rintro m (hstatus | hstatus) <;> rw [hstatus] <;> nofun)
      | milestoneConfirmed => exact handleMilestoneConfirmed_keeps_iff db env payload
      | disputeRaised =>
          exact guarded_keeps_iff db env payload (after_handleDisputeRaised env db payload)
            (by rintro m (hstatus | hstatus) <;> rw [hstatus] <;> nofun)
      | disputeResolved => exact handleDisputeResolved_keeps_iff db env payload
      | shipmentCancelled =>
          refine iff_of_true ?_ not_false
          have hsame : (after (handleShipmentCancelled env payload txHash) db).milestones =
              db.milestones := by
            rw [after_handleShipmentCancelled]
            split <;> rfl
          exact (keepsSettled_congr hsame).mpr (.refl db)

end Steps

/-- The settled rows of a run stay as they are, from any point of it to any
later point, exactly when none of its steps re-opens one. -/
theorem settled_forever_iff_never_reopens (db : Db) (ops : List Operation) :
    SettledForever db ops ↔ Along Operation.step (fun db op => ¬ op.Reopens db) db ops := by
  unfold SettledForever
  rw [along_iff_between KeepsSettled.refl KeepsSettled.trans]
  simp only [step_keeps_iff]

/-- Proof, confirmation, and a second proof for the paid milestone. -/
def reuploadRun : List Operation :=
  [.submitProof (.calm 1) "SHIP-1" 0 "GSUPPLIER" ⟨"aa", 10⟩,
    .confirmFromApi (.calm 2) "SHIP-1" 0 "GBUYER" "500",
    .submitProof (.calm 3) "SHIP-1" 0 "GSUPPLIER" ⟨"bb", 20⟩]

private def statusAfter (ops : List Operation) : Option MilestoneStatus :=
  ((ops.foldl Operation.step (Db.demo .pending)).milestones.find? ("SHIP-1", 0)).map
    Milestone.status

theorem reupload_reopens_confirmed : ¬ SettledForever (Db.demo .pending) reuploadRun := by
  intro h
  have hkeeps := h (reuploadRun.take 2) (reuploadRun.drop 2) [] rfl
  have hconfirmed : statusAfter (reuploadRun.take 2) = some .confirmed := by decide
  have hreopened : statusAfter reuploadRun = some .proofSubmitted := by decide
  obtain ⟨m, hm, hstatus⟩ := Option.map_eq_some_iff.mp hconfirmed
  obtain ⟨m', hm', hsame⟩ := hkeeps ("SHIP-1", 0) m hm (.inl hstatus)
  obtain ⟨m'', hm'', hstatus''⟩ := Option.map_eq_some_iff.mp hreopened
  have heq : m' = m'' := Option.some.inj (hm'.symm.trans hm'')
  have hback : MilestoneStatus.proofSubmitted = .confirmed := by
    rw [← hstatus'', ← heq, hsame.1, hstatus]
  cases hback

end ChainSettle
