import ChainSettle.Lifecycle.Handlers

/-!
What the API operations do to the milestone table. Each operation has a
structure that lists everything it checks before its write (`Submits`,
`ConfirmsFromApi`, `RejectsProof`, `BulkConfirms`, `BulkRejects`), one lemma for
the table it leaves when all of it holds, and one that says it leaves everything
alone otherwise.

The two confirming and the two rejecting operations have one property in
common: a row that is not in `PROOF_SUBMITTED` is left alone.
-/

namespace ChainSettle

open Lib Lib.Eff

variable (env : Env) (db : Db) (shipmentId : String) (milestoneIndex : Int)

section Reads

/-- An operation that reads the shipment first, and changes nothing where there is one. -/
theorem after_found {α : Type} {call : DbCall} {err : Exn} {rest : Shipment → Tx α}
    (h : ∀ shipment, env.fails call = false → db.shipments.find? shipmentId = some shipment →
      after (rest shipment) db = db) :
    after (shipmentFindUnique env call shipmentId >>= fun found =>
      match found with
      | none => throw err
      | some shipment => rest shipment) db = db := by
  rw [after_bind, exec_shipmentFindUnique]
  cases hcall : env.fails call with
  | true => rfl
  | false =>
      simp only [Bool.false_eq_true, ↓reduceIte]
      cases hfind : db.shipments.find? shipmentId with
      | none => rfl
      | some shipment => exact h shipment hcall hfind

theorem exec_findOne :
    exec (findOne env shipmentId milestoneIndex) db =
      if env.fails .milestoneRead then (.error (.unavailable .milestoneRead), db)
      else match db.liveMilestone shipmentId milestoneIndex with
        | none => (.error (.notFound
            s!"Milestone {milestoneIndex} not found on shipment {shipmentId}"), db)
        | some m => (.ok m, db) := by
  unfold findOne
  rw [exec_bind, exec_milestoneFindUnique]
  cases env.fails .milestoneRead with
  | true => rfl
  | false =>
      simp only [Bool.false_eq_true, ↓reduceIte, reduceCtorEq]
      change exec (match db.liveMilestone shipmentId milestoneIndex with
        | none => _
        | some m => _) db = _
      cases db.liveMilestone shipmentId milestoneIndex <;> rfl

theorem after_findOne : after (findOne env shipmentId milestoneIndex) db = db := by
  unfold after
  rw [exec_findOne]
  split
  · rfl
  · split <;> rfl

theorem found_milestone {m : Milestone}
    (h : exec (findOne env shipmentId milestoneIndex) db = (.ok m, db)) :
    env.fails .milestoneRead = false ∧ db.liveMilestone shipmentId milestoneIndex = some m := by
  rw [exec_findOne] at h
  cases hcall : env.fails .milestoneRead with
  | true => simp [hcall] at h
  | false =>
      cases hrow : db.liveMilestone shipmentId milestoneIndex <;> simp_all

theorem find?_of_liveMilestone {m : Milestone}
    (h : db.liveMilestone shipmentId milestoneIndex = some m) :
    db.milestones.find? (shipmentId, milestoneIndex) = some m := by
  unfold Db.liveMilestone at h
  exact (Option.filter_eq_some_iff.mp h).1

/-- The shipment requires no approvals, or enough have been recorded. -/
def QuorumMet (db : Db) (shipmentId : String) : Prop :=
  ∀ required, (db.shipments.find? shipmentId).bind Shipment.requiredApprovals = some required →
    required ≤ (db.approvals.filter fun a => a.shipmentId = shipmentId).length

theorem exec_assertQuorum_of_met (hread : env.fails .quorumRead = false)
    (h : QuorumMet db shipmentId) : exec (assertQuorum env shipmentId) db = (.ok (), db) := by
  unfold assertQuorum
  simp only [exec_bind, exec_prismaCall, hread, Bool.false_eq_true, ↓reduceIte, exec_get]
  unfold QuorumMet at h
  split
  · rfl
  · rename_i required hrequired
    rw [if_neg (not_lt.mpr (h required hrequired))]
    rfl

theorem after_assertQuorum : after (assertQuorum env shipmentId) db = db := by
  unfold assertQuorum
  rw [after_bind, exec_prismaCall]
  cases env.fails .quorumRead with
  | true => rfl
  | false =>
      simp only [Bool.false_eq_true, ↓reduceIte]
      rw [after_bind, exec_get]
      simp only
      split
      · rfl
      · unfold after
        rw [exec_ite]
        split <;> rfl

theorem quorum_of_assertQuorum {value : Unit}
    (h : exec (assertQuorum env shipmentId) db = (.ok value, db)) :
    env.fails .quorumRead = false ∧ QuorumMet db shipmentId := by
  unfold assertQuorum at h
  rw [exec_bind, exec_prismaCall] at h
  cases hread : env.fails .quorumRead with
  | true => simp [hread] at h
  | false =>
      refine ⟨rfl, fun required hrequired => ?_⟩
      simp only [hread, Bool.false_eq_true, ↓reduceIte, exec_bind, exec_get, hrequired] at h
      by_contra hshort
      rw [if_pos (not_le.mp hshort)] at h
      cases h

end Reads

section SubmitProof

variable (callerAddress : String) (file : ProofFile) (cid : String)

/-- Everything `submitProof` checks before it writes `cid`. The status of the
milestone is not among it. -/
structure Submits : Prop where
  shipmentRead : env.fails .shipmentRead = false
  shipment : ∃ shipment, db.shipments.find? shipmentId = some shipment ∧
    shipment.status ≠ .cancelled ∧
    (shipment.supplierAddress = callerAddress ∨ shipment.logisticsAddress = callerAddress)
  milestoneRead : env.fails .milestoneRead = false
  milestone : (db.liveMilestone shipmentId milestoneIndex).isSome
  upload : env.uploadFile = some cid
  guardRead : env.fails .guardRead = false
  milestoneWrite : env.fails .milestoneWrite = false

/-- The two calls after the update may fail, the update stays. -/
theorem after_submitProof (h : Submits env db shipmentId milestoneIndex callerAddress cid) :
    ∃ proofSubmissions,
      after (submitProof env shipmentId milestoneIndex callerAddress file) db =
        { db.writeMilestone (shipmentId, milestoneIndex) (.proofSubmitted cid) with
          proofSubmissions := proofSubmissions } := by
  obtain ⟨shipment, hfind, hlive, hcaller⟩ := h.shipment
  obtain ⟨m, hm⟩ := Option.isSome_iff_exists.mp h.milestone
  have hrow := find?_of_liveMilestone db shipmentId milestoneIndex hm
  have hmarked : Marked env db shipmentId (some milestoneIndex) (.proofSubmitted cid) :=
    ⟨h.guardRead, by simp [Db.cancelled, hfind, hlive], h.milestoneWrite, trivial,
      by simp [Db.rowAt, hrow]⟩
  obtain ⟨m', _, hrun⟩ := mark_marked env db shipmentId (some milestoneIndex) _
    "Cannot submit proof for a cancelled shipment" hmarked
  have hauthorized : ¬ (shipment.supplierAddress ≠ callerAddress ∧
      shipment.logisticsAddress ≠ callerAddress) := by
    rintro ⟨hsupplier, hlogistics⟩
    exact hcaller.elim hsupplier hlogistics
  unfold submitProof markProofSubmitted after
  simp only [exec_bind, exec_shipmentFindUnique, h.shipmentRead, Bool.false_eq_true, ↓reduceIte,
    hfind, hlive, hauthorized, exec_findOne, h.milestoneRead, hm, h.upload, hrun,
    exec_prismaCall]
  cases env.fails .proofCreate with
  | true => exact ⟨_, rfl⟩
  | false => cases env.fails .checklistRead <;> exact ⟨_, rfl⟩

theorem milestones_after_submitProof
    (h : Submits env db shipmentId milestoneIndex callerAddress cid) :
    (after (submitProof env shipmentId milestoneIndex callerAddress file) db).milestones =
      (db.writeMilestone (shipmentId, milestoneIndex) (.proofSubmitted cid)).milestones := by
  obtain ⟨_, hafter⟩ := after_submitProof env db shipmentId milestoneIndex callerAddress file cid h
  rw [hafter]

theorem after_submitProof_of_not_submits
    (h : ∀ cid, ¬ Submits env db shipmentId milestoneIndex callerAddress cid) :
    after (submitProof env shipmentId milestoneIndex callerAddress file) db = db := by
  unfold submitProof
  refine after_found env db shipmentId fun shipment hread hfind => ?_
  refine after_guard fun hcancelled => after_guard fun hcaller => ?_
  apply after_bind_reading (P := (· = db)) (after_findOne ..) rfl
  intro m hm
  obtain ⟨hmilestoneRead, hlive⟩ := found_milestone env db shipmentId milestoneIndex hm
  cases hupload : env.uploadFile with
  | none => rfl
  | some cid =>
      have hnotmarked : ¬ Marked env db shipmentId (some milestoneIndex) (.proofSubmitted cid) := by
        intro hmarked
        refine h cid ⟨hread, ⟨shipment, hfind, hcancelled, ?_⟩, hmilestoneRead, by simp [hlive],
          hupload, hmarked.1, hmarked.2.2.1⟩
        by_contra hneither
        exact hcaller (not_or.mp hneither)
      obtain ⟨err, hrun⟩ := mark_not_marked env db shipmentId (some milestoneIndex) _
        "Cannot submit proof for a cancelled shipment" hnotmarked
      simp only [markProofSubmitted]
      rw [after_bind, hrun]

end SubmitProof

section ConfirmFromApi

variable (callerAddress paymentReleased : String) (amount : Int)

/-- Everything `confirmFromApi` checks before it writes `amount`. -/
structure ConfirmsFromApi : Prop where
  shipmentRead : env.fails .shipmentRead = false
  shipment : ∃ shipment, db.shipments.find? shipmentId = some shipment ∧
    shipment.buyerAddress = callerAddress
  quorumRead : env.fails .quorumRead = false
  quorum : QuorumMet db shipmentId
  milestoneRead : env.fails .milestoneRead = false
  milestone : ∃ m, db.liveMilestone shipmentId milestoneIndex = some m ∧
    m.status = .proofSubmitted
  parsed : bigIntOfString paymentReleased = some amount
  marked : Marked env db shipmentId (some milestoneIndex) (.confirmed amount env.now)

theorem after_confirmFromApi
    (h : ConfirmsFromApi env db shipmentId milestoneIndex callerAddress paymentReleased amount) :
    after (confirmFromApi env shipmentId milestoneIndex callerAddress paymentReleased) db =
      after (syncStatusFromChain env shipmentId)
        (db.writeMilestone (shipmentId, milestoneIndex) (.confirmed amount env.now)) := by
  obtain ⟨shipment, hfind, hbuyer⟩ := h.shipment
  obtain ⟨m, hm, hstatus⟩ := h.milestone
  obtain ⟨_, _, hrun⟩ := mark_marked env db shipmentId (some milestoneIndex) _
    "Cannot confirm a milestone for a cancelled shipment" h.marked
  have hquorum := exec_assertQuorum_of_met env db shipmentId h.quorumRead h.quorum
  unfold confirmFromApi markConfirmed
  rw [after_bind, exec_shipmentFindUnique, h.shipmentRead]
  simp only [Bool.false_eq_true, ↓reduceIte, hfind, hbuyer, ne_eq, not_true_eq_false]
  rw [after_bind, hquorum]
  simp only
  rw [after_bind, exec_findOne, h.milestoneRead, hm]
  simp only [Bool.false_eq_true, ↓reduceIte, hstatus, not_true_eq_false, h.parsed]
  rw [after_bind, hrun]
  simp only
  rw [after_bind_readOnly _ (fun _ _ => rfl)]
  rfl

theorem after_confirmFromApi_of_not_confirms
    (h : ∀ amount, ¬ ConfirmsFromApi env db shipmentId milestoneIndex callerAddress
      paymentReleased amount) :
    after (confirmFromApi env shipmentId milestoneIndex callerAddress paymentReleased) db =
      db := by
  unfold confirmFromApi
  refine after_found env db shipmentId fun shipment hread hfind => after_guard fun hbuyer => ?_
  apply after_bind_reading (P := (· = db)) (after_assertQuorum ..) rfl
  intro _ hquorum
  obtain ⟨hquorumRead, hquorum⟩ := quorum_of_assertQuorum env db shipmentId hquorum
  apply after_bind_reading (P := (· = db)) (after_findOne ..) rfl
  intro m hm
  obtain ⟨hmilestoneRead, hlive⟩ := found_milestone env db shipmentId milestoneIndex hm
  refine after_guard fun hstatus => ?_
  cases hamount : bigIntOfString paymentReleased with
  | none => rfl
  | some amount =>
      have hnotmarked : ¬ Marked env db shipmentId (some milestoneIndex)
          (.confirmed amount env.now) := fun hmarked =>
        h amount ⟨hread, ⟨shipment, hfind, not_not.mp hbuyer⟩, hquorumRead, hquorum,
          hmilestoneRead, ⟨m, hlive, not_not.mp hstatus⟩, hamount, hmarked⟩
      obtain ⟨err, hrun⟩ := mark_not_marked env db shipmentId (some milestoneIndex) _
        "Cannot confirm a milestone for a cancelled shipment" hnotmarked
      simp only [markConfirmed]
      rw [after_bind, hrun]

end ConfirmFromApi

section RejectProof

variable (buyerAddress : String)

/-- Everything `rejectProof` checks before its write. -/
structure RejectsProof : Prop where
  shipmentRead : env.fails .shipmentRead = false
  shipment : ∃ shipment, db.shipments.find? shipmentId = some shipment ∧
    shipment.buyerAddress = buyerAddress
  milestoneRead : env.fails .milestoneRead = false
  milestone : ∃ m, db.liveMilestone shipmentId milestoneIndex = some m ∧
    m.status = .proofSubmitted
  milestoneWrite : env.fails .milestoneWrite = false

theorem after_rejectProof (h : RejectsProof env db shipmentId milestoneIndex buyerAddress) :
    after (rejectProof env shipmentId milestoneIndex buyerAddress) db =
      db.writeMilestone (shipmentId, milestoneIndex) .proofRejected := by
  obtain ⟨shipment, hfind, hbuyer⟩ := h.shipment
  obtain ⟨m, hm, hstatus⟩ := h.milestone
  have hrow := find?_of_liveMilestone db shipmentId milestoneIndex hm
  obtain ⟨_, _, hrun⟩ := milestoneUpdate_written env db shipmentId (some milestoneIndex)
    .proofRejected ⟨h.milestoneWrite, trivial, by simp [Db.rowAt, hrow]⟩
  unfold rejectProof
  rw [after_bind, exec_shipmentFindUnique, h.shipmentRead]
  simp only [Bool.false_eq_true, ↓reduceIte, hfind, hbuyer, ne_eq, not_true_eq_false]
  rw [after_bind, exec_findOne, h.milestoneRead, hm]
  simp only [Bool.false_eq_true, ↓reduceIte, hstatus, not_true_eq_false]
  rw [after, hrun]
  rfl

theorem after_rejectProof_of_not_rejects
    (h : ¬ RejectsProof env db shipmentId milestoneIndex buyerAddress) :
    after (rejectProof env shipmentId milestoneIndex buyerAddress) db = db := by
  unfold rejectProof
  refine after_found env db shipmentId fun shipment hread hfind => after_guard fun hbuyer => ?_
  apply after_bind_reading (P := (· = db)) (after_findOne ..) rfl
  intro m hm
  obtain ⟨hmilestoneRead, hlive⟩ := found_milestone env db shipmentId milestoneIndex hm
  refine after_guard fun hstatus => ?_
  have hnotwritten : ¬ Written env db shipmentId (some milestoneIndex) .proofRejected :=
    fun hwritten => h ⟨hread, ⟨shipment, hfind, not_not.mp hbuyer⟩, hmilestoneRead,
      ⟨m, hlive, not_not.mp hstatus⟩, hwritten.1⟩
  obtain ⟨err, hrun⟩ := milestoneUpdate_not_written _ _ _ _ _ hnotwritten
  rw [after, hrun]

end RejectProof

section Transaction

variable (writes : List (MilestoneKey × MilestoneWrite))

/-- The updates of a batch, one after the other. -/
def Db.writeMilestones (db : Db) (writes : List (MilestoneKey × MilestoneWrite)) : Db :=
  writes.foldl (fun acc (key, write) => acc.writeMilestone key write) db

/-- The other tables are left alone. -/
theorem writeMilestones_frame (db : Db) (writes : List (MilestoneKey × MilestoneWrite)) :
    (db.writeMilestones writes).shipments = db.shipments ∧
      (db.writeMilestones writes).proofSubmissions = db.proofSubmissions ∧
      (db.writeMilestones writes).approvals = db.approvals := by
  induction writes generalizing db with
  | nil => exact ⟨rfl, rfl, rfl⟩
  | cons entry rest ih => exact ih (db.writeMilestone entry.1 entry.2)

@[simp] theorem shipments_writeMilestones (db : Db)
    (writes : List (MilestoneKey × MilestoneWrite)) :
    (db.writeMilestones writes).shipments = db.shipments :=
  (writeMilestones_frame db writes).1

@[simp] theorem proofSubmissions_writeMilestones (db : Db)
    (writes : List (MilestoneKey × MilestoneWrite)) :
    (db.writeMilestones writes).proofSubmissions = db.proofSubmissions :=
  (writeMilestones_frame db writes).2.1

theorem exec_milestoneTransaction (hwrite : env.fails .milestoneWrite = false)
    (hstorable : ∀ entry ∈ writes, entry.2.Storable)
    (hrows : ∀ entry ∈ writes, (db.milestones.find? entry.1).isSome) :
    exec (milestoneTransaction env writes) db = (.ok (), db.writeMilestones writes) := by
  have hnone : (writes.any fun (_, write) => ¬ write.Storable) = false := by
    simpa using fun key write hmem => hstorable (key, write) hmem
  have hmissing : (writes.any fun (key, _) => (db.milestones.find? key).isNone) = false := by
    simpa [Option.isSome_iff_ne_none] using fun key write hmem => hrows (key, write) hmem
  unfold milestoneTransaction
  rw [exec_bind, exec_prismaCall, hwrite]
  simp only [Bool.false_eq_true, ↓reduceIte, hnone]
  rw [exec_bind, exec_get]
  simp only [hmissing, Bool.false_eq_true, ↓reduceIte]
  rfl

/-- A batch that is rejected writes no row. -/
theorem milestoneTransaction_rejected
    (h : ¬ (env.fails .milestoneWrite = false ∧ ∀ entry ∈ writes, entry.2.Storable)) :
    ∃ err, exec (milestoneTransaction env writes) db = (.error err, db) := by
  unfold milestoneTransaction
  rw [exec_bind, exec_prismaCall]
  cases hwrite : env.fails .milestoneWrite with
  | true => exact ⟨_, rfl⟩
  | false =>
      have hsome : (writes.any fun (_, write) => ¬ write.Storable) = true := by
        by_contra hnone
        refine h ⟨hwrite, fun entry hentry => ?_⟩
        simp only [List.any_eq_true, not_exists, not_and] at hnone
        simpa using hnone entry hentry
      simp only [Bool.false_eq_true, ↓reduceIte, hsome]
      exact ⟨.invalidValue, rfl⟩

/-- So does a batch that addresses a row that does not exist. -/
theorem milestoneTransaction_missing
    (h : ¬ ∀ entry ∈ writes, (db.milestones.find? entry.1).isSome) :
    ∃ err, exec (milestoneTransaction env writes) db = (.error err, db) := by
  have hsome : (writes.any fun (key, _) => (db.milestones.find? key).isNone) = true := by
    by_contra hnone
    refine h fun entry hentry => ?_
    simp only [List.any_eq_true, not_exists, not_and] at hnone
    simpa [Option.isSome_iff_ne_none] using hnone entry hentry
  by_cases hstorable : env.fails .milestoneWrite = false ∧ ∀ entry ∈ writes, entry.2.Storable
  · have hnone : (writes.any fun (_, write) => ¬ write.Storable) = false := by
      simpa using fun key write hmem => hstorable.2 (key, write) hmem
    unfold milestoneTransaction
    rw [exec_bind, exec_prismaCall, hstorable.1]
    simp only [Bool.false_eq_true, ↓reduceIte, hnone]
    rw [exec_bind, exec_get]
    simp only [hsome, ↓reduceIte]
    exact ⟨.recordNotFound, rfl⟩
  · exact milestoneTransaction_rejected env db writes hstorable

end Transaction

section Bulk

variable (callerAddress buyerAddress verb : String)

theorem submitted_of_bulkRefusal_none
    (h : bulkRefusal db shipmentId verb milestoneIndex = none) :
    ∃ m, db.milestones.find? (shipmentId, milestoneIndex) = some m ∧
      m.status = .proofSubmitted := by
  unfold bulkRefusal at h
  cases hlive : db.liveMilestone shipmentId milestoneIndex with
  | none => simp [hlive] at h
  | some m =>
      refine ⟨m, find?_of_liveMilestone db shipmentId milestoneIndex hlive, ?_⟩
      by_contra hstatus
      simp [hlive, hstatus] at h

/-- The items of a batch that are not refused. -/
def toConfirm (items : List BulkConfirmItem) : List BulkConfirmItem :=
  items.filter fun item => (bulkRefusal db shipmentId "confirm" item.milestoneIndex).isNone

def toReject (indices : List Int) : List Int :=
  indices.filter fun i => (bulkRefusal db shipmentId "reject" i).isNone

/-- Each write of a batch confirmation is one of its items with its amount. -/
theorem mem_bulkConfirmWrites {items : List BulkConfirmItem}
    {writes : List (MilestoneKey × MilestoneWrite)}
    (h : bulkConfirmWrites env shipmentId items = some writes) :
    ∀ entry ∈ writes, ∃ item ∈ items, ∃ amount,
      bigIntOfString item.paymentReleased = some amount ∧
        entry = ((shipmentId, item.milestoneIndex), .confirmed amount env.now) := by
  unfold bulkConfirmWrites at h
  induction items generalizing writes with
  | nil =>
      cases h
      simp
  | cons item rest ih =>
      rw [List.mapM_cons] at h
      cases hamount : bigIntOfString item.paymentReleased with
      | none => simp [hamount] at h
      | some amount =>
          simp only [hamount] at h
          obtain ⟨tail, htail, rfl⟩ : ∃ tail,
              rest.mapM (fun item => do
                let amount ← bigIntOfString item.paymentReleased
                return ((shipmentId, item.milestoneIndex),
                  MilestoneWrite.confirmed amount env.now)) = some tail ∧
              ((shipmentId, item.milestoneIndex), MilestoneWrite.confirmed amount env.now) :: tail
                = writes := by
            simpa [Option.bind_eq_some_iff] using h
          intro entry hentry
          rcases List.mem_cons.mp hentry with rfl | hrest
          · exact ⟨item, .head _, amount, hamount, rfl⟩
          · obtain ⟨other, hother, hentry⟩ := ih htail entry hrest
            exact ⟨other, .tail _ hother, hentry⟩

/-- Everything `bulkConfirmFromApi` checks before it makes `writes`. -/
structure BulkConfirms (items : List BulkConfirmItem)
    (writes : List (MilestoneKey × MilestoneWrite)) : Prop where
  shipmentRead : env.fails .shipmentRead = false
  shipment : ∃ shipment, db.shipments.find? shipmentId = some shipment ∧
    shipment.buyerAddress = callerAddress ∧ shipment.status ≠ .cancelled
  quorumRead : env.fails .quorumRead = false
  quorum : QuorumMet db shipmentId
  batch : bulkConfirmWrites env shipmentId (toConfirm db shipmentId items) = some writes
  milestoneWrite : env.fails .milestoneWrite = false
  storable : ∀ entry ∈ writes, entry.2.Storable

/-- The writes of a batch address submitted rows. -/
theorem BulkConfirms.submitted {env : Env} {db : Db} {shipmentId callerAddress : String}
    {items : List BulkConfirmItem} {writes : List (MilestoneKey × MilestoneWrite)}
    (h : BulkConfirms env db shipmentId callerAddress items writes) :
    ∀ entry ∈ writes, ∃ m, db.milestones.find? entry.1 = some m ∧ m.status = .proofSubmitted := by
  intro entry hentry
  obtain ⟨item, hitem, _, _, rfl⟩ := mem_bulkConfirmWrites env shipmentId h.batch entry hentry
  have hnone := (List.mem_filter.mp hitem).2
  exact submitted_of_bulkRefusal_none db shipmentId item.milestoneIndex "confirm"
    (Option.isNone_iff_eq_none.mp hnone)

/-- A batch in which nothing is left to confirm is not synced. -/
theorem after_bulkConfirmFromApi {items : List BulkConfirmItem}
    {writes : List (MilestoneKey × MilestoneWrite)}
    (h : BulkConfirms env db shipmentId callerAddress items writes) :
    after (bulkConfirmFromApi env shipmentId callerAddress items) db =
      if toConfirm db shipmentId items = [] then db
      else after (syncStatusFromChain env shipmentId) (db.writeMilestones writes) := by
  obtain ⟨shipment, hfind, hbuyer, hlive⟩ := h.shipment
  have hquorum := exec_assertQuorum_of_met env db shipmentId h.quorumRead h.quorum
  have hrows : ∀ entry ∈ writes, (db.milestones.find? entry.1).isSome := by
    intro entry hentry
    obtain ⟨m, hm, _⟩ := h.submitted entry hentry
    rw [hm]
    rfl
  have hbatch := exec_milestoneTransaction env db writes h.milestoneWrite h.storable hrows
  have hwrites := h.batch
  unfold toConfirm at hwrites ⊢
  unfold bulkConfirmFromApi
  rw [after_bind, exec_shipmentFindUnique, h.shipmentRead]
  simp only [Bool.false_eq_true, ↓reduceIte, hfind]
  rw [after_bind, exec_get]
  simp only [hbuyer, hlive, ne_eq, not_true_eq_false, ↓reduceIte]
  rw [after_bind, hquorum]
  simp only
  split
  · rw [hwrites]
    simp only
    rw [after_bind, hbatch]
    simp only
    rw [after_bind_readOnly _ (fun _ _ => rfl)]
  · rename_i hempty
    rw [if_pos (not_not.mp hempty)]
    rfl

theorem milestones_after_bulkConfirmFromApi {items : List BulkConfirmItem}
    {writes : List (MilestoneKey × MilestoneWrite)}
    (h : BulkConfirms env db shipmentId callerAddress items writes) :
    (after (bulkConfirmFromApi env shipmentId callerAddress items) db).milestones =
      (db.writeMilestones writes).milestones := by
  rw [after_bulkConfirmFromApi env db shipmentId callerAddress h]
  split
  · rename_i hempty
    have hwrites := h.batch
    rw [hempty] at hwrites
    cases hwrites
    rfl
  · exact milestones_after_sync ..

theorem after_bulkConfirmFromApi_of_not_confirms {items : List BulkConfirmItem}
    (h : ∀ writes, ¬ BulkConfirms env db shipmentId callerAddress items writes) :
    after (bulkConfirmFromApi env shipmentId callerAddress items) db = db := by
  unfold bulkConfirmFromApi
  refine after_found env db shipmentId fun shipment hread hfind => ?_
  apply after_bind_reading (P := (· = db)) (m := get) rfl rfl
  intro snapshot hsnapshot
  obtain rfl : db = snapshot := by simpa using hsnapshot
  refine after_guard fun hbuyer => after_guard fun hcancelled => ?_
  apply after_bind_reading (P := (· = db)) (after_assertQuorum ..) rfl
  intro _ hquorum
  obtain ⟨hquorumRead, hquorum⟩ := quorum_of_assertQuorum env db shipmentId hquorum
  dsimp only
  split
  · split
    · rfl
    · rename_i writes hwrites
      have hrejected : ¬ (env.fails .milestoneWrite = false ∧
          ∀ entry ∈ writes, entry.2.Storable) := fun hboth =>
        h writes ⟨hread, ⟨shipment, hfind, not_not.mp hbuyer, hcancelled⟩, hquorumRead, hquorum,
          hwrites, hboth.1, hboth.2⟩
      obtain ⟨err, hrun⟩ := milestoneTransaction_rejected env db writes hrejected
      rw [after_bind, hrun]
  · rfl

/-- Everything `bulkRejectFromApi` checks before its writes. -/
structure BulkRejects : Prop where
  shipmentRead : env.fails .shipmentRead = false
  shipment : ∃ shipment, db.shipments.find? shipmentId = some shipment ∧
    shipment.buyerAddress = buyerAddress
  milestoneWrite : env.fails .milestoneWrite = false

/-- The updates of a batch rejection. -/
def bulkRejectWrites (indices : List Int) : List (MilestoneKey × MilestoneWrite) :=
  (toReject db shipmentId indices).map fun i => ((shipmentId, i), .proofRejected)

theorem bulkRejectWrites_submitted (indices : List Int) :
    ∀ entry ∈ bulkRejectWrites db shipmentId indices,
      ∃ m, db.milestones.find? entry.1 = some m ∧ m.status = .proofSubmitted := by
  intro entry hentry
  obtain ⟨i, hi, rfl⟩ := List.mem_map.mp hentry
  have hnone := (List.mem_filter.mp hi).2
  exact submitted_of_bulkRefusal_none db shipmentId i "reject"
    (Option.isNone_iff_eq_none.mp hnone)

/-- The transaction of a batch rejection goes through: its rows are there, and the update
has a value for every column. -/
theorem exec_bulkRejectWrites (indices : List Int) (h : env.fails .milestoneWrite = false) :
    exec (milestoneTransaction env (bulkRejectWrites db shipmentId indices)) db =
      (.ok (), db.writeMilestones (bulkRejectWrites db shipmentId indices)) := by
  refine exec_milestoneTransaction env db _ h ?_ ?_
  · intro entry hentry
    obtain ⟨i, _, rfl⟩ := List.mem_map.mp hentry
    trivial
  · intro entry hentry
    obtain ⟨m, hm, _⟩ := bulkRejectWrites_submitted db shipmentId indices entry hentry
    rw [hm]
    rfl

theorem after_bulkRejectFromApi (indices : List Int)
    (h : BulkRejects env db shipmentId buyerAddress) :
    after (bulkRejectFromApi env shipmentId buyerAddress indices) db =
      db.writeMilestones (bulkRejectWrites db shipmentId indices) := by
  obtain ⟨shipment, hfind, hbuyer⟩ := h.shipment
  have hbatch := exec_bulkRejectWrites env db shipmentId indices h.milestoneWrite
  unfold bulkRejectFromApi
  rw [after_bind, exec_shipmentFindUnique, h.shipmentRead]
  simp only [Bool.false_eq_true, ↓reduceIte, hfind]
  rw [after_bind, exec_get]
  simp only [hbuyer, ne_eq, not_true_eq_false, ↓reduceIte]
  split
  · rw [after_bind_readOnly _ (fun _ _ => rfl)]
    exact congrArg Prod.snd hbatch
  · rename_i hempty
    unfold bulkRejectWrites toReject
    rw [not_not.mp hempty]
    rfl

theorem after_bulkRejectFromApi_of_not_rejects (indices : List Int)
    (h : ¬ BulkRejects env db shipmentId buyerAddress) :
    after (bulkRejectFromApi env shipmentId buyerAddress indices) db = db := by
  unfold bulkRejectFromApi
  refine after_found env db shipmentId fun shipment hread hfind => ?_
  apply after_bind_reading (P := (· = db)) (m := get) rfl rfl
  intro snapshot _
  refine after_guard fun hbuyer => ?_
  dsimp only
  split
  · rw [after_bind_readOnly _ (fun _ _ => rfl)]
    obtain ⟨err, hrun⟩ := milestoneTransaction_rejected env db _ fun hboth =>
      h ⟨hread, ⟨shipment, hfind, not_not.mp hbuyer⟩, hboth.1⟩
    rw [after, hrun]
  · rfl

end Bulk

section Guarded

/-- Every row that is not in `PROOF_SUBMITTED` is exactly as before. -/
def OnlySubmittedChange (db db' : Db) : Prop :=
  ∀ key m, db.milestones.find? key = some m → m.status ≠ .proofSubmitted →
    db'.milestones.find? key = some m

theorem OnlySubmittedChange.refl (db : Db) : OnlySubmittedChange db db :=
  fun _ _ hm _ => hm

theorem onlySubmittedChange_congr {db db' other : Db} (h : db'.milestones = other.milestones) :
    OnlySubmittedChange db db' ↔ OnlySubmittedChange db other := by
  unfold OnlySubmittedChange
  rw [h]

/-- Writes addressed to submitted rows only. -/
theorem onlySubmittedChange_writes (writes : List (MilestoneKey × MilestoneWrite))
    (h : ∀ entry ∈ writes, ∃ m, db.milestones.find? entry.1 = some m ∧
      m.status = .proofSubmitted) :
    OnlySubmittedChange db (db.writeMilestones writes) := by
  intro key m hm hstatus
  have hother : ∀ entry ∈ writes, key ≠ entry.1 := by
    rintro entry hentry rfl
    obtain ⟨m', hm', hsubmitted⟩ := h entry hentry
    rw [hm] at hm'
    cases hm'
    exact hstatus hsubmitted
  clear h
  -- the row survives each write of the batch in turn
  induction writes generalizing db with
  | nil => exact hm
  | cons entry rest ih =>
      refine ih (db.writeMilestone entry.1 entry.2) ?_ fun e he => hother e (.tail _ he)
      rw [← hm]
      exact Table.find?_modify_of_ne _ entry.2.apply entry.2.apply_key (hother entry (.head _))

theorem onlySubmittedChange_write {m : Milestone} (write : MilestoneWrite)
    (hm : db.liveMilestone shipmentId milestoneIndex = some m)
    (hstatus : m.status = .proofSubmitted) :
    OnlySubmittedChange db (db.writeMilestone (shipmentId, milestoneIndex) write) := by
  have hrow := find?_of_liveMilestone db shipmentId milestoneIndex hm
  exact onlySubmittedChange_writes db [((shipmentId, milestoneIndex), write)]
    (by simpa using ⟨m, hrow, hstatus⟩)

theorem confirmFromApi_onlySubmitted (callerAddress paymentReleased : String) :
    OnlySubmittedChange db
      (after (confirmFromApi env shipmentId milestoneIndex callerAddress paymentReleased) db) := by
  by_cases h : ∃ amount, ConfirmsFromApi env db shipmentId milestoneIndex callerAddress
      paymentReleased amount
  · obtain ⟨amount, hamount⟩ := h
    obtain ⟨m, hm, hstatus⟩ := hamount.milestone
    rw [after_confirmFromApi env db shipmentId milestoneIndex callerAddress paymentReleased
      amount hamount, onlySubmittedChange_congr (milestones_after_sync ..)]
    exact onlySubmittedChange_write db shipmentId milestoneIndex _ hm hstatus
  · rw [after_confirmFromApi_of_not_confirms env db shipmentId milestoneIndex callerAddress
      paymentReleased fun amount hamount => h ⟨amount, hamount⟩]
    exact .refl db

theorem rejectProof_onlySubmitted (buyerAddress : String) :
    OnlySubmittedChange db
      (after (rejectProof env shipmentId milestoneIndex buyerAddress) db) := by
  by_cases h : RejectsProof env db shipmentId milestoneIndex buyerAddress
  · obtain ⟨m, hm, hstatus⟩ := h.milestone
    rw [after_rejectProof env db shipmentId milestoneIndex buyerAddress h]
    exact onlySubmittedChange_write db shipmentId milestoneIndex _ hm hstatus
  · rw [after_rejectProof_of_not_rejects env db shipmentId milestoneIndex buyerAddress h]
    exact .refl db

theorem bulkConfirmFromApi_onlySubmitted (callerAddress : String) (items : List BulkConfirmItem) :
    OnlySubmittedChange db
      (after (bulkConfirmFromApi env shipmentId callerAddress items) db) := by
  by_cases h : ∃ writes, BulkConfirms env db shipmentId callerAddress items writes
  · obtain ⟨writes, hwrites⟩ := h
    rw [onlySubmittedChange_congr (milestones_after_bulkConfirmFromApi env db shipmentId
      callerAddress hwrites)]
    exact onlySubmittedChange_writes db writes hwrites.submitted
  · rw [after_bulkConfirmFromApi_of_not_confirms env db shipmentId callerAddress
      fun writes hwrites => h ⟨writes, hwrites⟩]
    exact .refl db

theorem bulkRejectFromApi_onlySubmitted (buyerAddress : String) (indices : List Int) :
    OnlySubmittedChange db
      (after (bulkRejectFromApi env shipmentId buyerAddress indices) db) := by
  by_cases h : BulkRejects env db shipmentId buyerAddress
  · rw [after_bulkRejectFromApi env db shipmentId buyerAddress indices h]
    exact onlySubmittedChange_writes db _ (bulkRejectWrites_submitted db shipmentId indices)
  · rw [after_bulkRejectFromApi_of_not_rejects env db shipmentId buyerAddress indices h]
    exact .refl db

end Guarded

end ChainSettle
