import ChainSettle.Lifecycle.Absorbing

/-!
Which milestone updates an operation makes, stated once for all of them.
`Operation.Writes` says that an update of a row goes through, with everything
the operation checks on the way; `milestones_after_step` says that the table an
operation leaves comes from such updates and nothing else. Statements about
runs read rows through `row_after_step` and never look at an operation again.
-/

namespace ChainSettle

open Lib Lib.Eff

/-- The update an event handler makes on the row of its payload. -/
def HandlerWrites (env : Env) (db : Db) (payload : Json) : Handler → MilestoneWrite → Prop
  | .proofSubmitted, write =>
      MarkedPayload env db (.proofSubmitted "") payload ∧ write = .proofSubmitted ""
  | .milestoneConfirmed, write =>
      ∃ amount, Confirms env db payload amount ∧ write = .confirmed amount env.now
  | .disputeRaised, write =>
      MarkedPayload env db (.disputed env.now) payload ∧ write = .disputed env.now
  | .disputeResolved, write =>
      Resolves env db payload ∧ write = .resolved (payloadApproved payload) none env.now
  | .shipmentCreated, _ | .shipmentCancelled, _ => False

/-- The operation makes this update of the row with this key. -/
def Operation.Writes (db : Db) : Operation → MilestoneKey → MilestoneWrite → Prop
  | .submitProof env shipmentId milestoneIndex callerAddress _, key, write =>
      ∃ cid, Submits env db shipmentId milestoneIndex callerAddress cid ∧
        key = (shipmentId, milestoneIndex) ∧ write = .proofSubmitted cid
  | .confirmFromApi env shipmentId milestoneIndex callerAddress paymentReleased, key, write =>
      ∃ amount, ConfirmsFromApi env db shipmentId milestoneIndex callerAddress paymentReleased
          amount ∧ key = (shipmentId, milestoneIndex) ∧ write = .confirmed amount env.now
  | .bulkConfirmFromApi env shipmentId callerAddress items, key, write =>
      ∃ writes, BulkConfirms env db shipmentId callerAddress items writes ∧ (key, write) ∈ writes
  | .rejectProof env shipmentId milestoneIndex buyerAddress, key, write =>
      RejectsProof env db shipmentId milestoneIndex buyerAddress ∧
        key = (shipmentId, milestoneIndex) ∧ write = .proofRejected
  | .bulkRejectFromApi env shipmentId buyerAddress indices, key, write =>
      BulkRejects env db shipmentId buyerAddress ∧
        (key, write) ∈ bulkRejectWrites db shipmentId indices
  | .handle env handler payload _, key, write =>
      HandlerWrites env db payload handler write ∧ key.1 = payloadShipment payload ∧
        payloadIndex payload = some key.2

section Batches

variable {db : Db}

/-- A later update of the batch hides an earlier one of the same row. -/
def Overwrites (writes : List (MilestoneKey × MilestoneWrite)) : Prop :=
  ∀ first ∈ writes, ∀ second ∈ writes, ∀ m,
    second.2.apply (first.2.apply m) = second.2.apply m

@[simp] theorem apply_apply (write : MilestoneWrite) (m : Milestone) :
    write.apply (write.apply m) = write.apply m := by
  cases write with
  | resolved approved amount at_ =>
      unfold MilestoneWrite.apply
      cases approved with
      | false => rfl
      | true =>
          cases amount with
          | none => rfl
          | some amount =>
              by_cases hzero : amount = 0 <;> simp [hzero]
  | _ => rfl

theorem row_writeMilestone {key k : MilestoneKey} {write : MilestoneWrite} {m' : Milestone}
    (h : (db.writeMilestone key write).milestones.find? k = some m') :
    ∃ m, db.milestones.find? k = some m ∧ (m' = m ∨ k = key ∧ m' = write.apply m) := by
  unfold Db.writeMilestone at h
  rw [Table.find?_modify] at h
  split at h
  · rename_i hk
    subst hk
    obtain ⟨m, hm, rfl⟩ := Option.map_eq_some_iff.mp h
    exact ⟨m, hm, .inr ⟨rfl, rfl⟩⟩
  · exact ⟨m', h, .inl rfl⟩

/-- A row after a batch is the old one, or the old one with a single update. -/
theorem row_writeMilestones {writes : List (MilestoneKey × MilestoneWrite)} {k : MilestoneKey}
    {m' : Milestone} (hover : Overwrites writes)
    (h : (db.writeMilestones writes).milestones.find? k = some m') :
    ∃ m, db.milestones.find? k = some m ∧
      (m' = m ∨ ∃ write, (k, write) ∈ writes ∧ m' = write.apply m) := by
  induction writes generalizing db with
  | nil => exact ⟨m', h, .inl rfl⟩
  | cons entry rest ih =>
      have hrest : Overwrites rest := fun first hfirst second hsecond =>
        hover first (.tail _ hfirst) second (.tail _ hsecond)
      obtain ⟨m₁, hm₁, hcase⟩ := ih hrest h
      obtain ⟨m, hm, hfirst⟩ := row_writeMilestone hm₁
      refine ⟨m, hm, ?_⟩
      rcases hcase with rfl | ⟨write, hwrite, rfl⟩
      · rcases hfirst with rfl | ⟨rfl, rfl⟩
        · exact .inl rfl
        · exact .inr ⟨entry.2, .head _, rfl⟩
      · refine .inr ⟨write, .tail _ hwrite, ?_⟩
        rcases hfirst with rfl | ⟨rfl, rfl⟩
        · rfl
        · exact hover entry (.head _) (entry.1, write) (.tail _ hwrite) m

/-- A row that the batch does not address stays as it is. -/
theorem find?_writeMilestones_of_not_mem {writes : List (MilestoneKey × MilestoneWrite)}
    {k : MilestoneKey} (h : k ∉ writes.map Prod.fst) :
    (db.writeMilestones writes).milestones.find? k = db.milestones.find? k := by
  induction writes generalizing db with
  | nil => rfl
  | cons entry rest ih =>
      rw [List.map_cons, List.mem_cons, not_or] at h
      have hfirst : (db.writeMilestone entry.1 entry.2).milestones.find? k =
          db.milestones.find? k :=
        Table.find?_modify_of_ne db.milestones entry.2.apply entry.2.apply_key h.1
      exact (ih h.2).trans hfirst

theorem keys_writeMilestones (writes : List (MilestoneKey × MilestoneWrite)) :
    (db.writeMilestones writes).milestones.rows.map Milestone.key =
      db.milestones.rows.map Milestone.key := by
  induction writes generalizing db with
  | nil => rfl
  | cons entry rest ih =>
      have hfirst : (db.writeMilestone entry.1 entry.2).milestones.rows.map Milestone.key =
          db.milestones.rows.map Milestone.key :=
        Table.keys_modify db.milestones entry.1 entry.2.apply entry.2.apply_key
      exact ih.trans hfirst

end Batches

section Steps

variable {db db' : Db} {Made : MilestoneKey → MilestoneWrite → Prop}

/-- The milestone table of `db'` is that of `db` after updates that are `Made`. -/
def ComesFrom (db db' : Db) (Made : MilestoneKey → MilestoneWrite → Prop) : Prop :=
  ∃ writes, db'.milestones = (db.writeMilestones writes).milestones ∧ Overwrites writes ∧
    ∀ entry ∈ writes, Made entry.1 entry.2

theorem comesFrom_nothing (h : db'.milestones = db.milestones) : ComesFrom db db' Made :=
  ⟨[], h, by simp [Overwrites], by simp⟩

theorem comesFrom_write {key : MilestoneKey} {write : MilestoneWrite}
    (h : db'.milestones = (db.writeMilestone key write).milestones) (hmade : Made key write) :
    ComesFrom db db' Made := by
  refine ⟨[(key, write)], h, ?_, by simpa using hmade⟩
  intro first hfirst second hsecond m
  obtain rfl := List.mem_singleton.mp hfirst
  obtain rfl := List.mem_singleton.mp hsecond
  exact apply_apply write m

theorem comesFrom_handler (env : Env) (handler : Handler) (payload : Json)
    (txHash : Option String) :
    ComesFrom db (after (runHandler env (some handler) payload txHash) db) fun key write =>
      HandlerWrites env db payload handler write ∧ key.1 = payloadShipment payload ∧
        payloadIndex payload = some key.2 := by
  -- an update through an index that is not an integer changes nothing
  have hmade (write : MilestoneWrite) (hwrites : HandlerWrites env db payload handler write)
      (hafter : (after (runHandler env (some handler) payload txHash) db).milestones =
        (db.writePayload payload write).milestones) :
      ComesFrom db (after (runHandler env (some handler) payload txHash) db) fun key write =>
        HandlerWrites env db payload handler write ∧ key.1 = payloadShipment payload ∧
          payloadIndex payload = some key.2 := by
    unfold Db.writePayload at hafter
    cases hindex : payloadIndex payload with
    | none =>
        rw [hindex] at hafter
        exact comesFrom_nothing hafter
    | some i =>
        rw [hindex] at hafter
        exact comesFrom_write hafter ⟨hwrites, rfl, rfl⟩
  cases handler with
  | shipmentCreated => exact comesFrom_nothing rfl
  | shipmentCancelled =>
      apply comesFrom_nothing
      simp only [runHandler, after_handleShipmentCancelled]
      split <;> rfl
  | proofSubmitted =>
      have hafter := after_handleProofSubmitted env db payload
      split at hafter
      · rename_i hmarked
        exact hmade (.proofSubmitted "") ⟨hmarked, rfl⟩ (congrArg Db.milestones hafter)
      · exact comesFrom_nothing (congrArg Db.milestones hafter)
  | disputeRaised =>
      have hafter := after_handleDisputeRaised env db payload
      split at hafter
      · rename_i hmarked
        exact hmade (.disputed env.now) ⟨hmarked, rfl⟩ (congrArg Db.milestones hafter)
      · exact comesFrom_nothing (congrArg Db.milestones hafter)
  | disputeResolved =>
      have hafter := after_handleDisputeResolved env db payload
      split at hafter
      · rename_i hresolves
        exact hmade _ ⟨hresolves, rfl⟩ (congrArg Db.milestones hafter)
      · exact comesFrom_nothing (congrArg Db.milestones hafter)
  | milestoneConfirmed =>
      by_cases hconfirms : ∃ amount, Confirms env db payload amount
      · obtain ⟨amount, hamount⟩ := hconfirms
        apply hmade (.confirmed amount env.now) ⟨amount, hamount, rfl⟩
        simp only [runHandler]
        rw [after_handleMilestoneConfirmed_of_confirms env db payload hamount,
          milestones_after_sync]
      · exact comesFrom_nothing (congrArg Db.milestones
          (after_handleMilestoneConfirmed_of_not_confirms env db payload
            fun amount hamount => hconfirms ⟨amount, hamount⟩))

/-- The table an operation leaves comes from the updates it makes. -/
theorem milestones_after_step (op : Operation) : ComesFrom db (op.step db) (op.Writes db) := by
  cases op with
  | submitProof env shipmentId milestoneIndex callerAddress file =>
      by_cases h : ∃ cid, Submits env db shipmentId milestoneIndex callerAddress cid
      · obtain ⟨cid, hcid⟩ := h
        exact comesFrom_write (milestones_after_submitProof env db shipmentId milestoneIndex
          callerAddress file cid hcid) ⟨cid, hcid, rfl, rfl⟩
      · exact comesFrom_nothing (congrArg Db.milestones (after_submitProof_of_not_submits env db
          shipmentId milestoneIndex callerAddress file fun cid hcid => h ⟨cid, hcid⟩))
  | confirmFromApi env shipmentId milestoneIndex callerAddress paymentReleased =>
      by_cases h : ∃ amount, ConfirmsFromApi env db shipmentId milestoneIndex callerAddress
          paymentReleased amount
      · obtain ⟨amount, hamount⟩ := h
        have hafter := congrArg Db.milestones (after_confirmFromApi env db shipmentId
          milestoneIndex callerAddress paymentReleased amount hamount)
        rw [milestones_after_sync] at hafter
        exact comesFrom_write hafter ⟨amount, hamount, rfl, rfl⟩
      · exact comesFrom_nothing (congrArg Db.milestones (after_confirmFromApi_of_not_confirms env
          db shipmentId milestoneIndex callerAddress paymentReleased
            fun amount hamount => h ⟨amount, hamount⟩))
  | bulkConfirmFromApi env shipmentId callerAddress items =>
      by_cases h : ∃ writes, BulkConfirms env db shipmentId callerAddress items writes
      · obtain ⟨writes, hwrites⟩ := h
        refine ⟨writes, milestones_after_bulkConfirmFromApi env db shipmentId callerAddress hwrites,
          ?_, fun entry hentry => ⟨writes, hwrites, hentry⟩⟩
        intro first hfirst second hsecond m
        obtain ⟨_, _, _, _, rfl⟩ := mem_bulkConfirmWrites env shipmentId hwrites.batch first hfirst
        obtain ⟨_, _, _, _, rfl⟩ := mem_bulkConfirmWrites env shipmentId hwrites.batch second hsecond
        rfl
      · exact comesFrom_nothing (congrArg Db.milestones (after_bulkConfirmFromApi_of_not_confirms
          env db shipmentId callerAddress fun writes hwrites => h ⟨writes, hwrites⟩))
  | rejectProof env shipmentId milestoneIndex buyerAddress =>
      by_cases h : RejectsProof env db shipmentId milestoneIndex buyerAddress
      · exact comesFrom_write (congrArg Db.milestones (after_rejectProof env db shipmentId
          milestoneIndex buyerAddress h)) ⟨h, rfl, rfl⟩
      · exact comesFrom_nothing (congrArg Db.milestones (after_rejectProof_of_not_rejects env db
          shipmentId milestoneIndex buyerAddress h))
  | bulkRejectFromApi env shipmentId buyerAddress indices =>
      by_cases h : BulkRejects env db shipmentId buyerAddress
      · refine ⟨bulkRejectWrites db shipmentId indices, congrArg Db.milestones
          (after_bulkRejectFromApi env db shipmentId buyerAddress indices h), ?_,
          fun entry hentry => ⟨h, hentry⟩⟩
        intro first hfirst second hsecond m
        obtain ⟨_, _, rfl⟩ := List.mem_map.mp hfirst
        obtain ⟨_, _, rfl⟩ := List.mem_map.mp hsecond
        rfl
      · exact comesFrom_nothing (congrArg Db.milestones (after_bulkRejectFromApi_of_not_rejects
          env db shipmentId buyerAddress indices h))
  | handle env handler payload txHash => exact comesFrom_handler env handler payload txHash

/-- A row after an operation is the old one, or the old one with an update the
operation makes. -/
theorem row_after_step (op : Operation) {key : MilestoneKey} {m' : Milestone}
    (h : (op.step db).milestones.find? key = some m') :
    ∃ m, db.milestones.find? key = some m ∧
      (m' = m ∨ ∃ write, op.Writes db key write ∧ m' = write.apply m) := by
  obtain ⟨writes, hafter, hover, hwrites⟩ := @milestones_after_step db op
  rw [hafter] at h
  obtain ⟨m, hm, hcase⟩ := row_writeMilestones hover h
  refine ⟨m, hm, hcase.imp_right ?_⟩
  rintro ⟨write, hmem, hrow⟩
  exact ⟨write, hwrites _ hmem, hrow⟩

/-- No operation adds or removes a milestone. -/
theorem keys_after_step (op : Operation) :
    (op.step db).milestones.rows.map Milestone.key = db.milestones.rows.map Milestone.key := by
  obtain ⟨writes, hafter, _⟩ := @milestones_after_step db op
  rw [hafter, keys_writeMilestones]

end Steps

end ChainSettle
