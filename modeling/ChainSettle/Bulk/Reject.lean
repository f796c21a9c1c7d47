import ChainSettle.Lib.Batch
import ChainSettle.Lifecycle.Prepare
import ChainSettle.Semantics.Bulk

/-!
Rejecting proofs in a batch and one by one. A rejection concerns one row, so for a list
without repetitions the calls do not get in each other's way, and the batch leaves,
reports and sends the same.
-/

namespace ChainSettle

open Lib Lib.Eff

section Results

variable (db : Db) (shipmentId verb : String)

/-- For each item whether it succeeded; with a batch that throws, all have failed. -/
def bulkSuccesses (total : Nat) : Except Exn BulkResponse → List Bool
  | .ok response => response.results.map BulkResult.success
  | .error _ => List.replicate total false

def bulkSent : Except Exn BulkResponse → List NotifyRequest
  | .ok response => response.sent
  | .error _ => []

/-- The row is there, with a submitted proof. -/
def SubmittedAt (milestoneIndex : Int) : Prop :=
  ∃ m, db.liveMilestone shipmentId milestoneIndex = some m ∧ m.status = .proofSubmitted

theorem bulkRefusal_isNone_iff (milestoneIndex : Int) :
    (bulkRefusal db shipmentId verb milestoneIndex).isNone ↔
      SubmittedAt db shipmentId milestoneIndex := by
  unfold bulkRefusal SubmittedAt
  cases db.liveMilestone shipmentId milestoneIndex with
  | none => simp
  | some m => by_cases hstatus : m.status = .proofSubmitted <;> simp [hstatus]

theorem find?_of_all {α : Type} {l : List α} {p : α → Bool} {x : α} (hsome : ∃ y ∈ l, p y = true)
    (hall : ∀ y ∈ l, p y = true → y = x) : l.find? p = some x := by
  obtain ⟨y, hy⟩ := Option.isSome_iff_exists.mp (List.find?_isSome.mpr hsome)
  rw [hy, hall y (List.mem_of_find?_eq_some hy) (List.find?_some hy)]

/-- The record that the response has of an index. -/
theorem bulkResults_eq (accepted indices : List Int)
    (haccepted : accepted =
      indices.filter fun i => (bulkRefusal db shipmentId verb i).isNone) :
    bulkResults (bulkRefused db shipmentId verb indices) accepted indices =
      indices.map fun i =>
        ⟨i, (bulkRefusal db shipmentId verb i).isNone, bulkRefusal db shipmentId verb i⟩ := by
  refine List.map_congr_left fun i hmem => ?_
  rw [find?_of_all, Option.getD_some]
  · simp only [List.mem_reverse, List.mem_append, List.mem_map, bulkRefused, List.mem_filterMap,
      decide_eq_true_eq]
    cases hrefusal : bulkRefusal db shipmentId verb i with
    | some message => exact ⟨_, .inl ⟨(i, message), ⟨i, hmem, by rw [hrefusal]; rfl⟩, rfl⟩, rfl⟩
    | none =>
        refine ⟨_, .inr ⟨i, ?_, rfl⟩, rfl⟩
        rw [haccepted]
        exact List.mem_filter.mpr ⟨hmem, by rw [hrefusal]; rfl⟩
  · subst haccepted
    simp only [List.mem_reverse, List.mem_append, List.mem_map, bulkRefused, List.mem_filterMap,
      List.mem_filter, decide_eq_true_eq]
    rintro r (⟨⟨j, message⟩, ⟨k, -, hrefused⟩, rfl⟩ | ⟨j, ⟨-, hnone⟩, rfl⟩) rfl
    · obtain ⟨text, htext, heq⟩ := Option.map_eq_some_iff.mp hrefused
      cases heq
      simp [htext]
    · simp [Option.isNone_iff_eq_none.mp hnone]

end Results

section Reject

variable {env : Env} (db : Db) (shipmentId buyerAddress : String)

/-- What both operations check of the shipment. -/
def rejectGate : Except Exn Shipment :=
  match db.shipments.find? shipmentId with
  | none => .error (.notFound s!"Shipment {shipmentId} not found")
  | some shipment =>
      if shipment.buyerAddress ≠ buyerAddress then
        .error (.forbidden "Only the shipment buyer may reject a proof")
      else .ok shipment

variable {db shipmentId buyerAddress}

theorem rejectGate_ok {shipment : Shipment}
    (h : rejectGate db shipmentId buyerAddress = .ok shipment) :
    db.shipments.find? shipmentId = some shipment ∧ shipment.buyerAddress = buyerAddress := by
  unfold rejectGate at h
  cases hfind : db.shipments.find? shipmentId with
  | none => simp [hfind] at h
  | some found =>
      by_cases hbuyer : found.buyerAddress = buyerAddress
      · simp only [hfind, hbuyer, ne_eq, not_true_eq_false, ↓reduceIte, Except.ok.injEq] at h
        exact ⟨congrArg some h, h ▸ hbuyer⟩
      · simp [hfind, hbuyer] at h

/-- A program that reads the shipment and refuses it by the same two checks throws what the
gate throws. -/
theorem exec_of_gate {α : Type} (henv : env.Available) {err : Exn} {k : Option Shipment → Tx α}
    (hmissing : k none = throw (.notFound s!"Shipment {shipmentId} not found"))
    (hstranger : ∀ shipment : Shipment, shipment.buyerAddress ≠ buyerAddress →
      exec (k (some shipment)) db =
        (.error (.forbidden "Only the shipment buyer may reject a proof"), db))
    (h : rejectGate db shipmentId buyerAddress = .error err) :
    exec (shipmentFindUnique env .shipmentRead shipmentId >>= k) db = (.error err, db) := by
  unfold rejectGate at h
  rw [exec_bind, exec_shipmentFindUnique, henv]
  simp only [Bool.false_eq_true, ↓reduceIte]
  cases hfind : db.shipments.find? shipmentId with
  | none =>
      rw [hfind] at h
      cases h
      rw [hmissing]
      rfl
  | some shipment =>
      by_cases hbuyer : shipment.buyerAddress = buyerAddress
      · simp [hfind, hbuyer] at h
      · simp only [hfind, hbuyer, ne_eq, not_false_eq_true, ↓reduceIte, Except.error.injEq] at h
        cases h
        exact hstranger shipment hbuyer

theorem exec_rejectProof_of_gate (henv : env.Available) {err : Exn} (index : Int)
    (h : rejectGate db shipmentId buyerAddress = .error err) :
    exec (rejectProof env shipmentId index buyerAddress) db = (.error err, db) := by
  unfold rejectProof
  refine exec_of_gate henv rfl (fun shipment hbuyer => ?_) h
  simp only [hbuyer, ne_eq, not_false_eq_true, ↓reduceIte]
  rfl

theorem exec_bulkReject_of_gate (henv : env.Available) {err : Exn} (indices : List Int)
    (h : rejectGate db shipmentId buyerAddress = .error err) :
    exec (bulkRejectFromApi env shipmentId buyerAddress indices) db = (.error err, db) := by
  unfold bulkRejectFromApi
  refine exec_of_gate henv rfl (fun shipment hbuyer => ?_) h
  rw [exec_bind, exec_get]
  simp only [hbuyer, ne_eq, not_false_eq_true, ↓reduceIte]
  rfl

/-- Behind the gate the row decides. -/
theorem exec_rejectProof (henv : env.Available) {shipment : Shipment} (index : Int)
    (h : rejectGate db shipmentId buyerAddress = .ok shipment) :
    (SubmittedAt db shipmentId index ∧
      ∃ m, exec (rejectProof env shipmentId index buyerAddress) db =
        (.ok m, db.writeMilestone (shipmentId, index) .proofRejected)) ∨
    (¬ SubmittedAt db shipmentId index ∧
      ∃ err, exec (rejectProof env shipmentId index buyerAddress) db = (.error err, db)) := by
  obtain ⟨hfind, hbuyer⟩ := rejectGate_ok h
  unfold rejectProof SubmittedAt
  rw [exec_bind, exec_shipmentFindUnique, henv]
  simp only [Bool.false_eq_true, ↓reduceIte, hfind, hbuyer, ne_eq, not_true_eq_false]
  rw [exec_bind, exec_findOne, henv]
  cases hlive : db.liveMilestone shipmentId index with
  | none => exact .inr ⟨by simp, _, rfl⟩
  | some m =>
      by_cases hstatus : m.status = .proofSubmitted
      · have hrow := find?_of_liveMilestone db shipmentId index hlive
        obtain ⟨_, _, hrun⟩ := milestoneUpdate_written env db shipmentId (some index)
          .proofRejected ⟨henv _, trivial, by simp [Db.rowAt, hrow]⟩
        simp only [Bool.false_eq_true, ↓reduceIte, hstatus, not_true_eq_false]
        exact .inl ⟨⟨m, rfl, hstatus⟩, _, hrun⟩
      · simp only [Bool.false_eq_true, ↓reduceIte, hstatus, not_false_eq_true]
        exact .inr ⟨by simp [hstatus], _, rfl⟩

theorem exec_bulkReject (henv : env.Available) {shipment : Shipment} (indices : List Int)
    (h : rejectGate db shipmentId buyerAddress = .ok shipment) :
    exec (bulkRejectFromApi env shipmentId buyerAddress indices) db =
      (.ok (bulkResults (bulkRefused db shipmentId "reject" indices)
        (toReject db shipmentId indices) indices),
        db.writeMilestones (bulkRejectWrites db shipmentId indices)) := by
  obtain ⟨hfind, hbuyer⟩ := rejectGate_ok h
  have hbatch := exec_bulkRejectWrites env db shipmentId indices (henv _)
  unfold bulkRejectFromApi
  rw [exec_bind, exec_shipmentFindUnique, henv]
  simp only [Bool.false_eq_true, ↓reduceIte, hfind]
  rw [exec_bind, exec_get]
  simp only [hbuyer, ne_eq, not_true_eq_false, ↓reduceIte]
  by_cases hempty : toReject db shipmentId indices = []
  · have hnone : bulkRejectWrites db shipmentId indices = [] := by
      rw [bulkRejectWrites, hempty, List.map_nil]
    rw [hnone, hempty]
    unfold toReject at hempty
    rw [hempty]
    rfl
  · unfold bulkRejectWrites toReject at hbatch ⊢
    unfold toReject at hempty
    simp only [hempty, not_false_eq_true, ↓reduceIte]
    rw [exec_bind, hbatch]
    rfl

end Reject

section Loop

variable {env : Env} {db : Db} {shipmentId buyerAddress reason : String}

theorem liveMilestone_writeMilestone (db : Db) (shipmentId : String) (index other : Int)
    (write : MilestoneWrite) :
    (db.writeMilestone (shipmentId, index) write).liveMilestone shipmentId other =
      if other = index then (db.liveMilestone shipmentId index).map write.apply
      else db.liveMilestone shipmentId other := by
  simp only [Db.liveMilestone, Db.writeMilestone, Table.find?_modify, Prod.mk.injEq, true_and]
  split
  · cases db.milestones.find? (shipmentId, index) with
    | none => rfl
    | some m =>
        simp only [Option.map_some, Option.filter_some, apply_deletedAt]
        split <;> rfl
  · rfl

/-- Everything a rejection with its notification can do. -/
theorem rejectAndNotify_cases (henv : env.Available) (db : Db)
    (shipmentId buyerAddress reason : String) (index : Int) :
    (∃ shipment, rejectGate db shipmentId buyerAddress = .ok shipment ∧
      SubmittedAt db shipmentId index ∧
      exec (rejectAndNotify env shipmentId buyerAddress reason index) db =
        (.ok (proofRejectedNotice db shipmentId reason index),
          db.writeMilestone (shipmentId, index) .proofRejected)) ∨
    ((∀ shipment, rejectGate db shipmentId buyerAddress = .ok shipment →
        ¬ SubmittedAt db shipmentId index) ∧
      ∃ err, exec (rejectAndNotify env shipmentId buyerAddress reason index) db =
        (.error err, db) ∧
          ∀ err', rejectGate db shipmentId buyerAddress = .error err' → err = err') := by
  unfold rejectAndNotify
  rw [exec_bind, exec_get]
  dsimp only
  rw [exec_bind]
  cases hgate : rejectGate db shipmentId buyerAddress with
  | error err =>
      rw [exec_rejectProof_of_gate henv index hgate]
      refine .inr ⟨by simp, err, rfl, ?_⟩
      intro err' herr
      cases herr
      rfl
  | ok shipment =>
      rcases exec_rejectProof henv index hgate with ⟨hrow, m, hrun⟩ | ⟨hrow, err, hrun⟩
      · rw [hrun]
        exact .inl ⟨shipment, rfl, hrow, rfl⟩
      · rw [hrun]
        exact .inr ⟨fun _ _ => hrow, err, rfl, by simp⟩

theorem succeeds_rejectAndNotify_iff (henv : env.Available) (db : Db) (index : Int) :
    Succeeds (rejectAndNotify env shipmentId buyerAddress reason index) db ↔
      (∃ shipment, rejectGate db shipmentId buyerAddress = .ok shipment) ∧
        SubmittedAt db shipmentId index := by
  rcases rejectAndNotify_cases henv db shipmentId buyerAddress reason index with
    ⟨shipment, hgate, hrow, hrun⟩ | ⟨hnone, err, hrun, -⟩
  · exact iff_of_true ⟨_, by rw [hrun]⟩ ⟨⟨shipment, hgate⟩, hrow⟩
  · refine iff_of_false ?_ fun ⟨⟨shipment, hgate⟩, hrow⟩ => hnone shipment hgate hrow
    rintro ⟨value, hvalue⟩
    rw [hrun] at hvalue
    cases hvalue

theorem submittedAt_rejected {db : Db} {index other : Int} :
    SubmittedAt (db.writeMilestone (shipmentId, index) .proofRejected) shipmentId other ↔
      other ≠ index ∧ SubmittedAt db shipmentId other := by
  unfold SubmittedAt
  rw [liveMilestone_writeMilestone]
  by_cases hother : other = index
  · rw [if_pos hother]
    refine iff_of_false ?_ fun h => h.1 hother
    rintro ⟨m, hm, hstatus⟩
    obtain ⟨row, -, rfl⟩ := Option.map_eq_some_iff.mp hm
    cases hstatus
  · rw [if_neg hother]
    exact (and_iff_right hother).symm

theorem proofRejectedNotice_rejected {db : Db} {index other : Int} (h : other ≠ index) :
    proofRejectedNotice (db.writeMilestone (shipmentId, index) .proofRejected) shipmentId reason
      other = proofRejectedNotice db shipmentId reason other := by
  unfold proofRejectedNotice
  rw [liveMilestone_writeMilestone, if_neg h]
  rfl

theorem after_rejectAndNotify (henv : env.Available) {index : Int}
    (h : Succeeds (rejectAndNotify env shipmentId buyerAddress reason index) db) :
    after (rejectAndNotify env shipmentId buyerAddress reason index) db =
      db.writeMilestone (shipmentId, index) .proofRejected := by
  obtain ⟨⟨shipment, hgate⟩, hrow⟩ := (succeeds_rejectAndNotify_iff henv db index).mp h
  rcases rejectAndNotify_cases henv db shipmentId buyerAddress reason index with
      ⟨_, _, _, hrun⟩ | ⟨hnone, -⟩
  · rw [after, hrun]
  · exact absurd hrow (hnone shipment hgate)

theorem rejects_interference (henv : env.Available) :
    Interference (rejectAndNotify env shipmentId buyerAddress reason) (fun i j => i = j)
      (fun db i => ¬ SubmittedAt db shipmentId i) where
  quiet db index h := by
    rcases rejectAndNotify_cases henv db shipmentId buyerAddress reason index with
      ⟨_, hgate, hrow, -⟩ | ⟨-, err, hrun, -⟩
    · exact absurd ((succeeds_rejectAndNotify_iff henv db index).mpr ⟨⟨_, hgate⟩, hrow⟩) h
    · rw [after, hrun]
  blocks db i j heq h := by
    rw [after_rejectAndNotify henv h, submittedAt_rejected]
    exact fun hrow => hrow.1 heq.symm
  dead db i hdead h := hdead ((succeeds_rejectAndNotify_iff henv db i).mp h).2
  stays db i j hdead h := by
    rw [after_rejectAndNotify henv h, submittedAt_rejected]
    exact fun hrow => hdead hrow.2
  independent db i j hne h := by
    rw [after_rejectAndNotify henv h]
    have hgate : rejectGate (db.writeMilestone (shipmentId, i) .proofRejected) shipmentId
        buyerAddress = rejectGate db shipmentId buyerAddress := rfl
    have hrows : SubmittedAt (db.writeMilestone (shipmentId, i) .proofRejected) shipmentId j ↔
        SubmittedAt db shipmentId j :=
      submittedAt_rejected.trans (and_iff_right (Ne.symm hne))
    have hnotice : proofRejectedNotice (db.writeMilestone (shipmentId, i) .proofRejected)
        shipmentId reason j = proofRejectedNotice db shipmentId reason j :=
      proofRejectedNotice_rejected (Ne.symm hne)
    unfold result?
    rcases rejectAndNotify_cases henv db shipmentId buyerAddress reason j with
      ⟨_, hok, hrow, hrun⟩ | ⟨hnone, err, hrun, -⟩ <;>
    rcases rejectAndNotify_cases henv (db.writeMilestone (shipmentId, i) .proofRejected) shipmentId
        buyerAddress reason j with
      ⟨_, hok', hrow', hrun'⟩ | ⟨hnone', err', hrun', -⟩
    · rw [hrun, hrun', hnotice]
    · exact absurd (hrows.mpr hrow) (hnone' _ (hgate.trans hok))
    · exact absurd (hrows.mp hrow') (hnone _ (hgate.symm.trans hok'))
    · rw [hrun, hrun']
      rfl

theorem exec_bulkRejectAndNotify (henv : env.Available) (db : Db) (indices : List Int) :
    exec (bulkRejectAndNotify env shipmentId buyerAddress reason indices) db =
      match rejectGate db shipmentId buyerAddress with
      | .error err => (.error err, db)
      | .ok _ =>
          (.ok {
            results := bulkResults (bulkRefused db shipmentId "reject" indices)
              (toReject db shipmentId indices) indices
            summary := bulkSummary indices.length (toReject db shipmentId indices).length
            sent := (toReject db shipmentId indices).map
              (proofRejectedNotice db shipmentId reason) },
            db.writeMilestones (bulkRejectWrites db shipmentId indices)) := by
  unfold bulkRejectAndNotify
  rw [exec_bind, exec_get]
  dsimp only
  rw [exec_bind]
  cases hgate : rejectGate db shipmentId buyerAddress with
  | error err => rw [exec_bulkReject_of_gate henv indices hgate]
  | ok shipment =>
      rw [exec_bulkReject henv indices hgate]
      rfl

/-- Behind the gate the calls that succeed are those that the batch accepts. -/
theorem succeeding_rejectAndNotify (henv : env.Available) {shipment : Shipment}
    (hgate : rejectGate db shipmentId buyerAddress = .ok shipment) (reason : String)
    (indices : List Int) :
    succeeding (rejectAndNotify env shipmentId buyerAddress reason) indices db =
      toReject db shipmentId indices := by
  refine List.filter_congr fun i _ => Bool.eq_iff_iff.mpr ?_
  rw [decide_eq_true_iff, succeeds_rejectAndNotify_iff henv, bulkRefusal_isNone_iff]
  exact and_iff_right ⟨shipment, hgate⟩

theorem result?_rejectAndNotify (henv : env.Available) {index : Int}
    (h : Succeeds (rejectAndNotify env shipmentId buyerAddress reason index) db) :
    result? (rejectAndNotify env shipmentId buyerAddress reason index) db =
      some (proofRejectedNotice db shipmentId reason index) := by
  obtain ⟨⟨shipment, hgate⟩, hrow⟩ := (succeeds_rejectAndNotify_iff henv db index).mp h
  rcases rejectAndNotify_cases henv db shipmentId buyerAddress reason index with
      ⟨_, _, _, hrun⟩ | ⟨hnone, -⟩
  · rw [result?, hrun]
    rfl
  · exact absurd hrow (hnone shipment hgate)

theorem writeMilestones_bulkRejectWrites (indices : List Int) :
    db.writeMilestones (bulkRejectWrites db shipmentId indices) =
      (toReject db shipmentId indices).foldl
        (fun db i => db.writeMilestone (shipmentId, i) .proofRejected) db := by
  rw [Db.writeMilestones, bulkRejectWrites, List.foldl_map]

/-- A batch of rejections without repetitions against one rejection after the other: the
same tables, the same successes and notifications in the same order, and counts that
match; where the batch throws, so does every call, with the same exception. -/
theorem bulkReject_eq_each (henv : env.Available) (db : Db)
    (shipmentId buyerAddress reason : String) {indices : List Int} (hnodup : indices.Nodup) :
    let bulk := exec (bulkRejectAndNotify env shipmentId buyerAddress reason indices) db
    let loop := each (rejectAndNotify env shipmentId buyerAddress reason) indices db
    bulk.2 = loop.2 ∧
      bulkSuccesses indices.length bulk.1 = loop.1.map (·.toOption.isSome) ∧
      bulkSent bulk.1 = loop.1.filterMap Except.toOption ∧
      match bulk.1 with
      | .ok response =>
          response.results.map BulkResult.milestoneIndex = indices ∧
            response.summary = ⟨indices.length, loop.1.countP (·.toOption.isSome),
              loop.1.countP (·.toOption.isNone)⟩
      | .error err => loop.1 = indices.map fun _ => .error err := by
  intro bulk loop
  have hbulk : bulk = _ := exec_bulkRejectAndNotify henv db indices
  cases hgate : rejectGate db shipmentId buyerAddress with
  | error err =>
      have hloop : loop = (indices.map fun _ => .error err, db) := by
        refine each_of_error _ fun i _ => ?_
        rcases rejectAndNotify_cases henv db shipmentId buyerAddress reason i with
          ⟨_, hok, -⟩ | ⟨-, err', hrun, herr⟩
        · rw [hgate] at hok
          cases hok
        · rw [hrun, herr err hgate]
      rw [hgate] at hbulk
      rw [hbulk, hloop]
      refine ⟨rfl, ?_, ?_, rfl⟩
      · simp [bulkSuccesses, Except.toOption]
      · simp [bulkSent, Except.toOption]
  | ok shipment =>
      have hsucceeding := succeeding_rejectAndNotify henv hgate reason indices
      have hpairs : (succeeding (rejectAndNotify env shipmentId buyerAddress reason) indices
          db).Pairwise fun i j => ¬ i = j := by
        rw [hsucceeding]
        exact hnodup.filter _
      obtain ⟨houtcomes, hlast⟩ := (rejects_interference henv).each_eq
        (fun db i h => after_rejectAndNotify henv h) hpairs
      obtain ⟨hsuccesses, hsent, hsucceeded, hfailed⟩ :=
        Interference.reports_of_each houtcomes fun i h => result?_rejectAndNotify henv h
      rw [hsucceeding] at hsent hsucceeded hfailed hlast
      rw [hgate] at hbulk
      have hresults := bulkResults_eq db shipmentId "reject" (toReject db shipmentId indices)
        indices rfl
      rw [hbulk]
      refine ⟨?_, ?_, hsent.symm, ?_, ?_⟩
      · rw [hlast, writeMilestones_bulkRejectWrites]
      · rw [hsuccesses]
        simp only [bulkSuccesses, hresults, List.map_map]
        refine List.map_congr_left fun i _ => Bool.eq_iff_iff.mpr ?_
        rw [decide_eq_true_iff, succeeds_rejectAndNotify_iff henv]
        exact (bulkRefusal_isNone_iff ..).trans (and_iff_right ⟨shipment, hgate⟩).symm
      · simp [hresults, Function.comp_def]
      · rw [bulkSummary, hsucceeded, hfailed]

/-- One proof that was submitted, and an index that does not exist. -/
theorem bulkReject_demo :
    let bulk := exec (bulkRejectAndNotify (Env.calm 0) "SHIP-1" "GBUYER" "Blurry" [3, 0])
      (Db.demo .proofSubmitted)
    [(3 : Int), 0].Nodup ∧ bulkSuccesses 2 bulk.1 = [false, true] ∧
      [false, true] = (each (rejectAndNotify (Env.calm 0) "SHIP-1" "GBUYER" "Blurry") [3, 0]
        (Db.demo .proofSubmitted)).1.map (·.toOption.isSome) := by
  have hnodup : [(3 : Int), 0].Nodup := by decide
  have hbulk : bulkSuccesses 2 (exec (bulkRejectAndNotify (Env.calm 0) "SHIP-1" "GBUYER" "Blurry"
      [3, 0]) (Db.demo .proofSubmitted)).1 = [false, true] := by decide
  refine ⟨hnodup, hbulk, hbulk.symm.trans ?_⟩
  exact (bulkReject_eq_each (Env.calm_available 0) (Db.demo .proofSubmitted) "SHIP-1" "GBUYER"
    "Blurry" hnodup).2.1

end Loop

end ChainSettle
