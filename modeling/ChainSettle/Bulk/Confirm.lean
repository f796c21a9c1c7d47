import ChainSettle.Bulk.Reject

/-!
Confirming milestones in a batch and one by one. The batch takes every item that the first
state accepts; the loop stops accepting an index once it is confirmed, and everything once
a sync has found the contract cancelled. An amount that cannot be stored stops the whole
batch, and only its own call in the loop.
-/

namespace ChainSettle

open Lib Lib.Eff

section Single

/-- What both operations check of the shipment. -/
def ConfirmGate (db : Db) (shipmentId callerAddress : String) : Prop :=
  (∃ shipment, db.shipments.find? shipmentId = some shipment ∧
    shipment.buyerAddress = callerAddress ∧ shipment.status ≠ .cancelled) ∧
    QuorumMet db shipmentId

/-- The amount is a number that fits its column. -/
def Payable (paymentReleased : String) : Prop :=
  ∃ amount, bigIntOfString paymentReleased = some amount ∧ fitsBigInt amount

/-- A sync finds the contract cancelled, and says so in the row. -/
def ChainCancels (env : Env) (shipmentId : String) : Prop :=
  ∃ releasedAmount, env.synced shipmentId = some (.cancelled, releasedAmount)

variable {env : Env} {db : Db} {shipmentId callerAddress payment : String} {index : Int}

theorem submitsConfirm_iff : SubmitsConfirm db shipmentId index callerAddress ↔
    ConfirmGate db shipmentId callerAddress ∧ SubmittedAt db shipmentId index := by
  unfold SubmitsConfirm ConfirmGate SubmittedAt Db.liveMilestone
  constructor
  · rintro ⟨shipment, m, hship, hopen, hbuyer, hquorum, hm, hlive, hstatus⟩
    refine ⟨⟨⟨shipment, hship, hbuyer, hopen⟩, hquorum⟩, m, ?_, hstatus⟩
    exact Option.filter_eq_some_iff.mpr ⟨hm, by simp [hlive]⟩
  · rintro ⟨⟨⟨shipment, hship, hbuyer, hopen⟩, hquorum⟩, m, hm, hstatus⟩
    obtain ⟨hrow, hlive⟩ := Option.filter_eq_some_iff.mp hm
    exact ⟨shipment, m, hship, hopen, hbuyer, hquorum, hrow, by simpa using hlive, hstatus⟩

/-- An accepted confirmation has an amount that could be stored. -/
theorem payable_of_confirmFromApi
    (h : Succeeds (confirmFromApi env shipmentId index callerAddress payment) db) :
    Payable payment := by
  unfold confirmFromApi at h
  obtain ⟨found, next, -, h⟩ := (succeeds_bind_iff ..).mp h
  cases found with
  | none => exact absurd h (not_succeeds_throw _ _)
  | some shipment =>
      obtain ⟨_, h⟩ := succeeds_guard_iff.mp h
      obtain ⟨_, next, -, h⟩ := (succeeds_bind_iff ..).mp h
      obtain ⟨m, next, -, h⟩ := (succeeds_bind_iff ..).mp h
      obtain ⟨_, h⟩ := succeeds_guard_iff.mp h
      cases hamount : bigIntOfString payment with
      | none =>
          rw [hamount] at h
          exact absurd h (not_succeeds_throw _ _)
      | some amount =>
          rw [hamount] at h
          have hmarked := (succeeds_confirmWrite_iff next shipmentId index amount).mp h
          exact ⟨amount, hamount, hmarked.2.2.2.1⟩

theorem succeeds_confirmFromApi_iff_gate (henv : env.Available) :
    Succeeds (confirmFromApi env shipmentId index callerAddress payment) db ↔
      ConfirmGate db shipmentId callerAddress ∧ SubmittedAt db shipmentId index ∧
        Payable payment := by
  constructor
  · intro h
    obtain ⟨amount, hamount, hfits⟩ := payable_of_confirmFromApi h
    have hsubmits := (succeeds_confirmFromApi_iff db shipmentId index callerAddress henv hamount
      hfits).mp h
    obtain ⟨hgate, hrow⟩ := submitsConfirm_iff.mp hsubmits
    exact ⟨hgate, hrow, amount, hamount, hfits⟩
  · rintro ⟨hgate, hrow, amount, hamount, hfits⟩
    exact (succeeds_confirmFromApi_iff db shipmentId index callerAddress henv hamount hfits).mpr
      (submitsConfirm_iff.mpr ⟨hgate, hrow⟩)

end Single

section Loop

variable {env : Env} {db : Db} {shipmentId callerAddress : String}

/-- A confirmation at its own time. -/
def confirmAt (env : Env) (shipmentId callerAddress : String) (item : ConfirmRequest × Nat) :
    Tx NotifyRequest :=
  confirmAndNotify { env with now := item.2 } shipmentId callerAddress item.1

def amountOf (paymentReleased : String) : Int := (bigIntOfString paymentReleased).getD 0

/-- What an accepted confirmation leaves. -/
def confirmedAt (env : Env) (shipmentId : String) (db : Db) (item : ConfirmRequest × Nat) : Db :=
  after (syncStatusFromChain env shipmentId)
    (db.writeMilestone (shipmentId, item.1.milestoneIndex)
      (.confirmed (amountOf item.1.paymentReleased) item.2))

theorem succeeds_confirmAt_iff (henv : env.Available) (db : Db) (item : ConfirmRequest × Nat) :
    Succeeds (confirmAt env shipmentId callerAddress item) db ↔
      ConfirmGate db shipmentId callerAddress ∧
        SubmittedAt db shipmentId item.1.milestoneIndex ∧ Payable item.1.paymentReleased := by
  have henv' : Env.Available { env with now := item.2 } := henv
  rw [← succeeds_confirmFromApi_iff_gate henv']
  unfold Succeeds confirmAt confirmAndNotify
  rw [exec_keeping]
  rcases exec (confirmFromApi _ shipmentId _ callerAddress _) db with ⟨_ | _, _⟩ <;> simp

theorem result?_confirmAt {item : ConfirmRequest × Nat}
    (h : Succeeds (confirmAt env shipmentId callerAddress item) db) :
    result? (confirmAt env shipmentId callerAddress item) db =
      some (paymentReleasedNotice db shipmentId item.1) := by
  obtain ⟨value, hvalue⟩ := h
  unfold result?
  unfold confirmAt confirmAndNotify at hvalue ⊢
  rw [exec_keeping] at hvalue ⊢
  rcases hrun : exec (confirmFromApi _ shipmentId _ callerAddress _) db with ⟨_ | _, _⟩
  · rw [hrun] at hvalue
    cases hvalue
  · rfl

theorem after_confirmAt_eq (item : ConfirmRequest × Nat) :
    after (confirmAt env shipmentId callerAddress item) db =
      after (confirmFromApi { env with now := item.2 } shipmentId item.1.milestoneIndex
        callerAddress item.1.paymentReleased) db := by
  unfold after confirmAt confirmAndNotify
  rw [exec_keeping]
  rcases exec (confirmFromApi _ shipmentId _ callerAddress _) db with ⟨_ | _, _⟩ <;> rfl

theorem after_confirmAt (henv : env.Available) {item : ConfirmRequest × Nat}
    (h : Succeeds (confirmAt env shipmentId callerAddress item) db) :
    after (confirmAt env shipmentId callerAddress item) db =
      confirmedAt env shipmentId db item := by
  obtain ⟨hgate, ⟨m, hlive, hstatus⟩, amount, hamount, hfits⟩ :=
    (succeeds_confirmAt_iff henv db item).mp h
  obtain ⟨⟨shipment, hship, hbuyer, hopen⟩, hquorum⟩ := hgate
  have hrow := find?_of_liveMilestone db shipmentId _ hlive
  have henv' : Env.Available { env with now := item.2 } := henv
  have hmarked := (marked_confirmed_iff db shipmentId item.1.milestoneIndex henv' hfits hship
    hrow).mpr hopen
  rw [after_confirmAt_eq]
  refine (after_confirmFromApi { env with now := item.2 } _ _ _ _ _ amount
    ⟨henv _, ⟨shipment, hship, hbuyer⟩, henv _, hquorum, henv _, ⟨m, hlive, hstatus⟩, hamount,
      hmarked⟩).trans ?_
  simp only [confirmedAt, amountOf, hamount, Option.getD_some]
  rfl

theorem quiet_confirmAt {item : ConfirmRequest × Nat} (henv : env.Available)
    (h : ¬ Succeeds (confirmAt env shipmentId callerAddress item) db) :
    after (confirmAt env shipmentId callerAddress item) db = db := by
  rw [after_confirmAt_eq]
  refine after_confirmFromApi_of_not_confirms _ _ _ _ _ _ fun amount hconfirms => h ?_
  rw [succeeds_confirmAt_iff henv]
  obtain ⟨shipment, hship, hbuyer⟩ := hconfirms.shipment
  have hopen : shipment.status ≠ .cancelled := by
    have hlive := hconfirms.marked.2.1
    rw [Db.cancelled, hship] at hlive
    exact of_decide_eq_false hlive
  exact ⟨⟨⟨shipment, hship, hbuyer, hopen⟩, hconfirms.quorum⟩, hconfirms.milestone,
    amount, hconfirms.parsed, hconfirms.marked.2.2.2.1⟩

theorem liveMilestone_confirmedAt (item : ConfirmRequest × Nat) (index : Int) :
    (confirmedAt env shipmentId db item).liveMilestone shipmentId index =
      if index = item.1.milestoneIndex then
        (db.liveMilestone shipmentId index).map
          (MilestoneWrite.confirmed (amountOf item.1.paymentReleased) item.2).apply
      else db.liveMilestone shipmentId index := by
  have hsame : (confirmedAt env shipmentId db item).liveMilestone shipmentId index =
      (db.writeMilestone (shipmentId, item.1.milestoneIndex)
        (.confirmed (amountOf item.1.paymentReleased) item.2)).liveMilestone shipmentId index := by
    unfold confirmedAt Db.liveMilestone
    rw [milestones_after_sync]
  rw [hsame, liveMilestone_writeMilestone]
  by_cases hindex : index = item.1.milestoneIndex
  · rw [if_pos hindex, if_pos hindex, hindex]
  · rw [if_neg hindex, if_neg hindex]

theorem submittedAt_confirmedAt {item : ConfirmRequest × Nat} {index : Int} :
    SubmittedAt (confirmedAt env shipmentId db item) shipmentId index ↔
      index ≠ item.1.milestoneIndex ∧ SubmittedAt db shipmentId index := by
  unfold SubmittedAt
  rw [liveMilestone_confirmedAt]
  by_cases hindex : index = item.1.milestoneIndex
  · rw [if_pos hindex]
    refine iff_of_false ?_ fun h => h.1 hindex
    rintro ⟨m, hm, hstatus⟩
    obtain ⟨row, -, rfl⟩ := Option.map_eq_some_iff.mp hm
    cases hstatus
  · rw [if_neg hindex]
    exact (and_iff_right hindex).symm

theorem find?_confirmedAt (item : ConfirmRequest × Nat) :
    (confirmedAt env shipmentId db item).shipments.find? shipmentId =
      (db.shipments.find? shipmentId).map env.syncedRow := by
  unfold confirmedAt
  rw [find?_after_sync, if_pos rfl]
  rfl

theorem syncedRow_fields (env : Env) (shipment : Shipment) :
    (env.syncedRow shipment).buyerAddress = shipment.buyerAddress ∧
      (env.syncedRow shipment).supplierAddress = shipment.supplierAddress ∧
      (env.syncedRow shipment).requiredApprovals = shipment.requiredApprovals := by
  unfold Env.syncedRow
  split <;> exact ⟨rfl, rfl, rfl⟩

theorem supplierAddress_confirmedAt (item : ConfirmRequest × Nat) :
    (confirmedAt env shipmentId db item).supplierAddress shipmentId =
      db.supplierAddress shipmentId := by
  unfold Db.supplierAddress
  rw [find?_confirmedAt]
  cases db.shipments.find? shipmentId with
  | none => rfl
  | some shipment => exact (syncedRow_fields env shipment).2.1

/-- A confirmation leaves the gate open, unless its sync cancels the shipment. -/
theorem confirmGate_confirmedAt {item : ConfirmRequest × Nat}
    (h : ConfirmGate db shipmentId callerAddress) :
    ConfirmGate (confirmedAt env shipmentId db item) shipmentId callerAddress ↔
      ¬ ChainCancels env shipmentId := by
  obtain ⟨⟨shipment, hship, hbuyer, hopen⟩, hquorum⟩ := h
  obtain ⟨hbuyer', -, hrequired⟩ := syncedRow_fields env shipment
  have hid : shipment.id = shipmentId := Table.key_of_find? hship
  have hquorum' : QuorumMet (confirmedAt env shipmentId db item) shipmentId := by
    have happrovals : (confirmedAt env shipmentId db item).approvals = db.approvals := by
      unfold confirmedAt
      obtain ⟨shipments, hframe, -⟩ := sync_frame env
        (db.writeMilestone (shipmentId, item.1.milestoneIndex)
          (.confirmed (amountOf item.1.paymentReleased) item.2)) shipmentId
      rw [hframe]
      rfl
    unfold QuorumMet at hquorum ⊢
    rw [find?_confirmedAt, happrovals, hship]
    rw [hship] at hquorum
    simpa [hrequired] using hquorum
  unfold ConfirmGate ChainCancels
  rw [find?_confirmedAt, hship]
  simp only [Option.map_some, Option.some.injEq, exists_eq_left', hbuyer', hbuyer, true_and,
    and_iff_left hquorum']
  unfold Env.syncedRow
  rw [hid]
  cases env.synced shipmentId with
  | none => simp [hopen]
  | some written =>
      obtain ⟨status, releasedAmount⟩ := written
      simp [Shipment.sync]

/-- An item blocks a later one of its index, and every later one if the sync cancels. -/
def ConfirmBlocks (env : Env) (shipmentId : String) (item later : ConfirmRequest) : Prop :=
  item.milestoneIndex = later.milestoneIndex ∨ ChainCancels env shipmentId

theorem confirms_interference (henv : env.Available) :
    Interference (confirmAt env shipmentId callerAddress)
      (fun item later => ConfirmBlocks env shipmentId item.1 later.1)
      (fun db item => ¬ (ConfirmGate db shipmentId callerAddress ∧
        SubmittedAt db shipmentId item.1.milestoneIndex)) where
  quiet db item h := quiet_confirmAt henv h
  blocks db item later hblocks h := by
    have hgate := ((succeeds_confirmAt_iff henv db item).mp h).1
    rw [after_confirmAt henv h, confirmGate_confirmedAt hgate, submittedAt_confirmedAt]
    rintro ⟨hopen, hne, -⟩
    exact hblocks.elim (fun heq => hne heq.symm) hopen
  dead db item hdead h := by
    obtain ⟨hgate, hrow, -⟩ := (succeeds_confirmAt_iff henv db item).mp h
    exact hdead ⟨hgate, hrow⟩
  stays db item other hdead h := by
    have hgate := ((succeeds_confirmAt_iff henv db item).mp h).1
    rw [after_confirmAt henv h, submittedAt_confirmedAt]
    exact fun hboth => hdead ⟨hgate, hboth.2.2⟩
  independent db item later hfree h := by
    obtain ⟨hindex, hchain⟩ := not_or.mp hfree
    have hgate := ((succeeds_confirmAt_iff henv db item).mp h).1
    have hsame : Succeeds (confirmAt env shipmentId callerAddress later)
        (confirmedAt env shipmentId db item) ↔
        Succeeds (confirmAt env shipmentId callerAddress later) db := by
      rw [succeeds_confirmAt_iff henv, succeeds_confirmAt_iff henv, submittedAt_confirmedAt,
        and_iff_right (Ne.symm hindex)]
      exact and_congr_left' (iff_of_true ((confirmGate_confirmedAt hgate).mpr hchain) hgate)
    rw [after_confirmAt henv h]
    by_cases hlater : Succeeds (confirmAt env shipmentId callerAddress later) db
    · rw [result?_confirmAt hlater, result?_confirmAt (hsame.mpr hlater)]
      simp only [paymentReleasedNotice, supplierAddress_confirmedAt]
    · rw [result?_eq_none hlater, result?_eq_none fun hafter => hlater (hsame.mp hafter)]

end Loop

section Batch

variable {env : Env} {db : Db} {shipmentId callerAddress : String}

/-- The writes of a batch, when all amounts can be read. -/
theorem bulkConfirmWrites_eq (env : Env) (shipmentId : String) (items : List BulkConfirmItem) :
    bulkConfirmWrites env shipmentId items =
      if ∀ item ∈ items, (bigIntOfString item.paymentReleased).isSome then
        some (items.map fun item => ((shipmentId, item.milestoneIndex),
          .confirmed (amountOf item.paymentReleased) env.now))
      else none := by
  unfold bulkConfirmWrites
  induction items with
  | nil => rfl
  | cons item rest ih =>
      rw [List.mapM_cons, ih]
      cases hamount : bigIntOfString item.paymentReleased with
      | none => simp [hamount]
      | some amount =>
          by_cases hrest : ∀ other ∈ rest, (bigIntOfString other.paymentReleased).isSome
          · rw [if_pos hrest, if_pos (List.forall_mem_cons.mpr ⟨by simp [hamount], hrest⟩)]
            simp [amountOf, hamount]
          · rw [if_neg hrest, if_neg fun h => hrest (List.forall_mem_cons.mp h).2]
            rfl

theorem exec_bulkConfirm_of_not_gate (henv : env.Available) (items : List BulkConfirmItem)
    (h : ¬ ConfirmGate db shipmentId callerAddress) :
    ∃ err, exec (bulkConfirmFromApi env shipmentId callerAddress items) db = (.error err, db) := by
  unfold bulkConfirmFromApi
  rw [exec_bind, exec_shipmentFindUnique, henv]
  simp only [Bool.false_eq_true, ↓reduceIte]
  cases hship : db.shipments.find? shipmentId with
  | none => exact ⟨_, rfl⟩
  | some shipment =>
      simp only [exec_bind, exec_get]
      by_cases hbuyer : shipment.buyerAddress = callerAddress
      · by_cases hopen : shipment.status = .cancelled
        · simp only [hbuyer, hopen, ne_eq, not_true_eq_false, ↓reduceIte]
          exact ⟨_, rfl⟩
        · obtain ⟨err, hrun⟩ : ∃ err, exec (assertQuorum env shipmentId) db = (.error err, db) :=
            exec_assertQuorum_of_not_met db shipmentId fun hquorum =>
              h ⟨⟨shipment, hship, hbuyer, hopen⟩, hquorum⟩
          simp only [hbuyer, hopen, ne_eq, not_true_eq_false, ↓reduceIte]
          rw [exec_bind, hrun]
          exact ⟨err, rfl⟩
      · simp only [hbuyer, ne_eq, not_false_eq_true, ↓reduceIte]
        exact ⟨_, rfl⟩

/-- Behind the gate the amounts of the accepted items decide about all of them. -/
theorem exec_bulkConfirm (henv : env.Available) (items : List BulkConfirmItem)
    (h : ConfirmGate db shipmentId callerAddress) :
    ((∀ item ∈ toConfirm db shipmentId items, Payable item.paymentReleased) ∧
      ∃ last, exec (bulkConfirmFromApi env shipmentId callerAddress items) db =
        (.ok (bulkResults
          (bulkRefused db shipmentId "confirm" (items.map BulkConfirmItem.milestoneIndex))
          ((toConfirm db shipmentId items).map BulkConfirmItem.milestoneIndex)
          (items.map BulkConfirmItem.milestoneIndex)), last) ∧
        last.milestones = (db.writeMilestones ((toConfirm db shipmentId items).map fun item =>
          ((shipmentId, item.milestoneIndex),
            .confirmed (amountOf item.paymentReleased) env.now))).milestones) ∨
    (¬ (∀ item ∈ toConfirm db shipmentId items, Payable item.paymentReleased) ∧
      ∃ err, exec (bulkConfirmFromApi env shipmentId callerAddress items) db =
        (.error err, db)) := by
  obtain ⟨⟨shipment, hship, hbuyer, hopen⟩, hquorum⟩ := h
  have hmet := exec_assertQuorum_of_met env db shipmentId (henv _) hquorum
  unfold bulkConfirmFromApi
  rw [exec_bind, exec_shipmentFindUnique, henv]
  simp only [Bool.false_eq_true, ↓reduceIte, hship]
  rw [exec_bind, exec_get]
  simp only [hbuyer, hopen, ne_eq, not_true_eq_false, ↓reduceIte]
  rw [exec_bind, hmet]
  dsimp only
  unfold toConfirm
  have hsubmitted : ∀ item ∈ items.filter fun item =>
      (bulkRefusal db shipmentId "confirm" item.milestoneIndex).isNone,
      (db.milestones.find? (shipmentId, item.milestoneIndex)).isSome := by
    intro item hitem
    obtain ⟨m, hm, -⟩ := submitted_of_bulkRefusal_none db shipmentId item.milestoneIndex "confirm"
      (Option.isNone_iff_eq_none.mp (List.mem_filter.mp hitem).2)
    rw [hm]
    rfl
  generalize (items.filter fun item =>
    (bulkRefusal db shipmentId "confirm" item.milestoneIndex).isNone) = accepted at hsubmitted ⊢
  by_cases hempty : accepted = []
  · subst hempty
    exact .inl ⟨by simp, db, rfl, rfl⟩
  · have hwrites := bulkConfirmWrites_eq env shipmentId accepted
    have hrows : ∀ entry ∈ accepted.map fun item => ((shipmentId, item.milestoneIndex),
        MilestoneWrite.confirmed (amountOf item.paymentReleased) env.now),
        (db.milestones.find? entry.1).isSome := by
      intro entry hentry
      obtain ⟨item, hitem, rfl⟩ := List.mem_map.mp hentry
      exact hsubmitted item hitem
    simp only [hempty, not_false_eq_true, ↓reduceIte]
    by_cases hparsed : ∀ item ∈ accepted, (bigIntOfString item.paymentReleased).isSome
    · rw [if_pos hparsed] at hwrites
      have hpayable : (∀ item ∈ accepted, Payable item.paymentReleased) ↔
          ∀ entry ∈ accepted.map fun item => ((shipmentId, item.milestoneIndex),
            MilestoneWrite.confirmed (amountOf item.paymentReleased) env.now),
            entry.2.Storable := by
        rw [List.forall_mem_map]
        refine forall₂_congr fun item hitem => ?_
        obtain ⟨amount, hamount⟩ := Option.isSome_iff_exists.mp (hparsed item hitem)
        simp [Payable, amountOf, hamount, MilestoneWrite.Storable]
      simp only [hwrites]
      by_cases hfits : ∀ item ∈ accepted, Payable item.paymentReleased
      · have hbatch := exec_milestoneTransaction env db _ (henv _) (hpayable.mp hfits) hrows
        refine .inl ⟨hfits, after (syncStatusFromChain env shipmentId) _, ?_,
          milestones_after_sync ..⟩
        rw [exec_bind, hbatch]
        dsimp only
        rw [exec_bind, exec_sync]
        rfl
      · obtain ⟨err, hrun⟩ := milestoneTransaction_rejected env db _
          fun hboth => hfits (hpayable.mpr hboth.2)
        refine .inr ⟨hfits, err, ?_⟩
        rw [exec_bind, hrun]
    · rw [if_neg hparsed] at hwrites
      refine .inr ⟨fun hall => hparsed fun item hitem => ?_, .invalidValue, ?_⟩
      · obtain ⟨amount, hamount, -⟩ := hall item hitem
        rw [hamount]
        rfl
      · simp only [hwrites]
        rfl

/-- The statuses and payments of all milestones. -/
def payments (db : Db) : List (MilestoneKey × MilestoneStatus × Option Int) :=
  db.milestones.rows.map fun m => (m.key, m.status, m.paymentReleased)

/-- What a confirmation changes of them. -/
def pay (shipmentId : String) (rows : List (MilestoneKey × MilestoneStatus × Option Int))
    (item : ConfirmRequest) : List (MilestoneKey × MilestoneStatus × Option Int) :=
  rows.map fun row =>
    if row.1 = (shipmentId, item.milestoneIndex) then
      (row.1, .confirmed, some (amountOf item.paymentReleased))
    else row

theorem payments_write (db : Db) (item : ConfirmRequest) (now : Nat) :
    payments (db.writeMilestone (shipmentId, item.milestoneIndex)
      (.confirmed (amountOf item.paymentReleased) now)) = pay shipmentId (payments db) item := by
  simp only [payments, pay, Db.writeMilestone, Table.modify, List.map_map]
  refine List.map_congr_left fun m _ => ?_
  by_cases hkey : m.key = (shipmentId, item.milestoneIndex) <;>
    simp [hkey, MilestoneWrite.apply]
  simpa [Milestone.key] using hkey

theorem payments_confirmedAt (db : Db) (item : ConfirmRequest × Nat) :
    payments (confirmedAt env shipmentId db item) = pay shipmentId (payments db) item.1 := by
  rw [← payments_write db item.1 item.2, confirmedAt, payments, milestones_after_sync]
  rfl

theorem payments_foldl_confirmedAt (items : List (ConfirmRequest × Nat)) (db : Db) :
    payments (items.foldl (confirmedAt env shipmentId) db) =
      (items.map Prod.fst).foldl (pay shipmentId) (payments db) := by
  induction items generalizing db with
  | nil => rfl
  | cons item rest ih =>
      rw [List.foldl_cons, ih, payments_confirmedAt]
      rfl

theorem payments_writeMilestones (items : List ConfirmRequest) (now : Nat) (db : Db) :
    payments (db.writeMilestones (items.map fun item => ((shipmentId, item.milestoneIndex),
      .confirmed (amountOf item.paymentReleased) now))) =
      items.foldl (pay shipmentId) (payments db) := by
  induction items generalizing db with
  | nil => rfl
  | cons item rest ih =>
      rw [List.foldl_cons, ← payments_write db item now, ← ih]
      rfl

theorem toConfirm_map (items : List ConfirmRequest) :
    toConfirm db shipmentId (items.map ConfirmRequest.toBulkConfirmItem) =
      (acceptedItems db shipmentId items).map ConfirmRequest.toBulkConfirmItem :=
  List.filter_map ..

/-- Everything a batch with its notifications can do. -/
theorem bulkConfirmAndNotify_cases (henv : env.Available) (db : Db)
    (shipmentId callerAddress : String) (items : List ConfirmRequest) :
    ((ConfirmGate db shipmentId callerAddress ∧
        ∀ item ∈ acceptedItems db shipmentId items, Payable item.paymentReleased) ∧
      ∃ response last, exec (bulkConfirmAndNotify env shipmentId callerAddress items) db =
          (.ok response, last) ∧
        response.results.map BulkResult.success =
          items.map (fun item => (bulkRefusal db shipmentId "confirm" item.milestoneIndex).isNone) ∧
        response.sent =
          (acceptedItems db shipmentId items).map (paymentReleasedNotice db shipmentId) ∧
        payments last =
          (acceptedItems db shipmentId items).foldl (pay shipmentId) (payments db)) ∨
    (¬ (ConfirmGate db shipmentId callerAddress ∧
        ∀ item ∈ acceptedItems db shipmentId items, Payable item.paymentReleased) ∧
      ∃ err, exec (bulkConfirmAndNotify env shipmentId callerAddress items) db =
        (.error err, db)) := by
  unfold bulkConfirmAndNotify
  rw [exec_bind, exec_get]
  dsimp only
  rw [exec_bind]
  by_cases hgate : ConfirmGate db shipmentId callerAddress
  · rcases exec_bulkConfirm henv (items.map ConfirmRequest.toBulkConfirmItem) hgate with
      ⟨hpayable, last, hrun, hlast⟩ | ⟨hpayable, err, hrun⟩
    · rw [toConfirm_map] at hpayable hlast
      rw [List.forall_mem_map] at hpayable
      rw [hrun]
      refine .inl ⟨⟨hgate, hpayable⟩, _, last, rfl, ?_, rfl, ?_⟩
      · dsimp only
        have hresults := bulkResults_eq db shipmentId "confirm"
          ((toConfirm db shipmentId (items.map ConfirmRequest.toBulkConfirmItem)).map
            BulkConfirmItem.milestoneIndex)
          ((items.map ConfirmRequest.toBulkConfirmItem).map BulkConfirmItem.milestoneIndex) (by
            rw [List.filter_map]
            rfl)
        rw [hresults]
        simp [Function.comp_def]
      · rw [← payments_writeMilestones _ env.now, payments, hlast, List.map_map]
        rfl
    · rw [toConfirm_map, List.forall_mem_map] at hpayable
      rw [hrun]
      exact .inr ⟨fun hboth => hpayable hboth.2, err, rfl⟩
  · obtain ⟨err, hrun⟩ := exec_bulkConfirm_of_not_gate henv
      (items.map ConfirmRequest.toBulkConfirmItem) hgate
    rw [hrun]
    exact .inr ⟨fun hboth => hgate hboth.1, err, rfl⟩

end Batch

section Agreement

variable {env : Env} {db : Db} {shipmentId callerAddress : String}
  {items : List (ConfirmRequest × Nat)}

/-- The batch and the loop, in which every call has its own time, leave the same statuses and
payments, report the same successes and send the same notifications. -/
def BulkConfirmAgrees (env : Env) (db : Db) (shipmentId callerAddress : String)
    (items : List (ConfirmRequest × Nat)) : Prop :=
  let bulk := exec (bulkConfirmAndNotify env shipmentId callerAddress (items.map Prod.fst)) db
  let loop := each (confirmAt env shipmentId callerAddress) items db
  payments bulk.2 = payments loop.2 ∧
    bulkSuccesses items.length bulk.1 = loop.1.map (·.toOption.isSome) ∧
    bulkSent bulk.1 = loop.1.filterMap Except.toOption

/-- Where the gate lets the batch through: no accepted amount can be stored, or all of them
can, and no accepted item blocks another. -/
def BulkConfirmsAlike (env : Env) (db : Db) (shipmentId callerAddress : String)
    (items : List ConfirmRequest) : Prop :=
  ConfirmGate db shipmentId callerAddress →
    (∀ item ∈ acceptedItems db shipmentId items, ¬ Payable item.paymentReleased) ∨
      (∀ item ∈ acceptedItems db shipmentId items, Payable item.paymentReleased) ∧
        (acceptedItems db shipmentId items).Pairwise fun item later =>
          ¬ ConfirmBlocks env shipmentId item later

theorem bulkConfirmAgrees_of_none (henv : env.Available)
    (h : ∀ item ∈ items, ¬ Succeeds (confirmAt env shipmentId callerAddress item) db) :
    BulkConfirmAgrees env db shipmentId callerAddress items := by
  have hsucceeding : succeeding (confirmAt env shipmentId callerAddress) items db = [] := by
    rw [List.eq_nil_iff_forall_not_mem]
    intro item hmem
    obtain ⟨hitem, hsucceeds⟩ := mem_succeeding.mp hmem
    exact h item hitem hsucceeds
  have hpairs : (succeeding (confirmAt env shipmentId callerAddress) items db).Pairwise
      fun item later => ¬ ConfirmBlocks env shipmentId item.1 later.1 := by
    rw [hsucceeding]
    exact .nil
  obtain ⟨houtcomes, hlast⟩ := (confirms_interference henv).each_eq
    (fun db item h => after_confirmAt henv h) hpairs
  obtain ⟨hsuccesses, hsent, -⟩ :=
    Interference.reports_of_each houtcomes fun item h => result?_confirmAt h
  have hfalse : items.map (fun item =>
      decide (Succeeds (confirmAt env shipmentId callerAddress item) db)) =
        List.replicate items.length false := by
    rw [← List.map_const']
    exact List.map_congr_left fun item hmem => decide_eq_false (h item hmem)
  rw [hsucceeding] at hsent hlast
  unfold BulkConfirmAgrees
  simp only [hsuccesses, hsent, hlast, hfalse, List.map_nil, List.foldl_nil]
  rcases bulkConfirmAndNotify_cases henv db shipmentId callerAddress (items.map Prod.fst) with
    ⟨⟨hgate, hpayable⟩, response, last, hrun, hresults, hsent', hpayments⟩ | ⟨-, err, hrun⟩
  · have hrefused : ∀ item ∈ items,
        ¬ (bulkRefusal db shipmentId "confirm" item.1.milestoneIndex).isNone := by
      intro item hmem haccepted
      refine h item hmem ((succeeds_confirmAt_iff henv db item).mpr ⟨hgate, ?_, ?_⟩)
      · exact (bulkRefusal_isNone_iff ..).mp haccepted
      · exact hpayable item.1
          (List.mem_filter.mpr ⟨List.mem_map_of_mem hmem, haccepted⟩)
    have haccepted : acceptedItems db shipmentId (items.map Prod.fst) = [] := by
      refine List.filter_eq_nil_iff.mpr (List.forall_mem_map.mpr hrefused)
    rw [haccepted] at hsent' hpayments
    rw [hrun]
    refine ⟨hpayments, ?_, hsent'⟩
    rw [bulkSuccesses, hresults, List.map_map, ← List.map_const']
    exact List.map_congr_left fun item hmem => Bool.eq_false_iff.mpr (hrefused item hmem)
  · rw [hrun]
    exact ⟨rfl, rfl, rfl⟩

/-- Behind the gate, with amounts that can be stored, the calls that succeed are those of the
items that the batch accepts. -/
theorem map_fst_succeeding (henv : env.Available)
    (hgate : ConfirmGate db shipmentId callerAddress)
    (hpayable : ∀ item ∈ acceptedItems db shipmentId (items.map Prod.fst),
      Payable item.paymentReleased) :
    (∀ item ∈ items, Succeeds (confirmAt env shipmentId callerAddress item) db ↔
        (bulkRefusal db shipmentId "confirm" item.1.milestoneIndex).isNone) ∧
      (succeeding (confirmAt env shipmentId callerAddress) items db).map Prod.fst =
        acceptedItems db shipmentId (items.map Prod.fst) := by
  have hsucceeds : ∀ item ∈ items,
      Succeeds (confirmAt env shipmentId callerAddress item) db ↔
        (bulkRefusal db shipmentId "confirm" item.1.milestoneIndex).isNone := by
    intro item hmem
    rw [succeeds_confirmAt_iff henv, ← bulkRefusal_isNone_iff db shipmentId "confirm",
      and_iff_right hgate, and_iff_left_iff_imp]
    exact fun haccepted => hpayable item.1
      (List.mem_filter.mpr ⟨List.mem_map_of_mem hmem, haccepted⟩)
  refine ⟨hsucceeds, ?_⟩
  rw [acceptedItems, List.filter_map, succeeding]
  refine congrArg _ (List.filter_congr fun item hmem => Bool.eq_iff_iff.mpr ?_)
  rw [decide_eq_true_iff]
  exact hsucceeds item hmem

/-- A batch of confirmations against one confirmation after the other: they agree where the
batch is turned away as a whole, or none of the accepted amounts can be stored, or all of
them can, no index is accepted twice, and no sync cancels the shipment in between. -/
theorem bulkConfirm_agrees_iff (henv : env.Available) (db : Db) (shipmentId callerAddress : String)
    (items : List (ConfirmRequest × Nat)) :
    BulkConfirmAgrees env db shipmentId callerAddress items ↔
      BulkConfirmsAlike env db shipmentId callerAddress (items.map Prod.fst) := by
  rcases bulkConfirmAndNotify_cases henv db shipmentId callerAddress (items.map Prod.fst) with
    ⟨⟨hgate, hpayable⟩, response, last, hrun, hresults, hsent, hpayments⟩ | ⟨hrefused, err, hrun⟩
  · obtain ⟨hsucceeds, hsucceeding⟩ := map_fst_succeeding henv hgate hpayable
    have hflags : response.results.map BulkResult.success = items.map fun item =>
        decide (Succeeds (confirmAt env shipmentId callerAddress item) db) := by
      rw [hresults, List.map_map]
      refine List.map_congr_left fun item hmem => Bool.eq_iff_iff.mpr ?_
      rw [decide_eq_true_iff]
      exact (hsucceeds item hmem).symm
    have hpairs : (succeeding (confirmAt env shipmentId callerAddress) items db).Pairwise
        (fun item later => ¬ ConfirmBlocks env shipmentId item.1 later.1) ↔
        (acceptedItems db shipmentId (items.map Prod.fst)).Pairwise fun item later =>
          ¬ ConfirmBlocks env shipmentId item later := by
      rw [← hsucceeding, List.pairwise_map]
    constructor
    · rintro ⟨-, hsame, -⟩ -
      rw [hrun] at hsame
      refine .inr ⟨hpayable, hpairs.mp ((confirms_interference henv).pairwise_of_each ?_)⟩
      rw [← hsame, bulkSuccesses, hflags]
      exact List.map_congr_left fun item _ => Bool.eq_iff_iff.mpr
        (decide_eq_true_iff.trans result?_isSome_iff.symm)
    · intro halike
      rcases halike hgate with hnone | ⟨-, hpair⟩
      · refine bulkConfirmAgrees_of_none henv fun item hmem hitem => ?_
        have haccepted : item.1 ∈ acceptedItems db shipmentId (items.map Prod.fst) :=
          List.mem_filter.mpr ⟨List.mem_map_of_mem hmem, (hsucceeds item hmem).mp hitem⟩
        exact hnone item.1 haccepted (hpayable item.1 haccepted)
      · obtain ⟨houtcomes, hlast⟩ := (confirms_interference henv).each_eq
          (fun db item h => after_confirmAt henv h) (hpairs.mpr hpair)
        obtain ⟨hsuccesses, hnotices, -⟩ :=
          Interference.reports_of_each houtcomes fun item h => result?_confirmAt h
        unfold BulkConfirmAgrees
        rw [hrun]
        refine ⟨?_, ?_, ?_⟩
        · rw [hlast, payments_foldl_confirmedAt, hsucceeding]
          exact hpayments
        · exact hflags.trans hsuccesses.symm
        · rw [hnotices, bulkSent, hsent, ← hsucceeding, List.map_map]
          rfl
  · constructor
    · rintro ⟨-, hsame, -⟩ hgate
      rw [hrun] at hsame
      have hflags : ∀ outcome ∈ (each (confirmAt env shipmentId callerAddress) items db).1,
          outcome.toOption.isSome = false := by
        intro outcome hmem
        have hflag : outcome.toOption.isSome ∈ List.replicate items.length false := by
          rw [show List.replicate items.length false = _ from hsame]
          exact List.mem_map_of_mem hmem
        exact List.eq_of_mem_replicate hflag
      have hnone := (confirms_interference henv).not_succeeds_of_each hflags
      refine .inl fun item haccepted hpayable => ?_
      obtain ⟨hmem, hrow⟩ := List.mem_filter.mp haccepted
      obtain ⟨timed, htimed, rfl⟩ := List.mem_map.mp hmem
      exact hnone timed htimed ((succeeds_confirmAt_iff henv db timed).mpr
        ⟨hgate, (bulkRefusal_isNone_iff ..).mp hrow, hpayable⟩)
    · intro halike
      refine bulkConfirmAgrees_of_none henv fun item hmem hitem => ?_
      obtain ⟨hgate, hrow, hpayable⟩ := (succeeds_confirmAt_iff henv db item).mp hitem
      have haccepted : item.1 ∈ acceptedItems db shipmentId (items.map Prod.fst) :=
        List.mem_filter.mpr ⟨List.mem_map_of_mem hmem, (bulkRefusal_isNone_iff ..).mpr hrow⟩
      rcases halike hgate with hnone | ⟨hall, -⟩
      · exact hnone item.1 haccepted hpayable
      · exact hrefused ⟨hgate, hall⟩

theorem bulkConfirm_agrees_demo :
    BulkConfirmAgrees (Env.calm 0) (Db.demo .proofSubmitted) "SHIP-1" "GBUYER"
        [(⟨⟨0, "500"⟩, "tx-1"⟩, 1)] ↔
      BulkConfirmsAlike (Env.calm 0) (Db.demo .proofSubmitted) "SHIP-1" "GBUYER"
        [⟨⟨0, "500"⟩, "tx-1"⟩] :=
  bulkConfirm_agrees_iff (Env.calm_available 0) (Db.demo .proofSubmitted) "SHIP-1" "GBUYER"
    [(⟨⟨0, "500"⟩, "tx-1"⟩, 1)]

/-- The same milestone twice: both items succeed in the batch, and the second amount stays. -/
theorem repeated_confirmation :
    ¬ BulkConfirmAgrees (Env.calm 0) (Db.demo .proofSubmitted) "SHIP-1" "GBUYER"
      [(⟨⟨0, "500"⟩, "tx-1"⟩, 1), (⟨⟨0, "700"⟩, "tx-2"⟩, 2)] := by
  rintro ⟨-, hsame, -⟩
  have hbulk : bulkSuccesses 2 (exec (bulkConfirmAndNotify (Env.calm 0) "SHIP-1" "GBUYER"
      [⟨⟨0, "500"⟩, "tx-1"⟩, ⟨⟨0, "700"⟩, "tx-2"⟩]) (Db.demo .proofSubmitted)).1 =
        [true, true] := by decide
  have hloop : (each (confirmAt (Env.calm 0) "SHIP-1" "GBUYER")
      [(⟨⟨0, "500"⟩, "tx-1"⟩, 1), (⟨⟨0, "700"⟩, "tx-2"⟩, 2)] (Db.demo .proofSubmitted)).1.map
        (·.toOption.isSome) = [true, false] := by decide
  exact absurd (hbulk.symm.trans (hsame.trans hloop)) (by decide)

end Agreement

end ChainSettle
