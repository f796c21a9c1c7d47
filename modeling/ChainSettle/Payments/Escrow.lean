import ChainSettle.Mirror.Reconciliation
import ChainSettle.Payments.TimeSeries
import Mathlib.Algebra.Order.BigOperators.Group.List

/-!
Do the recorded payments of a shipment stay within its escrow? An event carries
the amount the contract paid, which the contract bounds. The API stores
whatever amount the caller sends, and the event that would bring the real one
is skipped because the milestone is already `CONFIRMED`.

`share` gives what the contract pays for a milestone at most. The bound on the
sum follows from a bound on each row, and a row gets a new amount only from a
confirmation.
-/

namespace ChainSettle

open Lib Lib.Eff

variable (share : MilestoneKey → Int)

/-- The recorded payments of every shipment add up to at most its total. -/
def WithinEscrow (db : Db) : Prop :=
  ∀ id shipment, db.shipments.find? id = some shipment →
    db.totalReleased id ≤ shipment.totalAmount

/-- The shares of a shipment's milestones add up to at most its total. -/
def Db.Allots (db : Db) (share : MilestoneKey → Int) : Prop :=
  ∀ id shipment, db.shipments.find? id = some shipment →
    (((db.milestones.rows.map Milestone.key).filter fun key => key.1 = id).map share).sum ≤
      shipment.totalAmount

/-- No row records more than its share. -/
def Db.PaidWithin (db : Db) (share : MilestoneKey → Int) : Prop :=
  ∀ key m, db.milestones.find? key = some m → m.paymentReleased.getD 0 ≤ share key

/-- The contract pays no more than the share: the amount of a
`milestone_confirmed` event is bounded by it. -/
def Operation.ContractBounded : Operation → Prop
  | .handle _ .milestoneConfirmed payload _ => ∀ index amount, payloadIndex payload = some index →
      payloadAmount payload = some amount → amount ≤ share (payloadShipment payload, index)
  | _ => True

/-- A confirmation through the API that goes through records at most the share. -/
def Operation.PaysShare (db : Db) : Operation → Prop
  | .handle _ _ _ _ => True
  | op => ∀ key amount at_, op.Writes db key (.confirmed amount at_) → amount ≤ share key

section Amounts

/-- Apart from a confirmation no update of an operation touches the amount. -/
theorem amount_of_writes {db : Db} {op : Operation} {key : MilestoneKey} {write : MilestoneWrite}
    (h : op.Writes db key write) :
    (∃ amount at_, write = .confirmed amount at_) ∨
      ∀ m, (write.apply m).paymentReleased = m.paymentReleased := by
  cases op with
  | submitProof _ _ _ _ _ =>
      obtain ⟨cid, _, _, rfl⟩ := h
      exact .inr fun _ => rfl
  | confirmFromApi _ _ _ _ _ =>
      obtain ⟨amount, _, _, rfl⟩ := h
      exact .inl ⟨_, _, rfl⟩
  | bulkConfirmFromApi _ _ _ _ =>
      obtain ⟨writes, hwrites, hmem⟩ := h
      obtain ⟨_, _, amount, _, hentry⟩ := mem_bulkConfirmWrites _ _ hwrites.batch _ hmem
      exact .inl ⟨amount, _, congrArg Prod.snd hentry⟩
  | rejectProof _ _ _ _ =>
      obtain ⟨_, _, rfl⟩ := h
      exact .inr fun _ => rfl
  | bulkRejectFromApi _ _ _ _ =>
      obtain ⟨_, _, hentry⟩ := List.mem_map.mp h.2
      cases hentry
      exact .inr fun _ => rfl
  | handle _ handler payload _ =>
      obtain ⟨hwrites, _⟩ := h
      cases handler with
      | proofSubmitted =>
          obtain ⟨_, rfl⟩ := hwrites
          exact .inr fun _ => rfl
      | milestoneConfirmed =>
          obtain ⟨amount, _, rfl⟩ := hwrites
          exact .inl ⟨_, _, rfl⟩
      | disputeRaised =>
          obtain ⟨_, rfl⟩ := hwrites
          exact .inr fun _ => rfl
      | disputeResolved =>
          obtain ⟨_, rfl⟩ := hwrites
          exact .inr fun m => by rw [apply_resolved]
      | shipmentCreated => cases hwrites
      | shipmentCancelled => cases hwrites

variable {share}

/-- A confirmation stores at most the share, whichever way it comes. -/
theorem confirmed_within {db : Db} {op : Operation} {key : MilestoneKey} {amount : Int}
    {at_ : Nat} (hbounded : op.ContractBounded share) (hpays : op.PaysShare share db)
    (h : op.Writes db key (.confirmed amount at_)) : amount ≤ share key := by
  cases op with
  | handle env handler payload txHash =>
      obtain ⟨hwrites, hship, hindex⟩ := h
      cases handler with
      | milestoneConfirmed =>
          obtain ⟨amount', hconfirms, hwrite⟩ := hwrites
          cases hwrite
          have hbound := hbounded key.2 amount hindex hconfirms.2.2.1
          rwa [← hship] at hbound
      | proofSubmitted => cases hwrites.2
      | disputeRaised => cases hwrites.2
      | disputeResolved => cases hwrites.2
      | shipmentCreated => cases hwrites
      | shipmentCancelled => cases hwrites
  | _ => exact hpays key amount at_ h

theorem paidWithin_step {db : Db} {op : Operation} (h : db.PaidWithin share)
    (hbounded : op.ContractBounded share) (hpays : op.PaysShare share db) :
    (op.step db).PaidWithin share := by
  intro key m' hm'
  obtain ⟨m, hm, rfl | ⟨write, hwrites, rfl⟩⟩ := row_after_step op hm'
  · exact h key m' hm
  · rcases amount_of_writes hwrites with ⟨amount, at_, rfl⟩ | hsame
    · exact confirmed_within hbounded hpays hwrites
    · rw [hsame]
      exact h key m hm

end Amounts

section Totals

/-- The same shipments with the same totals. -/
def SameTotals (db db' : Db) : Prop :=
  ∀ id, (db'.shipments.find? id).map Shipment.totalAmount =
    (db.shipments.find? id).map Shipment.totalAmount

theorem sameTotals_of_shipments {db db' : Db} (h : db'.shipments = db.shipments) :
    SameTotals db db' := by
  intro id
  rw [h]

theorem sameTotals_sync (env : Env) (id : String) {db db' : Db}
    (h : db'.shipments = db.shipments) :
    SameTotals db (after (syncStatusFromChain env id) db') := by
  intro other
  rw [find?_after_sync, h]
  split
  · rename_i hother
    subst hother
    cases db.shipments.find? other with
    | none => rfl
    | some s =>
        simp only [Option.map_some, Option.some.injEq, Env.syncedRow]
        split <;> rfl
  · rfl

/-- No operation changes what a shipment is worth. -/
theorem sameTotals_step (db : Db) (op : Operation) : SameTotals db (op.step db) := by
  cases op with
  | submitProof env shipmentId milestoneIndex callerAddress file =>
      change SameTotals db (after (submitProof env shipmentId milestoneIndex callerAddress file) db)
      by_cases h : ∃ cid, Submits env db shipmentId milestoneIndex callerAddress cid
      · obtain ⟨cid, hcid⟩ := h
        obtain ⟨_, hafter⟩ := after_submitProof env db shipmentId milestoneIndex callerAddress file
          cid hcid
        rw [hafter]
        exact sameTotals_of_shipments rfl
      · rw [after_submitProof_of_not_submits env db shipmentId milestoneIndex callerAddress file
          fun cid hcid => h ⟨cid, hcid⟩]
        exact sameTotals_of_shipments rfl
  | confirmFromApi env shipmentId milestoneIndex callerAddress paymentReleased =>
      change SameTotals db (after (confirmFromApi env shipmentId milestoneIndex callerAddress
        paymentReleased) db)
      by_cases h : ∃ amount, ConfirmsFromApi env db shipmentId milestoneIndex callerAddress
          paymentReleased amount
      · obtain ⟨amount, hamount⟩ := h
        rw [after_confirmFromApi env db shipmentId milestoneIndex callerAddress paymentReleased
          amount hamount]
        exact sameTotals_sync env shipmentId rfl
      · rw [after_confirmFromApi_of_not_confirms env db shipmentId milestoneIndex callerAddress
          paymentReleased fun amount hamount => h ⟨amount, hamount⟩]
        exact sameTotals_of_shipments rfl
  | bulkConfirmFromApi env shipmentId callerAddress items =>
      change SameTotals db (after (bulkConfirmFromApi env shipmentId callerAddress items) db)
      by_cases h : ∃ writes, BulkConfirms env db shipmentId callerAddress items writes
      · obtain ⟨writes, hwrites⟩ := h
        rw [after_bulkConfirmFromApi env db shipmentId callerAddress hwrites]
        split
        · exact sameTotals_of_shipments rfl
        · exact sameTotals_sync env shipmentId (shipments_writeMilestones db writes)
      · rw [after_bulkConfirmFromApi_of_not_confirms env db shipmentId callerAddress
          fun writes hwrites => h ⟨writes, hwrites⟩]
        exact sameTotals_of_shipments rfl
  | rejectProof env shipmentId milestoneIndex buyerAddress =>
      change SameTotals db (after (rejectProof env shipmentId milestoneIndex buyerAddress) db)
      by_cases h : RejectsProof env db shipmentId milestoneIndex buyerAddress
      · rw [after_rejectProof env db shipmentId milestoneIndex buyerAddress h]
        exact sameTotals_of_shipments rfl
      · rw [after_rejectProof_of_not_rejects env db shipmentId milestoneIndex buyerAddress h]
        exact sameTotals_of_shipments rfl
  | bulkRejectFromApi env shipmentId buyerAddress indices =>
      change SameTotals db (after (bulkRejectFromApi env shipmentId buyerAddress indices) db)
      by_cases h : BulkRejects env db shipmentId buyerAddress
      · rw [after_bulkRejectFromApi env db shipmentId buyerAddress indices h]
        exact sameTotals_of_shipments (shipments_writeMilestones db _)
      · rw [after_bulkRejectFromApi_of_not_rejects env db shipmentId buyerAddress indices h]
        exact sameTotals_of_shipments rfl
  | handle env handler payload txHash =>
      change SameTotals db (after (runHandler env (some handler) payload txHash) db)
      rcases runHandler_cases env db payload (some handler) txHash with
        hsame | ⟨write, hwrite⟩ | ⟨amount, hconfirmed⟩ | hcancelled
      · rw [hsame]
        exact sameTotals_of_shipments rfl
      · rw [hwrite]
        exact sameTotals_of_shipments (shipments_writePayload db write payload)
      · rw [hconfirmed]
        exact sameTotals_sync env _ (shipments_writePayload db _ payload)
      · rw [hcancelled]
        intro id
        unfold Db.cancelShipment
        simp only
        rw [Table.find?_modify]
        split
        · rename_i hid
          subst hid
          rw [Option.map_map]
          rfl
        · rfl

variable {share}

theorem allots_step {db : Db} (op : Operation) (h : db.Allots share) :
    (op.step db).Allots share := by
  intro id shipment' hfind
  have htotals := sameTotals_step db op id
  rw [hfind] at htotals
  obtain ⟨shipment, hshipment, htotal⟩ := Option.map_eq_some_iff.mp htotals.symm
  rw [keys_after_step, ← htotal]
  exact h id shipment hshipment

/-- Rows within their shares add up to a sum within the escrow. -/
theorem withinEscrow_of_paidWithin {db : Db} (hallots : db.Allots share)
    (hpaid : db.PaidWithin share) : WithinEscrow db := by
  intro id shipment hfind
  have hkeys : (db.milestones.rows.map Milestone.key).filter (fun key => key.1 = id) =
      (db.milestones.rows.filter fun m => m.shipmentId = id).map Milestone.key := by
    rw [List.filter_map]
    rfl
  calc db.totalReleased id
      ≤ ((db.milestones.rows.filter fun m => m.shipmentId = id).map fun m => share m.key).sum := by
        apply List.sum_le_sum
        intro m hm
        exact hpaid m.key m (Table.find?_of_mem (List.mem_of_mem_filter hm))
    _ = (((db.milestones.rows.map Milestone.key).filter fun key => key.1 = id).map share).sum := by
        rw [hkeys, List.map_map]
        rfl
    _ ≤ shipment.totalAmount := hallots id shipment hfind

end Totals

/-- Start with rows that record at most their shares. In every state of a run
whose events the contract bounds and whose API confirmations record at most the
share, the payments of every shipment stay within its total. -/
theorem payments_within_escrow (db : Db) (hallots : db.Allots share) (hpaid : db.PaidWithin share)
    (ops : List Operation) (hevents : ∀ op ∈ ops, op.ContractBounded share)
    (hapi : Along Operation.step (fun db op => op.PaysShare share db) db ops) :
    ∀ pre post, ops = pre ++ post → WithinEscrow (pre.foldl Operation.step db) := by
  have hstep (db : Db) (op : Operation) (h : db.Allots share ∧ db.PaidWithin share)
      (hop : op.ContractBounded share ∧ op.PaysShare share db) :
      (op.step db).Allots share ∧ (op.step db).PaidWithin share :=
    ⟨allots_step op h.1, paidWithin_step h.2 hop.1 hop.2⟩
  have hrun : Along Operation.step
      (fun db op => op.ContractBounded share ∧ op.PaysShare share db) db ops := by
    clear hallots hpaid hstep
    induction ops generalizing db with
    | nil => trivial
    | cons op rest ih =>
        exact ⟨⟨hevents op (.head _), hapi.1⟩,
          ih (op.step db) (fun other hother => hevents other (.tail _ hother)) hapi.2⟩
  intro pre post hsplit
  obtain ⟨hallots', hpaid'⟩ := hrun.invariant hstep ⟨hallots, hpaid⟩ pre post hsplit
  exact withinEscrow_of_paidWithin hallots' hpaid'

/-- Proof and confirmation of the demo milestone with the given amount. -/
def confirmRun (amount : String) : List Operation :=
  [.submitProof (.calm 1) "SHIP-1" 0 "GSUPPLIER" ⟨"aa", 10⟩,
    .confirmFromApi (.calm 2) "SHIP-1" 0 "GBUYER" amount]

theorem full_payment_within_escrow :
    WithinEscrow ((confirmRun "1000").foldl Operation.step (Db.demo .pending)) := by
  refine payments_within_escrow (fun _ => 1000) (Db.demo .pending) ?_ ?_ (confirmRun "1000") ?_
    ⟨?_, ?_, trivial⟩ (confirmRun "1000") [] (List.append_nil _).symm
  · intro id shipment hfind
    obtain rfl := List.mem_singleton.mp (Table.mem_of_find? hfind)
    have hid : "SHIP-1" = id := Table.key_of_find? hfind
    subst hid
    decide
  · intro key m hm
    obtain rfl := List.mem_singleton.mp (Table.mem_of_find? hm)
    change (0 : Int) ≤ 1000
    decide
  · intro op hop
    rcases List.mem_cons.mp hop with rfl | hop
    · trivial
    · obtain rfl := List.mem_singleton.mp hop
      trivial
  · rintro key amount at_ ⟨_, _, _, hwrite⟩
    cases hwrite
  · rintro key amount at_ ⟨amount', hconfirms, _, hwrite⟩
    cases hwrite
    have hparsed : bigIntOfString "1000" = some 1000 := by decide
    rw [hconfirms.parsed] at hparsed
    cases hparsed
    exact le_rfl

/-- The escrow holds 1000. -/
theorem caller_amount_exceeds_escrow :
    ¬ WithinEscrow ((confirmRun "5000").foldl Operation.step (Db.demo .pending)) := by
  intro h
  have htotal : (((confirmRun "5000").foldl Operation.step (Db.demo .pending)).shipments.find?
      "SHIP-1").map Shipment.totalAmount = some 1000 := by decide
  have hreleased : ((confirmRun "5000").foldl Operation.step (Db.demo .pending)).totalReleased
      "SHIP-1" = 5000 := by decide
  obtain ⟨shipment, hfind, hamount⟩ := Option.map_eq_some_iff.mp htotal
  have hbound := h "SHIP-1" shipment hfind
  rw [hreleased, hamount] at hbound
  exact absurd hbound (by decide)

end ChainSettle
