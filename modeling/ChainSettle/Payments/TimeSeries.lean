import ChainSettle.Lifecycle.Writes
import ChainSettle.Semantics.Shipments
import Mathlib.Algebra.BigOperators.Group.List.Basic

/-!
Does every paid milestone carry its payment? The time series reads the rows
that are `CONFIRMED` or `RESOLVED` and have a confirmation time, and adds up
their amounts. The two confirming operations and `handleMilestoneConfirmed`
write status, amount and time together. `handleDisputeResolved` calls
`markResolved` without an amount, which then writes the status alone, and the
operations that re-open a settled milestone leave the amount in a row the
series no longer reads.
-/

namespace ChainSettle

open Lib Lib.Eff

/-- A settled row has an amount and a time, and a row that is not settled has
no amount that a sum over the settled ones would miss. -/
structure Milestone.PaymentKept (m : Milestone) : Prop where
  settled : m.status.Terminal → m.paymentReleased.isSome ∧ m.confirmedAt.isSome
  unsettled : ¬ m.status.Terminal → m.paymentReleased.getD 0 = 0

/-- All payments of a shipment that its milestones record. -/
def Db.totalReleased (db : Db) (shipmentId : String) : Int :=
  ((db.milestones.rows.filter fun m => m.shipmentId = shipmentId).map fun m =>
    m.paymentReleased.getD 0).sum

/-- Every settled milestone has its amount and time, the series lists exactly
the settled ones, and its total is the sum of all recorded payments. -/
structure PaymentsReported (db : Db) : Prop where
  carried : ∀ key m, db.milestones.find? key = some m → m.status.Terminal →
    m.paymentReleased.isSome ∧ m.confirmedAt.isSome
  series : ∀ (env : Env) (id : String) (shipment : Shipment),
    db.shipments.find? id = some shipment → env.fails .shipmentRead = false →
    env.fails .seriesRead = false →
    ∃ series, exec (getPaymentTimeSeries env id) db = (.ok series, db) ∧
      (series.entries.map PaymentEntry.milestoneIndex).Perm
        ((db.milestones.rows.filter fun m => m.shipmentId = id ∧ m.status.Terminal).map
          Milestone.milestoneIndex) ∧
      series.summary.totalReleased =
        toHumanAmount (db.totalReleased id) shipment.tokenDecimals

/-- The update leaves a row that keeps its payment: a resolution finds amount
and time already there unless it brings an amount, and whatever re-opens a
settled row finds no amount in it. -/
def MilestoneWrite.KeepsPayment (m : Milestone) : MilestoneWrite → Prop
  | .confirmed _ _ => True
  | .resolved true amount _ =>
      amount.getD 0 ≠ 0 ∨ m.paymentReleased.isSome ∧ m.confirmedAt.isSome
  | .resolved false _ _ | .proofSubmitted _ | .disputed _ | .proofRejected =>
      m.status.Terminal → m.paymentReleased.getD 0 = 0

def Operation.KeepsPayments (db : Db) (op : Operation) : Prop :=
  ∀ key write m, op.Writes db key write → db.milestones.find? key = some m →
    write.KeepsPayment m

section Rows

/-- An update that re-opens the row and leaves its amount alone. -/
theorem PaymentKept.reopened {m m' : Milestone} (h : m.PaymentKept)
    (hcond : m.status.Terminal → m.paymentReleased.getD 0 = 0)
    (hopen : ¬ m'.status.Terminal) (hsame : m'.paymentReleased = m.paymentReleased) :
    m'.PaymentKept := by
  refine ⟨fun hterminal => absurd hterminal hopen, fun _ => ?_⟩
  rw [hsame]
  by_cases hterminal : m.status.Terminal
  · exact hcond hterminal
  · exact h.unsettled hterminal

theorem paymentKept_apply {m : Milestone} {write : MilestoneWrite} (h : m.PaymentKept)
    (hkeeps : write.KeepsPayment m) : (write.apply m).PaymentKept := by
  have hopen {status : MilestoneStatus} (hconfirmed : status ≠ .confirmed)
      (hresolved : status ≠ .resolved) : ¬ status.Terminal := by
    rintro (hstatus | hstatus)
    · exact hconfirmed hstatus
    · exact hresolved hstatus
  cases write with
  | confirmed amount at_ => exact ⟨fun _ => ⟨rfl, rfl⟩, fun hopen => absurd (.inl rfl) hopen⟩
  | proofSubmitted proofHash => exact PaymentKept.reopened h hkeeps (hopen nofun nofun) rfl
  | disputed at_ => exact PaymentKept.reopened h hkeeps (hopen nofun nofun) rfl
  | proofRejected => exact PaymentKept.reopened h hkeeps (hopen nofun nofun) rfl
  | resolved approved amount at_ =>
      cases approved with
      | false => exact PaymentKept.reopened h hkeeps (hopen nofun nofun) rfl
      | true =>
          have hsettled : ∀ m' : Milestone, m'.status = .resolved →
              m'.paymentReleased.isSome ∧ m'.confirmedAt.isSome → m'.PaymentKept :=
            fun m' hstatus hboth => ⟨fun _ => hboth, fun hopen => absurd (.inr hstatus) hopen⟩
          have hcond : amount.getD 0 ≠ 0 ∨ m.paymentReleased.isSome ∧ m.confirmedAt.isSome :=
            hkeeps
          cases amount with
          | none => exact hsettled _ rfl (hcond.resolve_left (not_not.mpr rfl))
          | some amount =>
              by_cases hzero : amount = 0
              · subst hzero
                exact hsettled _ rfl (hcond.resolve_left (not_not.mpr rfl))
              · simp only [MilestoneWrite.apply, hzero, ↓reduceIte]
                exact hsettled _ rfl ⟨rfl, rfl⟩

end Rows

section Series

/-- The loop of the time series: one entry for each row, and their sum. -/
theorem paymentEntries_eq (shipment : Shipment) (cumulative : Int) (rows : List Milestone) :
    (paymentEntries shipment cumulative rows).1.map PaymentEntry.milestoneIndex =
        rows.map Milestone.milestoneIndex ∧
      (paymentEntries shipment cumulative rows).2 =
        cumulative + (rows.map fun m => m.paymentReleased.getD 0).sum := by
  induction rows generalizing cumulative with
  | nil => simp [paymentEntries]
  | cons m rest ih =>
      obtain ⟨hentries, htotal⟩ := ih (cumulative + m.paymentReleased.getD 0)
      refine ⟨congrArg _ hentries, htotal.trans ?_⟩
      rw [List.map_cons, List.sum_cons]
      omega

/-- Rows that contribute nothing can be filtered out of a sum. -/
theorem sum_filter_eq {α : Type} (rows : List α) (p q : α → Bool) (f : α → Int)
    (h : ∀ row ∈ rows, p row = q row ∨ f row = 0) :
    ((rows.filter p).map f).sum = ((rows.filter q).map f).sum := by
  induction rows with
  | nil => rfl
  | cons row rest ih =>
      have hrest := ih fun other hother => h other (.tail _ hother)
      rcases h row (.head _) with hsame | hzero
      · cases hq : q row <;> simp [hsame, hq, hrest]
      · cases hp : p row <;> cases hq : q row <;> simp [hp, hq, hzero, hrest]

theorem exec_getPaymentTimeSeries (env : Env) {db : Db} {id : String} {shipment : Shipment}
    (hfind : db.shipments.find? id = some shipment) (hread : env.fails .shipmentRead = false)
    (hseries : env.fails .seriesRead = false) :
    ∃ series, exec (getPaymentTimeSeries env id) db = (.ok series, db) ∧
      series.entries.map PaymentEntry.milestoneIndex =
        (db.paidMilestones id).map Milestone.milestoneIndex ∧
      series.summary.totalReleased =
        toHumanAmount ((db.paidMilestones id).map fun m => m.paymentReleased.getD 0).sum
          shipment.tokenDecimals := by
  obtain ⟨hentries, htotal⟩ := paymentEntries_eq shipment 0 (db.paidMilestones id)
  unfold getPaymentTimeSeries
  simp only [exec_bind, exec_shipmentFindUnique, hread, Bool.false_eq_true, ↓reduceIte, hfind,
    exec_prismaCall, hseries, exec_get, exec_pure]
  refine ⟨_, rfl, hentries, ?_⟩
  simp only [htotal, zero_add]

theorem paymentsReported_of_kept {db : Db}
    (h : ∀ key m, db.milestones.find? key = some m → m.PaymentKept) : PaymentsReported db := by
  have hrows : ∀ m ∈ db.milestones.rows, m.PaymentKept := fun m hm =>
    h m.key m (Table.find?_of_mem hm)
  refine ⟨fun key m hm => (h key m hm).settled, fun env id shipment hfind hread hseries => ?_⟩
  obtain ⟨series, hrun, hentries, htotal⟩ := exec_getPaymentTimeSeries env hfind hread hseries
  have hlisted : (db.milestones.rows.filter fun m =>
        m.shipmentId = id ∧ m.status.Terminal ∧ m.confirmedAt.isSome) =
      db.milestones.rows.filter fun m => m.shipmentId = id ∧ m.status.Terminal := by
    apply List.filter_congr
    intro m hm
    have hsettled := (hrows m hm).settled
    by_cases hterminal : m.status.Terminal
    · simp [hterminal, (hsettled hterminal).2]
    · simp [hterminal]
  have hperm : (db.paidMilestones id).Perm
      (db.milestones.rows.filter fun m => m.shipmentId = id ∧ m.status.Terminal) := by
    rw [← hlisted]
    exact List.mergeSort_perm _ _
  refine ⟨series, hrun, ?_, ?_⟩
  · rw [hentries]
    exact hperm.map _
  · rw [htotal, (hperm.map _).sum_eq, Db.totalReleased]
    congr 1
    apply sum_filter_eq
    intro m hm
    by_cases hterminal : m.status.Terminal
    · simp [hterminal]
    · exact .inr ((hrows m hm).unsettled hterminal)

end Series

/-- One operation keeps the payment of every row. -/
theorem step_keepsPayments {db : Db} {op : Operation}
    (h : ∀ key m, db.milestones.find? key = some m → m.PaymentKept)
    (hkeeps : op.KeepsPayments db) :
    ∀ key m, (op.step db).milestones.find? key = some m → m.PaymentKept := by
  intro key m' hm'
  obtain ⟨m, hm, rfl | ⟨write, hwrites, rfl⟩⟩ := row_after_step op hm'
  · exact h key m' hm
  · exact paymentKept_apply (h key m hm) (hkeeps key write m hwrites hm)

/-- From a state in which every row keeps its payment, all payments are
reported in every state of a run in which each update keeps the payment of the
row it finds. -/
theorem payments_reported (db : Db)
    (hinit : ∀ key m, db.milestones.find? key = some m → m.PaymentKept) (ops : List Operation)
    (hkeeps : Along Operation.step (fun db op => op.KeepsPayments db) db ops) :
    ∀ pre post, ops = pre ++ post → PaymentsReported (pre.foldl Operation.step db) := by
  have hstep : ∀ (db : Db) (op : Operation),
      (∀ key m, db.milestones.find? key = some m → m.PaymentKept) → op.KeepsPayments db →
      ∀ key m, (op.step db).milestones.find? key = some m → m.PaymentKept :=
    fun db op h hop => step_keepsPayments h hop
  intro pre post hsplit
  exact paymentsReported_of_kept (hkeeps.invariant hstep hinit pre post hsplit)

/-- Proof and confirmation through the API. -/
def confirmedRun : List Operation :=
  [.submitProof (.calm 1) "SHIP-1" 0 "GSUPPLIER" ⟨"aa", 10⟩,
    .confirmFromApi (.calm 2) "SHIP-1" 0 "GBUYER" "500"]

theorem confirmed_payment_reported :
    PaymentsReported (confirmedRun.foldl Operation.step (Db.demo .pending)) := by
  have hrow : ∀ key m, (Db.demo .pending).milestones.find? key = some m →
      m = demoMilestone .pending := fun key m hm =>
    List.mem_singleton.mp (Table.mem_of_find? hm)
  refine payments_reported (Db.demo .pending) (fun key m hm => ?_) confirmedRun ⟨?_, ?_, trivial⟩
    confirmedRun [] (List.append_nil _).symm
  · rw [hrow key m hm]
    refine ⟨?_, fun _ => rfl⟩
    rintro (hstatus | hstatus) <;> cases hstatus
  · rintro key write m ⟨cid, _, _, rfl⟩ hm
    rw [hrow key m hm]
    exact fun _ => rfl
  · rintro key write m ⟨amount, _, _, rfl⟩ _
    trivial

/-- Proof, dispute, and a resolution in favour of the supplier. -/
def approvedRun : List Operation :=
  [.handle (.calm 1) .proofSubmitted (.arr [.str "SHIP-1", .num 0]) (some "tx-proof"),
    .handle (.calm 2) .disputeRaised (.arr [.str "SHIP-1", .num 0]) (some "tx-dispute"),
    .handle (.calm 3) .disputeResolved (.arr [.str "SHIP-1", .num 0, .bool true])
      (some "tx-resolve")]

private def rowAfter (ops : List Operation) : Option Milestone :=
  (ops.foldl Operation.step (Db.demo .pending)).milestones.find? ("SHIP-1", 0)

theorem resolved_payment_not_reported :
    ¬ PaymentsReported (approvedRun.foldl Operation.step (Db.demo .pending)) := by
  intro h
  have hrow : (rowAfter approvedRun).map (fun m => (m.status, m.paymentReleased)) =
      some (.resolved, none) := by decide
  obtain ⟨m, hm, hpair⟩ := Option.map_eq_some_iff.mp hrow
  obtain ⟨hstatus, hpayment⟩ := Prod.mk.inj hpair
  have hcarried := (h.carried ("SHIP-1", 0) m hm (.inr hstatus)).1
  rw [hpayment] at hcarried
  cases hcarried

end ChainSettle
