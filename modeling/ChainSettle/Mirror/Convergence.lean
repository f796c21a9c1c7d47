import ChainSettle.Mirror.Cancellation

/-!
Does the shipment row end up equal to the contract's record? Of the handlers
only `handleMilestoneConfirmed` reads the contract again, and only when it does
not skip the event; `handleShipmentCancelled` writes the status it knows;
`handleDisputeResolved`, whose event moves money too, touches the milestone
alone.

A `MirrorRun` is a history of the contract together with one execution of a
handler for each of its events. `seenBy` counts the contract events that the
last effective sync has seen, and the row agrees with the contract at the end
exactly when nothing that a sync would have copied happened after that.
-/

namespace ChainSettle

open Lib Lib.Eff

/-- One execution of a handler. The simulations made during it are answered
when the first `seen` events of the shipment have happened. -/
structure Execution where
  env : Env
  event : RawEvent
  seen : Nat

namespace Execution

def payload (x : Execution) : Json := extractPayload x.event

def handler (x : Execution) : Option Handler := handlerOf (extractEventName x.event)

def program (x : Execution) : Tx Unit :=
  executeHandler x.env (extractEventName x.event) x.payload x.event.txHash

def step (db : Db) (x : Execution) : Db := after x.program db

/-- A confirmation that is not skipped and whose sync reaches its write. -/
def Refreshes (db : Db) (x : Execution) : Prop :=
  x.handler = some .milestoneConfirmed ∧ (∃ amount, Confirms x.env db x.payload amount) ∧
    (x.env.synced (payloadShipment x.payload)).isSome

end Execution

/-- A history of one shipment's contract events, each handled once, in order and
without an exception. `contract k` is the record after the first `k` events. -/
structure MirrorRun where
  shipmentId : String
  db : Db
  executions : List Execution
  contract : Nat → ContractState
  concerns : ∀ x ∈ executions, payloadShipment x.payload = shipmentId
  answered : ∀ (i : Nat) (x : Execution), executions[i]? = some x →
    x.env.getShipment shipmentId = some (contract x.seen).onChain ∧ i < x.seen ∧
      x.seen ≤ executions.length
  returned : ∀ (i : Nat) (x : Execution), executions[i]? = some x →
    Succeeds x.program ((executions.take i).foldl Execution.step db)
  start : (db.shipments.find? shipmentId).map Shipment.mirrored =
    some (contract 0)
  released_mono : ∀ k, (contract k).releasedAmount ≤ (contract (k + 1)).releasedAmount
  leaves_active : ∀ k, (contract (k + 1)).status ≠ (contract k).status →
    (contract k).status = .active
  cancels : ∀ (k : Nat) (x : Execution), executions[k]? = some x → x.handler = some .shipmentCancelled →
    (contract (k + 1)).status = .cancelled
  cancelled_by : ∀ k, (contract k).status ≠ .cancelled → (contract (k + 1)).status = .cancelled →
    ∃ x : Execution, executions[k]? = some x ∧ x.handler = some .shipmentCancelled

namespace MirrorRun

def stateAt (run : MirrorRun) (i : Nat) : Db :=
  (run.executions.take i).foldl Execution.step run.db

def final (run : MirrorRun) : Db := run.stateAt run.executions.length

/-- The row's two columns equal the contract's. -/
def Converges (run : MirrorRun) : Prop :=
  (run.final.shipments.find? run.shipmentId).map Shipment.mirrored =
    some (run.contract run.executions.length)

/-- Event `i` of the history is a cancellation. -/
def CancelledAt (run : MirrorRun) (i : Nat) : Prop :=
  ∃ x, run.executions[i]? = some x ∧ x.handler = some .shipmentCancelled

open Classical in
/-- How many contract events the last effective sync among the first `i`
executions had seen. -/
noncomputable def seenBy (run : MirrorRun) : Nat → Nat
  | 0 => 0
  | i + 1 =>
      match run.executions[i]? with
      | some x => if x.Refreshes (run.stateAt i) then x.seen else run.seenBy i
      | none => run.seenBy i

/-- What happened after the last effective sync moved no money, and moved the
status only by a cancellation. -/
def NothingUnseen (run : MirrorRun) : Prop :=
  ∀ i, run.seenBy run.executions.length ≤ i → i < run.executions.length →
    (run.contract (i + 1)).releasedAmount = (run.contract i).releasedAmount ∧
      ((run.contract (i + 1)).status = (run.contract i).status ∨ run.CancelledAt i)

end MirrorRun

section Rows

variable {db : Db} {x : Execution}

/-- A sync stores exactly the record the contract answered with. -/
theorem synced_of_answer {env : Env} {id : String} {c : ContractState}
    (hanswer : env.getShipment id = some c.onChain) (hsynced : (env.synced id).isSome) :
    env.synced id = some (c.status, c.releasedAmount) := by
  unfold Env.synced at hsynced ⊢
  simp only [hanswer, ContractState.onChain, Option.bind_eq_bind, Option.bind_some,
    statusMap_onChainName] at hsynced ⊢
  split at hsynced
  · cases hsynced
  · rename_i hwrite
    rw [if_neg hwrite]

theorem row_after_refresh {s : Shipment} {c : ContractState} (h : x.Refreshes db)
    (hs : db.shipments.find? (payloadShipment x.payload) = some s)
    (hanswer : x.env.getShipment (payloadShipment x.payload) = some c.onChain) :
    (x.step db).shipments.find? (payloadShipment x.payload) =
      some (s.sync c.status c.releasedAmount) := by
  obtain ⟨hhandler, ⟨amount, hconfirms⟩, hsynced⟩ := h
  have hid : s.id = payloadShipment x.payload := Table.key_of_find? hs
  have hrun : x.program = handleMilestoneConfirmed x.env x.payload := by
    unfold Execution.program executeHandler
    rw [show handlerOf (extractEventName x.event) = _ from hhandler]
    rfl
  rw [Execution.step, hrun, after_handleMilestoneConfirmed_of_confirms _ _ _ hconfirms,
    find?_after_sync, if_pos rfl, shipments_writePayload, hs]
  simp [Env.syncedRow, hid, synced_of_answer hanswer hsynced]

theorem row_after_cancellation {s : Shipment} (hhandler : x.handler = some .shipmentCancelled)
    (hs : db.shipments.find? (payloadShipment x.payload) = some s)
    (hreturned : Succeeds x.program db) :
    (x.step db).shipments.find? (payloadShipment x.payload) =
      some (s.cancel x.env.now x.event.txHash) := by
  have hrun : x.program = handleShipmentCancelled x.env x.payload x.event.txHash := by
    unfold Execution.program executeHandler
    rw [show handlerOf (extractEventName x.event) = _ from hhandler]
    rfl
  have hwrite : x.env.fails .shipmentWrite = false := by
    rw [hrun] at hreturned
    unfold handleShipmentCancelled at hreturned
    obtain ⟨_, _, hcall, _⟩ := (succeeds_bind_iff _ _ _).mp hreturned
    cases hfails : x.env.fails .shipmentWrite with
    | false => rfl
    | true =>
        rw [exec_prismaCall, hfails] at hcall
        cases hcall
  rw [Execution.step, hrun, after_handleShipmentCancelled, hwrite]
  simp [Db.cancelShipment, hs]

/-- Every other execution leaves the shipment rows alone. -/
theorem row_after_other (hrefreshes : ¬ x.Refreshes db)
    (hcancels : x.handler ≠ some .shipmentCancelled) :
    (x.step db).shipments = db.shipments := by
  unfold Execution.step Execution.program executeHandler
  change (after (runHandler x.env x.handler x.payload x.event.txHash) db).shipments = _
  cases hhandler : x.handler with
  | none => rfl
  | some handler =>
      cases handler with
      | shipmentCreated => rfl
      | shipmentCancelled => exact absurd hhandler hcancels
      | proofSubmitted =>
          simp only [runHandler, after_handleProofSubmitted]
          split
          · exact shipments_writePayload ..
          · rfl
      | disputeRaised =>
          simp only [runHandler, after_handleDisputeRaised]
          split
          · exact shipments_writePayload ..
          · rfl
      | disputeResolved =>
          simp only [runHandler, after_handleDisputeResolved]
          split
          · exact shipments_writePayload ..
          · rfl
      | milestoneConfirmed =>
          simp only [runHandler]
          by_cases hconfirms : ∃ amount, Confirms x.env db x.payload amount
          · obtain ⟨amount, hamount⟩ := hconfirms
            have hsynced : x.env.synced (payloadShipment x.payload) = none := by
              by_contra hsynced
              exact hrefreshes ⟨hhandler, ⟨amount, hamount⟩,
                Option.isSome_iff_ne_none.mpr hsynced⟩
            rw [after_handleMilestoneConfirmed_of_confirms _ _ _ hamount, after_sync, hsynced]
            exact shipments_writePayload ..
          · rw [after_handleMilestoneConfirmed_of_not_confirms _ _ _
              fun amount hamount => hconfirms ⟨amount, hamount⟩]

end Rows

namespace MirrorRun

variable (run : MirrorRun)

section Contract

/-- The contract leaves a terminal status never. -/
theorem terminal_stays {k l : Nat} (hkl : k ≤ l) (hterminal : (run.contract k).status ≠ .active) :
    (run.contract l).status = (run.contract k).status := by
  induction l, hkl using Nat.le_induction with
  | base => rfl
  | succ l _ ih =>
      by_contra hmoved
      have hactive := run.leaves_active l (by rw [ih]; exact hmoved)
      exact hterminal (ih ▸ hactive)

theorem released_le {k l : Nat} (hkl : k ≤ l) :
    (run.contract k).releasedAmount ≤ (run.contract l).releasedAmount :=
  monotone_nat_of_le_succ run.released_mono hkl

/-- After a cancellation the contract stays cancelled. -/
theorem cancelled_of_cancelledAt {i l : Nat} (h : run.CancelledAt i) (hil : i < l) :
    (run.contract l).status = .cancelled := by
  obtain ⟨x, hx, hhandler⟩ := h
  have hcancelled := run.cancels i x hx hhandler
  rw [run.terminal_stays hil (by rw [hcancelled]; nofun), hcancelled]

end Contract

section Mirror

/-- What the row holds after `i` executions: the amount the last sync saw, and
its status unless a cancellation has been handled. -/
structure Mirrors (i : Nat) (s : Shipment) : Prop where
  released : s.releasedAmount = (run.contract (run.seenBy i)).releasedAmount
  status : s.status = (run.contract (run.seenBy i)).status ∨
    s.status = .cancelled ∧ ∃ p < i, run.CancelledAt p
  cancelled : ∀ p < i, run.CancelledAt p → s.status = .cancelled

variable {run}

theorem stateAt_succ {i : Nat} {x : Execution} (hx : run.executions[i]? = some x) :
    run.stateAt (i + 1) = x.step (run.stateAt i) := by
  unfold stateAt
  rw [List.take_add_one, hx, List.foldl_append]
  rfl

theorem cancelledAt_iff {i : Nat} {x : Execution} (hx : run.executions[i]? = some x) :
    run.CancelledAt i ↔ x.handler = some .shipmentCancelled := by
  unfold CancelledAt
  simp [hx]

/-- One execution keeps what the row stands for. -/
theorem mirrors_succ {i : Nat} {x : Execution} {s : Shipment}
    (hx : run.executions[i]? = some x)
    (hs : (run.stateAt i).shipments.find? run.shipmentId = some s) (h : run.Mirrors i s) :
    ∃ s', (run.stateAt (i + 1)).shipments.find? run.shipmentId = some s' ∧
      run.Mirrors (i + 1) s' := by
  have hid : payloadShipment x.payload = run.shipmentId :=
    run.concerns x (List.mem_of_getElem? hx)
  obtain ⟨hanswer, hlater, _⟩ := run.answered i x hx
  rw [stateAt_succ hx]
  by_cases hrefreshes : x.Refreshes (run.stateAt i)
  · have hseen : run.seenBy (i + 1) = x.seen := by simp [seenBy, hx, hrefreshes]
    refine ⟨s.sync (run.contract x.seen).status (run.contract x.seen).releasedAmount, ?_, ?_⟩
    · rw [← hid] at hs hanswer ⊢
      exact row_after_refresh hrefreshes hs hanswer
    · refine ⟨by rw [hseen]; rfl, .inl (by rw [hseen]; rfl), fun p hp hcancelled => ?_⟩
      -- the sync was answered after every event handled so far
      exact run.cancelled_of_cancelledAt hcancelled (by omega)
  · have hseen : run.seenBy (i + 1) = run.seenBy i := by simp [seenBy, hx, hrefreshes]
    by_cases hcancels : x.handler = some .shipmentCancelled
    · refine ⟨s.cancel x.env.now x.event.txHash, ?_, ?_⟩
      · rw [← hid] at hs ⊢
        exact row_after_cancellation hcancels hs (run.returned i x hx)
      · refine ⟨by rw [hseen]; exact h.released, .inr ⟨rfl, i, by omega, ?_⟩, fun _ _ _ => rfl⟩
        exact (cancelledAt_iff hx).mpr hcancels
    · refine ⟨s, by rw [row_after_other hrefreshes hcancels]; exact hs, ?_⟩
      refine ⟨by rw [hseen]; exact h.released, ?_, fun p hp hcancelled => ?_⟩
      · rw [hseen]
        rcases h.status with hsame | ⟨hstatus, p, hp, hcancelled⟩
        · exact .inl hsame
        · exact .inr ⟨hstatus, p, by omega, hcancelled⟩
      · have hother : p ≠ i := by
          rintro rfl
          exact hcancels ((cancelledAt_iff hx).mp hcancelled)
        exact h.cancelled p (by omega) hcancelled

theorem mirrors_at {i : Nat} (hi : i ≤ run.executions.length) :
    ∃ s, (run.stateAt i).shipments.find? run.shipmentId = some s ∧ run.Mirrors i s := by
  induction i with
  | zero =>
      obtain ⟨s, hs, hrow⟩ := Option.map_eq_some_iff.mp run.start
      refine ⟨s, hs, congrArg ContractState.releasedAmount hrow,
        .inl (congrArg ContractState.status hrow), fun p hp => ?_⟩
      omega
  | succ i ih =>
      obtain ⟨s, hs, h⟩ := ih (by omega)
      obtain ⟨x, hx⟩ : ∃ x, run.executions[i]? = some x :=
        ⟨_, List.getElem?_eq_getElem (by omega)⟩
      exact mirrors_succ hx hs h

theorem seenBy_le (i : Nat) : run.seenBy i ≤ run.executions.length := by
  induction i with
  | zero => exact Nat.zero_le _
  | succ i ih =>
      unfold seenBy
      split
      · rename_i x hx
        split
        · exact (run.answered i x hx).2.2
        · exact ih
      · exact ih

end Mirror

/-- A quantity that no event of a stretch moves is the same at both ends. -/
theorem eq_of_unmoved {α : Type} (f : Nat → α) {k n : Nat} (hkn : k ≤ n)
    (h : ∀ i, k ≤ i → i < n → f (i + 1) = f i) : f n = f k := by
  induction n, hkn using Nat.le_induction with
  | base => rfl
  | succ n hle ih =>
      rw [h n hle (by omega)]
      exact ih fun i hki hin => h i hki (by omega)

end MirrorRun

/-- After a complete history the row equals the contract's record exactly when
no money moved, and the status moved by a cancellation at most, after what the
last effective sync had seen. -/
theorem mirror_converges_iff (run : MirrorRun) : run.Converges ↔ run.NothingUnseen := by
  obtain ⟨s, hs, h⟩ := run.mirrors_at le_rfl
  have hseen : run.seenBy run.executions.length ≤ run.executions.length := run.seenBy_le _
  have hconverges : run.Converges ↔ s.mirrored = run.contract run.executions.length := by
    unfold MirrorRun.Converges MirrorRun.final
    rw [hs, Option.map_some, Option.some.injEq]
  rw [hconverges]
  constructor
  · intro hrow i hki hin
    have hreleased : s.releasedAmount = (run.contract run.executions.length).releasedAmount :=
      congrArg ContractState.releasedAmount hrow
    have hstatus : s.status = (run.contract run.executions.length).status :=
      congrArg ContractState.status hrow
    refine ⟨?_, or_iff_not_imp_left.mpr fun hmoved => ?_⟩
    · have hfirst := run.released_le hki
      have hstep := run.released_mono i
      have hlast := run.released_le (show i + 1 ≤ run.executions.length from hin)
      have hsame := h.released
      omega
    · -- a status that moved after the sync is the final one, so it was cancelled
      have hactive := run.leaves_active i hmoved
      have hterminal : (run.contract (i + 1)).status ≠ .active := by
        rw [← hactive]
        exact hmoved
      have hlast := run.terminal_stays (Nat.succ_le_of_lt hin) hterminal
      rcases h.status with hsame | ⟨hcancelled, _⟩
      · have hseenterminal : (run.contract (run.seenBy run.executions.length)).status ≠ .active := by
          rw [← hsame, hstatus, hlast]
          exact hterminal
        exact absurd hactive (run.terminal_stays hki hseenterminal ▸ hseenterminal)
      · apply run.cancelled_by i
        · rw [hactive]
          nofun
        · rw [← hlast, ← hstatus, hcancelled]
  · intro hquiet
    have hreleased : (run.contract run.executions.length).releasedAmount = s.releasedAmount := by
      rw [h.released]
      exact MirrorRun.eq_of_unmoved (fun k => (run.contract k).releasedAmount) hseen
        fun i hki hin => (hquiet i hki hin).1
    have hstatus : (run.contract run.executions.length).status = s.status := by
      by_cases hany : ∃ p < run.executions.length, run.CancelledAt p
      · obtain ⟨p, hp, hcancelled⟩ := hany
        rw [h.cancelled p hp hcancelled, run.cancelled_of_cancelledAt hcancelled hp]
      · rcases h.status with hsame | ⟨_, hcancelled⟩
        · rw [hsame]
          apply MirrorRun.eq_of_unmoved (fun k => (run.contract k).status) hseen
          intro i hki hin
          exact (hquiet i hki hin).2.resolve_right fun hcancelled => hany ⟨i, hin, hcancelled⟩
        · exact absurd hcancelled hany
    unfold Shipment.mirrored
    rw [← hreleased, ← hstatus]

def disputeEvent : RawEvent :=
  ⟨"12-1", [some "dispute_raised"], .arr [.str "SHIP-1", .num 0], 12, some "tx-dispute"⟩

def approvalEvent : RawEvent :=
  ⟨"15-1", [some "dispute_resolved"], .arr [.str "SHIP-1", .num 0, .bool true], 15,
    some "tx-resolve"⟩

/-- The arbiter awards the disputed payment to the supplier. -/
def approvedDispute : MirrorRun where
  shipmentId := "SHIP-1"
  db := Db.demo .pending
  executions := [⟨.answering 1 "Active" 0, proofEvent, 1⟩,
    ⟨.answering 2 "Active" 0, disputeEvent, 2⟩,
    ⟨.answering 3 "Completed" 1000, approvalEvent, 3⟩]
  contract := fun k => if k < 3 then ⟨.active, 0⟩ else ⟨.completed, 1000⟩
  concerns := by decide
  answered := by
    intro i x hx
    rcases i with _ | _ | _ | i
    · cases hx
      decide
    · cases hx
      decide
    · cases hx
      decide
    · cases hx
  returned := by
    intro i x hx
    rcases i with _ | _ | _ | i
    · cases hx
      decide
    · cases hx
      decide
    · cases hx
      decide
    · cases hx
  start := by decide
  released_mono := by
    intro k
    split <;> split <;> simp
    omega
  leaves_active := by
    intro k
    split <;> split <;> simp
    omega
  cancels := by
    intro k x hx
    rcases k with _ | _ | _ | k
    · cases hx
      decide
    · cases hx
      decide
    · cases hx
      decide
    · cases hx
  cancelled_by := by
    intro k
    split <;> split <;> simp

theorem approved_dispute_not_mirrored : ¬ approvedDispute.Converges := by
  have hrow : (approvedDispute.final.shipments.find? "SHIP-1").map Shipment.mirrored =
      some ⟨.active, 0⟩ := by decide
  intro h
  have hcontract := hrow.symm.trans h
  exact absurd hcontract (by decide)

end ChainSettle
