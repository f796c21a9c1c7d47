import ChainSettle.Lifecycle.Replay
import ChainSettle.Lifecycle.Schedule

/-!
Delayed retries. The events of one milestone reach its handlers in ledger
order, but an event whose handler fails goes to the dead-letter queue and is
executed again later, behind events that came after it on the chain.

Every attempt of the services, live or from the queue, is shown to be an
attempt of the small machine of `Schedule`: it applies the event to the row's
outcome, or it fails and leaves the outcome as it was.
-/

namespace ChainSettle

open Lib Lib.Eff

def Milestone.outcome (m : Milestone) : Outcome :=
  ⟨m.status, m.proofHash, m.paymentReleased⟩

/-- What the event says about its milestone. -/
def moveOf (event : RawEvent) : Option Move :=
  match handlerOf (extractEventName event) with
  | some .proofSubmitted => some .proofSubmitted
  | some .milestoneConfirmed => some (.confirmed (payloadAmount (extractPayload event)))
  | some .disputeRaised => some .disputed
  | some .disputeResolved => some (.resolved (payloadApproved (extractPayload event)))
  | _ => none

/-- The event carries an array that names this milestone. -/
def Concerns (shipmentId : String) (milestoneIndex : Int) (event : RawEvent) : Prop :=
  (∃ items, extractPayload event = .arr items) ∧
    payloadShipment (extractPayload event) = shipmentId ∧
    payloadIndex (extractPayload event) = some milestoneIndex

/-- One execution of an event's handler: by the live stream, or from the
dead-letter row that `saveToDlq` stored for it. -/
inductive Attempt where
  | live (env : Env) (event : RawEvent)
  | retry (env : Env) (event : RawEvent)

def Attempt.event : Attempt → RawEvent
  | .live _ event | .retry _ event => event

def Attempt.program : Attempt → Tx Unit
  | .live env event => processEvent env event
  | .retry env event =>
      executeHandler env (extractEventName event) (payloadOrEmpty (extractPayload event))
        (some (event.txHash.getD ""))

def Attempt.step (db : Db) (attempt : Attempt) : Db :=
  after attempt.program db

/-- Every failed attempt is followed by another attempt of its event. -/
def Retried : Db → List Attempt → Prop
  | _, [] => True
  | db, attempt :: rest =>
      (¬ Succeeds attempt.program db → ∃ later ∈ rest, later.event = attempt.event) ∧
        Retried (attempt.step db) rest

/-- The events of one milestone, a path of the contract from the row's status. -/
structure MilestoneHistory (db : Db) (shipmentId : String) (milestoneIndex : Int)
    (m : Milestone) (events : List RawEvent) : Prop where
  row : db.milestones.find? (shipmentId, milestoneIndex) = some m
  concerns : ∀ event ∈ events, Concerns shipmentId milestoneIndex event ∧ (moveOf event).isSome
  path : ContractPath m.status (events.filterMap moveOf)

/-- All events handled once, in ledger order. -/
structure InOrder (db : Db) (events : List RawEvent) (run : List Attempt) : Prop where
  order : run.map Attempt.event = events
  succeeds : Along Attempt.step (fun db attempt => Succeeds attempt.program db) db run

/-- Every event is attempted, in any order, and retried until it gets through. -/
structure EventuallyHandled (db : Db) (events : List RawEvent) (run : List Attempt) : Prop where
  only : ∀ attempt ∈ run, attempt.event ∈ events
  every : ∀ event ∈ events, ∃ attempt ∈ run, attempt.event = event
  retried : Retried db run

def Db.outcomeAt (db : Db) (key : MilestoneKey) : Option Outcome :=
  (db.milestones.find? key).map Milestone.outcome

/-- The status announced by the last attempt of a run. -/
def lastAnnounced (run : List Attempt) : Option MilestoneStatus :=
  (run.getLast?.bind fun attempt => moveOf attempt.event).map Move.target

section Handlers

variable {env : Env} {db : Db} {payload : Json} {m : Milestone}

theorem marked_of_succeeds {message shipmentId : String} {index : Option Int}
    {write : MilestoneWrite}
    (h : ∃ value next, exec (markUnlessCancelled env message shipmentId index write) db =
      (.ok value, next)) :
    Marked env db shipmentId index write := by
  by_contra hmarked
  obtain ⟨value, next, hrun⟩ := h
  obtain ⟨err, herr⟩ := mark_not_marked env db shipmentId index write message hmarked
  rw [herr] at hrun
  cases hrun

theorem marked_of_handleProofSubmitted (h : Succeeds (handleProofSubmitted env payload) db) :
    MarkedPayload env db (.proofSubmitted "") payload := by
  unfold handleProofSubmitted markProofSubmitted at h
  obtain ⟨value, next, hrun, _⟩ := (succeeds_bind_iff _ _ _).mp h
  exact marked_of_succeeds ⟨value, next, hrun⟩

theorem marked_of_handleDisputeRaised (h : Succeeds (handleDisputeRaised env payload) db) :
    MarkedPayload env db (.disputed env.now) payload := by
  unfold handleDisputeRaised markDisputed at h
  obtain ⟨value, next, hrun, _⟩ := (succeeds_bind_iff _ _ _).mp h
  exact marked_of_succeeds ⟨value, next, hrun⟩

theorem resolves_of_handleDisputeResolved (h : Succeeds (handleDisputeResolved env payload) db) :
    Resolves env db payload := by
  unfold handleDisputeResolved markResolved at h
  obtain ⟨_, _, hmark, _⟩ := (succeeds_bind_iff _ _ _).mp h
  obtain ⟨_, _, hread, value, hupdate⟩ := (succeeds_bind_iff _ _ _).mp ⟨_, congrArg Prod.fst hmark⟩
  obtain ⟨hcall, _, rfl⟩ := found_of_milestoneFindUnique env db _ _ hread
  refine ⟨hcall, ?_⟩
  by_contra hwritten
  obtain ⟨err, herr⟩ := milestoneUpdate_not_written _ _ _ _ _ hwritten
  rw [herr] at hupdate
  cases hupdate

/-- A confirmation that returns has written, or found the row confirmed. -/
theorem confirms_of_handleMilestoneConfirmed
    (h : Succeeds (handleMilestoneConfirmed env payload) db) :
    (∃ amount, Confirms env db payload amount) ∨
      (db.payloadRow payload).map Milestone.status = some .confirmed := by
  unfold handleMilestoneConfirmed at h
  obtain ⟨found, next, hread, hrest⟩ := (succeeds_bind_iff _ _ _).mp h
  obtain ⟨hcall, rfl, rfl⟩ := found_of_milestoneFindUnique env db _ _ hread
  split at hrest
  · rename_i hstatus
    exact .inr hstatus
  · rename_i hstatus
    split at hrest
    · obtain ⟨_, hthrow⟩ := hrest
      cases hthrow
    · rename_i amount hamount
      unfold markConfirmed at hrest
      obtain ⟨value, after, hrun, _⟩ := (succeeds_bind_iff _ _ _).mp hrest
      exact .inl ⟨amount, hcall, hstatus, hamount, marked_of_succeeds ⟨value, after, hrun⟩⟩

/-- The row of a milestone whose payload addresses it. -/
theorem payloadRow_eq {shipmentId : String} {milestoneIndex : Int}
    (hshipment : payloadShipment payload = shipmentId)
    (hindex : payloadIndex payload = some milestoneIndex) :
    db.payloadRow payload = db.milestones.find? (shipmentId, milestoneIndex) := by
  rw [Db.payloadRow, Db.rowAt, hshipment, hindex]
  rfl

theorem outcomeAt_writePayload {shipmentId : String} {milestoneIndex : Int}
    {write : MilestoneWrite} (hshipment : payloadShipment payload = shipmentId)
    (hindex : payloadIndex payload = some milestoneIndex) :
    (db.writePayload payload write).outcomeAt (shipmentId, milestoneIndex) =
      (db.milestones.find? (shipmentId, milestoneIndex)).map fun m => (write.apply m).outcome := by
  unfold Db.writePayload Db.writeAt Db.outcomeAt
  rw [hshipment, hindex]
  exact (congrArg _ (Table.find?_modify_self _ _ _ write.apply_key)).trans (Option.map_map ..)

/-- One execution of the handler applies the event, or fails without effect. -/
theorem executeHandler_outcome (env : Env) (txHash : Option String) {event : RawEvent} {move : Move}
    {shipmentId : String} {milestoneIndex : Int}
    (hevent : Concerns shipmentId milestoneIndex event) (hmove : moveOf event = some move)
    (hm : db.milestones.find? (shipmentId, milestoneIndex) = some m) :
    let run := executeHandler env (extractEventName event) (extractPayload event) txHash
    (after run db).outcomeAt (shipmentId, milestoneIndex) = some (m.outcome.apply move) ∨
      (after run db).outcomeAt (shipmentId, milestoneIndex) = some m.outcome ∧
        ¬ Succeeds run db := by
  obtain ⟨_, hshipment, hindex⟩ := hevent
  have hbefore : db.outcomeAt (shipmentId, milestoneIndex) = some m.outcome := by
    rw [Db.outcomeAt, hm]
    rfl
  have hwrite : ∀ write, (db.writePayload (extractPayload event) write).outcomeAt
      (shipmentId, milestoneIndex) = some (MilestoneWrite.apply m write).outcome := by
    intro write
    rw [outcomeAt_writePayload hshipment hindex, hm]
    rfl
  unfold moveOf at hmove
  unfold executeHandler
  intro run
  cases hhandler : handlerOf (extractEventName event) with
  | none => simp [hhandler] at hmove
  | some handler =>
      have hrun : run = runHandler env (some handler) (extractPayload event) txHash := by
        simp only [run, hhandler]
      rw [hrun]
      cases handler with
      | shipmentCreated => simp [hhandler] at hmove
      | shipmentCancelled => simp [hhandler] at hmove
      | proofSubmitted =>
          obtain rfl : Move.proofSubmitted = move := by simpa [hhandler] using hmove
          simp only [runHandler, after_handleProofSubmitted]
          split
          · exact .inl (hwrite _)
          · rename_i hmarked
            exact .inr ⟨hbefore, fun h => hmarked (marked_of_handleProofSubmitted h)⟩
      | disputeRaised =>
          obtain rfl : Move.disputed = move := by simpa [hhandler] using hmove
          simp only [runHandler, after_handleDisputeRaised]
          split
          · exact .inl (hwrite _)
          · rename_i hmarked
            exact .inr ⟨hbefore, fun h => hmarked (marked_of_handleDisputeRaised h)⟩
      | disputeResolved =>
          obtain rfl : Move.resolved (payloadApproved (extractPayload event)) = move := by
            simpa [hhandler] using hmove
          simp only [runHandler, after_handleDisputeResolved]
          split
          · refine .inl ((hwrite _).trans ?_)
            rw [apply_resolved]
            rfl
          · rename_i hresolves
            exact .inr ⟨hbefore, fun h => hresolves (resolves_of_handleDisputeResolved h)⟩
      | milestoneConfirmed =>
          obtain rfl : Move.confirmed (payloadAmount (extractPayload event)) = move := by
            simpa [hhandler] using hmove
          simp only [runHandler]
          have hrow : db.payloadRow (extractPayload event) = some m :=
            (payloadRow_eq hshipment hindex).trans hm
          by_cases hconfirms : ∃ amount, Confirms env db (extractPayload event) amount
          · obtain ⟨amount, hamount⟩ := hconfirms
            have hopen : m.status ≠ .confirmed := by
              have hstatus := hamount.2.1
              rw [hrow] at hstatus
              exact fun heq => hstatus (congrArg some heq)
            left
            rw [after_handleMilestoneConfirmed_of_confirms _ _ _ hamount, Db.outcomeAt,
              milestones_after_sync]
            refine (hwrite _).trans ?_
            simp [Outcome.apply, Milestone.outcome, MilestoneWrite.apply, hopen, hamount.2.2.1]
          · rw [after_handleMilestoneConfirmed_of_not_confirms _ _ _
              fun amount hamount => hconfirms ⟨amount, hamount⟩]
            by_cases hstatus : m.status = .confirmed
            · left
              rw [hbefore]
              simp [Outcome.apply, Milestone.outcome, hstatus]
            · refine .inr ⟨hbefore, fun h => ?_⟩
              rcases confirms_of_handleMilestoneConfirmed h with hamount | hdone
              · exact hconfirms hamount
              · rw [hrow] at hdone
                exact hstatus (Option.some.inj hdone)

end Handlers

section Attempts

variable {db : Db} {shipmentId : String} {milestoneIndex : Int} {m : Milestone}

/-- One attempt, live or retried, applies the event or fails without effect. -/
theorem attempt_outcome {attempt : Attempt} {move : Move}
    (hevent : Concerns shipmentId milestoneIndex attempt.event)
    (hmove : moveOf attempt.event = some move)
    (hm : db.milestones.find? (shipmentId, milestoneIndex) = some m) :
    (attempt.step db).outcomeAt (shipmentId, milestoneIndex) = some (m.outcome.apply move) ∨
      (attempt.step db).outcomeAt (shipmentId, milestoneIndex) = some m.outcome ∧
        ¬ Succeeds attempt.program db := by
  cases attempt with
  | retry env event =>
      obtain ⟨items, hitems⟩ := hevent.1
      have hstored : payloadOrEmpty (extractPayload event) = extractPayload event := by
        change extractPayload event = .arr items at hitems
        rw [hitems]
        rfl
      unfold Attempt.step Attempt.program
      simp only [hstored]
      exact executeHandler_outcome env _ hevent hmove hm
  | live env event =>
      obtain ⟨chainEvents, hsave⟩ := exec_saveRawEvent env db (extractPayload event) event
        (extractEventName event)
      have hrow : ({ db with chainEvents := chainEvents } : Db).milestones.find?
          (shipmentId, milestoneIndex) = some m := hm
      have houtcome := executeHandler_outcome env event.txHash hevent hmove hrow
      unfold Attempt.step Attempt.program
      simp only [processEvent]
      rw [after_bind, hsave, succeeds_bind_iff]
      simp only
      rw [after_bind_readOnly _ (fun _ _ => after_publishGraphqlUpdate ..)]
      rcases houtcome with heffect | ⟨hsame, hfails⟩
      · exact .inl heffect
      · refine .inr ⟨hsame, ?_⟩
        rintro ⟨_, _, hrun, hrest⟩
        rw [hsave] at hrun
        cases hrun
        obtain ⟨value, _, hexec, _⟩ := (succeeds_bind_iff _ _ _).mp hrest
        exact hfails ⟨value, congrArg Prod.fst hexec⟩

/-- The schedule of a run: what each attempt announces and whether it returns. -/
def flagged : Db → List Attempt → List (Move × Bool)
  | _, [] => []
  | db, attempt :: rest =>
      match moveOf attempt.event with
      | none => flagged (attempt.step db) rest
      | some move =>
          (move, decide (Succeeds attempt.program db)) :: flagged (attempt.step db) rest

theorem flagged_cons {attempt : Attempt} {move : Move} (hmove : moveOf attempt.event = some move)
    (rest : List Attempt) :
    flagged db (attempt :: rest) =
      (move, decide (Succeeds attempt.program db)) :: flagged (attempt.step db) rest := by
  simp only [flagged, hmove]

/-- A run of attempts is a run of the outcome machine. -/
theorem attempts_of_run {run : List Attempt}
    (hevents : ∀ attempt ∈ run, Concerns shipmentId milestoneIndex attempt.event ∧
      (moveOf attempt.event).isSome)
    (hm : db.milestones.find? (shipmentId, milestoneIndex) = some m) :
    ∃ final, (run.foldl Attempt.step db).outcomeAt (shipmentId, milestoneIndex) = some final ∧
      Attempts m.outcome (flagged db run) final := by
  induction run generalizing db m with
  | nil =>
      refine ⟨m.outcome, ?_, .nil _⟩
      rw [List.foldl_nil, Db.outcomeAt, hm]
      rfl
  | cons attempt rest ih =>
      obtain ⟨hconcerns, hsome⟩ := hevents attempt (.head _)
      obtain ⟨move, hmove⟩ := Option.isSome_iff_exists.mp hsome
      have hrest := fun a ha => hevents a (.tail attempt ha)
      rw [flagged_cons hmove, List.foldl_cons]
      rcases attempt_outcome hconcerns hmove hm with heffect | ⟨hsame, hfails⟩
      · obtain ⟨m', hm', hout⟩ := Option.map_eq_some_iff.mp heffect
        obtain ⟨final, hfinal, hattempts⟩ := ih hrest hm'
        exact ⟨final, hfinal, .effective (hout ▸ hattempts)⟩
      · obtain ⟨m', hm', hout⟩ := Option.map_eq_some_iff.mp hsame
        obtain ⟨final, hfinal, hattempts⟩ := ih hrest hm'
        refine ⟨final, hfinal, ?_⟩
        rw [decide_eq_false hfails]
        exact .lost (hout ▸ hattempts)

theorem mem_flagged {run : List Attempt} {entry : Move × Bool} (h : entry ∈ flagged db run) :
    ∃ attempt ∈ run, moveOf attempt.event = some entry.1 := by
  induction run generalizing db with
  | nil => cases h
  | cons attempt rest ih =>
      cases hmove : moveOf attempt.event with
      | none =>
          simp only [flagged, hmove] at h
          obtain ⟨other, hother, hentry⟩ := ih h
          exact ⟨other, .tail _ hother, hentry⟩
      | some move =>
          rw [flagged_cons hmove] at h
          rcases List.mem_cons.mp h with rfl | htail
          · exact ⟨attempt, .head _, hmove⟩
          · obtain ⟨other, hother, hentry⟩ := ih htail
            exact ⟨other, .tail _ hother, hentry⟩

/-- Retrying until it works: some attempt of the event gets through. -/
theorem flagged_of_retried {run : List Attempt} (h : Retried db run) {attempt : Attempt}
    (hmem : attempt ∈ run) {move : Move} (hmove : moveOf attempt.event = some move) :
    (move, true) ∈ flagged db run := by
  induction run generalizing db attempt with
  | nil => cases hmem
  | cons first rest ih =>
      have htail : ∀ later ∈ rest, moveOf later.event = some move →
          (move, true) ∈ flagged db (first :: rest) := by
        intro later hlater hannounces
        have hrest := ih h.2 hlater hannounces
        unfold flagged
        split
        · exact hrest
        · exact .tail _ hrest
      rcases List.mem_cons.mp hmem with rfl | hrest
      · by_cases hok : Succeeds attempt.program db
        · rw [flagged_cons hmove, decide_eq_true hok]
          exact .head _
        · obtain ⟨later, hlater, hsame⟩ := h.1 hok
          exact htail later hlater (hsame ▸ hmove)
      · exact htail attempt hrest hmove

theorem getLast?_flagged (db : Db) {run : List Attempt}
    (hsome : ∀ attempt ∈ run, (moveOf attempt.event).isSome) :
    (flagged db run).getLast?.map Prod.fst =
      run.getLast?.bind fun attempt => moveOf attempt.event := by
  induction run generalizing db with
  | nil => rfl
  | cons attempt rest ih =>
      obtain ⟨move, hmove⟩ := Option.isSome_iff_exists.mp (hsome attempt (.head _))
      have hrest := ih (attempt.step db) fun a ha => hsome a (.tail _ ha)
      rw [flagged_cons hmove]
      cases rest with
      | nil => exact hmove.symm
      | cons next rest =>
          obtain ⟨nextMove, hnext⟩ := Option.isSome_iff_exists.mp (hsome next (.tail _ (.head _)))
          rw [flagged_cons hnext] at hrest ⊢
          rw [List.getLast?_cons_cons, List.getLast?_cons_cons]
          exact hrest

theorem last_flagged_of_retried {run : List Attempt} (h : Retried db run)
    {entry : Move × Bool} (hlast : (flagged db run).getLast? = some entry) :
    entry.2 = true := by
  induction run generalizing db with
  | nil => cases hlast
  | cons attempt rest ih =>
      cases hmove : moveOf attempt.event with
      | none =>
          simp only [flagged, hmove] at hlast
          exact ih h.2 hlast
      | some move =>
          rw [flagged_cons hmove] at hlast
          cases hrest : flagged (attempt.step db) rest with
          | nil =>
              rw [hrest] at hlast
              obtain rfl : (move, decide (Succeeds attempt.program db)) = entry := by
                simpa using hlast
              rw [decide_eq_true_eq]
              by_contra hfails
              obtain ⟨later, hlater, hsame⟩ := h.1 hfails
              have hmem := flagged_of_retried h.2 hlater (hsame ▸ hmove)
              rw [hrest] at hmem
              cases hmem
          | cons next tail =>
              rw [hrest, List.getLast?_cons_cons, ← hrest] at hlast
              exact ih h.2 hlast

end Attempts

section Theorem

variable {db : Db} {shipmentId : String} {milestoneIndex : Int} {m : Milestone}
  {events : List RawEvent} {run : List Attempt}

theorem retried_of_succeeds
    (h : Along Attempt.step (fun db attempt => Succeeds attempt.program db) db run) :
    Retried db run := by
  induction run generalizing db with
  | nil => trivial
  | cons attempt rest ih => exact ⟨fun hfails => absurd h.1 hfails, ih h.2⟩

theorem InOrder.eventuallyHandled (h : InOrder db events run) :
    EventuallyHandled db events run where
  only attempt hattempt := h.order ▸ List.mem_map_of_mem hattempt
  every event hevent := by
    rw [← h.order] at hevent
    exact List.mem_map.mp hevent
  retried := retried_of_succeeds h.succeeds

theorem EventuallyHandled.complete (h : EventuallyHandled db events run) :
    Complete (events.filterMap moveOf) (flagged db run) where
  only entry hentry := by
    obtain ⟨attempt, hattempt, hmove⟩ := mem_flagged hentry
    exact List.mem_filterMap.mpr ⟨attempt.event, h.only attempt hattempt, hmove⟩
  every move hmove := by
    obtain ⟨event, hevent, hannounces⟩ := List.mem_filterMap.mp hmove
    obtain ⟨attempt, hattempt, rfl⟩ := h.every event hevent
    exact flagged_of_retried h.retried hattempt hannounces
  last _ hlast := last_flagged_of_retried h.retried hlast

/-- A run with delayed retries ends like the run in ledger order exactly when
its last attempt announces the status of the last event of the history. -/
theorem delayed_retry_agrees_iff {inOrder : List Attempt}
    (hhistory : MilestoneHistory db shipmentId milestoneIndex m events)
    (hinOrder : InOrder db events inOrder) (hrun : EventuallyHandled db events run) :
    (run.foldl Attempt.step db).outcomeAt (shipmentId, milestoneIndex) =
        (inOrder.foldl Attempt.step db).outcomeAt (shipmentId, milestoneIndex) ↔
      lastAnnounced run = (events.getLast?.bind moveOf).map Move.target := by
  have hordered := hinOrder.eventuallyHandled
  have hevents : ∀ {attempts : List Attempt}, EventuallyHandled db events attempts →
      ∀ attempt ∈ attempts, Concerns shipmentId milestoneIndex attempt.event ∧
        (moveOf attempt.event).isSome :=
    fun handled attempt hattempt => hhistory.concerns _ (handled.only attempt hattempt)
  obtain ⟨final, hfinal, hattempts⟩ := attempts_of_run (hevents hrun) hhistory.row
  obtain ⟨final', hfinal', hattempts'⟩ := attempts_of_run (hevents hordered) hhistory.row
  have hagree := complete_agree_iff hhistory.path hrun.complete hordered.complete
    hattempts hattempts'
  have hannounced : ∀ {attempts : List Attempt}, EventuallyHandled db events attempts →
      ((flagged db attempts).getLast?.map fun entry => entry.1.target) =
        lastAnnounced attempts := by
    intro attempts handled
    rw [lastAnnounced, ← getLast?_flagged db fun a ha => (hevents handled a ha).2,
      Option.map_map]
    rfl
  rw [hannounced hrun, hannounced hordered] at hagree
  have hlast : lastAnnounced inOrder = (events.getLast?.bind moveOf).map Move.target := by
    rw [lastAnnounced, ← hinOrder.order, List.getLast?_map]
    cases inOrder.getLast? <;> rfl
  rw [hfinal, hfinal', ← hlast, ← hagree]
  exact Option.some_inj

end Theorem

/-- The proof event fails, is retried at once, then the payment is confirmed. -/
def promptRetry : List Attempt :=
  [.live (.guardDown 1) proofEvent, .retry (.calm 2) proofEvent, .live (.calm 3) confirmEvent]

/-- The same failure, but the retry job runs after the confirmation. -/
def lateRetry : List Attempt :=
  [.live (.guardDown 1) proofEvent, .live (.calm 2) confirmEvent, .retry (.calm 3) proofEvent]

def paidInOrder : List Attempt :=
  [.live (.calm 1) proofEvent, .live (.calm 2) confirmEvent]

theorem paid_history :
    MilestoneHistory (Db.demo .pending) "SHIP-1" 0 (demoMilestone .pending)
      [proofEvent, confirmEvent] where
  row := by decide
  concerns := by
    intro event hevent
    simp only [List.mem_cons, List.not_mem_nil, or_false] at hevent
    rcases hevent with rfl | rfl
    · exact ⟨⟨⟨_, rfl⟩, rfl, rfl⟩, rfl⟩
    · exact ⟨⟨⟨_, rfl⟩, rfl, rfl⟩, rfl⟩
  path := by
    have hmoves : [proofEvent, confirmEvent].filterMap moveOf =
        [.proofSubmitted, .confirmed (some 500)] := by decide
    rw [hmoves]
    exact ⟨rfl, rfl, trivial⟩

theorem paid_inOrder : InOrder (Db.demo .pending) [proofEvent, confirmEvent] paidInOrder where
  order := rfl
  succeeds := ⟨by decide, by decide, trivial⟩

theorem prompt_handled :
    EventuallyHandled (Db.demo .pending) [proofEvent, confirmEvent] promptRetry where
  only := by simp [promptRetry, Attempt.event]
  every := by simp [promptRetry, Attempt.event]
  retried := by
    refine ⟨fun _ => ⟨.retry (.calm 2) proofEvent, by simp, rfl⟩, ?_, ?_, trivial⟩
    · exact fun hfails => absurd (by decide) hfails
    · exact fun hfails => absurd (by decide) hfails

/-- The theorem at a prompt retry: nothing is lost. -/
theorem prompt_retry_agrees :
    (promptRetry.foldl Attempt.step (Db.demo .pending)).outcomeAt ("SHIP-1", 0) =
      (paidInOrder.foldl Attempt.step (Db.demo .pending)).outcomeAt ("SHIP-1", 0) :=
  (delayed_retry_agrees_iff paid_history paid_inOrder prompt_handled).mpr (by decide)

/-- A late retry takes the paid milestone back to `PROOF_SUBMITTED`. -/
theorem late_retry_disagrees :
    MilestoneHistory (Db.demo .pending) "SHIP-1" 0 (demoMilestone .pending)
        [proofEvent, confirmEvent] ∧
      InOrder (Db.demo .pending) [proofEvent, confirmEvent] paidInOrder ∧
      EventuallyHandled (Db.demo .pending) [proofEvent, confirmEvent] lateRetry ∧
      (lateRetry.foldl Attempt.step (Db.demo .pending)).outcomeAt ("SHIP-1", 0) ≠
        (paidInOrder.foldl Attempt.step (Db.demo .pending)).outcomeAt ("SHIP-1", 0) := by
  refine ⟨paid_history, paid_inOrder, ⟨?_, ?_, ?_⟩, by decide⟩
  · simp [lateRetry, Attempt.event]
  · simp [lateRetry, Attempt.event]
  · refine ⟨fun _ => ⟨.retry (.calm 3) proofEvent, by simp, rfl⟩, ?_, ?_, trivial⟩
    · exact fun hfails => absurd (by decide) hfails
    · exact fun hfails => absurd (by decide) hfails

end ChainSettle
