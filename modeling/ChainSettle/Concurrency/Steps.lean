import ChainSettle.Lifecycle.Api
import ChainSettle.Semantics.Concurrent

/-!
What resuming a call can do, stated once. `Reads` lists the suspensions that
follow a statement without a write, with what the call has checked by then;
`Resumed` adds the four statements that write. `resumed` is the only proof that
looks into `Call.statement`.
-/

namespace ChainSettle

open Lib Lib.Eff

/-- A statement that writes nothing takes a call to its next suspension. -/
inductive Reads (env : Env) (db : Db) : Call → Call → Prop where
  | submitShipment (call : SubmitProofCall) :
      Reads env db (.submitShipment call) (.submitMilestone call)
  | submitMilestone (call : SubmitProofCall) {m : Milestone}
      (hm : db.liveMilestone call.shipmentId call.milestoneIndex = some m) :
      Reads env db (.submitMilestone call) (.submitUpload call m.id)
  | submitUpload (call : SubmitProofCall) (milestoneId cid : String) :
      Reads env db (.submitUpload call milestoneId)
        (.markGuard .api call.shipmentId (some call.milestoneIndex) (.proofSubmitted cid)
          (.record ⟨milestoneId, cid, call.callerAddress, call.file.sha256, call.file.size⟩))
  | confirmShipment (call : ConfirmCall) : Reads env db (.confirmShipment call) (.confirmQuorum call)
  | confirmQuorum (call : ConfirmCall) : Reads env db (.confirmQuorum call) (.confirmMilestone call)
  | confirmMilestone (call : ConfirmCall) (amount : Int) {m : Milestone}
      (hm : db.liveMilestone call.shipmentId call.milestoneIndex = some m)
      (hstatus : m.status = .proofSubmitted) :
      Reads env db (.confirmMilestone call)
        (.markGuard .api call.shipmentId (some call.milestoneIndex) (.confirmed amount)
          (.sync call.shipmentId))
  | rejectShipment (shipmentId : String) (milestoneIndex : Int) (buyerAddress : String) :
      Reads env db (.rejectShipment shipmentId milestoneIndex buyerAddress)
        (.rejectMilestone shipmentId milestoneIndex)
  | rejectMilestone (shipmentId : String) (milestoneIndex : Int) {m : Milestone}
      (hm : db.liveMilestone shipmentId milestoneIndex = some m)
      (hstatus : m.status = .proofSubmitted) :
      Reads env db (.rejectMilestone shipmentId milestoneIndex)
        (.update .api shipmentId (some milestoneIndex) .proofRejected .done)
  | bulkConfirmShipment (shipmentId callerAddress : String) (items : List BulkConfirmItem) :
      Reads env db (.bulkConfirmShipment shipmentId callerAddress items)
        (.bulkConfirmQuorum shipmentId (toConfirm db shipmentId items))
  | bulkConfirmQuorum (shipmentId : String) (items : List BulkConfirmItem)
      {writes : List (MilestoneKey × MilestoneWrite)}
      (hwrites : bulkConfirmWrites env shipmentId items = some writes) :
      Reads env db (.bulkConfirmQuorum shipmentId items) (.transaction writes (.sync shipmentId))
  | bulkRejectShipment (shipmentId buyerAddress : String) (indices : List Int) :
      Reads env db (.bulkRejectShipment shipmentId buyerAddress indices)
        (.transaction (bulkRejectWrites db shipmentId indices) .done)
  | markGuard (origin : Origin) (shipmentId : String) (index : Option Int) (mark : Mark)
      (follow : Follow) :
      Reads env db (.markGuard origin shipmentId index mark follow)
        (.update origin shipmentId index (mark.write env.now) follow)
  | confirmedEvent (payload : Json) (amount : Int) :
      Reads env db (.confirmedEvent payload)
        (.markGuard .event (payloadShipment payload) (payloadIndex payload) (.confirmed amount)
          (.sync (payloadShipment payload)))
  | resolvedEvent (payload : Json) :
      Reads env db (.resolvedEvent payload)
        (.update .event (payloadShipment payload) (payloadIndex payload)
          (.resolved (payloadApproved payload) none env.now) .done)
  | syncRead (shipmentId : String) {onChain : OnChainShipment} {status : ShipmentStatus}
      (hanswer : env.getShipment shipmentId = some onChain)
      (hstatus : statusMap onChain.status = some status) :
      Reads env db (.syncRead shipmentId) (.syncWrite shipmentId status onChain.releasedAmount)

/-- The world and the rest of a call after its statement. -/
inductive Resumed (env : Env) (w : World) : Call → World → Option Call → Prop where
  /-- The call returned or threw without a write. -/
  | ended (call : Call) (hrecord : ∀ row, call = .record row → env.fails .proofCreate = true) :
      Resumed env w call w none
  | read {call rest : Call} (h : Reads env w.db call rest) : Resumed env w call w (some rest)
  | updated (origin : Origin) (write : MilestoneWrite) (follow : Follow) {shipmentId : String}
      {index : Int} {m : Milestone} (hm : w.db.milestones.find? (shipmentId, index) = some m) :
      Resumed env w (.update origin shipmentId (some index) write follow)
        { w with
          db := w.db.writeMilestone (shipmentId, index) write
          history := w.history ++ [⟨origin, (shipmentId, index), m.status, write⟩] }
        follow.rest
  | committed (writes : List (MilestoneKey × MilestoneWrite)) (follow : Follow)
      (hrows : ∀ entry ∈ writes, (w.db.milestones.find? entry.1).isSome) :
      Resumed env w (.transaction writes follow)
        { w with
          db := w.db.writeMilestones writes
          history := w.history ++ (Call.transaction writes follow).commits w.db }
        follow.rest
  | recorded (row : ProofSubmission) (hrecord : env.fails .proofCreate = false) :
      Resumed env w (.record row)
        { w with db := { w.db with proofSubmissions := w.db.proofSubmissions ++ [row] } } none
  | synced (shipmentId : String) (status : ShipmentStatus) (releasedAmount : Int) :
      Resumed env w (.syncWrite shipmentId status releasedAmount)
        { w with db := w.db.syncShipment shipmentId status releasedAmount } none

section Statements

variable (env : Env) (db : Db) (shipmentId : String)

theorem readOnly_prismaCall (call : DbCall) :
    ReadOnly (prismaCall env call) db fun _ => env.fails call = false := by
  unfold ReadOnly
  rw [exec_prismaCall]
  cases hcall : env.fails call with
  | true => exact .inl ⟨_, rfl⟩
  | false => exact .inr ⟨(), rfl, rfl⟩

/-- A statement goes on with the database as it is. -/
theorem readOnly_read {α : Type} {f : Db → Tx α} {Q : α → Prop} (call : DbCall)
    (h : env.fails call = false → ReadOnly (f db) db Q) :
    ReadOnly (prismaCall env call >>= fun _ => get >>= f) db Q := by
  refine readOnly_bind (readOnly_prismaCall env db call) fun _ hcall => ?_
  refine readOnly_bind (readOnly_get db) fun snapshot hdb => ?_
  subst hdb
  exact h hcall

theorem readOnly_shipmentFindUnique (call : DbCall) :
    ReadOnly (shipmentFindUnique env call shipmentId) db
      fun found => found = db.shipments.find? shipmentId := by
  unfold shipmentFindUnique
  exact readOnly_read env db call fun _ => readOnly_pure rfl

/-- The rest runs for the shipment that is found. -/
theorem readOnly_found {α : Type} {call : DbCall} {err : Exn} {rest : Shipment → Tx α}
    {Q : α → Prop} (h : ∀ shipment, db.shipments.find? shipmentId = some shipment →
      ReadOnly (rest shipment) db Q) :
    ReadOnly (shipmentFindUnique env call shipmentId >>= fun found =>
      match found with
      | none => throw err
      | some shipment => rest shipment) db Q := by
  refine readOnly_bind (readOnly_shipmentFindUnique env db shipmentId call) fun found hfound => ?_
  cases found with
  | none => exact readOnly_throw _ _ _
  | some shipment => exact h shipment hfound.symm

theorem readOnly_milestoneFindUnique (index : Option Int) :
    ReadOnly (milestoneFindUnique env shipmentId index) db
      fun found => found = db.rowAt shipmentId index := by
  unfold milestoneFindUnique
  refine readOnly_bind (readOnly_prismaCall env db .milestoneRead) fun _ _ => ?_
  cases index with
  | none => exact readOnly_throw _ _ _
  | some i => exact readOnly_bind (readOnly_get db) fun _ h => readOnly_pure (h ▸ rfl)

theorem readOnly_findOne (milestoneIndex : Int) :
    ReadOnly (findOne env shipmentId milestoneIndex) db
      fun m => db.liveMilestone shipmentId milestoneIndex = some m := by
  unfold ReadOnly
  rw [exec_findOne]
  cases env.fails .milestoneRead with
  | true => exact .inl ⟨_, rfl⟩
  | false =>
      cases hlive : db.liveMilestone shipmentId milestoneIndex with
      | none => exact .inl ⟨_, rfl⟩
      | some m => exact .inr ⟨m, rfl, rfl⟩

theorem readOnly_assertQuorum :
    ReadOnly (assertQuorum env shipmentId) db fun _ => QuorumMet db shipmentId := by
  have hafter := after_assertQuorum env db shipmentId
  unfold after at hafter
  cases hrun : exec (assertQuorum env shipmentId) db with
  | mk outcome next =>
      rw [hrun] at hafter
      obtain rfl : next = db := hafter
      cases outcome with
      | error err => exact .inl ⟨err, hrun⟩
      | ok value => exact .inr ⟨value, hrun, (quorum_of_assertQuorum env next shipmentId hrun).2⟩

end Statements

section Resume

variable (env : Env) (w : World)

/-- A statement that only reads ends the call or takes it to its next suspension. -/
theorem resumed_of_readOnly {call : Call} (hcommits : call.commits w.db = [])
    (hrecord : ∀ row, call ≠ .record row)
    (h : ReadOnly (call.statement env) w.db
      fun rest => ∀ next, rest = some next → Reads env w.db call next) :
    Resumed env w call (call.resume env w).1 (call.resume env w).2 := by
  have hended : ∀ row, call = .record row → env.fails .proofCreate = true :=
    fun row hcall => absurd hcall (hrecord row)
  unfold Call.resume
  rcases h with ⟨err, herr⟩ | ⟨rest, hrest, hnext⟩
  · rw [herr]
    exact .ended call hended
  · rw [hrest, hcommits]
    simp only [List.append_nil]
    cases rest with
    | none => exact .ended call hended
    | some next => exact .read (hnext next rfl)

/-- The statement returns the one next suspension. -/
theorem readOnly_next {call next : Call} (h : Reads env w.db call next) :
    ReadOnly (pure (some next) : Tx (Option Call)) w.db
      fun rest => ∀ next, rest = some next → Reads env w.db call next := by
  apply readOnly_pure
  rintro _ ⟨rfl⟩
  exact h

/-- The statement returns nothing that is left to do. -/
theorem readOnly_over (call : Call) :
    ReadOnly (pure none : Tx (Option Call)) w.db
      fun rest => ∀ next, rest = some next → Reads env w.db call next :=
  readOnly_pure fun _ hnone => by cases hnone

theorem resumed_update (origin : Origin) (shipmentId : String) (index : Option Int)
    (write : MilestoneWrite) (follow : Follow) :
    Resumed env w (.update origin shipmentId index write follow)
      ((Call.update origin shipmentId index write follow).resume env w).1
      ((Call.update origin shipmentId index write follow).resume env w).2 := by
  unfold Call.resume Call.statement
  rw [exec_bind]
  by_cases hwritten : Written env w.db shipmentId index write
  · obtain ⟨m, hm, hrun⟩ := milestoneUpdate_written env w.db shipmentId index write hwritten
    rw [hrun]
    cases index with
    | none => cases hm
    | some i =>
        have hrow : w.db.milestones.find? (shipmentId, i) = some m := hm
        simp only [exec_pure, Call.commits, Call.writes, Call.origin, List.filterMap_cons, hrow,
          Option.map_some, List.filterMap_nil]
        exact .updated origin write follow hrow
  · obtain ⟨err, hrun⟩ := milestoneUpdate_not_written env w.db shipmentId index write hwritten
    rw [hrun]
    exact .ended _ (by rintro _ ⟨⟩)

theorem resumed_transaction (writes : List (MilestoneKey × MilestoneWrite)) (follow : Follow) :
    Resumed env w (.transaction writes follow)
      ((Call.transaction writes follow).resume env w).1
      ((Call.transaction writes follow).resume env w).2 := by
  have hbatch := exec_milestoneTransaction env w.db writes
  unfold Call.resume Call.statement
  rw [exec_bind]
  by_cases hstorable : env.fails .milestoneWrite = false ∧ ∀ entry ∈ writes, entry.2.Storable
  · by_cases hrows : ∀ entry ∈ writes, (w.db.milestones.find? entry.1).isSome
    · rw [hbatch hstorable.1 hstorable.2 hrows]
      exact .committed writes follow hrows
    · obtain ⟨err, hrun⟩ := milestoneTransaction_missing env w.db writes hrows
      rw [hrun]
      exact .ended _ nofun
  · obtain ⟨err, hrun⟩ := milestoneTransaction_rejected env w.db writes hstorable
    rw [hrun]
    exact .ended _ nofun

theorem resumed_record (row : ProofSubmission) :
    Resumed env w (.record row) ((Call.record row).resume env w).1
      ((Call.record row).resume env w).2 := by
  unfold Call.resume Call.statement
  rw [exec_bind, exec_prismaCall]
  cases hcreate : env.fails .proofCreate with
  | true => exact .ended _ fun _ _ => hcreate
  | false =>
      simp only [Bool.false_eq_true, ↓reduceIte, exec_bind, exec_modify, exec_pure, Call.commits,
        Call.writes, List.filterMap_nil, List.append_nil]
      exact .recorded row hcreate

theorem resumed_syncWrite (shipmentId : String) (status : ShipmentStatus) (releasedAmount : Int) :
    Resumed env w (.syncWrite shipmentId status releasedAmount)
      ((Call.syncWrite shipmentId status releasedAmount).resume env w).1
      ((Call.syncWrite shipmentId status releasedAmount).resume env w).2 := by
  unfold Call.resume Call.statement
  by_cases hskip : env.fails .syncWrite ∨ ¬ fitsBigInt releasedAmount
  · simp only [hskip, ↓reduceIte, exec_pure, Call.commits, Call.writes, List.filterMap_nil,
      List.append_nil]
    exact .ended _ (by rintro _ ⟨⟩)
  · simp only [hskip, ↓reduceIte, exec_bind, exec_modify, exec_pure, Call.commits, Call.writes,
      List.filterMap_nil, List.append_nil]
    exact .synced shipmentId status releasedAmount

/-- The statement makes no write. -/
def Call.readsOnly : Call → Bool
  | .update .. | .transaction .. | .record _ | .syncWrite .. => false
  | _ => true

theorem readOnly_statement (call : Call) (h : call.readsOnly = true) :
    ReadOnly (call.statement env) w.db
      fun rest => ∀ next, rest = some next → Reads env w.db call next := by
  cases call with
  | update | transaction | record | syncWrite => cases h
  | submitShipment call =>
      refine readOnly_found env w.db _ fun shipment _ => ?_
      refine readOnly_guard fun _ => readOnly_guard fun _ => ?_
      exact readOnly_next env w (.submitShipment call)
  | submitMilestone call =>
      refine readOnly_bind (readOnly_findOne env w.db _ _) fun m hm => ?_
      exact readOnly_next env w (.submitMilestone call hm)
  | submitUpload call milestoneId =>
      simp only [Call.statement]
      cases env.uploadFile with
      | none => exact readOnly_throw _ _ _
      | some cid => exact readOnly_next env w (.submitUpload call milestoneId cid)
  | confirmShipment call =>
      refine readOnly_found env w.db _ fun shipment _ => ?_
      refine readOnly_guard fun _ => ?_
      exact readOnly_next env w (.confirmShipment call)
  | confirmQuorum call =>
      refine readOnly_bind (readOnly_assertQuorum env w.db _) fun _ _ => ?_
      exact readOnly_next env w (.confirmQuorum call)
  | confirmMilestone call =>
      refine readOnly_bind (readOnly_findOne env w.db _ _) fun m hm => ?_
      refine readOnly_guard fun hstatus => ?_
      cases bigIntOfString call.paymentReleased with
      | none => exact readOnly_throw _ _ _
      | some amount =>
          exact readOnly_next env w (.confirmMilestone call amount hm (not_not.mp hstatus))
  | rejectShipment shipmentId milestoneIndex buyerAddress =>
      refine readOnly_found env w.db _ fun shipment _ => ?_
      refine readOnly_guard fun _ => ?_
      exact readOnly_next env w (.rejectShipment shipmentId milestoneIndex buyerAddress)
  | rejectMilestone shipmentId milestoneIndex =>
      refine readOnly_bind (readOnly_findOne env w.db _ _) fun m hm => ?_
      refine readOnly_guard fun hstatus => ?_
      exact readOnly_next env w
        (.rejectMilestone shipmentId milestoneIndex hm (not_not.mp hstatus))
  | bulkConfirmShipment shipmentId callerAddress items =>
      refine readOnly_found env w.db _ fun shipment _ => ?_
      refine readOnly_bind (readOnly_get w.db) fun snapshot hsnapshot => ?_
      subst hsnapshot
      refine readOnly_guard fun _ => readOnly_guard fun _ => ?_
      exact readOnly_next env w (.bulkConfirmShipment shipmentId callerAddress items)
  | bulkConfirmQuorum shipmentId items =>
      refine readOnly_bind (readOnly_assertQuorum env w.db _) fun _ _ => ?_
      by_cases hitems : items = []
      · rw [if_pos hitems]
        exact readOnly_over env w _
      · rw [if_neg hitems]
        cases hwrites : bulkConfirmWrites env shipmentId items with
        | none => exact readOnly_throw _ _ _
        | some writes =>
            exact readOnly_next env w (.bulkConfirmQuorum shipmentId items hwrites)
  | bulkRejectShipment shipmentId buyerAddress indices =>
      refine readOnly_found env w.db _ fun shipment _ => ?_
      refine readOnly_bind (readOnly_get w.db) fun snapshot hsnapshot => ?_
      subst hsnapshot
      refine readOnly_guard fun _ => ?_
      by_cases htoReject : toReject w.db shipmentId indices = []
      · exact (if_pos htoReject).symm ▸ readOnly_over env w _
      · exact (if_neg htoReject).symm ▸
          readOnly_next env w (.bulkRejectShipment shipmentId buyerAddress indices)
  | markGuard origin shipmentId index mark follow =>
      refine readOnly_bind (readOnly_shipmentFindUnique env w.db _ _) fun found _ => ?_
      refine readOnly_guard fun _ => ?_
      exact readOnly_next env w (.markGuard origin shipmentId index mark follow)
  | confirmedEvent payload =>
      refine readOnly_bind (readOnly_milestoneFindUnique env w.db _ _) fun found _ => ?_
      by_cases hconfirmed : found.map Milestone.status = some .confirmed
      · rw [if_pos hconfirmed]
        exact readOnly_over env w _
      · rw [if_neg hconfirmed]
        cases payloadAmount payload with
        | none => exact readOnly_throw _ _ _
        | some amount => exact readOnly_next env w (.confirmedEvent payload amount)
  | resolvedEvent payload =>
      refine readOnly_bind (readOnly_milestoneFindUnique env w.db _ _) fun found _ => ?_
      exact readOnly_next env w (.resolvedEvent payload)
  | syncRead shipmentId =>
      simp only [Call.statement]
      cases hanswer : env.getShipment shipmentId with
      | none => exact readOnly_over env w _
      | some onChain =>
          cases hstatus : statusMap onChain.status with
          | none =>
              simp only [hstatus]
              exact readOnly_over env w _
          | some status =>
              simp only [hstatus]
              exact readOnly_next env w (.syncRead shipmentId hanswer hstatus)

/-- Everything resuming a call can do. -/
theorem resumed (call : Call) :
    Resumed env w call (call.resume env w).1 (call.resume env w).2 := by
  cases call with
  | update origin shipmentId index write follow =>
      exact resumed_update env w origin shipmentId index write follow
  | transaction writes follow => exact resumed_transaction env w writes follow
  | record row => exact resumed_record env w row
  | syncWrite shipmentId status releasedAmount =>
      exact resumed_syncWrite env w shipmentId status releasedAmount
  | _ =>
      exact resumed_of_readOnly env w rfl (fun _ h => by cases h) (readOnly_statement env w _ rfl)

end Resume

section Commits

variable {env : Env} {w w' : World} {call : Call} {rest : Option Call}

theorem mem_commits {db : Db} {e : Committed} (h : e ∈ call.commits db) :
    (e.key, e.write) ∈ call.writes ∧
      ∃ m, db.milestones.find? e.key = some m ∧ e.found = m.status := by
  obtain ⟨⟨key, write⟩, hmem, hentry⟩ := List.mem_filterMap.mp h
  obtain ⟨m, hm, rfl⟩ := Option.map_eq_some_iff.mp hentry
  exact ⟨hmem, m, hm, rfl⟩

/-- A statement leaves the milestones and their history alone, or it commits its
updates of existing rows. -/
theorem milestones_after_resume (h : Resumed env w call w' rest) :
    (w'.db.milestones = w.db.milestones ∧ w'.history = w.history) ∨
      (w'.db = w.db.writeMilestones call.writes ∧ w'.history = w.history ++ call.commits w.db ∧
        ∀ entry ∈ call.writes, (w.db.milestones.find? entry.1).isSome) := by
  cases h with
  | ended => exact .inl ⟨rfl, rfl⟩
  | read => exact .inl ⟨rfl, rfl⟩
  | updated origin write follow hm =>
      refine .inr ⟨rfl, ?_, ?_⟩
      · simp [Call.commits, Call.writes, Call.origin, hm]
      · simp [Call.writes, hm]
  | committed writes follow hrows => exact .inr ⟨rfl, rfl, hrows⟩
  | recorded => exact .inl ⟨rfl, rfl⟩
  | synced => exact .inl ⟨rfl, rfl⟩

/-- What is left of a call: the suspension after a read, or what follows its
updates. -/
theorem rest_after_resume {next : Call} (h : Resumed env w call w' (some next)) :
    (w' = w ∧ Reads env w.db call next) ∨ ∃ follow : Follow, follow.rest = some next := by
  generalize hrest : some next = rest at h
  cases h with
  | ended => cases hrest
  | read h =>
      cases hrest
      exact .inl ⟨rfl, h⟩
  | updated origin write follow hm => exact .inr ⟨follow, rfl⟩
  | committed writes follow hrows => exact .inr ⟨follow, rfl⟩
  | recorded => cases hrest
  | synced => cases hrest

end Commits

/-- Everything a step of the service can do. -/
theorem service_step {s t : Service} {a : ServiceAction} (h : service.step s a = some t) :
    (∃ slot call, a = .begin slot call ∧ call.starts = true ∧ s.pending slot = none ∧
      t = ⟨s.shared, Function.update s.pending slot (some call)⟩) ∨
    (∃ slot env call w rest, a = .resume slot env ∧ s.pending slot = some call ∧
      Resumed env s.shared call w rest ∧ t = ⟨w, Function.update s.pending slot rest⟩) ∨
    (∃ move, a = .external move ∧
      t = ⟨{ s.shared with
        chain := Function.update s.shared.chain move.shipmentId move.record }, s.pending⟩) := by
  obtain ⟨slot, call, rfl, hstarts, hfree, rfl⟩ | ⟨slot, env, call, rfl, hcall, rfl⟩ |
    ⟨move, rfl, rfl⟩ := service.step_cases h
  · exact .inl ⟨slot, call, rfl, hstarts, hfree, rfl⟩
  · exact .inr (.inl ⟨slot, env, call, _, _, rfl, hcall, resumed env s.shared call, rfl⟩)
  · exact .inr (.inr ⟨move, rfl, rfl⟩)

end ChainSettle
