import ChainSettle.Arbiters.Steps
import ChainSettle.Concurrency.Plan
import ChainSettle.Creation.Gates
import ChainSettle.Lifecycle.Writes

/-!
The writing operations of the services in one type, each run to its end, and the
two facts about all of them that statements about whole histories rest on: which
operations can bring a shipment id into the table, and which can take a live
milestone out of its shipment.
-/

namespace ChainSettle

open Lib Lib.Eff

/-- One request or event, with the inputs of its execution. A plan operation is
given by the call it starts with. -/
inductive ServiceOp where
  | create (env : Env) (dto : CreateShipmentDto)
  | clone (env : Env) (id buyerAddress : String) (dto : CloneShipmentDto)
  | cancel (env : Env) (id buyerAddress txHash : String)
  | sync (env : Env) (id : String)
  | replaceArbiter (env : Env) (id buyerAddress arbiterAddress : String)
  | arbiterAccept (env : Env) (id callerAddress : String)
  | arbiterDecline (env : Env) (id callerAddress : String)
  | plan (env : Env) (call : PlanCall)
  | milestone (op : Operation)

/-- No plan operation has more than four statements. -/
def ServiceOp.apply (services : Services) (db : Db) : ServiceOp → Db
  | .create env dto => after (ShipmentsService.create services env dto) db
  | .clone env id buyerAddress dto => after (ChainSettle.clone services env id buyerAddress dto) db
  | .cancel env id buyerAddress txHash => after (ChainSettle.cancel env id buyerAddress txHash) db
  | .sync env id => after (syncStatusFromChain env id) db
  | .replaceArbiter env id buyerAddress arbiterAddress =>
      after (ChainSettle.replaceArbiter services.text env id buyerAddress arbiterAddress) db
  | .arbiterAccept env id callerAddress => after (ChainSettle.arbiterAccept env id callerAddress) db
  | .arbiterDecline env id callerAddress =>
      after (ChainSettle.arbiterDecline env id callerAddress) db
  | .plan env call => complete (PlanCall.statement env) 4 call db
  | .milestone op => op.step db

/-- The id that the operation inserts a shipment under, if it gets that far. -/
def ServiceOp.newId : ServiceOp → Option String
  | .create _ dto => some dto.shipmentId
  | .clone _ _ _ dto => some dto.newId
  | _ => none

variable {db next : Db}

section Shipments

/-- Every id of `next` is taken before, or is `new`. -/
def Db.OnlyAdds (db next : Db) (new : Option String) : Prop :=
  ∀ id, (next.shipments.find? id).isSome → (db.shipments.find? id).isSome ∨ new = some id

theorem onlyAdds_of_eq {new : Option String} (h : next.shipments = db.shipments) :
    db.OnlyAdds next new := by
  intro id hid
  rw [h] at hid
  exact .inl hid

/-- An update of one row adds none. -/
theorem onlyAdds_modify {new : Option String} {id : String} {f : Shipment → Shipment}
    (hf : ∀ s, (f s).id = s.id) (h : next.shipments = db.shipments.modify id f hf) :
    db.OnlyAdds next new := by
  intro other hother
  rw [h, Table.find?_modify] at hother
  split at hother
  · rename_i hsame
    rw [hsame]
    exact .inl (by simpa using hother)
  · exact .inl hother

theorem OnlyAdds.trans_same {mid : Db} {new : Option String} (h : db.OnlyAdds mid new)
    (h' : mid.OnlyAdds next none) : db.OnlyAdds next new := by
  intro id hid
  rcases h' id hid with hmid | hnone
  · exact h id hmid
  · cases hnone

theorem onlyAdds_sync {new : Option String} (env : Env) (id : String) :
    db.OnlyAdds (after (syncStatusFromChain env id) db) new := by
  obtain ⟨shipments, hafter, hkeys⟩ := sync_frame env db id
  intro other hother
  rw [hafter] at hother
  exact .inl (by rwa [← hkeys other])

theorem onlyAdds_insert (env : Env) (new : NewShipment) (milestones : List NewMilestone) :
    db.OnlyAdds (after (shipmentInsert env new milestones) db) (some new.id) := by
  rw [after_shipmentInsert]
  split
  · intro id hid
    by_cases hnew : new.id = id
    · exact .inr (congrArg some hnew)
    · have hfind : (db.shipments.insert new.row).find? id = db.shipments.find? id := by
        have hother : ¬ id = new.row.id := fun hsame => hnew hsame.symm
        rw [Table.find?_insert, if_neg hother, Option.or_none]
      exact .inl (hfind ▸ hid)
  · exact onlyAdds_of_eq rfl

/-- `create` and `clone` end in the insert of the one row, if they get there. -/
theorem onlyAdds_create (services : Services) (env : Env) (dto : CreateShipmentDto) :
    db.OnlyAdds (after (ShipmentsService.create services env dto) db) (some dto.shipmentId) := by
  unfold after
  obtain ⟨err, herr⟩ | ⟨new, milestones, hchecked, hinsert⟩ :=
    exec_create_cases services env db dto
  · rw [herr]
    exact onlyAdds_of_eq rfl
  · rw [hinsert]
    have hid : new.id = dto.shipmentId := hchecked.id
    exact hid ▸ onlyAdds_insert env new milestones

theorem onlyAdds_clone (services : Services) (env : Env) (id buyerAddress : String)
    (dto : CloneShipmentDto) :
    db.OnlyAdds (after (clone services env id buyerAddress dto) db) (some dto.newId) := by
  rw [after_clone]
  split
  · exact onlyAdds_of_eq rfl
  · split
    · split
      · exact onlyAdds_insert env _ _
      · exact onlyAdds_of_eq rfl
    · exact onlyAdds_of_eq rfl

theorem onlyAdds_operation (op : Operation) : db.OnlyAdds (op.step db) none := by
  cases op with
  | submitProof env shipmentId milestoneIndex callerAddress file =>
      by_cases h : ∃ cid, Submits env db shipmentId milestoneIndex callerAddress cid
      · obtain ⟨cid, hcid⟩ := h
        obtain ⟨_, hafter⟩ := after_submitProof env db shipmentId milestoneIndex callerAddress file
          cid hcid
        have hshipments := congrArg Db.shipments hafter
        exact onlyAdds_of_eq hshipments
      · exact onlyAdds_of_eq (congrArg Db.shipments (after_submitProof_of_not_submits env db
          shipmentId milestoneIndex callerAddress file fun cid hcid => h ⟨cid, hcid⟩))
  | confirmFromApi env shipmentId milestoneIndex callerAddress paymentReleased =>
      by_cases h : ∃ amount, ConfirmsFromApi env db shipmentId milestoneIndex callerAddress
          paymentReleased amount
      · obtain ⟨amount, hamount⟩ := h
        simp only [Operation.step]
        rw [after_confirmFromApi env db shipmentId milestoneIndex callerAddress paymentReleased
          amount hamount]
        exact onlyAdds_sync env shipmentId
      · exact onlyAdds_of_eq (congrArg Db.shipments (after_confirmFromApi_of_not_confirms env db
          shipmentId milestoneIndex callerAddress paymentReleased
            fun amount hamount => h ⟨amount, hamount⟩))
  | bulkConfirmFromApi env shipmentId callerAddress items =>
      by_cases h : ∃ writes, BulkConfirms env db shipmentId callerAddress items writes
      · obtain ⟨writes, hwrites⟩ := h
        simp only [Operation.step]
        rw [after_bulkConfirmFromApi env db shipmentId callerAddress hwrites]
        split
        · exact onlyAdds_of_eq rfl
        · have hsync : (db.writeMilestones writes).OnlyAdds
              (after (syncStatusFromChain env shipmentId) (db.writeMilestones writes)) none :=
            onlyAdds_sync env shipmentId
          intro id hid
          simpa using hsync id hid
      · exact onlyAdds_of_eq (congrArg Db.shipments (after_bulkConfirmFromApi_of_not_confirms env
          db shipmentId callerAddress fun writes hwrites => h ⟨writes, hwrites⟩))
  | rejectProof env shipmentId milestoneIndex buyerAddress =>
      by_cases h : RejectsProof env db shipmentId milestoneIndex buyerAddress
      · have hshipments := congrArg Db.shipments (after_rejectProof env db shipmentId
          milestoneIndex buyerAddress h)
        exact onlyAdds_of_eq hshipments
      · exact onlyAdds_of_eq (congrArg Db.shipments (after_rejectProof_of_not_rejects env db
          shipmentId milestoneIndex buyerAddress h))
  | bulkRejectFromApi env shipmentId buyerAddress indices =>
      by_cases h : BulkRejects env db shipmentId buyerAddress
      · have hafter := congrArg Db.shipments (after_bulkRejectFromApi env db shipmentId
          buyerAddress indices h)
        rw [shipments_writeMilestones] at hafter
        exact onlyAdds_of_eq hafter
      · exact onlyAdds_of_eq (congrArg Db.shipments (after_bulkRejectFromApi_of_not_rejects env db
          shipmentId buyerAddress indices h))
  | handle env handler payload txHash =>
      simp only [Operation.step]
      rcases runHandler_cases env db payload (some handler) txHash with h | ⟨write, h⟩ |
        ⟨amount, h⟩ | h
      · rw [h]
        exact onlyAdds_of_eq rfl
      · rw [h]
        exact onlyAdds_of_eq (shipments_writePayload db write payload)
      · rw [h]
        have hwrite : db.OnlyAdds (db.writePayload payload (.confirmed amount env.now)) none :=
          onlyAdds_of_eq (shipments_writePayload db (.confirmed amount env.now) payload)
        exact OnlyAdds.trans_same hwrite (onlyAdds_sync env _)
      · rw [h]
        exact onlyAdds_modify (Shipment.cancel_id env.now txHash) rfl

theorem onlyAdds_cancel (env : Env) (id buyerAddress txHash : String) :
    db.OnlyAdds (after (cancel env id buyerAddress txHash) db) none := by
  by_cases h : Cancels env db id buyerAddress
  · rw [after_cancel_of_cancels env db id buyerAddress txHash h]
    exact onlyAdds_modify (Shipment.registerCancel_id env.now txHash) rfl
  · rw [after_cancel_of_not_cancels env db id buyerAddress txHash h]
    exact onlyAdds_of_eq rfl

theorem onlyAdds_replaceArbiter (text : CaseMapping) (env : Env)
    (id buyerAddress arbiterAddress : String) :
    db.OnlyAdds (after (replaceArbiter text env id buyerAddress arbiterAddress) db) none := by
  rcases after_replaceArbiter_cases text env db id buyerAddress arbiterAddress with
    h | ⟨shipment, _, h⟩
  · rw [h]
    exact onlyAdds_of_eq rfl
  · rw [h]
    exact onlyAdds_modify (f := Shipment.assignArbiter arbiterAddress) (fun _ => rfl) rfl

theorem onlyAdds_answer (env : Env) (answer : ArbiterAnswer) (id callerAddress : String) :
    db.OnlyAdds (after (do
      answerChecks env answer id callerAddress
      answerUpdate env answer id) db) none := by
  rw [after_bind]
  obtain ⟨err, herr⟩ | ⟨_, hok, _⟩ := readOnly_answerChecks env db answer id callerAddress
  · rw [herr]
    exact onlyAdds_of_eq rfl
  · rw [hok]
    dsimp only
    unfold after
    obtain ⟨err, herr⟩ | ⟨_, hupdate⟩ := exec_answerUpdate_cases env db answer id
    · rw [herr]
      exact onlyAdds_of_eq rfl
    · rw [hupdate]
      exact onlyAdds_modify (f := Shipment.setArbiterStatus answer.status) (fun _ => rfl) rfl

theorem after_planStatement (env : Env) (call : PlanCall) :
    after (call.statement env) db = (call.resume env db).1 := by
  unfold PlanCall.resume after
  split <;> simp [*]

theorem shipments_setPercents (shipmentId : String) (updates : List MilestonePercentDto) :
    (updates.foldl (Db.setPercent shipmentId) db).shipments = db.shipments := by
  induction updates generalizing db with
  | nil => rfl
  | cons update rest ih => exact ih

theorem shipments_planResumed {env : Env} {call : PlanCall} {rest : Option PlanCall}
    (h : PlanResumed env db call next rest) : next.shipments = db.shipments := by
  cases h with
  | ended => rfl
  | read => rfl
  | appended => rfl
  | removed => rfl
  | rebalanced shipmentId updates => exact shipments_setPercents shipmentId updates

theorem shipments_plan (env : Env) (steps : Nat) (call : PlanCall) :
    (complete (PlanCall.statement env) steps call db).shipments = db.shipments := by
  apply complete_keeps (P := fun next : Db => next.shipments = db.shipments) _ steps call rfl
  intro call next h
  rw [after_planStatement]
  exact (shipments_planResumed (planResumed env next call)).trans h

/-- Only `create` and `clone` bring an id into the table, and only their own. -/
theorem onlyAdds_apply (services : Services) (op : ServiceOp) :
    db.OnlyAdds (op.apply services db) op.newId := by
  cases op with
  | create env dto => exact onlyAdds_create services env dto
  | clone env id buyerAddress dto => exact onlyAdds_clone services env id buyerAddress dto
  | cancel env id buyerAddress txHash => exact onlyAdds_cancel env id buyerAddress txHash
  | sync env id => exact onlyAdds_sync env id
  | replaceArbiter env id buyerAddress arbiterAddress =>
      exact onlyAdds_replaceArbiter services.text env id buyerAddress arbiterAddress
  | arbiterAccept env id callerAddress => exact onlyAdds_answer env .accept id callerAddress
  | arbiterDecline env id callerAddress => exact onlyAdds_answer env .decline id callerAddress
  | plan env call => exact onlyAdds_of_eq (shipments_plan env 4 call)
  | milestone op => exact onlyAdds_operation op

end Shipments

section Live

variable {id : String}

/-- Every milestone that is live on `id` before is live on it afterwards. -/
def Db.KeepsLive (db next : Db) (id : String) : Prop :=
  ∀ m ∈ db.live id, ∃ m' ∈ next.live id, m'.key = m.key

theorem keepsLive_of_eq (h : next.milestones = db.milestones) : db.KeepsLive next id := by
  intro m hm
  have hlive : next.live id = db.live id := by
    unfold Db.live
    rw [h]
  exact ⟨m, hlive ▸ hm, rfl⟩

theorem KeepsLive.trans {mid : Db} (h : db.KeepsLive mid id) (h' : mid.KeepsLive next id) :
    db.KeepsLive next id := by
  intro m hm
  obtain ⟨m', hm', hkey⟩ := h m hm
  obtain ⟨m'', hm'', hkey'⟩ := h' m' hm'
  exact ⟨m'', hm'', hkey'.trans hkey⟩

theorem keepsLive_of_live (h : ∀ m ∈ db.live id, m ∈ next.live id) : db.KeepsLive next id :=
  fun m hm => ⟨m, h m hm, rfl⟩

theorem apply_deletedAt (write : MilestoneWrite) (m : Milestone) :
    (write.apply m).deletedAt = m.deletedAt := by
  cases write with
  | resolved approved amount at_ =>
      simp only [MilestoneWrite.apply]
      split
      · split <;> rfl
      · rfl
  | _ => rfl

theorem keepsLive_operation (op : Operation) : db.KeepsLive (op.step db) id := by
  intro m hm
  obtain ⟨hrow, hid, hlive⟩ := mem_live.mp hm
  have hkey : m.key ∈ (op.step db).milestones.rows.map Milestone.key := by
    rw [keys_after_step op]
    exact List.mem_map_of_mem hrow
  obtain ⟨m', hmem, hsame⟩ := List.mem_map.mp hkey
  have hfind : (op.step db).milestones.find? m.key = some m' :=
    hsame ▸ Table.find?_of_mem hmem
  obtain ⟨old, hold, hcase⟩ := row_after_step op hfind
  obtain rfl : m = old := Option.some.inj ((Table.find?_of_mem hrow).symm.trans hold)
  have hid' : m'.shipmentId = id := (congrArg Prod.fst hsame).trans hid
  have hlive' : m'.deletedAt = none := by
    rcases hcase with rfl | ⟨write, -, rfl⟩
    · exact hlive
    · rw [apply_deletedAt]
      exact hlive
  exact ⟨m', mem_live.mpr ⟨hmem, hid', hlive'⟩, hsame⟩

theorem milestones_cancel (env : Env) (buyerAddress txHash : String) :
    (after (cancel env id buyerAddress txHash) db).milestones = db.milestones := by
  by_cases h : Cancels env db id buyerAddress
  · rw [after_cancel_of_cancels env db id buyerAddress txHash h]
  · rw [after_cancel_of_not_cancels env db id buyerAddress txHash h]

theorem milestones_sync (env : Env) :
    (after (syncStatusFromChain env id) db).milestones = db.milestones := by
  obtain ⟨shipments, hafter, -⟩ := sync_frame env db id
  rw [hafter]

theorem milestones_replaceArbiter (text : CaseMapping) (env : Env)
    (buyerAddress arbiterAddress : String) :
    (after (replaceArbiter text env id buyerAddress arbiterAddress) db).milestones =
      db.milestones := by
  rcases after_replaceArbiter_cases text env db id buyerAddress arbiterAddress with
    h | ⟨shipment, _, h⟩
  · rw [h]
  · rw [h]
    rfl

theorem milestones_answer (env : Env) (answer : ArbiterAnswer) (callerAddress : String) :
    (after (do
      answerChecks env answer id callerAddress
      answerUpdate env answer id) db).milestones = db.milestones := by
  rw [after_bind]
  obtain ⟨err, herr⟩ | ⟨_, hok, _⟩ := readOnly_answerChecks env db answer id callerAddress
  · rw [herr]
  · rw [hok]
    dsimp only
    unfold after
    obtain ⟨err, herr⟩ | ⟨_, hupdate⟩ := exec_answerUpdate_cases env db answer id
    · rw [herr]
    · rw [hupdate]
      rfl

/-- The statements of `removeMilestone`. -/
def PlanCall.removes : PlanCall → Bool
  | .removeShipment _ _ _ | .removeFind _ _ | .removeList _ _ _ | .removeWrite _ _ _ => true
  | _ => false

theorem removes_of_planReads {call rest : PlanCall} (h : PlanReads db call rest) :
    rest.removes = call.removes := by
  cases h <;> rfl

theorem keepsLive_planResumed {env : Env} {call : PlanCall} {rest : Option PlanCall}
    (h : PlanResumed env db call next rest) (hremoves : call.removes = false) :
    db.KeepsLive next id := by
  cases h with
  | ended => exact keepsLive_of_eq rfl
  | read => exact keepsLive_of_eq rfl
  | appended shipmentId dto nextIndex hnew hkey =>
      apply keepsLive_of_live
      intro m hm
      rw [live_insert hkey rfl]
      exact List.mem_append_left _ hm
  | rebalanced shipmentId updates =>
      intro m hm
      rw [live_setPercents]
      refine ⟨_, List.mem_map_of_mem hm, ?_⟩
      unfold withPercents
      split <;> rfl
  | removed => cases hremoves

theorem keepsLive_plan (env : Env) (steps : Nat) {call : PlanCall} (h : call.removes = false) :
    db.KeepsLive (complete (PlanCall.statement env) steps call db) id := by
  have hresumed (call : PlanCall) (s next : Db) (rest : Option PlanCall)
      (hresume : resume (call.statement env) s = (next, rest)) :
      PlanResumed env s call next rest := by
    have hall := planResumed env s call
    have hsame : call.resume env s = resume (call.statement env) s := by
      unfold PlanCall.resume resume
      split <;> simp [*]
    rwa [hsame, hresume] at hall
  -- the call in flight stays one of the other two operations
  refine complete_rule
    (P := fun call s => call.removes = false ∧ db.KeepsLive s id)
    (fun _ _ hs => hs.2) (fun call s next hs hresume => ?_) (fun call s next rest hs hresume => ?_)
    steps ⟨h, keepsLive_of_eq rfl⟩
  · exact KeepsLive.trans hs.2 (keepsLive_planResumed (hresumed call s next none hresume) hs.1)
  · have hcase := hresumed call s next (some rest) hresume
    refine ⟨?_, KeepsLive.trans hs.2 (keepsLive_planResumed hcase hs.1)⟩
    cases hcase with
    | read hread => exact (removes_of_planReads hread).trans hs.1

/-- `removeMilestone` passes all its checks; `row` is what it soft-deletes. -/
structure RemovesMilestone (env : Env) (db : Db) (shipmentId : String) (milestoneIndex : Int)
    (callerAddress : String) (row : Milestone) : Prop where
  available : env.fails .shipmentRead = false ∧ env.fails .milestoneRead = false ∧
    env.fails .milestoneWrite = false
  buyer : ∃ shipment, db.shipments.find? shipmentId = some shipment ∧
    shipment.buyerAddress = callerAddress
  pending : ∃ m, db.liveMilestone shipmentId milestoneIndex = some m ∧ m.status = .pending ∧
    db.milestones.rows.find? (fun other => other.id = m.id) = some row
  others : (db.findMany shipmentId).find? (fun m =>
    m.milestoneIndex ≠ milestoneIndex ∧ m.status ≠ .pending) = none
  several : 1 < (db.findMany shipmentId).length

section Removal

variable (env : Env) (db : Db) (shipmentId : String) (milestoneIndex : Int)

theorem readOnly_removeShipment (callerAddress : String) :
    ReadOnly ((PlanCall.removeShipment shipmentId milestoneIndex callerAddress).statement env) db
      fun rest => rest = some (.removeFind shipmentId milestoneIndex) ∧
        env.fails .shipmentRead = false ∧
        ∃ shipment, db.shipments.find? shipmentId = some shipment ∧
          shipment.buyerAddress = callerAddress := by
  change ReadOnly (buyerOnly env shipmentId callerAddress "remove" _) db _
  unfold buyerOnly shipmentFindUnique
  rw [bind_assoc]
  refine readOnly_bind (readOnly_prismaCall env db _) fun _ hcall => ?_
  rw [bind_assoc]
  refine readOnly_bind (readOnly_get db) fun _ hdb => ?_
  subst hdb
  rw [pure_bind]
  split
  · exact readOnly_throw _ _ _
  · rename_i shipment hfound
    refine readOnly_guard fun hbuyer => ?_
    exact readOnly_pure ⟨rfl, hcall, shipment, hfound, not_not.mp hbuyer⟩

theorem readOnly_removeFind :
    ReadOnly ((PlanCall.removeFind shipmentId milestoneIndex).statement env) db
      fun rest => env.fails .milestoneRead = false ∧
        ∃ m, rest = some (.removeList shipmentId milestoneIndex m) ∧
          db.liveMilestone shipmentId milestoneIndex = some m ∧ m.status = .pending := by
  unfold PlanCall.statement
  refine readOnly_read env db _ fun hcall => ?_
  split
  · exact readOnly_throw _ _ _
  · rename_i m hlive
    refine readOnly_guard fun hstatus => ?_
    exact readOnly_pure ⟨hcall, m, rfl, hlive, not_not.mp hstatus⟩

theorem readOnly_removeList (m : Milestone) :
    ReadOnly ((PlanCall.removeList shipmentId milestoneIndex m).statement env) db
      fun rest => rest = some (.removeWrite shipmentId milestoneIndex m) ∧
        (db.findMany shipmentId).find? (fun other =>
          other.milestoneIndex ≠ milestoneIndex ∧ other.status ≠ .pending) = none ∧
        1 < (db.findMany shipmentId).length := by
  unfold PlanCall.statement
  refine readOnly_read env db _ fun _ => ?_
  dsimp only
  split
  · exact readOnly_throw _ _ _
  · rename_i hothers
    refine readOnly_guard fun hlength => ?_
    exact readOnly_pure ⟨rfl, hothers, not_le.mp hlength⟩

theorem resume_removeWrite (m : Milestone) :
    resume ((PlanCall.removeWrite shipmentId milestoneIndex m).statement env) db = (db, none) ∨
    ∃ row, env.fails .milestoneWrite = false ∧
      db.milestones.rows.find? (fun other => other.id = m.id) = some row ∧
      resume ((PlanCall.removeWrite shipmentId milestoneIndex m).statement env) db =
        (db.softDelete row.key env.now, none) := by
  unfold PlanCall.statement resume
  rw [exec_bind, exec_prismaCall]
  cases hcall : env.fails .milestoneWrite with
  | true => exact .inl rfl
  | false =>
      simp only [Bool.false_eq_true, ↓reduceIte, exec_bind, exec_get]
      cases hfind : db.milestones.rows.find? fun other => other.id = m.id with
      | none => exact .inl rfl
      | some row => exact .inr ⟨row, trivial, rfl, rfl⟩

/-- `removeMilestone` soft-deletes one row, or leaves everything alone. -/
theorem removeMilestone_cases (callerAddress : String) :
    complete (PlanCall.statement env) 4
        (.removeShipment shipmentId milestoneIndex callerAddress) db = db ∨
    ∃ row, RemovesMilestone env db shipmentId milestoneIndex callerAddress row ∧
      complete (PlanCall.statement env) 4
        (.removeShipment shipmentId milestoneIndex callerAddress) db =
          db.softDelete row.key env.now := by
  obtain h | ⟨_, h, rfl, hread, hbuyer⟩ :=
    (readOnly_removeShipment env db shipmentId milestoneIndex callerAddress).resume_cases
  · exact .inl (by simp only [complete, h])
  obtain h₂ | ⟨_, h₂, hmilestoneRead, m, rfl, hlive, hstatus⟩ :=
    (readOnly_removeFind env db shipmentId milestoneIndex).resume_cases
  · exact .inl (by simp only [complete, h, h₂])
  obtain h₃ | ⟨_, h₃, rfl, hothers, hseveral⟩ :=
    (readOnly_removeList env db shipmentId milestoneIndex m).resume_cases
  · exact .inl (by simp only [complete, h, h₂, h₃])
  obtain h₄ | ⟨row, hwrite, hrow, h₄⟩ := resume_removeWrite env db shipmentId milestoneIndex m
  · exact .inl (by simp only [complete, h, h₂, h₃, h₄])
  · exact .inr ⟨row, ⟨⟨hread, hmilestoneRead, hwrite⟩, hbuyer, ⟨m, hlive, hstatus, hrow⟩, hothers,
      hseveral⟩, by simp only [complete, h, h₂, h₃, h₄]⟩

end Removal

/-- The removal of another shipment's milestone. -/
theorem keepsLive_softDelete {row : Milestone} (now : Nat) (h : row.shipmentId ≠ id) :
    db.KeepsLive (db.softDelete row.key now) id := by
  apply keepsLive_of_live
  intro m hm
  rw [live_softDelete, List.mem_filter, decide_eq_true_eq]
  refine ⟨hm, fun hkey => h ?_⟩
  have hid : m.shipmentId = row.shipmentId := congrArg Prod.fst hkey
  exact hid.symm.trans (mem_live.mp hm).2.1

end Live

/-- Nothing is gated, and the token is enabled. -/
def openServices : Services where
  threshold := 1000000
  enhancedThreshold := 10000000
  multisigThreshold := 1000000
  registry address :=
    if address = "CUSDC" then some ⟨"USDC", 7, some true, none, none⟩ else none
  text := .ascii

end ChainSettle
