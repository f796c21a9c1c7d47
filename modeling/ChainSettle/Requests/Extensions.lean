import ChainSettle.Concurrency.Steps
import ChainSettle.Semantics.Extensions

/-!
Does a deadline move exactly when the buyer has approved? The decision on a
request is a compare-and-set, but the update of the milestone in the same
transaction is not conditional on it, and the count is looked at when both have
committed. `ExtensionRan` says everything a statement can do; an approval that
still finds its request pending keeps `DecisionsAtomic`, which is about the rows of
the requests and of the milestones.
-/

namespace ChainSettle

open Lib Lib.Eff

/-- The database after the transaction of a decision. -/
def Db.decided (db : Db) (milestone : Milestone) (request : DeadlineExtensionRequest)
    (decision : Decision) (at_ : Nat) (callerAddress : String) : Db :=
  match decision with
  | .denied => db.decideRequest request.id .denied at_ callerAddress
  | .approved =>
      match db.milestoneById milestone.id with
      | none => db
      | some m =>
          (db.decideRequest request.id .approved at_ callerAddress).extendMilestone m.key
            request.proposedDueAt

/-- A decision in flight has read the row of its request, for its milestone. -/
def ExtensionCall.Reads (db : Db) : ExtensionCall → Prop
  | .decideTransaction milestone request _ _ =>
      ∃ row, db.extensionRequests.find? request.id = some row ∧
        row.milestoneId = milestone.id ∧ row.proposedDueAt = request.proposedDueAt
  | _ => True

/-- How a statement can end, and the database after it. -/
inductive ExtensionRan (env : Env) (db : Db) :
    ExtensionCall → Except Exn (Option ExtensionCall) → Db → Prop where
  | read (call : ExtensionCall) (outcome : Except Exn (Option ExtensionCall))
      (hreads : ∀ next, outcome = .ok (some next) → next.Reads db) :
      ExtensionRan env db call outcome db
  | created (milestoneIndex : Int) (milestone : Milestone) (dto : ExtensionDto)
      (callerAddress : String) {request : DeadlineExtensionRequest}
      (hpending : request.status = .pending)
      {requests : Register DeadlineExtensionRequest.id DeadlineExtensionRequest.milestoneId
        DeadlineExtensionRequest.isPending}
      (hinsert : db.extensionRequests.insert? request = some requests) :
      ExtensionRan env db (.createInsert milestoneIndex milestone dto callerAddress) (.ok none)
        { db with extensionRequests := requests }
  | decided (milestone : Milestone) (request : DeadlineExtensionRequest) (decision : Decision)
      (callerAddress : String)
      (hfound : decision = .approved → (db.milestoneById milestone.id).isSome)
      {outcome : Except Exn (Option ExtensionCall)} {next : Db}
      (houtcome : outcome = if db.awaits request.id then .ok none
        else .error (.conflict s!"Extension request {request.id} was already decided"))
      (hnext : next = db.decided milestone request decision env.now callerAddress) :
      ExtensionRan env db (.decideTransaction milestone request decision callerAddress) outcome next

section Statements

variable (env : Env) (db : Db)

/-- A statement before the last one of its call only reads. -/
theorem extensionRan_of_readOnly {call : ExtensionCall}
    (h : ReadOnly (call.statement env) db fun rest => ∀ next ∈ rest, next.Reads db) :
    ExtensionRan env db call (exec (call.statement env) db).1 (exec (call.statement env) db).2 := by
  rcases h with ⟨err, herr⟩ | ⟨rest, hrest, hreads⟩
  · rw [herr]
    exact .read call _ fun _ h => by cases h
  · rw [hrest]
    refine .read call _ fun next hnext => ?_
    cases hnext
    exact hreads next rfl

theorem readOnly_findShipment (shipmentId : String) :
    ReadOnly (findShipment env shipmentId) db
      fun shipment => db.shipments.find? shipmentId = some shipment := by
  unfold findShipment
  exact readOnly_found env db shipmentId fun shipment hfound => readOnly_pure hfound

theorem extensionRan_createInsert (milestoneIndex : Int) (milestone : Milestone)
    (dto : ExtensionDto) (callerAddress : String) :
    ExtensionRan env db (.createInsert milestoneIndex milestone dto callerAddress)
      (exec ((ExtensionCall.createInsert milestoneIndex milestone dto callerAddress).statement env)
        db).1
      (exec ((ExtensionCall.createInsert milestoneIndex milestone dto callerAddress).statement env)
        db).2 := by
  unfold ExtensionCall.statement
  rw [exec_bind, exec_prismaCall]
  cases env.fails .extensionCreate with
  | true => exact .read _ _ fun _ h => by cases h
  | false =>
      simp only [Bool.false_eq_true, ↓reduceIte, exec_bind, exec_get]
      split
      · exact .read _ _ fun _ h => by cases h
      · rename_i requests hinsert
        exact .created milestoneIndex milestone dto callerAddress rfl hinsert

/-- The conflict is answered when the transaction has committed. -/
theorem exec_commit_then_check (commit : Db → Db) (message : String) (c : Bool) :
    exec (do
      modify commit
      if ¬ c = true then throw (.conflict message)
      return none : Tx (Option ExtensionCall)) db =
        (if c then .ok none else .error (.conflict message), commit db) := by
  cases c <;> rfl

theorem extensionRan_decideTransaction (milestone : Milestone)
    (request : DeadlineExtensionRequest) (decision : Decision) (callerAddress : String) :
    ExtensionRan env db (.decideTransaction milestone request decision callerAddress)
      (exec ((ExtensionCall.decideTransaction milestone request decision callerAddress).statement
        env) db).1
      (exec ((ExtensionCall.decideTransaction milestone request decision callerAddress).statement
        env) db).2 := by
  unfold ExtensionCall.statement
  rw [exec_bind, exec_prismaCall]
  cases env.fails .decideWrite with
  | true => exact .read _ _ fun _ h => by cases h
  | false =>
      simp only [Bool.false_eq_true, ↓reduceIte, exec_bind, exec_get]
      cases decision with
      | denied =>
          dsimp only
          rw [exec_commit_then_check]
          exact .decided milestone request .denied callerAddress nofun rfl rfl
      | approved =>
          cases hfound : db.milestoneById milestone.id with
          | none => exact .read _ _ fun _ h => by cases h
          | some m =>
              dsimp only
              rw [exec_commit_then_check]
              refine .decided milestone request .approved callerAddress
                (fun _ => Option.isSome_of_mem hfound) rfl ?_
              unfold Db.decided
              rw [hfound]

/-- Everything a statement can do. -/
theorem extensionRan (call : ExtensionCall) :
    ExtensionRan env db call (exec (call.statement env) db).1 (exec (call.statement env) db).2 := by
  cases call with
  | createInsert milestoneIndex milestone dto callerAddress =>
      exact extensionRan_createInsert env db milestoneIndex milestone dto callerAddress
  | decideTransaction milestone request decision callerAddress =>
      exact extensionRan_decideTransaction env db milestone request decision callerAddress
  | createShipment shipmentId milestoneIndex dto callerAddress =>
      refine extensionRan_of_readOnly env db ?_
      refine readOnly_bind (readOnly_findShipment env db shipmentId) fun shipment _ => ?_
      exact readOnly_guard fun _ => readOnly_pure (by rintro _ ⟨⟩; trivial)
  | createMilestone shipmentId milestoneIndex dto callerAddress =>
      refine extensionRan_of_readOnly env db ?_
      refine readOnly_bind (readOnly_findOne env db shipmentId milestoneIndex) fun m _ => ?_
      refine readOnly_guard fun _ => readOnly_guard fun _ => readOnly_guard fun _ => ?_
      exact readOnly_pure (by rintro _ ⟨⟩; trivial)
  | createPending milestoneIndex milestone dto callerAddress =>
      refine extensionRan_of_readOnly env db ?_
      refine readOnly_read env db _ fun _ => ?_
      split
      · exact readOnly_throw _ _ _
      · exact readOnly_pure (by rintro _ ⟨⟩; trivial)
  | decideShipment shipmentId milestoneIndex requestId decision callerAddress =>
      refine extensionRan_of_readOnly env db ?_
      refine readOnly_bind (readOnly_findShipment env db shipmentId) fun shipment _ => ?_
      exact readOnly_guard fun _ => readOnly_pure (by rintro _ ⟨⟩; trivial)
  | decideMilestone shipmentId milestoneIndex requestId decision callerAddress =>
      refine extensionRan_of_readOnly env db ?_
      refine readOnly_bind (readOnly_findOne env db shipmentId milestoneIndex) fun m _ => ?_
      exact readOnly_pure (by rintro _ ⟨⟩; trivial)
  | decideRequest milestone requestId decision callerAddress =>
      refine extensionRan_of_readOnly env db ?_
      refine readOnly_read env db _ fun _ => ?_
      split
      · exact readOnly_throw _ _ _
      · rename_i request hfound
        obtain ⟨hrow, hmilestone⟩ := Option.filter_eq_some_iff.mp hfound
        refine readOnly_guard fun _ => readOnly_pure fun next hnext => ?_
        cases hnext
        refine ⟨request, ?_, of_decide_eq_true hmilestone, rfl⟩
        rw [Table.key_of_find? hrow]
        exact hrow

end Statements

/-- The milestone of the request has been given its deadline, and its notices are
taken back. -/
def Answer.Extends (a : Answer) (request : DeadlineExtensionRequest) : Prop :=
  a.milestoneId = request.milestoneId ∧
    ∃ m, a.before = some m ∧ a.after = some
      { m with
        dueAt := some request.proposedDueAt, overdueNotifiedAt := none,
        overdueReminder3dAt := none }

/-- Every approved request has extended its milestone, a milestone that changes is
extended on behalf of an approved request, none changes otherwise, and an answered
conflict has changed nothing. -/
structure DecisionsAtomic (start : Db) (w : ExtensionWorld) : Prop where
  approved : ∀ id request, w.db.extensionRequests.find? id = some request →
    request.status = .approved → ∃ a ∈ w.answers, a.requestId = id ∧ a.Extends request
  changed : ∀ a ∈ w.answers, a.after ≠ a.before → ∃ request,
    w.db.extensionRequests.find? a.requestId = some request ∧ request.status = .approved ∧
      a.Extends request
  untouched : ∀ id, (∀ a ∈ w.answers, a.milestoneId = id → a.after = a.before) →
    w.db.milestoneById id = start.milestoneById id
  conflict : ∀ a ∈ w.answers, a.conflict = true → a.after = a.before

/-- The transaction of an approval finds its request pending. -/
def ExtensionCall.ApprovesPending (db : Db) : ExtensionCall → Prop
  | .decideTransaction _ request .approved _ => db.awaits request.id = true
  | _ => True

instance (db : Db) : (call : ExtensionCall) → Decidable (call.ApprovesPending db)
  | .decideTransaction _ _ .approved _ => inferInstanceAs (Decidable (_ = true))
  | .decideTransaction _ _ .denied _ | .createShipment _ _ _ _ | .createMilestone _ _ _ _
  | .createPending _ _ _ _ | .createInsert _ _ _ _ | .decideShipment _ _ _ _ _
  | .decideMilestone _ _ _ _ _ | .decideRequest _ _ _ _ => isTrue trivial

def Extensions.ApprovesPending (s : Extensions) : ExtensionAction → Prop
  | .resume slot _ => ∀ call ∈ s.pending slot, call.ApprovesPending s.shared.db
  | _ => True

instance (s : Extensions) : (a : ExtensionAction) → Decidable (s.ApprovesPending a)
  | .resume slot _ => inferInstanceAs (Decidable (∀ call ∈ s.pending slot, _))
  | .begin _ _ | .external _ => isTrue trivial

section Requests

variable {db : Db}

theorem find?_decideRequest (id : String) (decision : Decision) (at_ : Nat) (decidedBy : String)
    (other : String) :
    (db.decideRequest id decision at_ decidedBy).extensionRequests.find? other =
      if other = id then (db.extensionRequests.find? id).map
        (Register.answered DeadlineExtensionRequest.isPending
          (DeadlineExtensionRequest.decide decision at_ decidedBy))
      else db.extensionRequests.find? other :=
  db.extensionRequests.find?_close id (DeadlineExtensionRequest.decide_id decision at_ decidedBy)
    (DeadlineExtensionRequest.decide_isPending decision at_ decidedBy) other

/-- The transaction leaves the requests as the decision alone does. -/
theorem find?_decided {milestone : Milestone} {request : DeadlineExtensionRequest}
    {decision : Decision} {at_ : Nat} {callerAddress : String}
    (hfound : decision = .approved → (db.milestoneById milestone.id).isSome) (other : String) :
    (db.decided milestone request decision at_ callerAddress).extensionRequests.find? other =
      if other = request.id then (db.extensionRequests.find? request.id).map
        (Register.answered DeadlineExtensionRequest.isPending
          (DeadlineExtensionRequest.decide decision at_ callerAddress))
      else db.extensionRequests.find? other := by
  rw [← find?_decideRequest]
  cases decision with
  | denied => rfl
  | approved =>
      obtain ⟨m, hm⟩ := Option.isSome_iff_exists.mp (hfound rfl)
      unfold Db.decided
      rw [hm]
      rfl

/-- An update that keeps the ids. -/
theorem milestoneById_modify {key : MilestoneKey} {f : Milestone → Milestone}
    (hkey : ∀ m, (f m).key = m.key) (hid : ∀ m, (f m).id = m.id) {id : String} :
    Db.milestoneById { db with milestones := db.milestones.modify key f hkey } id =
      (db.milestoneById id).map fun m => if m.key = key then f m else m := by
  unfold Db.milestoneById Table.modify
  rw [List.find?_map]
  congr 2
  funext m
  simp only [Function.comp_apply]
  split
  · rw [hid]
  · rfl

/-- The transaction writes the row of its milestone, when it approves. -/
theorem milestoneById_decided (milestone : Milestone) (request : DeadlineExtensionRequest)
    (decision : Decision) (at_ : Nat) (callerAddress id : String) :
    (db.decided milestone request decision at_ callerAddress).milestoneById id =
      if id = milestone.id ∧ decision = .approved then
        (db.milestoneById id).map (Milestone.extend request.proposedDueAt)
      else db.milestoneById id := by
  cases decision with
  | denied =>
      rw [if_neg (by simp)]
      rfl
  | approved =>
      cases hfound : db.milestoneById milestone.id with
      | none =>
          simp only [Db.decided, hfound]
          split
          · rename_i hid
            rw [hid.1, hfound]
            rfl
          · rfl
      | some m =>
          simp only [Db.decided, hfound]
          refine (milestoneById_modify (Milestone.extend_key _) fun _ => rfl).trans ?_
          change (db.milestoneById id).map _ = _
          cases hrow : db.milestoneById id with
          | none => split <;> rfl
          | some row =>
              have hm : m.id = milestone.id := by simpa using List.find?_some hfound
              have hid : row.id = id := by simpa using List.find?_some hrow
              by_cases hsame : id = milestone.id
              · subst hsame
                obtain rfl : row = m := Option.some.inj (hrow.symm.trans hfound)
                simp
              · have hkey : row.key ≠ m.key := by
                  intro h
                  have heq : row = m := List.inj_on_of_nodup_map db.milestones.nodup
                    (List.mem_of_find?_eq_some hrow) (List.mem_of_find?_eq_some hfound) h
                  exact hsame (hid.symm.trans (heq ▸ hm))
                simp [hkey, hsame]

/-- The row of a milestone that has been read. -/
theorem milestoneById_read (hids : (db.milestones.rows.map Milestone.id).Nodup)
    {m row : Milestone} (hrow : row ∈ db.milestones.rows) (hid : row.id = m.id) :
    db.milestoneById m.id = some row := by
  have hsome : (db.milestoneById m.id).isSome := by
    simp only [Db.milestoneById, List.find?_isSome, decide_eq_true_eq]
    exact ⟨row, hrow, hid⟩
  obtain ⟨other, hother⟩ := Option.isSome_iff_exists.mp hsome
  have hmem : other ∈ db.milestones.rows := List.mem_of_find?_eq_some hother
  have hsame : other.id = m.id := by simpa using List.find?_some hother
  rw [hother, List.inj_on_of_nodup_map hids hmem hrow (hsame.trans hid.symm)]

end Requests

section Steps

variable {w : ExtensionWorld}

/-- A statement that leaves the database alone. -/
theorem atomic_read {start : Db} (h : DecisionsAtomic start w) {answer : Option Answer}
    (hstill : ∀ a, answer = some a → a.after = a.before) :
    DecisionsAtomic start ⟨w.db, w.answers ++ answer.toList⟩ := by
  have hnew : ∀ a ∈ w.answers ++ answer.toList, a ∈ w.answers ∨ a.after = a.before := by
    intro a ha
    exact (List.mem_append.mp ha).imp_right fun hlast => hstill a (Option.mem_toList.mp hlast)
  refine ⟨fun id request hrow happroved => ?_, fun a ha hchanged => ?_, fun id hsame => ?_,
    fun a ha hconflict => ?_⟩
  · obtain ⟨a, ha, hextends⟩ := h.approved id request hrow happroved
    exact ⟨a, List.mem_append_left _ ha, hextends⟩
  · exact h.changed a ((hnew a ha).resolve_right hchanged) hchanged
  · exact h.untouched id fun a ha => hsame a (List.mem_append_left _ ha)
  · exact (hnew a ha).elim (fun hold => h.conflict a hold hconflict) id

theorem awaits_iff {db : Db} {id : String} :
    db.awaits id = true ↔ ∃ r, db.extensionRequests.find? id = some r ∧ r.status = .pending := by
  simp [Db.awaits, Option.any_eq_true, DeadlineExtensionRequest.isPending]

theorem answered_approved {request : DeadlineExtensionRequest} (h : request.status = .approved)
    (f : DeadlineExtensionRequest → DeadlineExtensionRequest) :
    Register.answered DeadlineExtensionRequest.isPending f request = request :=
  Register.answered_closed (by simp [DeadlineExtensionRequest.isPending, h])

/-- What the transaction of a decision answers. -/
def Db.decisionAnswer (db : Db) (milestone : Milestone) (request : DeadlineExtensionRequest)
    (decision : Decision) (at_ : Nat) (callerAddress : String) : Answer where
  requestId := request.id
  milestoneId := milestone.id
  conflict := !db.awaits request.id
  before := db.milestoneById milestone.id
  after := (db.decided milestone request decision at_ callerAddress).milestoneById milestone.id

section Decided

variable {db : Db} {milestone : Milestone} {request : DeadlineExtensionRequest}
  {decision : Decision} {at_ : Nat} {callerAddress : String}

theorem after_decisionAnswer :
    (db.decisionAnswer milestone request decision at_ callerAddress).after =
      if decision = .approved then
        (db.milestoneById milestone.id).map (Milestone.extend request.proposedDueAt)
      else db.milestoneById milestone.id := by
  refine (milestoneById_decided ..).trans ?_
  simp only [true_and]

theorem approved_of_changed
    (h : (db.decisionAnswer milestone request decision at_ callerAddress).after ≠
      db.milestoneById milestone.id) : decision = .approved := by
  by_contra hdenied
  exact h (after_decisionAnswer.trans (if_neg hdenied))

theorem decisionAnswer_extends (hdecision : decision = .approved)
    (hfound : (db.milestoneById milestone.id).isSome) {row : DeadlineExtensionRequest}
    (hmilestone : row.milestoneId = milestone.id)
    (hproposed : row.proposedDueAt = request.proposedDueAt) :
    (db.decisionAnswer milestone request decision at_ callerAddress).Extends row := by
  obtain ⟨m, hm⟩ := Option.isSome_iff_exists.mp hfound
  refine ⟨hmilestone.symm, m, hm, ?_⟩
  rw [after_decisionAnswer, if_pos hdecision, hm, hproposed]
  rfl

/-- A request that is approved after the transaction was so before, or is the one that it has
approved. -/
theorem approved_decided (hfound : decision = .approved → (db.milestoneById milestone.id).isSome)
    {id : String} {found : DeadlineExtensionRequest}
    (hrow : (db.decided milestone request decision at_ callerAddress).extensionRequests.find? id =
      some found) (happroved : found.status = .approved) :
    db.extensionRequests.find? id = some found ∨ request.id = id ∧ decision = .approved ∧
      ∃ read, db.extensionRequests.find? request.id = some read ∧
        found = read.decide decision at_ callerAddress := by
  rw [find?_decided hfound] at hrow
  split at hrow
  · rename_i hid
    subst hid
    obtain ⟨read, hread, hnew⟩ := Option.map_eq_some_iff.mp hrow
    cases hopen : read.isPending with
    | false =>
        rw [Register.answered_closed hopen] at hnew
        exact .inl (hread.trans (congrArg some hnew))
    | true =>
        rw [Register.answered_open hopen] at hnew
        subst hnew
        cases decision with
        | denied => cases happroved
        | approved => exact .inr ⟨rfl, rfl, read, hread, rfl⟩
  · exact .inl hrow

/-- What was approved before the transaction stays so. -/
theorem find?_decided_of_approved
    (hfound : decision = .approved → (db.milestoneById milestone.id).isSome) {id : String}
    {row : DeadlineExtensionRequest} (hrow : db.extensionRequests.find? id = some row)
    (happroved : row.status = .approved) :
    (db.decided milestone request decision at_ callerAddress).extensionRequests.find? id =
      some row := by
  rw [find?_decided hfound]
  split
  · rename_i hid
    rw [← hid, hrow, Option.map_some, answered_approved happroved]
  · exact hrow

end Decided

/-- The transaction of a decision. -/
theorem atomic_decided {start : Db} (h : DecisionsAtomic start w) {milestone : Milestone}
    {request : DeadlineExtensionRequest} {decision : Decision} (at_ : Nat) {callerAddress : String}
    (hfound : decision = .approved → (w.db.milestoneById milestone.id).isSome)
    (hpending : decision = .approved → w.db.awaits request.id = true)
    (hreads : (ExtensionCall.decideTransaction milestone request decision callerAddress).Reads
      w.db) :
    DecisionsAtomic start ⟨w.db.decided milestone request decision at_ callerAddress,
      w.answers ++ [w.db.decisionAnswer milestone request decision at_ callerAddress]⟩ := by
  obtain ⟨read, hread, hmilestone, hproposed⟩ := hreads
  have hlast := List.mem_append_right w.answers
    (List.mem_singleton_self (w.db.decisionAnswer milestone request decision at_ callerAddress))
  have hextends (hdecision : decision = .approved) :
      (w.db.decisionAnswer milestone request decision at_ callerAddress).Extends
        (read.decide decision at_ callerAddress) :=
    decisionAnswer_extends hdecision (hfound hdecision) hmilestone hproposed
  refine ⟨fun id found hrow happroved => ?_, fun a ha hchanged => ?_, fun id hsame => ?_,
    fun a ha hconflict => ?_⟩
  · rcases approved_decided hfound hrow happroved with hold | ⟨hid, hdecision, other, hother, rfl⟩
    · obtain ⟨a, ha, hrest⟩ := h.approved id found hold happroved
      exact ⟨a, List.mem_append_left _ ha, hrest⟩
    · obtain rfl : read = other := Option.some.inj (hread.symm.trans hother)
      exact ⟨_, hlast, hid, hextends hdecision⟩
  · rcases List.mem_append.mp ha with hold | hnew
    · obtain ⟨row, hrow, happroved, hrest⟩ := h.changed a hold hchanged
      exact ⟨row, find?_decided_of_approved hfound hrow happroved, happroved, hrest⟩
    · obtain rfl := List.mem_singleton.mp hnew
      have hdecision : decision = .approved := approved_of_changed hchanged
      -- the approval has answered the request that it found pending
      obtain ⟨row, hrow, hstatus⟩ := awaits_iff.mp (hpending hdecision)
      obtain rfl : read = row := Option.some.inj (hread.symm.trans hrow)
      refine ⟨read.decide decision at_ callerAddress, ?_, by rw [hdecision]; rfl,
        hextends hdecision⟩
      refine (find?_decided hfound request.id).trans ?_
      rw [if_pos rfl, hrow, Option.map_some,
        Register.answered_open (by simp [DeadlineExtensionRequest.isPending, hstatus])]
  · rw [← h.untouched id fun a ha => hsame a (List.mem_append_left _ ha), milestoneById_decided]
    split
    · rename_i hid
      obtain ⟨rfl, hdecision⟩ := hid
      exact (after_decisionAnswer.trans (if_pos hdecision)).symm.trans (hsame _ hlast rfl)
    · rfl
  · rcases List.mem_append.mp ha with hold | hnew
    · exact h.conflict a hold hconflict
    · obtain rfl := List.mem_singleton.mp hnew
      by_contra hchanged
      have hopen : w.db.awaits request.id = true := hpending (approved_of_changed hchanged)
      simp [Db.decisionAnswer, hopen] at hconflict

/-- A new request is not decided. -/
theorem atomic_created {start : Db} (h : DecisionsAtomic start w)
    {request : DeadlineExtensionRequest} (hpending : request.status = .pending)
    {requests : Register DeadlineExtensionRequest.id DeadlineExtensionRequest.milestoneId
      DeadlineExtensionRequest.isPending}
    (hinsert : w.db.extensionRequests.insert? request = some requests) :
    DecisionsAtomic start ⟨{ w.db with extensionRequests := requests }, w.answers⟩ := by
  refine ⟨fun id found hrow happroved => ?_, fun a ha hchanged => ?_, h.untouched, h.conflict⟩
  · change requests.find? id = some found at hrow
    rw [Register.find?_insert? hinsert] at hrow
    rcases Option.or_eq_some_iff.mp hrow with hold | ⟨-, hnew⟩
    · exact h.approved id found hold happroved
    · split at hnew
      · cases hnew
        rw [hpending] at happroved
        cases happroved
      · cases hnew
  · obtain ⟨row, hrow, hrest⟩ := h.changed a ha hchanged
    refine ⟨row, ?_, hrest⟩
    change requests.find? _ = _
    rw [Register.find?_insert? hinsert, hrow]
    rfl

/-- What a decision in flight has read stays. -/
theorem reads_ran {env : Env} {db next : Db} {call other : ExtensionCall}
    {outcome : Except Exn (Option ExtensionCall)} (hran : ExtensionRan env db call outcome next)
    (h : other.Reads db) : other.Reads next := by
  cases other with
  | decideTransaction milestone request decision callerAddress =>
      obtain ⟨row, hrow, hsame⟩ := h
      cases hran with
      | read => exact ⟨row, hrow, hsame⟩
      | created _ _ _ _ _ hinsert =>
          refine ⟨row, ?_, hsame⟩
          rw [Register.find?_insert? hinsert, hrow]
          rfl
      | decided milestone' request' decision' caller hfound houtcome hnext =>
          subst hnext
          simp only [ExtensionCall.Reads]
          rw [find?_decided hfound]
          split
          · rename_i hid
            refine ⟨_, by rw [← hid, hrow, Option.map_some], ?_⟩
            unfold Register.answered
            split <;> exact hsame
          · exact ⟨row, hrow, hsame⟩
  | _ => trivial

end Steps

/-- A decision is answered with a conflict when the request was not pending. -/
theorem answer_decided (db next : Db) (milestone : Milestone) (request : DeadlineExtensionRequest)
    (decision : Decision) (callerAddress message : String) :
    (ExtensionCall.decideTransaction milestone request decision callerAddress).answer db next
        (if db.awaits request.id then .ok none else .error (.conflict message)) =
      some ⟨request.id, milestone.id, !db.awaits request.id,
        db.milestoneById milestone.id, next.milestoneById milestone.id⟩ := by
  cases db.awaits request.id <;> rfl

/-- A statement that leaves the database alone answers with the same milestone. -/
theorem answer_unchanged {db : Db} {call : ExtensionCall}
    {outcome : Except Exn (Option ExtensionCall)} {a : Answer}
    (h : call.answer db db outcome = some a) : a.after = a.before := by
  cases call with
  | decideRequest milestone requestId decision callerAddress =>
      simp only [ExtensionCall.answer] at h
      split at h <;> cases h
      rfl
  | decideTransaction milestone request decision callerAddress =>
      simp only [ExtensionCall.answer] at h
      split at h <;> cases h <;> rfl
  | _ => cases h

namespace Extensions

/-- The property, and what the decisions in flight have read. -/
structure Consistent (start : Db) (s : Extensions) : Prop where
  atomic : DecisionsAtomic start s.shared
  reads : ∀ slot call, s.pending slot = some call → call.Reads s.shared.db

variable {start : Db} {s t : Extensions} {a : ExtensionAction}

theorem consistent_resume {slot : Nat} {env : Env} {call : ExtensionCall}
    (happroves : s.ApprovesPending (.resume slot env)) (hcall : s.pending slot = some call)
    (h : s.Consistent start) :
    DecisionsAtomic start (call.resume env s.shared).1 ∧
      (∀ next, (call.resume env s.shared).2 = some next →
        next.Reads (call.resume env s.shared).1.db) ∧
      ∀ other : ExtensionCall, other.Reads s.shared.db →
        other.Reads (call.resume env s.shared).1.db := by
  have hran := extensionRan env s.shared.db call
  unfold ExtensionCall.resume
  generalize exec (call.statement env) s.shared.db = result at hran
  obtain ⟨outcome, db⟩ := result
  have hgoal : DecisionsAtomic start
        ⟨db, s.shared.answers ++ (call.answer s.shared.db db outcome).toList⟩ ∧
      ∀ next, outcome = .ok (some next) → next.Reads db := by
    cases hran with
    | read call outcome hreads =>
        exact ⟨atomic_read h.atomic fun a ha => answer_unchanged ha, hreads⟩
    | created milestoneIndex milestone dto callerAddress hpending hinsert =>
        rw [show ExtensionCall.answer _ _ _ _ = none from rfl, Option.toList_none, List.append_nil]
        exact ⟨atomic_created h.atomic hpending hinsert, fun _ h => by cases h⟩
    | decided milestone request decision callerAddress hfound houtcome hnext =>
        subst houtcome hnext
        have hpending : decision = .approved → s.shared.db.awaits request.id = true := by
          rintro rfl
          exact happroves _ hcall
        rw [answer_decided, Option.toList_some]
        refine ⟨atomic_decided h.atomic env.now hfound hpending (h.reads slot _ hcall),
          fun next hnext => ?_⟩
        split at hnext <;> cases hnext
  have hkeep : ∀ other : ExtensionCall, other.Reads s.shared.db → other.Reads db :=
    fun other => reads_ran hran
  cases outcome with
  | ok rest => exact ⟨hgoal.1, fun next hnext => hgoal.2 next (by rw [← hnext]), hkeep⟩
  | error err => exact ⟨hgoal.1, fun _ hnext => (nomatch hnext), hkeep⟩

theorem consistent_step (happroves : s.ApprovesPending a) (hstep : extensions.step s a = some t)
    (h : s.Consistent start) : t.Consistent start := by
  obtain ⟨slot, call, rfl, hstarts, _, rfl⟩ | ⟨slot, env, call, rfl, hcall, rfl⟩ |
    ⟨event, _⟩ := extensions.step_cases hstep
  · refine ⟨h.atomic, fun other next hnext => ?_⟩
    rcases pending_update hnext with ⟨-, hnew⟩ | ⟨-, hold⟩
    · cases hnew
      cases call with
      | decideTransaction => cases hstarts
      | _ => trivial
    · exact h.reads other next hold
  · obtain ⟨hatomic, hnext, hkeep⟩ := consistent_resume happroves hcall h
    refine ⟨hatomic, fun other next hpending => ?_⟩
    rcases pending_update hpending with ⟨-, hnew⟩ | ⟨-, hold⟩
    · exact hnext next hnew
    · exact hkeep next (h.reads other next hold)
  · exact event.elim

end Extensions

/-- From a database without extension requests, in every state of a run whose
approvals find their request pending. -/
theorem extension_decisions_atomic {db : Db} (hnone : db.extensionRequests.rows = [])
    {s : Extensions}
    (hrun : StepsAlong extensions.step Extensions.ApprovesPending (Extensions.idle db) s) :
    DecisionsAtomic db s.shared := by
  have hstart : (Extensions.idle db).Consistent db := by
    refine ⟨⟨fun id request hrequest => ?_, fun _ ha => (nomatch ha), fun _ _ => rfl,
      fun _ ha => (nomatch ha)⟩, fun _ _ h => (nomatch h)⟩
    have hmem : request ∈ db.extensionRequests.rows := Table.mem_of_find? hrequest
    rw [hnone] at hmem
    cases hmem
  have hstep : ∀ (u : Extensions) a (v : Extensions), u.ApprovesPending a →
      extensions.step u a = some v → u.Consistent db → v.Consistent db :=
    fun u a v happroves htaken h => Extensions.consistent_step happroves htaken h
  exact (hrun.invariant hstep hstart).atomic

/-- The supplier asks for day 50. -/
def askForDay50 : List ExtensionAction :=
  .begin 0 (.createShipment "SHIP-1" 0 ⟨"ext-1", 50, "Port closed"⟩ "GSUPPLIER") ::
    List.replicate 4 (.resume 0 (.calm 10))

/-- The buyer decides the request in this slot, up to the transaction. -/
def decideIn (slot : Nat) (decision : Decision) : List ExtensionAction :=
  .begin slot (.decideShipment "SHIP-1" 0 "ext-1" decision "GBUYER") ::
    List.replicate 3 (.resume slot (.calm 20))

/-- The request is approved. -/
def approvedRequest : List ExtensionAction :=
  askForDay50 ++ decideIn 0 .approved ++ [.resume 0 (.calm 21)]

theorem approval_decides :
    ∃ s : Extensions, s.shared.db.milestones.rows.map Milestone.dueAt = [some 50] ∧
      DecisionsAtomic (Db.demo .pending) s.shared := by
  have hends : (approvedRequest.foldlM
      (fun u a => if Extensions.ApprovesPending u a then extensions.step u a else none)
      (Extensions.idle (Db.demo .pending))).map
        (fun s => s.shared.db.milestones.rows.map Milestone.dueAt) = some [some 50] := by decide
  obtain ⟨s, hs, hmoved⟩ := Option.map_eq_some_iff.mp hends
  exact ⟨s, hmoved, extension_decisions_atomic rfl (.of_guarded hs)⟩

/-- An approval and a denial that have both read the request as pending. The
denial is first. -/
def crossedDecisions : List ExtensionAction :=
  askForDay50 ++ decideIn 0 .approved ++ decideIn 1 .denied ++
    [.resume 1 (.calm 21), .resume 0 (.calm 22)]

/-- The approval moves the deadline of the denied request all the same, and is
answered with a conflict. -/
theorem denied_request_moves_deadline :
    ∃ s : Extensions,
      StepsAlong extensions.step (fun _ _ => True) (Extensions.idle (Db.demo .pending)) s ∧
        s.shared.db.extensionRequests.rows.map DeadlineExtensionRequest.status = [.denied] ∧
        s.shared.db.milestones.rows.map Milestone.dueAt = [some 50] ∧
        ¬ DecisionsAtomic (Db.demo .pending) s.shared := by
  have hends : (crossedDecisions.foldlM extensions.step
      (Extensions.idle (Db.demo .pending))).map (fun s =>
        (s.shared.db.extensionRequests.rows.map DeadlineExtensionRequest.status,
          s.shared.db.milestones.rows.map Milestone.dueAt, s.shared.answers)) =
      some ([.denied], [some 50],
        [⟨"ext-1", "m-1", false, some (demoMilestone .pending), some (demoMilestone .pending)⟩,
          ⟨"ext-1", "m-1", true, some (demoMilestone .pending),
            some ((demoMilestone .pending).extend 50)⟩]) := by rfl
  obtain ⟨s, hs, hends⟩ := Option.map_eq_some_iff.mp hends
  obtain ⟨hstatus, hrest⟩ := Prod.mk.inj hends
  obtain ⟨hdue, hanswers⟩ := Prod.mk.inj hrest
  refine ⟨s, .of_foldlM (fun _ _ _ => trivial) hs, hstatus, hdue, fun h => ?_⟩
  have hsame := h.conflict ⟨"ext-1", "m-1", true, some (demoMilestone .pending),
    some ((demoMilestone .pending).extend 50)⟩ (hanswers ▸ .tail _ (.head _)) rfl
  cases hsame

end ChainSettle
