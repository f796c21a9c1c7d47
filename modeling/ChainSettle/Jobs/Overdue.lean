import ChainSettle.Concurrency.ProofPointer
import ChainSettle.Requests.Extensions
import ChainSettle.Semantics.Jobs

/-!
Is an overdue notice true at the instant the job records it? The job selects
rows, notifies about one after the other and then writes the flag of each
whatever has become of it; neither query looks at the shipment.

`Sound` is the invariant: whatever a run has selected is still overdue, and a
flag that is set was set after the deadline. It is kept by all steps but those
that `Undisturbed` rules out: a write of another operation by which a selected
milestone is not overdue any more, and a query that selects a milestone of a
shipment which is not active.
-/

namespace ChainSettle

open Lib Lib.Eff

/-- What a notice says is true. -/
def OverdueNotice.Truthful (reminder3Days : Nat) (notice : OverdueNotice) : Prop :=
  notice.milestone.status.IsOpen ∧
    (∃ dueAt, notice.milestone.dueAt = some dueAt ∧
      dueAt + notice.reminder.lag reminder3Days < notice.at_) ∧
    ∃ shipment, notice.shipment = some shipment ∧ shipment.status = .active

/-- The notice about a milestone would be true now. -/
def Db.Remindable (db : Db) (reminder3Days at_ : Nat) (reminder : Reminder) (id : String) : Prop :=
  ∃ m, db.milestoneById id = some m ∧
    OverdueNotice.Truthful reminder3Days ⟨reminder, at_, m, db.shipments.find? m.shipmentId⟩

def Db.isActive (db : Db) (shipmentId : String) : Bool :=
  (db.shipments.find? shipmentId).any fun shipment => shipment.status = .active

/-- The milestones a run has selected and not yet written. -/
def DeadlineCall.selected : DeadlineCall → List (Reminder × String)
  | .notifyOverdue _ milestone rest => (milestone :: rest).map fun m => (.overdue, m.id)
  | .notifyEscalation milestone rest => (milestone :: rest).map fun m => (.escalation, m.id)
  | _ => []

/-- What a statement must not do: select a milestone of a shipment that is not
active, or change a selected milestone so that it is not overdue any more. -/
def DeadlineCall.Undisturbed (reminder3Days : Nat) (env : Env) (s : Deadlines) :
    DeadlineCall → Prop
  | .overdueRead =>
      ∀ m ∈ s.shared.db.overdueMilestones env.now, s.shared.db.isActive m.shipmentId = true
  | .escalationRead now =>
      ∀ m ∈ s.shared.db.escalationMilestones reminder3Days now,
        s.shared.db.isActive m.shipmentId = true
  | .notifyOverdue _ _ _ | .notifyEscalation _ _ => True
  | call =>
      ∀ slot run, s.pending slot = some run → ∀ entry ∈ run.selected,
        (after (call.statement reminder3Days env) s.shared.db).Remindable reminder3Days env.now
          entry.1 entry.2

def Deadlines.Undisturbed (reminder3Days : Nat) (s : Deadlines) : DeadlineStep → Prop
  | .resume slot env =>
      ∀ call ∈ s.pending slot, call.Undisturbed reminder3Days (s.shared.env env) s
  | .begin _ _ | .external _ => True

/-- Milestones have different ids, and a notice was recorded after the deadline. -/
structure Db.Noted (db : Db) : Prop where
  ids : (db.milestones.rows.map Milestone.id).Nodup
  after_deadline : ∀ m ∈ db.milestones.rows, ∀ at_, m.overdueNotifiedAt = some at_ →
    ∃ dueAt, m.dueAt = some dueAt ∧ dueAt < at_

section Rows

variable {db : Db} {reminder3Days at_ : Nat} {reminder : Reminder} {id : String}

theorem milestoneById_of_mem (h : db.Noted) {m : Milestone} (hm : m ∈ db.milestones.rows) :
    db.milestoneById m.id = some m :=
  milestoneById_read h.ids hm rfl

theorem mem_of_milestoneById {m : Milestone} (h : db.milestoneById id = some m) :
    m ∈ db.milestones.rows :=
  List.mem_of_find?_eq_some h

/-- A notice that is true stays true while nothing but time passes. -/
theorem OverdueNotice.Truthful.later {later : Nat} (hlater : at_ ≤ later) {m : Milestone}
    {shipment : Option Shipment}
    (h : OverdueNotice.Truthful reminder3Days ⟨reminder, at_, m, shipment⟩) :
    OverdueNotice.Truthful reminder3Days ⟨reminder, later, m, shipment⟩ := by
  obtain ⟨hopen, ⟨dueAt, hdue, hpast⟩, hactive⟩ := h
  exact ⟨hopen, ⟨dueAt, hdue, hpast.trans_le (Int.ofNat_le.mpr hlater)⟩, hactive⟩

theorem Db.Remindable.later {later : Nat} (hlater : at_ ≤ later)
    (h : db.Remindable reminder3Days at_ reminder id) :
    db.Remindable reminder3Days later reminder id := by
  obtain ⟨m, hm, htruthful⟩ := h
  exact ⟨m, hm, htruthful.later hlater⟩

/-- The flags do not matter. -/
theorem truthful_remind (set_ : Reminder) (now : Nat) {m : Milestone} {shipment : Option Shipment} :
    OverdueNotice.Truthful reminder3Days ⟨reminder, at_, m.remind set_ now, shipment⟩ ↔
      OverdueNotice.Truthful reminder3Days ⟨reminder, at_, m, shipment⟩ := by
  cases set_ <;> exact Iff.rfl

theorem remindable_remind (key : MilestoneKey) (set_ : Reminder) (now : Nat)
    (h : db.Remindable reminder3Days at_ reminder id) :
    (db.remind key set_ now).Remindable reminder3Days at_ reminder id := by
  obtain ⟨m, hm, htruthful⟩ := h
  have hid (m : Milestone) : (m.remind set_ now).id = m.id := by
    cases set_ <;> rfl
  have hshipment (m : Milestone) : (m.remind set_ now).shipmentId = m.shipmentId := by
    cases set_ <;> rfl
  refine ⟨if m.key = key then m.remind set_ now else m, ?_, ?_⟩
  · unfold Db.remind
    rw [milestoneById_modify _ hid, hm]
    rfl
  · split
    · rw [hshipment]
      exact (truthful_remind set_ now).mpr htruthful
    · exact htruthful

/-- An update of one row after which its notice is still later than its
deadline. -/
theorem Db.Noted.modify (h : db.Noted) {key : MilestoneKey} {f : Milestone → Milestone}
    (hkey : ∀ m, (f m).key = m.key) (hid : ∀ m, (f m).id = m.id)
    (hrow : ∀ m ∈ db.milestones.rows, m.key = key → ∀ at_, (f m).overdueNotifiedAt = some at_ →
      ∃ dueAt, (f m).dueAt = some dueAt ∧ dueAt < at_) :
    Db.Noted { db with milestones := db.milestones.modify key f hkey } := by
  refine ⟨?_, fun row hmem => ?_⟩
  · rw [Table.map_modify db.milestones key f hkey hid]
    exact h.ids
  · obtain ⟨m, hm, rfl⟩ := List.mem_map.mp hmem
    split
    · rename_i hsame
      exact hrow m hm hsame
    · exact h.after_deadline m hm

theorem MilestoneWrite.apply_deadline (write : MilestoneWrite) (m : Milestone) :
    (write.apply m).dueAt = m.dueAt ∧ (write.apply m).overdueNotifiedAt = m.overdueNotifiedAt := by
  cases write with
  | resolved approved amount at_ =>
      simp only [MilestoneWrite.apply]
      split
      · split <;> exact ⟨rfl, rfl⟩
      · exact ⟨rfl, rfl⟩
  | _ => exact ⟨rfl, rfl⟩

theorem Db.Noted.writeMilestones (h : db.Noted) (writes : List (MilestoneKey × MilestoneWrite)) :
    (db.writeMilestones writes).Noted := by
  refine List.foldlRecOn writes _ h fun next hnext entry _ => ?_
  refine hnext.modify _ (MilestoneWrite.apply_id entry.2) fun m hm _ at_ hat => ?_
  rw [(entry.2.apply_deadline m).1]
  rw [(entry.2.apply_deadline m).2] at hat
  exact hnext.after_deadline m hm at_ hat

/-- The tables the invariant does not read may change. -/
theorem Db.Noted.congr (h : db.Noted) {next : Db} (hsame : next.milestones = db.milestones) :
    next.Noted := by
  refine ⟨?_, ?_⟩
  · rw [hsame]
    exact h.ids
  · rw [hsame]
    exact h.after_deadline

/-- An approval takes the notices back. -/
theorem Db.Noted.extension (h : db.Noted) {env : Env} {call : ExtensionCall}
    {outcome : Except Exn (Option ExtensionCall)} {next : Db}
    (hran : ExtensionRan env db call outcome next) : next.Noted := by
  cases hran with
  | read => exact h
  | created => exact h.congr rfl
  | decided milestone request decision callerAddress hfound houtcome hnext =>
      subst hnext
      cases decision with
      | denied => exact h.congr rfl
      | approved =>
          unfold Db.decided
          dsimp only
          split
          · exact h
          · have hdecided : (db.decideRequest request.id .approved env.now callerAddress).Noted :=
              h.congr rfl
            exact hdecided.modify _ (fun _ => rfl) fun _ _ _ _ hnotified => by cases hnotified

theorem Db.Noted.service (h : db.Noted) (env : Env) (call : Call) :
    (after (call.statement env) db).Noted := by
  have hresumed := resumed env ⟨db, fun _ => ⟨.active, 0⟩, []⟩ call
  have hdb : (call.resume env ⟨db, fun _ => ⟨.active, 0⟩, []⟩).1.db =
      after (call.statement env) db := by
    unfold Call.resume after
    split <;> simp [*]
  rw [← hdb]
  rcases milestones_after_resume hresumed with ⟨hsame, _⟩ | ⟨hwritten, _, _⟩
  · exact h.congr hsame
  · rw [hwritten]
    exact h.writeMilestones _

end Rows

section Statements

variable (reminder3Days : Nat) (env : Env) (db : Db)

/-- The database after the update of a notice. -/
def Db.reminded (db : Db) (env : Env) (reminder : Reminder) (milestone : Milestone) : Db :=
  if env.fails .flagWrite then db
  else
    match db.milestoneById milestone.id with
    | none => db
    | some m => db.remind m.key reminder env.now

theorem exec_setReminder (reminder : Reminder) (milestone : Milestone) :
    exec (setReminder env reminder milestone) db =
      (.ok (), db.reminded env reminder milestone) := by
  unfold setReminder Db.reminded
  cases env.fails .flagWrite with
  | true => rfl
  | false =>
      simp only [Bool.false_eq_true, ↓reduceIte, exec_bind, exec_get]
      cases db.milestoneById milestone.id <;> rfl

theorem resume_overdueRead :
    resume (DeadlineCall.overdueRead.statement reminder3Days env) db =
      (db, if env.fails .jobRead then none
        else some (.nextOverdue env.now (db.overdueMilestones env.now))) := by
  unfold DeadlineCall.statement resume
  rw [exec_bind, exec_prismaCall]
  cases env.fails .jobRead <;> rfl

theorem resume_escalationRead (now : Nat) :
    resume ((DeadlineCall.escalationRead now).statement reminder3Days env) db =
      (db, if env.fails .jobRead then none
        else DeadlineCall.nextEscalation (db.escalationMilestones reminder3Days now)) := by
  unfold DeadlineCall.statement resume
  rw [exec_bind, exec_prismaCall]
  cases env.fails .jobRead <;> rfl

theorem resume_notifyOverdue (now : Nat) (milestone : Milestone) (rest : List Milestone) :
    resume ((DeadlineCall.notifyOverdue now milestone rest).statement reminder3Days env) db =
      (db.reminded env .overdue milestone, some (.nextOverdue now rest)) := by
  unfold DeadlineCall.statement resume
  rw [exec_bind, exec_setReminder]
  rfl

theorem resume_notifyEscalation (milestone : Milestone) (rest : List Milestone) :
    resume ((DeadlineCall.notifyEscalation milestone rest).statement reminder3Days env) db =
      (db.reminded env .escalation milestone, DeadlineCall.nextEscalation rest) := by
  unfold DeadlineCall.statement resume
  rw [exec_bind, exec_setReminder]
  rfl

end Statements

/-- When the run of the job began that the call belongs to. -/
def DeadlineCall.began : DeadlineCall → Option Nat
  | .notifyOverdue now _ _ | .escalationRead now => some now
  | _ => none

namespace Deadlines

/-- Whatever a run has selected is still overdue, and all notices were true. -/
structure Sound (reminder3Days : Nat) (s : Deadlines) : Prop where
  noted : s.shared.db.Noted
  selected : ∀ slot call, s.pending slot = some call → ∀ entry ∈ call.selected,
    s.shared.db.Remindable reminder3Days s.shared.clock entry.1 entry.2
  began : ∀ slot call now, s.pending slot = some call → call.began = some now →
    now ≤ s.shared.clock
  truthful : ∀ notice ∈ s.shared.notices, notice.Truthful reminder3Days

section Steps

variable {reminder3Days : Nat} {s : Deadlines} {slot : Nat}

theorem selected_nextOverdue (now : Nat) (rest : List Milestone) :
    (DeadlineCall.nextOverdue now rest).selected = rest.map fun m => (.overdue, m.id) := by
  cases rest <;> rfl

theorem began_nextOverdue (now : Nat) (rest : List Milestone) :
    (DeadlineCall.nextOverdue now rest).began = some now := by
  cases rest <;> rfl

theorem selected_nextEscalation {rest : List Milestone} {call : DeadlineCall}
    (h : DeadlineCall.nextEscalation rest = some call) :
    call.selected = rest.map (fun m => (.escalation, m.id)) ∧ call.began = none := by
  cases rest with
  | nil => cases h
  | cons milestone rest =>
      cases h
      exact ⟨rfl, rfl⟩

/-- A milestone that the first query selects. -/
theorem remindable_overdue (hnoted : s.shared.db.Noted) {m : Milestone} {now : Nat}
    (hm : m ∈ s.shared.db.overdueMilestones now)
    (hactive : s.shared.db.isActive m.shipmentId = true) :
    s.shared.db.Remindable reminder3Days now .overdue m.id := by
  obtain ⟨hmem, hselects⟩ := List.mem_filter.mp hm
  obtain ⟨hdue, hopen, _, _⟩ := of_decide_eq_true hselects
  exact ⟨m, milestoneById_of_mem hnoted hmem, hopen,
    by simpa [Option.any_eq_true, Reminder.lag] using hdue,
    by simpa [Db.isActive, Option.any_eq_true] using hactive⟩

/-- A milestone that the second query selects: the notice it is about came after
the deadline. -/
theorem remindable_escalation (hnoted : s.shared.db.Noted) {m : Milestone} {now : Nat}
    (hm : m ∈ s.shared.db.escalationMilestones reminder3Days now)
    (hactive : s.shared.db.isActive m.shipmentId = true) :
    s.shared.db.Remindable reminder3Days now .escalation m.id := by
  obtain ⟨hmem, hselects⟩ := List.mem_filter.mp hm
  obtain ⟨hopen, _, hnotice, _⟩ := of_decide_eq_true hselects
  obtain ⟨at_, hat, hold⟩ := (Option.any_eq_true _ _).mp hnotice
  obtain ⟨dueAt, hdue, hlate⟩ := hnoted.after_deadline m hmem at_ hat
  have hpast : dueAt + reminder3Days * dayLength < now := by
    have hage : at_ + reminder3Days * dayLength < now := of_decide_eq_true hold
    omega
  exact ⟨m, milestoneById_of_mem hnoted hmem, hopen, ⟨dueAt, hdue, hpast⟩,
    by simpa [Db.isActive, Option.any_eq_true] using hactive⟩

/-- The state after a statement of the call in `slot`. -/
def after (s : Deadlines) (slot : Nat) (db : Db) (new : List OverdueNotice)
    (rest : Option DeadlineCall) : Deadlines where
  shared := { s.shared with db := db, notices := s.shared.notices ++ new }
  pending := Function.update s.pending slot rest

theorem Sound.after (h : s.Sound reminder3Days) {db : Db} {rest : Option DeadlineCall}
    {new : List OverdueNotice} (hnoted : db.Noted)
    (hothers : ∀ other call, s.pending other = some call → ∀ entry ∈ call.selected,
      db.Remindable reminder3Days s.shared.clock entry.1 entry.2)
    (hrest : ∀ call, rest = some call → (∀ entry ∈ call.selected,
      db.Remindable reminder3Days s.shared.clock entry.1 entry.2) ∧
        ∀ now, call.began = some now → now ≤ s.shared.clock)
    (hnew : ∀ notice ∈ new, notice.Truthful reminder3Days) :
    (s.after slot db new rest).Sound reminder3Days := by
  refine ⟨hnoted, fun other call hcall => ?_, fun other call now hcall hbegan => ?_,
    fun notice hnotice => ?_⟩
  · rcases pending_update hcall with ⟨_, hmine⟩ | ⟨_, hold⟩
    · exact (hrest call hmine).1
    · exact hothers other call hold
  · rcases pending_update hcall with ⟨_, hmine⟩ | ⟨_, hold⟩
    · exact (hrest call hmine).2 now hbegan
    · exact h.began other call now hold hbegan
  · rcases List.mem_append.mp hnotice with hold | hlast
    · exact h.truthful notice hold
    · exact hnew notice hlast

/-- A statement that writes nothing. -/
theorem Sound.read (h : s.Sound reminder3Days) {rest : Option DeadlineCall}
    (hrest : ∀ call, rest = some call → (∀ entry ∈ call.selected,
      s.shared.db.Remindable reminder3Days s.shared.clock entry.1 entry.2) ∧
        ∀ now, call.began = some now → now ≤ s.shared.clock) :
    (s.after slot s.shared.db [] rest).Sound reminder3Days :=
  h.after h.noted h.selected hrest fun _ hnotice => by cases hnotice

theorem remindable_reminded {db : Db} {at_ : Nat} {reminder : Reminder} {id : String} (env : Env)
    (set_ : Reminder) (milestone : Milestone)
    (h : db.Remindable reminder3Days at_ reminder id) :
    (db.reminded env set_ milestone).Remindable reminder3Days at_ reminder id := by
  unfold Db.reminded
  split
  · exact h
  · split
    · exact h
    · exact remindable_remind _ set_ env.now h

/-- A notice is recorded after the deadline of the row it is about. -/
theorem noted_reminded {db : Db} (hnoted : db.Noted) (env : Env) (set_ : Reminder)
    (milestone : Milestone) (h : db.Remindable reminder3Days env.now set_ milestone.id) :
    (db.reminded env set_ milestone).Noted := by
  obtain ⟨row, hrow, _, ⟨dueAt, hdue, hpast⟩, _⟩ := h
  unfold Db.reminded
  split
  · exact hnoted
  · rw [hrow]
    refine hnoted.modify _ (fun m => by cases set_ <;> rfl) fun m hm hkey at_ hat => ?_
    have hmem := mem_of_milestoneById hrow
    obtain rfl := List.inj_on_of_nodup_map db.milestones.nodup hm hmem hkey
    cases set_ with
    | overdue =>
        obtain rfl := Option.some.inj hat
        exact ⟨dueAt, hdue, by simpa [Reminder.lag] using hpast⟩
    | escalation => exact hnoted.after_deadline m hm at_ hat

theorem truthful_noticed {db : Db} (env : Env) (set_ : Reminder) (milestone : Milestone)
    (h : db.Remindable reminder3Days env.now set_ milestone.id) :
    ∀ notice ∈ db.noticed env set_ milestone, notice.Truthful reminder3Days := by
  obtain ⟨row, hrow, htruthful⟩ := h
  intro notice hnotice
  unfold Db.noticed at hnotice
  split at hnotice
  · cases hnotice
  · rw [hrow] at hnotice
    obtain rfl := List.mem_singleton.mp hnotice
    exact htruthful

/-- The update of a notice that is true. -/
theorem Sound.reminded (h : s.Sound reminder3Days) (env : Env) (set_ : Reminder)
    {milestone : Milestone} {rest : Option DeadlineCall}
    (hthis : s.shared.db.Remindable reminder3Days s.shared.clock set_ milestone.id)
    (hrest : ∀ call, rest = some call → (∀ entry ∈ call.selected,
      s.shared.db.Remindable reminder3Days s.shared.clock entry.1 entry.2) ∧
        ∀ now, call.began = some now → now ≤ s.shared.clock) :
    (s.after slot (s.shared.db.reminded (s.shared.env env) set_ milestone)
      (s.shared.db.noticed (s.shared.env env) set_ milestone) rest).Sound reminder3Days := by
  refine h.after (noted_reminded h.noted _ set_ milestone hthis) (fun other call hcall entry hentry => ?_)
    (fun call hcall => ⟨fun entry hentry => ?_, (hrest call hcall).2⟩)
    (truthful_noticed _ set_ milestone hthis)
  · exact remindable_reminded _ set_ milestone (h.selected other call hcall entry hentry)
  · exact remindable_reminded _ set_ milestone ((hrest call hcall).1 entry hentry)

/-- A statement of another operation. -/
structure Harmless (db : Db) (result : Db × Option DeadlineCall) : Prop where
  noted : result.1.Noted
  selects : ∀ call, result.2 = some call → call.selected = [] ∧ call.began = none

theorem harmless_cancelShipment (env : Env) {db : Db} (hnoted : db.Noted)
    (id buyerAddress txHash : String) :
    Harmless db (resume ((DeadlineCall.cancelShipment id buyerAddress txHash).statement
      reminder3Days env) db) := by
  have hread : ReadOnly ((DeadlineCall.cancelShipment id buyerAddress txHash).statement
      reminder3Days env) db fun rest => rest = some (.cancelUpdate id txHash) := by
    refine readOnly_found env db id fun shipment _ => ?_
    exact readOnly_guard fun _ => readOnly_guard fun _ => readOnly_pure rfl
  rcases hread with ⟨err, herr⟩ | ⟨rest, hrest, rfl⟩
  · rw [resume_error herr]
    exact ⟨hnoted, fun _ hcall => by cases hcall⟩
  · rw [resume_ok hrest]
    refine ⟨hnoted, fun call hcall => ?_⟩
    cases hcall
    exact ⟨rfl, rfl⟩

theorem harmless_cancelUpdate (env : Env) {db : Db} (hnoted : db.Noted) (id txHash : String) :
    Harmless db (resume ((DeadlineCall.cancelUpdate id txHash).statement reminder3Days env) db) := by
  unfold DeadlineCall.statement resume
  rw [exec_bind, exec_prismaCall]
  cases env.fails .shipmentWrite with
  | true => exact ⟨hnoted, fun _ hcall => by cases hcall⟩
  | false => exact ⟨hnoted.congr rfl, fun _ hcall => by cases hcall⟩

theorem harmless_cancelledEvent (env : Env) {db : Db} (hnoted : db.Noted) (payload : Json)
    (txHash : Option String) :
    Harmless db (resume ((DeadlineCall.cancelledEvent payload txHash).statement reminder3Days env)
      db) := by
  have hdone : (resume ((DeadlineCall.cancelledEvent payload txHash).statement reminder3Days env)
      db).2 = none := by
    unfold DeadlineCall.statement resume
    rw [exec_bind]
    cases exec (handleShipmentCancelled env payload txHash) db with
    | mk outcome next => cases outcome <;> rfl
  refine ⟨?_, fun call hcall => ?_⟩
  · rw [resume_fst]
    unfold DeadlineCall.statement
    rw [after_bind_readOnly _ fun _ _ => rfl, after_handleShipmentCancelled]
    split
    · exact hnoted
    · exact hnoted.congr rfl
  · rw [hdone] at hcall
    cases hcall

theorem harmless_extension (env : Env) {db : Db} (hnoted : db.Noted) (call : ExtensionCall) :
    Harmless db (resume ((DeadlineCall.extension call).statement reminder3Days env) db) := by
  unfold DeadlineCall.statement
  rw [resume_map]
  refine ⟨?_, fun rest hrest => ?_⟩
  · rw [resume_fst]
    exact hnoted.extension (extensionRan env db call)
  · obtain ⟨_, _, rfl⟩ := Option.map_eq_some_iff.mp hrest
    exact ⟨rfl, rfl⟩

theorem harmless_service (env : Env) {db : Db} (hnoted : db.Noted) (call : Call) :
    Harmless db (resume ((DeadlineCall.service call).statement reminder3Days env) db) := by
  unfold DeadlineCall.statement
  rw [resume_map]
  refine ⟨?_, fun rest hrest => ?_⟩
  · rw [resume_fst]
    exact hnoted.service env call
  · obtain ⟨_, _, rfl⟩ := Option.map_eq_some_iff.mp hrest
    exact ⟨rfl, rfl⟩

/-- A statement of another operation by which no selected milestone stops being
overdue. -/
theorem Sound.other (h : s.Sound reminder3Days) {env : Env} {call : DeadlineCall}
    (hharmless : Harmless s.shared.db
      (resume (call.statement reminder3Days (s.shared.env env)) s.shared.db))
    (hspares : ∀ other run, s.pending other = some run → ∀ entry ∈ run.selected,
      (Eff.after (call.statement reminder3Days (s.shared.env env)) s.shared.db).Remindable
        reminder3Days s.shared.clock entry.1 entry.2) :
    (s.after slot (resume (call.statement reminder3Days (s.shared.env env)) s.shared.db).1 []
      (resume (call.statement reminder3Days (s.shared.env env)) s.shared.db).2).Sound
        reminder3Days := by
  rw [← resume_fst] at hspares
  refine h.after hharmless.noted hspares (fun rest hrest => ?_) fun _ hnotice => by cases hnotice
  obtain ⟨hselects, hbegan⟩ := hharmless.selects rest hrest
  rw [hselects, hbegan]
  exact ⟨fun _ hentry => (by cases hentry), fun _ hnow => (by cases hnow)⟩

theorem Sound.resume (h : s.Sound reminder3Days) {env : Env} {call : DeadlineCall}
    (hcall : s.pending slot = some call)
    (hundisturbed : call.Undisturbed reminder3Days (s.shared.env env) s) :
    (s.after slot (Eff.resume (call.statement reminder3Days (s.shared.env env)) s.shared.db).1
      (call.notices (s.shared.env env) s.shared.db)
      (Eff.resume (call.statement reminder3Days (s.shared.env env)) s.shared.db).2).Sound
        reminder3Days := by
  cases call with
  | overdueRead =>
      rw [resume_overdueRead]
      refine h.read fun next hnext => ?_
      split at hnext
      · cases hnext
      · obtain rfl := Option.some.inj hnext
        rw [selected_nextOverdue, began_nextOverdue]
        refine ⟨fun entry hentry => ?_, fun now hnow => ?_⟩
        · obtain ⟨m, hm, rfl⟩ := List.mem_map.mp hentry
          exact remindable_overdue h.noted hm (hundisturbed m hm)
        · cases hnow
          exact Nat.le_refl _
  | escalationRead now =>
      rw [resume_escalationRead]
      refine h.read fun next hnext => ?_
      split at hnext
      · cases hnext
      · obtain ⟨hselects, hbegan⟩ := selected_nextEscalation hnext
        rw [hselects, hbegan]
        refine ⟨fun entry hentry => ?_, fun _ hnow => by cases hnow⟩
        obtain ⟨m, hm, rfl⟩ := List.mem_map.mp hentry
        exact (remindable_escalation h.noted hm (hundisturbed m hm)).later
          (h.began slot _ now hcall rfl)
  | notifyOverdue now milestone rest =>
      rw [resume_notifyOverdue]
      have hselected := h.selected slot _ hcall
      refine h.reminded env .overdue (hselected (.overdue, milestone.id) (.head _)) fun next hnext => ?_
      obtain rfl := Option.some.inj hnext
      rw [selected_nextOverdue, began_nextOverdue]
      exact ⟨fun entry hentry => hselected entry (.tail _ hentry),
        fun began hbegan => h.began slot _ began hcall hbegan⟩
  | notifyEscalation milestone rest =>
      rw [resume_notifyEscalation]
      have hselected := h.selected slot _ hcall
      refine h.reminded env .escalation (hselected (.escalation, milestone.id) (.head _))
        fun next hnext => ?_
      obtain ⟨hselects, hbegan⟩ := selected_nextEscalation hnext
      rw [hselects, hbegan]
      exact ⟨fun entry hentry => hselected entry (.tail _ hentry), fun _ hnow => by cases hnow⟩
  | extension call => exact h.other (harmless_extension _ h.noted call) hundisturbed
  | service call => exact h.other (harmless_service _ h.noted call) hundisturbed
  | cancelShipment id buyerAddress txHash =>
      exact h.other (harmless_cancelShipment _ h.noted id buyerAddress txHash) hundisturbed
  | cancelUpdate id txHash => exact h.other (harmless_cancelUpdate _ h.noted id txHash) hundisturbed
  | cancelledEvent payload txHash =>
      exact h.other (harmless_cancelledEvent _ h.noted payload txHash) hundisturbed

theorem Sound.step {t : Deadlines} {a : DeadlineStep}
    (hundisturbed : s.Undisturbed reminder3Days a)
    (hstep : (deadlines reminder3Days).step s a = some t) (h : s.Sound reminder3Days) :
    t.Sound reminder3Days := by
  obtain ⟨slot, call, rfl, hstarts, _, rfl⟩ | ⟨slot, env, call, rfl, hcall, rfl⟩ |
    ⟨elapsed, rfl, rfl⟩ := (deadlines reminder3Days).step_cases hstep
  · have hidle : call.selected = [] ∧ call.began = none := by
      cases call with
      | notifyOverdue | notifyEscalation | escalationRead => cases hstarts
      | _ => exact ⟨rfl, rfl⟩
    refine ⟨h.noted, fun other call' hcall' => ?_, fun other call' now hcall' hbegan => ?_,
      h.truthful⟩
    · rcases pending_update hcall' with ⟨_, hmine⟩ | ⟨_, hold⟩
      · obtain rfl := Option.some.inj hmine
        rw [hidle.1]
        exact fun _ hentry => by cases hentry
      · exact h.selected other call' hold
    · rcases pending_update hcall' with ⟨_, hmine⟩ | ⟨_, hold⟩
      · obtain rfl := Option.some.inj hmine
        rw [hidle.2] at hbegan
        cases hbegan
      · exact h.began other call' now hold hbegan
  · exact h.resume hcall (hundisturbed call hcall)
  · have hlater : s.shared.clock ≤ s.shared.clock + elapsed := Nat.le_add_right _ _
    exact ⟨h.noted, fun other call hcall entry hentry =>
        (h.selected other call hcall entry hentry).later hlater,
      fun other call now hcall hbegan => (h.began other call now hcall hbegan).trans hlater,
      h.truthful⟩

end Steps

end Deadlines

/-- In every run in which nothing is selected of a shipment that is not active and
no other operation takes a selected milestone out of being overdue, every notice
the job records is true at that instant. -/
theorem overdue_notices_truthful (reminder3Days : Nat) {db : Db} (hnoted : db.Noted) (clock : Nat)
    {s : Deadlines}
    (hrun : StepsAlong (deadlines reminder3Days).step (Deadlines.Undisturbed reminder3Days)
      (Deadlines.idle db clock) s) :
    ∀ notice ∈ s.shared.notices, notice.Truthful reminder3Days := by
  have hstart : (Deadlines.idle db clock).Sound reminder3Days :=
    ⟨hnoted, fun _ _ hcall => (by cases hcall), fun _ _ _ hcall => (by cases hcall),
      fun _ hnotice => (by cases hnotice)⟩
  have hstep (u : Deadlines) (a : DeadlineStep) (v : Deadlines)
      (hundisturbed : u.Undisturbed reminder3Days a)
      (htaken : (deadlines reminder3Days).step u a = some v) (h : u.Sound reminder3Days) :
      v.Sound reminder3Days := h.step hundisturbed htaken
  exact (hrun.invariant hstep hstart).truthful

/-- One milestone of an active shipment that is due at 10. -/
def overdueDb : Db :=
  { Db.demo .pending with milestones := ⟨[{ demoMilestone .pending with dueAt := some 10 }], by simp⟩ }

theorem overdueDb_noted : overdueDb.Noted := by
  refine ⟨by decide, fun m hm at_ hat => ?_⟩
  obtain rfl := List.mem_singleton.mp hm
  cases hat

/-- A run of the job at 20 selects the milestone and notifies. -/
theorem overdue_milestone_noticed :
    ∃ s : Deadlines, s.shared.notices.map (fun n => (n.at_, n.milestone.dueAt)) = [(20, some 10)] ∧
      ∀ notice ∈ s.shared.notices, notice.Truthful 3 := by
  have hactive : ∀ m ∈ overdueDb.overdueMilestones 20, overdueDb.isActive m.shipmentId = true := by
    decide
  have hbegun : StepsAlong (deadlines 3).step (Deadlines.Undisturbed 3)
      (Deadlines.idle overdueDb 20)
      ⟨⟨overdueDb, 20, []⟩, Function.update (fun _ => none) 0 (some .overdueRead)⟩ :=
    .tail (a := .begin 0 .overdueRead) (.refl _) trivial rfl
  refine ⟨_, ?_, overdue_notices_truthful 3 overdueDb_noted 20
    (.tail (a := .resume 0 (.calm 0))
      (.tail (a := .resume 0 (.calm 0)) hbegun (fun call hcall => ?_) rfl)
      (fun call hcall => ?_) rfl)⟩
  · rfl
  · cases hcall
    exact hactive
  · cases hcall
    trivial

theorem not_truthful_of_dueAt {reminder3Days at_ : Nat} {dueAt : Int} {reminder : Reminder}
    {notices : List OverdueNotice} (hlate : at_ ≤ dueAt)
    (hnotices : notices.map (fun n => (n.reminder, n.at_, n.milestone.dueAt)) =
      [(reminder, at_, some dueAt)]) :
    ¬ ∀ notice ∈ notices, notice.Truthful reminder3Days := by
  intro h
  obtain ⟨n, hn, heq⟩ := List.mem_map.mp (hnotices ▸ List.mem_singleton.mpr rfl)
  simp only [Prod.mk.injEq] at heq
  obtain ⟨_, hat, hdue⟩ := heq
  obtain ⟨_, ⟨dueAt', hdue', hpast⟩, _⟩ := h n hn
  rw [hdue] at hdue'
  obtain rfl := Option.some.inj hdue'
  omega

/-- The supplier has asked for day 50, the buyer is about to approve, and a run of
the job at 20 has selected the milestone. -/
def approvalDuringRun : List DeadlineStep :=
  .begin 0 (.extension (.createShipment "SHIP-1" 0 ⟨"ext-1", 50, "Port closed"⟩ "GSUPPLIER")) ::
    List.replicate 4 (.resume 0 (.calm 0)) ++
  .begin 0 (.extension (.decideShipment "SHIP-1" 0 "ext-1" .approved "GBUYER")) ::
    List.replicate 3 (.resume 0 (.calm 0)) ++
  [.begin 1 .overdueRead, .resume 1 (.calm 0), .resume 0 (.calm 0), .resume 1 (.calm 0)]

/-- The flag that the approval has just reset is set again before the new
deadline. -/
theorem extended_milestone_noticed :
    ∃ s : Deadlines,
      StepsAlong (deadlines 3).step (fun _ _ => True) (Deadlines.idle overdueDb 20) s ∧
        s.shared.db.milestones.rows.map (fun m => (m.dueAt, m.overdueNotifiedAt)) =
          [(some 50, some 20)] ∧
        ¬ ∀ notice ∈ s.shared.notices, notice.Truthful 3 := by
  have hends : (approvalDuringRun.foldlM (deadlines 3).step (Deadlines.idle overdueDb 20)).map
      (fun s => (s.shared.db.milestones.rows.map (fun m => (m.dueAt, m.overdueNotifiedAt)),
        s.shared.notices.map fun n => (n.reminder, n.at_, n.milestone.dueAt))) =
      some ([(some 50, some 20)], [(.overdue, 20, some 50)]) := by rfl
  obtain ⟨s, hs, hends⟩ := Option.map_eq_some_iff.mp hends
  obtain ⟨hrows, hnotices⟩ := Prod.mk.inj hends
  exact ⟨s, .of_foldlM (fun _ _ _ => trivial) hs, hrows,
    not_truthful_of_dueAt (by decide) hnotices⟩

end ChainSettle
