import ChainSettle.Arbiters.Steps
import ChainSettle.Creation.Gates

/-!
No arbiter is a party to his shipment. `create` compares the arbiter with the
parties before it inserts, `clone` copies a row of which this holds,
`replaceArbiter` compares again. The job behind recurring schedules takes the
parties from a template, which anyone may own, puts the schedule's owner in as
the buyer and compares nothing.
-/

namespace ChainSettle

open Lib Lib.Eff

/-- No party has the arbiter's address, in whatever case it is written. -/
def Apart (text : CaseMapping) (arbiterAddress : String) (parties : List String) : Prop :=
  ∀ party ∈ parties, text.toLowerCase party ≠ text.toLowerCase arbiterAddress

def Shipment.Neutral (text : CaseMapping) (s : Shipment) : Prop :=
  Apart text s.arbiterAddress [s.buyerAddress, s.supplierAddress, s.logisticsAddress]

def Db.Neutral (text : CaseMapping) (db : Db) : Prop :=
  ∀ s ∈ db.shipments.rows, s.Neutral text

theorem apart_iff (text : CaseMapping) (arbiterAddress : String) (parties : List String) :
    Apart text arbiterAddress parties ↔ arbiterConflict text arbiterAddress parties = false := by
  simp [Apart, arbiterConflict]

/-- Where rows are only added, the new ones decide. -/
theorem neutral_iff_created {text : CaseMapping} {db next : Db} (h : db.Neutral text) :
    next.Neutral text ↔ Created (Shipment.Neutral text) db next := by
  constructor
  · intro hnext s hs _
    exact hnext s hs
  · intro hcreated s hs
    by_cases hold : s ∈ db.shipments.rows
    · exact h s hold
    · exact hcreated s hs hold

section Drafts

variable (services : Services) (env : Env) (db : Db) (due : DueSchedule) (input : DraftInput)

/-- A run of the schedule comes to insert the draft. -/
structure Drafts (new : NewShipment) : Prop where
  kept : due.template.deletedAt = none
  writes : env.fails .scheduleWrite = false
  claimable : db.claimable due = true
  draft : due.draft services input.shipmentId = some new
  inserts : Inserts env db new

/-- The template's arbiter is neither one of its own parties nor the owner of the
schedule. -/
def DueSchedule.Neutral (text : CaseMapping) : Prop :=
  ∀ arbiterAddress ∈ due.template.arbiterAddress,
    Apart text arbiterAddress ([some due.schedule.ownerAddress, due.template.supplierAddress,
      due.template.logisticsAddress].filterMap id)

variable {services env db due input} in
theorem DueSchedule.neutral_draft_iff {text : CaseMapping} {shipmentId : String}
    {new : NewShipment} (h : due.draft services shipmentId = some new) :
    new.row.Neutral text ↔ due.Neutral text := by
  simp only [DueSchedule.draft, Option.bind_eq_bind, Option.bind_eq_some_iff] at h
  obtain ⟨supplier, hsupplier, logistics, hlogistics, arbiter, harbiter, token, _, hnew⟩ := h
  cases hnew
  simp only [DueSchedule.Neutral, hsupplier, hlogistics, harbiter, Option.mem_def,
    Option.some.injEq, forall_eq', List.filterMap_cons_some, id_eq, List.filterMap_nil]
  rfl

theorem shipments_deactivate : (after (deactivate env due) db).shipments = db.shipments := by
  unfold deactivate after
  rw [exec_bind, exec_prismaCall]
  cases env.fails .scheduleWrite with
  | true => rfl
  | false =>
      simp only [Bool.false_eq_true, if_false, exec_bind, exec_get]
      split <;> rfl

theorem shipments_claimAndDraft :
    (after (claimAndDraft services env due input) db).shipments =
      if env.fails .scheduleWrite = false ∧ db.claimable due = true then
        match due.draft services input.shipmentId with
        | none => db.shipments
        | some new => (after (shipmentInsert env new []) db).shipments
      else db.shipments := by
  unfold claimAndDraft after
  rw [exec_bind, exec_prismaCall]
  cases env.fails .scheduleWrite with
  | true => rfl
  | false =>
      simp only [Bool.false_eq_true, if_false, exec_bind, exec_get, true_and]
      cases db.claimable due with
      | false => rfl
      | true =>
          simp only [if_true]
          cases due.draft services input.shipmentId with
          | none => rfl
          | some new =>
              simp only [exec_bind]
              cases exec (shipmentInsert env new []) db with
              | mk outcome next => cases outcome <;> rfl

/-- A run of one schedule creates the draft or nothing. -/
theorem created_runOne_iff {P : Shipment → Prop} :
    Created P db (after (runOne services env due input) db) ↔
      ∀ new, Drafts services env db due input new → P new.row := by
  unfold Created runOne
  cases hdeleted : due.template.deletedAt with
  | some at_ =>
      rw [shipments_deactivate]
      refine iff_of_true (created_refl P db) fun new h => ?_
      rw [h.kept] at hdeleted
      cases hdeleted
  | none =>
      dsimp only
      rw [shipments_claimAndDraft]
      split
      · rename_i hclaims
        split
        · rename_i hdraft
          refine iff_of_true (created_refl P db) fun new h => ?_
          rw [h.draft] at hdraft
          cases hdraft
        · rename_i new hdraft
          rw [← Created, created_shipmentInsert_iff]
          constructor
          · intro h other hdrafts
            cases hdraft.symm.trans hdrafts.draft
            exact h hdrafts.inserts
          · intro h hinserts
            exact h new ⟨hdeleted, hclaims.1, hclaims.2, hdraft, hinserts⟩
      · rename_i hclaims
        exact iff_of_true (created_refl P db) fun new h => absurd ⟨h.writes, h.claimable⟩ hclaims

/-- A run of the job runs the due schedules one after the other. -/
theorem after_run (lockHeld : Bool) (inputs : DueSchedule → DraftInput) :
    after (RecurringScheduleJob.run services env lockHeld inputs) db =
      if lockHeld = true ∨ env.fails .jobRead = true then db
      else (db.dueSchedules env.now).foldl
        (fun db due => after (runOne services env due (inputs due)) db) db := by
  have hbody (created : Nat) (due : DueSchedule) (db : Db) :
      ∃ value, exec (tryCatch
          (do return if ← runOne services env due (inputs due) then created + 1 else created)
          fun _ => return created) db =
        (.ok value, after (runOne services env due (inputs due)) db) := by
    rw [exec_tryCatch, exec_bind, after]
    cases exec (runOne services env due (inputs due)) db with
    | mk outcome next =>
        cases outcome with
        | ok claimed => exact ⟨_, rfl⟩
        | error err => exact ⟨created, rfl⟩
  unfold RecurringScheduleJob.run
  cases lockHeld with
  | true => rfl
  | false =>
      rw [after]
      simp only [Bool.false_eq_true, if_false, false_or, exec_bind, exec_prismaCall]
      cases env.fails .jobRead with
      | true => rfl
      | false =>
          simp only [Bool.false_eq_true, if_false, exec_get]
          obtain ⟨value, hvalue⟩ := exec_foldlM hbody (db.dueSchedules env.now) 0 db
          exact congrArg Prod.snd hvalue

end Drafts

section Runs

/-- A step of the service on shipments: a request, or the run of one schedule.
In between, users write their templates, schedules and accounts. -/
inductive NeutralityStep where
  | create (env : Env) (dto : CreateShipmentDto)
  | clone (env : Env) (id buyerAddress : String) (dto : CloneShipmentDto)
  | replaceArbiter (env : Env) (id buyerAddress arbiterAddress : String)
  | runOne (env : Env) (due : DueSchedule) (input : DraftInput)
  | edit (templates : Table ShipmentTemplate.id) (schedules : Table RecurringSchedule.id)
      (users : Table User.stellarAddress)

variable (services : Services)

def NeutralityStep.apply (db : Db) : NeutralityStep → Db
  | .create env dto => after (ShipmentsService.create services env dto) db
  | .clone env id buyerAddress dto => after (ChainSettle.clone services env id buyerAddress dto) db
  | .replaceArbiter env id buyerAddress arbiterAddress =>
      after (ChainSettle.replaceArbiter services.text env id buyerAddress arbiterAddress) db
  | .runOne env due input => after (ChainSettle.runOne services env due input) db
  | .edit templates schedules users =>
      { db with templates := templates, schedules := schedules, users := users }

/-- A schedule that comes to its draft has a template whose arbiter is neither its
owner nor a party. -/
def NeutralityStep.Fair (db : Db) : NeutralityStep → Prop
  | .runOne env due input =>
      (∃ new, Drafts services env db due input new) → due.Neutral services.text
  | _ => True

theorem neutral_create {db : Db} (h : db.Neutral services.text) (env : Env)
    (dto : CreateShipmentDto) :
    (after (ShipmentsService.create services env dto) db).Neutral services.text := by
  rw [neutral_iff_created h]
  exact created_create services env db dto fun _ _ hchecked => (apart_iff ..).mpr hchecked.neutral

theorem neutral_clone {db : Db} (h : db.Neutral services.text) (env : Env)
    (id buyerAddress : String) (dto : CloneShipmentDto) :
    (after (clone services env id buyerAddress dto) db).Neutral services.text := by
  rw [neutral_iff_created h, created_clone_iff]
  intro source totalAmount hclones
  exact h source (Table.mem_of_find? hclones.found)

theorem neutral_replaceArbiter {text : CaseMapping} {db : Db} (h : db.Neutral text) (env : Env)
    (id buyerAddress arbiterAddress : String) :
    (after (replaceArbiter text env id buyerAddress arbiterAddress) db).Neutral text := by
  obtain hsame | ⟨shipment, hreplaces, hafter⟩ :=
    after_replaceArbiter_cases text env db id buyerAddress arbiterAddress
  · rw [hsame]
    exact h
  · rw [hafter]
    intro s hs
    obtain ⟨row, hrow, rfl⟩ := List.mem_map.mp hs
    split
    · rename_i hid
      have hrow' : row = shipment := by
        have := Table.find?_of_mem hrow
        rw [hid, hreplaces.found] at this
        exact (Option.some.inj this).symm
      subst hrow'
      exact (apart_iff ..).mpr hreplaces.allowed.neutral
    · exact h row hrow

theorem neutral_runOne_iff {db : Db} (h : db.Neutral services.text) (env : Env)
    (due : DueSchedule) (input : DraftInput) :
    (after (runOne services env due input) db).Neutral services.text ↔
      ((∃ new, Drafts services env db due input new) → due.Neutral services.text) := by
  rw [neutral_iff_created h, created_runOne_iff]
  constructor
  · rintro hall ⟨new, hdrafts⟩
    exact (DueSchedule.neutral_draft_iff hdrafts.draft).mp (hall new hdrafts)
  · intro hfair new hdrafts
    exact (DueSchedule.neutral_draft_iff hdrafts.draft).mpr (hfair ⟨new, hdrafts⟩)

theorem neutral_apply_iff {db : Db} (h : db.Neutral services.text) (a : NeutralityStep) :
    (a.apply services db).Neutral services.text ↔ a.Fair services db := by
  cases a with
  | create env dto => exact iff_of_true (neutral_create services h env dto) trivial
  | clone env id buyerAddress dto =>
      exact iff_of_true (neutral_clone services h env id buyerAddress dto) trivial
  | replaceArbiter env id buyerAddress arbiterAddress =>
      exact iff_of_true (neutral_replaceArbiter h env id buyerAddress arbiterAddress) trivial
  | runOne env due input => exact neutral_runOne_iff services h env due input
  | edit templates schedules users => exact iff_of_true h trivial

end Runs

/-- From a database where no arbiter is a party, this stays so through a run
exactly when no schedule comes to a draft whose template names the owner or a
party as the arbiter. -/
theorem arbiters_neutral_iff (services : Services) {db : Db}
    (hstart : db.Neutral services.text) (steps : List NeutralityStep) :
    (∀ pre post, steps = pre ++ post →
        (pre.foldl (NeutralityStep.apply services) db).Neutral services.text) ↔
      Along (NeutralityStep.apply services) (NeutralityStep.Fair services) db steps := by
  have hstep (db : Db) (a : NeutralityStep) (h : db.Neutral services.text) :
      (a.apply services db).Neutral services.text ↔ a.Fair services db :=
    neutral_apply_iff services h a
  exact along_iff_invariant hstep hstart steps

section Schedules

instance (text : CaseMapping) (arbiterAddress : String) (parties : List String) :
    Decidable (Apart text arbiterAddress parties) :=
  inferInstanceAs (Decidable (∀ _ ∈ parties, _))

instance (text : CaseMapping) (due : DueSchedule) : Decidable (due.Neutral text) :=
  inferInstanceAs (Decidable (∀ _ ∈ due.template.arbiterAddress, _))

instance (text : CaseMapping) (s : Shipment) : Decidable (s.Neutral text) :=
  inferInstanceAs (Decidable (Apart _ _ _))

instance (text : CaseMapping) (db : Db) : Decidable (db.Neutral text) :=
  inferInstanceAs (Decidable (∀ _ ∈ db.shipments.rows, _))

/-- A public template, and a schedule on it that is due at 10. -/
def publicTemplate : ShipmentTemplate where
  id := "tpl-1"
  ownerId := "user-1"
  name := "Standard import"
  description := none
  isPublic := true
  supplierAddress := some "GSUPPLIER"
  logisticsAddress := some "GLOGISTICS"
  arbiterAddress := some "GARBITER"
  tokenAddress := some "CUSDC"
  milestoneTemplates := []
  deletedAt := none

def scheduleOf (ownerAddress : String) : RecurringSchedule where
  id := "rs-1"
  ownerAddress := ownerAddress
  templateId := "tpl-1"
  totalAmount := 10
  nextRunAt := 10
  lastRunAt := none
  active := true

def scheduledDb (ownerAddress : String) : Db :=
  { Db.demo .pending with
    shipments := .empty
    users := demoUsers
    templates := ⟨[publicTemplate], by decide⟩
    schedules := ⟨[scheduleOf ownerAddress], List.nodup_singleton _⟩ }

def runOf (ownerAddress : String) : NeutralityStep :=
  .runOne (.calm 20) ⟨scheduleOf ownerAddress, publicTemplate⟩ ⟨"SHIP-1", 30⟩

/-- The owner is not named in the template: the draft goes in and is neutral. -/
theorem fair_draft_created :
    (([runOf "GBUYER"].foldl (NeutralityStep.apply strictServices)
        (scheduledDb "GBUYER")).shipments.rows.map Shipment.arbiterAddress = ["GARBITER"]) ∧
      ∀ pre post, [runOf "GBUYER"] = pre ++ post →
        (pre.foldl (NeutralityStep.apply strictServices) (scheduledDb "GBUYER")).Neutral .ascii := by
  have hstart : (scheduledDb "GBUYER").Neutral strictServices.text := by decide
  refine ⟨by decide, (arbiters_neutral_iff strictServices hstart _).mpr ?_⟩
  exact ⟨fun _ => by decide, trivial⟩

/-- The template's arbiter schedules a shipment of his own from it: the job makes
him buyer and arbiter of one shipment. -/
theorem owner_arbitrates_own_draft :
    (scheduledDb "GARBITER").Neutral .ascii ∧
      after (RecurringScheduleJob.run strictServices (.calm 20) false fun _ => ⟨"SHIP-1", 30⟩)
          (scheduledDb "GARBITER") =
        [runOf "GARBITER"].foldl (NeutralityStep.apply strictServices) (scheduledDb "GARBITER") ∧
      ¬ ([runOf "GARBITER"].foldl (NeutralityStep.apply strictServices)
        (scheduledDb "GARBITER")).Neutral .ascii := by
  refine ⟨by decide, ?_, by decide⟩
  rw [after_run]
  rfl

end Schedules

end ChainSettle
