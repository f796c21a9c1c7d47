import ChainSettle.Creation.Neutrality
import ChainSettle.Semantics.Recurring

/-!
One draft per run. The compare-and-set of `runOne` goes through only for the time that
was read as due, and what it sets is later than that and than the clock of the run, so
a time that has been run for does not come back by itself. An owner brings one back
where the write of an update comes so late that its `nextRunAt`, in the future when it
was checked, has been passed by a run.
-/

namespace ChainSettle

open Lib Lib.Eff

section RunOne

variable (services : Services) (env : Env) (db : Db) (due : DueSchedule) (input : DraftInput)

/-- A run of one schedule makes the draft and claims the schedule, or neither. -/
theorem exec_runOne :
    (∃ new, Drafts services env db due input new ∧
      exec (runOne services env due input) db =
        (.ok true,
          (db.withShipment new []).claimSchedule due.schedule.id input.nextRunAt env.now)) ∨
    ((∀ new, ¬ Drafts services env db due input new) ∧
      ∃ outcome db', outcome ≠ .ok true ∧
        exec (runOne services env due input) db = (outcome, db') ∧
        (db' = db ∨ db' = db.deactivateSchedule due.schedule.id)) := by
  unfold runOne
  cases hdeleted : due.template.deletedAt with
  | some at_ =>
      refine .inr ⟨fun new h => absurd (hdeleted.symm.trans h.kept) (by rintro ⟨⟩), ?_⟩
      dsimp only
      unfold deactivate
      rw [exec_bind, exec_prismaCall]
      cases env.fails .scheduleWrite with
      | true => exact ⟨.error _, _, (by rintro ⟨⟩), rfl, .inl rfl⟩
      | false =>
          simp only [Bool.false_eq_true, if_false, exec_bind, exec_get]
          split
          · exact ⟨.error _, _, (by rintro ⟨⟩), rfl, .inl rfl⟩
          · exact ⟨.ok false, _, (by rintro ⟨⟩), rfl, .inr rfl⟩
  | none =>
      dsimp only
      unfold claimAndDraft
      rw [exec_bind, exec_prismaCall]
      cases hwrites : env.fails .scheduleWrite with
      | true =>
          exact .inr ⟨fun new h => absurd (hwrites.symm.trans h.writes) (by rintro ⟨⟩), .error _, _, (by rintro ⟨⟩),
            rfl, .inl rfl⟩
      | false =>
          simp only [Bool.false_eq_true, if_false, exec_bind, exec_get]
          cases hclaimable : db.claimable due with
          | false =>
              exact .inr ⟨fun new h => absurd (hclaimable.symm.trans h.claimable) (by rintro ⟨⟩),
                .ok false, _, (by rintro ⟨⟩), rfl, .inl rfl⟩
          | true =>
              simp only [if_true]
              cases hdraft : due.draft services input.shipmentId with
              | none =>
                  exact .inr ⟨fun new h => absurd (hdraft.symm.trans h.draft) (by rintro ⟨⟩), .error _, _, (by rintro ⟨⟩),
                    rfl, .inl rfl⟩
              | some new =>
                  simp only [exec_bind]
                  obtain ⟨hinserts, hok⟩ | ⟨hrefused, err, herr⟩ := exec_shipmentInsert env db new []
                  · rw [hok]
                    exact .inl ⟨new, ⟨hdeleted, hwrites, hclaimable, hdraft, hinserts⟩, rfl⟩
                  · rw [herr]
                    refine .inr ⟨fun other h => ?_, .error err, _, (by rintro ⟨⟩), rfl, .inl rfl⟩
                    cases hdraft.symm.trans h.draft
                    exact hrefused h.inserts

end RunOne

section Claims

/-- The compare-and-set has gone through: the schedule was active with the time that was
read, and has the following one now. -/
def Claimed (db db' : Db) (due : DueSchedule) (now : Nat) : Prop :=
  ∃ row, db.schedules.find? due.schedule.id = some row ∧ row.active ∧
    row.nextRunAt = due.schedule.nextRunAt ∧
    db'.schedules.find? due.schedule.id = some (row.claim (due.nextRunAt now) now)

/-- The draft that a run makes. -/
def DueSchedule.drafted (due : DueSchedule) (now : Nat) (shipmentId : String) : ScheduleDraft :=
  ⟨due.schedule.id, due.schedule.nextRunAt, now, due.nextRunAt now, shipmentId⟩

/-- What a run of one schedule does. -/
inductive RunsOne (services : Services) (env : Env) (due : DueSchedule) (shipmentId : String)
    (w w' : ScheduleWorld) : Prop where
  | drafted (new : NewShipment)
      (drafts : Drafts services env w.db due ⟨shipmentId, due.nextRunAt env.now⟩ new)
      (claimed : Claimed w.db w'.db due env.now)
      (inserted : w'.db.shipments.rows = w.db.shipments.rows ++ [new.row])
      (logged : w'.drafts = due.drafted env.now shipmentId :: w.drafts)
  | skipped
      (refused : ∀ new, ¬ Drafts services env w.db due ⟨shipmentId, due.nextRunAt env.now⟩ new)
      (unclaimed : ¬ Claimed w.db w'.db due env.now)
      (kept : w'.db.shipments = w.db.shipments) (logged : w'.drafts = w.drafts)

variable {services : Services} {env : Env} {db : Db} {due : DueSchedule}

theorem exists_of_claimable (h : db.claimable due = true) :
    ∃ row, db.schedules.find? due.schedule.id = some row ∧ row.active ∧
      row.nextRunAt = due.schedule.nextRunAt := by
  unfold Db.claimable at h
  cases hrow : db.schedules.find? due.schedule.id with
  | none => simp [hrow] at h
  | some row => exact ⟨row, rfl, by simpa [hrow] using h⟩

theorem find?_claimSchedule (db : Db) (id : String) (nextRunAt now : Nat) :
    (db.claimSchedule id nextRunAt now).schedules.find? id =
      (db.schedules.find? id).map (RecurringSchedule.claim nextRunAt now) :=
  (Table.find?_modify db.schedules id (RecurringSchedule.claim nextRunAt now) (fun _ => rfl)
    id).trans (if_pos rfl)

theorem find?_deactivateSchedule (db : Db) (id : String) :
    (db.deactivateSchedule id).schedules.find? id =
      (db.schedules.find? id).map fun s => { s with active := false } :=
  (Table.find?_modify db.schedules id (fun s => { s with active := false }) (fun _ => rfl)
    id).trans (if_pos rfl)

/-- The time that a claim sets is a new one. -/
theorem not_claimed {db' : Db} {now : Nat}
    (h : ∀ row ∈ db.schedules.find? due.schedule.id, ∀ row' ∈ db'.schedules.find? due.schedule.id,
      row'.nextRunAt = row.nextRunAt) : ¬ Claimed db db' due now := by
  rintro ⟨row, hrow, -, hread, hrow'⟩
  have hsame : due.nextRunAt now = row.nextRunAt := h row hrow _ hrow'
  have hlater := (due.lt_nextRunAt now).1
  omega

theorem runOne_cases (services : Services) (env : Env) (due : DueSchedule) (shipmentId : String)
    (w : ScheduleWorld) :
    (∃ new, Drafts services env w.db due ⟨shipmentId, due.nextRunAt env.now⟩ new ∧
      w.runOne services env due shipmentId = { w with
        db := (w.db.withShipment new []).claimSchedule due.schedule.id (due.nextRunAt env.now)
          env.now
        drafts := due.drafted env.now shipmentId :: w.drafts }) ∨
    ((∀ new, ¬ Drafts services env w.db due ⟨shipmentId, due.nextRunAt env.now⟩ new) ∧
      (w.runOne services env due shipmentId = w ∨
        w.runOne services env due shipmentId =
          { w with db := w.db.deactivateSchedule due.schedule.id })) := by
  unfold ScheduleWorld.runOne
  obtain ⟨new, hdrafts, hok⟩ | ⟨hrefused, outcome, db', houtcome, hexec, hdb⟩ :=
    exec_runOne services env w.db due ⟨shipmentId, due.nextRunAt env.now⟩
  · rw [hok]
    exact .inl ⟨new, hdrafts, rfl⟩
  · refine .inr ⟨hrefused, ?_⟩
    rw [hexec]
    cases outcome with
    | error err => exact hdb.imp (fun h => by rw [h]) fun h => by rw [h]
    | ok claimed =>
        cases claimed with
        | false => exact hdb.imp (fun h => by rw [h]) fun h => by rw [h]
        | true => exact absurd rfl houtcome

theorem runsOne (services : Services) (env : Env) (due : DueSchedule) (shipmentId : String)
    (w : ScheduleWorld) :
    RunsOne services env due shipmentId w (w.runOne services env due shipmentId) := by
  obtain ⟨new, hdrafts, hnext⟩ | ⟨hrefused, hnext | hnext⟩ :=
    runOne_cases services env due shipmentId w
  · obtain ⟨row, hrow, hactive, hread⟩ := exists_of_claimable hdrafts.claimable
    rw [hnext]
    refine .drafted new hdrafts ⟨row, hrow, hactive, hread, ?_⟩ ?_ rfl
    · refine (find?_claimSchedule (w.db.withShipment new []) _ _ _).trans ?_
      exact congrArg (Option.map _) hrow
    · exact Table.rows_insert (Table.find?_eq_none_iff.mp hdrafts.inserts.2.2)
  · rw [hnext]
    refine .skipped hrefused (not_claimed fun row hrow row' hrow' => ?_) rfl rfl
    cases hrow.symm.trans hrow'
    rfl
  · rw [hnext]
    refine .skipped hrefused (not_claimed fun row hrow row' hrow' => ?_) rfl rfl
    obtain ⟨old, hold, rfl⟩ := Option.map_eq_some_iff.mp
      ((find?_deactivateSchedule w.db due.schedule.id).symm.trans hrow')
    cases hrow.symm.trans hold
    rfl

end Claims

section Ahead

/-- Every draft has a time of its own, which is set past the run's clock; and what a
later draft is for comes after the clock of the earlier run. -/
structure DraftsOnce (drafts : List ScheduleDraft) : Prop where
  once : (drafts.map fun d => (d.scheduleId, d.nextRunAt)).Nodup
  advanced : ∀ d ∈ drafts, d.nextRunAt < d.following ∧ d.now < d.following
  caughtUp : drafts.Pairwise fun later earlier =>
    later.scheduleId = earlier.scheduleId → earlier.now < later.nextRunAt

/-- The schedule has moved past the run, and remembers it. -/
def RecurringSchedule.Past (row : RecurringSchedule) (now : Nat) : Prop :=
  now < row.nextRunAt ∧ ∃ last ∈ row.lastRunAt, now ≤ last

structure DraftsPast (db : Db) (drafts : List ScheduleDraft) : Prop where
  due : ∀ d ∈ drafts, d.nextRunAt ≤ d.now
  advanced : ∀ d ∈ drafts, d.nextRunAt < d.following ∧ d.now < d.following
  caughtUp : drafts.Pairwise fun later earlier =>
    later.scheduleId = earlier.scheduleId → earlier.now < later.nextRunAt
  past : ∀ d ∈ drafts, ∀ row ∈ db.schedules.find? d.scheduleId, row.Past d.now

/-- A write comes after its `nextRunAt` has been checked; it still is later than the
last run of the schedule. -/
def ScheduleCall.StoresAhead (w : ScheduleWorld) : ScheduleCall → Prop
  | .write id data =>
      ∀ time ∈ data.nextRunAt.join, ∀ row ∈ w.db.schedules.find? id,
        ∀ last ∈ row.lastRunAt, last < time
  | _ => True

def KeptAhead (s : SchedulePool) : ScheduleAction → Prop
  | .resume index input =>
      ∀ call ∈ s.inflight[index]?, input.env.fails .scheduleWrite = false →
        call.StoresAhead s.shared
  | _ => True

instance (w : ScheduleWorld) : (call : ScheduleCall) → Decidable (call.StoresAhead w)
  | .write id data =>
      inferInstanceAs (Decidable (∀ time ∈ data.nextRunAt.join,
        ∀ row ∈ w.db.schedules.find? id, ∀ last ∈ row.lastRunAt, last < time))
  | .run | .findDue _ | .runDue .. | .update .. | .remove .. | .delete _ =>
      inferInstanceAs (Decidable True)

instance (s : SchedulePool) : (a : ScheduleAction) → Decidable (KeptAhead s a)
  | .resume index input =>
      inferInstanceAs (Decidable (∀ call ∈ s.inflight[index]?,
        input.env.fails .scheduleWrite = false → call.StoresAhead s.shared))
  | .begin _ | .crash _ | .external _ => inferInstanceAs (Decidable True)

variable {db db' : Db} {drafts : List ScheduleDraft}

theorem DraftsPast.once (h : DraftsPast db drafts) : DraftsOnce drafts := by
  refine ⟨?_, h.advanced, h.caughtUp⟩
  rw [List.Nodup, List.pairwise_map]
  refine h.caughtUp.imp_of_mem fun {later earlier} hlater hearlier hcaught hsame => ?_
  obtain ⟨hid, htime⟩ := Prod.mk.inj hsame
  have hpassed := hcaught hid
  have hdue := h.due earlier hearlier
  omega

/-- The writes that keep what the rows remember. -/
theorem DraftsPast.write (h : DraftsPast db drafts)
    (hrows : ∀ id, ∀ row' ∈ db'.schedules.find? id, ∃ row ∈ db.schedules.find? id,
      ∀ now, row.Past now → row'.Past now) : DraftsPast db' drafts := by
  refine ⟨h.due, h.advanced, h.caughtUp, fun d hd row' hrow' => ?_⟩
  obtain ⟨row, hrow, hpast⟩ := hrows d.scheduleId row' hrow'
  exact hpast d.now (h.past d hd row hrow)

theorem DraftsPast.modify (h : DraftsPast db drafts) {id : String}
    (f : RecurringSchedule → RecurringSchedule) (hf : ∀ row, (f row).id = row.id)
    (hrow : ∀ row ∈ db.schedules.find? id, ∀ now, row.Past now → (f row).Past now) :
    DraftsPast { db with schedules := db.schedules.modify id f hf } drafts := by
  refine h.write fun other row' hrow' => ?_
  have hfound := (Table.find?_modify _ _ _ hf _).symm.trans hrow'
  split at hfound
  · rename_i hother
    subst hother
    obtain ⟨row, hfind, rfl⟩ := Option.map_eq_some_iff.mp hfound
    exact ⟨row, hfind, hrow row hfind⟩
  · exact ⟨row', hfound, fun _ hpast => hpast⟩

/-- The draft is for a time that no earlier run has passed. -/
theorem draftsPast_runOne {services : Services} {env : Env} {due : DueSchedule}
    {shipmentId : String} {w : ScheduleWorld} (h : DraftsPast w.db w.drafts)
    (hdue : due.schedule.nextRunAt ≤ env.now) :
    DraftsPast (w.runOne services env due shipmentId).db
      (w.runOne services env due shipmentId).drafts := by
  obtain ⟨new, hdrafts, hnext⟩ | ⟨-, hnext | hnext⟩ := runOne_cases services env due shipmentId w
  · obtain ⟨row, hrow, -, hread⟩ := exists_of_claimable hdrafts.claimable
    have hlater := due.lt_nextRunAt env.now
    have hpassed (d : ScheduleDraft) (hd : d ∈ w.drafts) (hid : d.scheduleId = due.schedule.id) :
        d.now < due.schedule.nextRunAt := by
      have hpast := (h.past d hd row (hid ▸ hrow)).1
      rwa [hread] at hpast
    have hclaimed : DraftsPast ((w.db.withShipment new []).claimSchedule due.schedule.id
        (due.nextRunAt env.now) env.now) w.drafts := by
      have hinserted : DraftsPast (w.db.withShipment new []) w.drafts :=
        ⟨h.due, h.advanced, h.caughtUp, h.past⟩
      refine hinserted.modify (RecurringSchedule.claim _ _) (fun _ => rfl) fun other hother now hpast => ?_
      cases hrow.symm.trans hother
      have hdate := hpast.1
      refine ⟨?_, env.now, rfl, ?_⟩
      · simp only [RecurringSchedule.claim]
        omega
      · omega
    rw [hnext]
    refine ⟨List.forall_mem_cons.mpr ⟨hdue, h.due⟩, List.forall_mem_cons.mpr ⟨hlater, h.advanced⟩,
      List.pairwise_cons.mpr ⟨fun d hd hid => hpassed d hd hid.symm, h.caughtUp⟩,
      List.forall_mem_cons.mpr ⟨fun row' hrow' => ?_, hclaimed.past⟩⟩
    have hfound := (find?_claimSchedule (w.db.withShipment new []) due.schedule.id
      (due.nextRunAt env.now) env.now).symm.trans hrow'
    obtain ⟨old, -, rfl⟩ := Option.map_eq_some_iff.mp hfound
    exact ⟨hlater.2, env.now, rfl, Nat.le_refl _⟩
  · rw [hnext]
    exact h
  · rw [hnext]
    exact h.modify (fun s => { s with active := false }) (fun _ => rfl) fun _ _ _ hpast => hpast

theorem exec_scheduleUpdate (db : Db) {env : Env} {id : String} {data : ScheduleData} :
    (∃ err, exec (scheduleUpdate env id data) db = (.error err, db)) ∨
      ∃ row, env.fails .scheduleWrite = false ∧ db.schedules.find? id = some row ∧
        exec (scheduleUpdate env id data) db = (.ok (data.apply row),
          { db with schedules := db.schedules.modify id data.apply fun _ => rfl }) := by
  unfold scheduleUpdate
  rw [exec_bind, exec_prismaCall]
  cases hwrites : env.fails .scheduleWrite with
  | true => exact .inl ⟨_, rfl⟩
  | false =>
      simp only [Bool.false_eq_true, if_false]
      split
      · exact .inl ⟨_, rfl⟩
      · rw [exec_bind, exec_get]
        dsimp only
        cases hrow : db.schedules.find? id with
        | none => exact .inl ⟨_, rfl⟩
        | some row => exact .inr ⟨row, trivial, rfl, rfl⟩

theorem exec_scheduleDelete (db : Db) {env : Env} {id : String} :
    (∃ err, exec (scheduleDelete env id) db = (.error err, db)) ∨
      exec (scheduleDelete env id) db =
        (.ok (), { db with schedules := db.schedules.filter fun s => s.id ≠ id }) := by
  unfold scheduleDelete
  rw [exec_bind, exec_prismaCall]
  cases env.fails .scheduleWrite with
  | true => exact .inl ⟨_, rfl⟩
  | false =>
      simp only [Bool.false_eq_true, if_false, exec_bind, exec_get]
      split
      · exact .inl ⟨_, rfl⟩
      · exact .inr rfl

/-- An update that stores a time later than the last run leaves what was past in the
past. -/
theorem past_apply {data : ScheduleData} {row : RecurringSchedule}
    (h : ∀ time ∈ data.nextRunAt.join, ∀ last ∈ row.lastRunAt, last < time) {now : Nat}
    (hpast : row.Past now) : (data.apply row).Past now := by
  obtain ⟨hnow, last, hlast, hle⟩ := hpast
  refine ⟨?_, last, hlast, hle⟩
  simp only [ScheduleData.apply]
  cases htime : data.nextRunAt.join with
  | none => exact hnow
  | some time => exact Nat.lt_of_le_of_lt hle (h time htime last hlast)

theorem mem_dueInOrder {scan : Scan RecurringSchedule} {now : Nat} {due : DueSchedule}
    (h : due ∈ db.dueInOrder scan now) : due.schedule.nextRunAt ≤ now := by
  obtain ⟨s, hs, hdue⟩ := List.mem_filterMap.mp h
  obtain ⟨template, -, rfl⟩ := Option.map_eq_some_iff.mp hdue
  have hsorted := (List.perm_insertionSort _ _).mem_iff.mp (List.mem_of_mem_take hs)
  simpa using (of_decide_eq_true (Scan.mem_findMany.mp hsorted).2).2

end Ahead

section Runs

variable (services : Services)

/-- The schedules of a batch were due when it was read. -/
def ScheduleCall.Due : ScheduleCall → Prop
  | .runDue now due => ∀ d ∈ due, d.schedule.nextRunAt ≤ now
  | _ => True

theorem draftsPast_resume {w : ScheduleWorld} (h : DraftsPast w.db w.drafts) (input : ScheduleInput)
    {call : ScheduleCall} (hdue : call.Due)
    (hahead : input.env.fails .scheduleWrite = false → call.StoresAhead w) :
    DraftsPast (call.resume services input w).1.db (call.resume services input w).1.drafts ∧
      ∀ next ∈ (call.resume services input w).2, next.Due := by
  cases call with
  | run =>
      simp only [ScheduleCall.resume]
      split
      · exact ⟨h, List.forall_mem_nil _⟩
      · exact ⟨h, List.forall_mem_singleton.mpr trivial⟩
  | findDue now =>
      simp only [ScheduleCall.resume]
      split
      · exact ⟨h, List.forall_mem_nil _⟩
      · exact ⟨h, List.forall_mem_singleton.mpr fun d hd => mem_dueInOrder hd⟩
  | runDue now due =>
      cases due with
      | nil => exact ⟨h, List.forall_mem_nil _⟩
      | cons due rest =>
          obtain ⟨hfirst, hrest⟩ := List.forall_mem_cons.mp hdue
          exact ⟨draftsPast_runOne h hfirst, List.forall_mem_singleton.mpr hrest⟩
  | update id ownerAddress dto =>
      simp only [ScheduleCall.resume]
      split
      · exact ⟨h, List.forall_mem_nil _⟩
      · split
        · exact ⟨h, List.forall_mem_nil _⟩
        · exact ⟨h, List.forall_mem_singleton.mpr trivial⟩
  | write id data =>
      simp only [ScheduleCall.resume]
      obtain ⟨err, herr⟩ | ⟨row, hwrites, hrow, hok⟩ := exec_scheduleUpdate w.db
      · rw [herr]
        exact ⟨h, List.forall_mem_nil _⟩
      · rw [hok]
        refine ⟨h.modify data.apply (fun _ => rfl) fun other hother now hpast => ?_,
          List.forall_mem_nil _⟩
        exact past_apply (fun time htime => hahead hwrites time htime other hother) hpast
  | remove id ownerAddress =>
      simp only [ScheduleCall.resume]
      split
      · exact ⟨h, List.forall_mem_nil _⟩
      · exact ⟨h, List.forall_mem_singleton.mpr trivial⟩
  | delete id =>
      simp only [ScheduleCall.resume]
      obtain ⟨err, herr⟩ | hok := exec_scheduleDelete w.db
      · rw [herr]
        exact ⟨h, List.forall_mem_nil _⟩
      · rw [hok]
        refine ⟨h.write fun other row' hrow' => ?_, List.forall_mem_nil _⟩
        exact ⟨row', (Table.find?_filter_eq_some_iff.mp hrow').1, fun _ hpast => hpast⟩

structure SchedulesSound (s : SchedulePool) : Prop where
  past : DraftsPast s.shared.db s.shared.drafts
  due : ∀ call ∈ s.inflight, call.Due

theorem schedulesSound_step (s : SchedulePool) (a : ScheduleAction) (h : SchedulesSound s)
    (hahead : KeptAhead s a) : SchedulesSound ((schedules services).step s a) := by
  have hkeeps := (schedules services).keeps_step (Q := fun w => DraftsPast w.db w.drafts)
    (P := fun _ => ScheduleCall.Due) a h.past h.due
    (fun call _ hstart => by cases call <;> trivial)
    (fun index input call haction hcall => by
      have hpast := draftsPast_resume services h.past input
        (h.due call (List.mem_of_getElem? hcall)) (by
          rw [haction] at hahead
          exact hahead call hcall)
      exact ⟨hpast.1, hpast.2, fun other hmem => h.due other (List.mem_of_mem_eraseIdx hmem)⟩)
    (fun event => by
      cases event with
      | edit db => exact ⟨⟨h.past.due, h.past.advanced, h.past.caughtUp, h.past.past⟩, h.due⟩)
  exact ⟨hkeeps.1, hkeeps.2⟩

/-- Only the run of one schedule makes a draft, and only with its claim. -/
def DraftsByClaim (s : SchedulePool) (a : ScheduleAction) : Prop :=
  match a with
  | .resume index input =>
      match s.inflight[index]? with
      | some (.runDue now (due :: _)) =>
          RunsOne services { input.env with now := now } due input.shipmentId s.shared
            ((schedules services).step s a).shared
      | _ => ((schedules services).step s a).shared.drafts = s.shared.drafts
  | _ => ((schedules services).step s a).shared.drafts = s.shared.drafts

theorem draftsByClaim (s : SchedulePool) (a : ScheduleAction) : DraftsByClaim services s a := by
  cases a with
  | begin call =>
      simp only [DraftsByClaim, PoolSystem.step]
      split <;> rfl
  | crash index => rfl
  | external event => cases event; rfl
  | resume index input =>
      cases hcall : s.inflight[index]? with
      | none => simp only [DraftsByClaim, PoolSystem.step, hcall]
      | some call =>
          simp only [DraftsByClaim, PoolSystem.step, hcall]
          cases call with
          | runDue now due =>
              cases due with
              | nil => rfl
              | cons due rest => exact runsOne services _ due input.shipmentId s.shared
          | run => simp only [schedules, ScheduleCall.resume]; split <;> rfl
          | findDue now => simp only [schedules, ScheduleCall.resume]; split <;> rfl
          | update id ownerAddress dto =>
              simp only [schedules, ScheduleCall.resume]
              split
              · rfl
              · split <;> rfl
          | write id data => simp only [schedules, ScheduleCall.resume]; split <;> rfl
          | remove id ownerAddress => simp only [schedules, ScheduleCall.resume]; split <;> rfl
          | delete id => simp only [schedules, ScheduleCall.resume]; split <;> rfl

def noDrafts (db : Db) : SchedulePool := ⟨⟨db, [], []⟩, []⟩

/-- Drafts are made exactly with the claims of their schedules. Along every run in which
an owner's time is stored while it still is later than the last run of the schedule, no
time is drafted twice, and none that an earlier run has passed. -/
theorem drafts_once_while_ahead (db : Db) (actions : List ScheduleAction)
    (h : Along (schedules services).step KeptAhead (noDrafts db) actions) :
    (∀ s a, DraftsByClaim services s a) ∧
      ∀ pre post, actions = pre ++ post →
        DraftsOnce ((schedules services).run pre (noDrafts db)).shared.drafts := by
  refine ⟨draftsByClaim services, fun pre post hsplit => ?_⟩
  have hempty : SchedulesSound (noDrafts db) :=
    ⟨⟨List.forall_mem_nil _, List.forall_mem_nil _, List.Pairwise.nil, List.forall_mem_nil _⟩,
      List.forall_mem_nil _⟩
  have hstep (s : SchedulePool) (a : ScheduleAction) (hs : SchedulesSound s) (ha : KeptAhead s a) :
      SchedulesSound ((schedules services).step s a) := schedulesSound_step services s a hs ha
  exact (h.invariant hstep hempty pre post hsplit).past.once

def calmAt (now : Nat) (shipmentId : String) : ScheduleInput :=
  ⟨.calm now, false, ⟨id, List.Perm.refl⟩, shipmentId⟩

/-- The owner asks for another time. -/
def moveTo (time : Int) : ScheduleCall :=
  .update "rs-1" "GBUYER" ⟨none, none, none, some (some time)⟩

/-- Two instances find the schedule due at once. Afterwards its owner brings the next run
forward. -/
def twoInstances : List ScheduleAction :=
  [.begin .run, .begin .run, .resume 0 (calmAt 20 ""), .resume 1 (calmAt 20 ""),
    .resume 0 (calmAt 20 ""), .resume 1 (calmAt 20 ""), .resume 1 (calmAt 21 "SHIP-1"),
    .resume 0 (calmAt 22 "SHIP-2"), .begin (moveTo 50), .resume 2 (calmAt 25 ""),
    .resume 2 (calmAt 26 ""), .begin .run, .resume 2 (calmAt 60 ""), .resume 2 (calmAt 60 ""),
    .resume 2 (calmAt 60 "SHIP-3")]

theorem two_instances_draft_once :
    DraftsOnce ((schedules strictServices).run twoInstances
        (noDrafts (scheduledDb "GBUYER"))).shared.drafts ∧
      ((schedules strictServices).run twoInstances (noDrafts (scheduledDb "GBUYER"))).shared.drafts.map
        ScheduleDraft.nextRunAt = [50, 10] :=
  ⟨(drafts_once_while_ahead strictServices (scheduledDb "GBUYER") twoInstances (by decide)).2
    twoInstances [] rfl, by decide⟩

/-- The owner asks for the time that is set already, a run comes in between the check and
the write, and the next run finds the same time due again. -/
def lateUpdate : List ScheduleAction :=
  [.begin (moveTo 10), .resume 0 (calmAt 5 ""), .begin .run, .resume 1 (calmAt 20 ""),
    .resume 1 (calmAt 20 ""), .resume 1 (calmAt 20 "SHIP-1"), .resume 0 (calmAt 21 ""),
    .begin .run, .resume 1 (calmAt 30 ""), .resume 1 (calmAt 30 ""),
    .resume 1 (calmAt 30 "SHIP-2")]

theorem drafted_twice :
    ¬ DraftsOnce ((schedules strictServices).run lateUpdate
        (noDrafts (scheduledDb "GBUYER"))).shared.drafts ∧
      ((schedules strictServices).run lateUpdate (noDrafts (scheduledDb "GBUYER"))).shared.drafts.map
        (fun d => (d.nextRunAt, d.shipmentId)) = [(10, "SHIP-2"), (10, "SHIP-1")] := by
  refine ⟨fun h => absurd h.once (by decide), by decide⟩

end Runs

end ChainSettle
