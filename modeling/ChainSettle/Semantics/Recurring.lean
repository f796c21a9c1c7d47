import ChainSettle.Lib.Pool
import ChainSettle.Semantics.Dashboard

/-!
Recurring schedules. A run of `RecurringScheduleJob` takes the lock, reads the clock and
the schedules that are due, and works these off one after the other, each in the one
transaction of `runOne`. Any number of instances do so, since the lock can expire.
Meanwhile the owners update and remove their schedules, each in a read and a write.

Times are milliseconds since the start of 1970. `Dates` has `advance` on the whole range of
a `Date`, setter by setter: a `Date` that is out of range is invalid, and everything that is
made of it is.
-/

namespace ChainSettle

open Lib Lib.Eff

section Advance

/-- Seven days, or one month, from a time. MONTHLY clamps to the month's last day. -/
def advance (time : Nat) (interval : RecurringInterval) : Nat :=
  match interval with
  | .weekly => time + 7 * 86400000
  | .monthly =>
      let days := time / 86400000
      let date := civil days
      -- the first of the next month
      let first := days - (date.day - 1) + monthLength date.year date.month
      let lastDay := monthLength (civil first).year (civil first).month
      (first + (min date.day lastDay - 1)) * 86400000 + time % 86400000

/-- The loop over the missed intervals, with a bound on its turns. -/
def skipMissed (interval : RecurringInterval) (now : Nat) : Nat → Nat → Nat
  | 0, nextRunAt => nextRunAt
  | turns + 1, nextRunAt =>
      if nextRunAt ≤ now then skipMissed interval now turns (advance nextRunAt interval)
      else nextRunAt

/-- The time of the run that follows the one at `now`. -/
def DueSchedule.nextRunAt (due : DueSchedule) (now : Nat) : Nat :=
  skipMissed due.schedule.interval now (now + 1)
    (advance due.schedule.nextRunAt due.schedule.interval)

theorem lt_advance (time : Nat) (interval : RecurringInterval) : time < advance time interval := by
  cases interval with
  | weekly =>
      simp only [advance]
      omega
  | monthly =>
      have hday := day_civil_le (time / 86400000)
      have hpos := (civil (time / 86400000)).day_pos
      have hsplit := Nat.div_add_mod time 86400000
      simp only [advance]
      generalize min (civil (time / 86400000)).day _ - 1 = more
      generalize (civil (time / 86400000)).day = day at hday hpos ⊢
      generalize monthLength (civil (time / 86400000)).year _ = length at hday ⊢
      have hlater : time / 86400000 + 1 ≤ time / 86400000 - (day - 1) + length + more := by
        omega
      have hproduct := Nat.mul_le_mul_right 86400000 hlater
      omega

theorem le_skipMissed (interval : RecurringInterval) (now turns nextRunAt : Nat) :
    nextRunAt ≤ skipMissed interval now turns nextRunAt := by
  induction turns generalizing nextRunAt with
  | zero => exact Nat.le_refl _
  | succ turns ih =>
      unfold skipMissed
      split
      · exact (lt_advance nextRunAt interval).le.trans (ih _)
      · exact Nat.le_refl _

/-- Every turn gains a millisecond at least, so the bound is never reached. -/
theorem lt_skipMissed (interval : RecurringInterval) {now turns nextRunAt : Nat}
    (h : now < nextRunAt + turns) : now < skipMissed interval now turns nextRunAt := by
  induction turns generalizing nextRunAt with
  | zero => exact h
  | succ turns ih =>
      unfold skipMissed
      split
      · have hgain := lt_advance nextRunAt interval
        exact ih (by omega)
      · omega

theorem DueSchedule.lt_nextRunAt (due : DueSchedule) (now : Nat) :
    due.schedule.nextRunAt < due.nextRunAt now ∧ now < due.nextRunAt now := by
  refine ⟨?_, lt_skipMissed _ (by omega)⟩
  exact (lt_advance _ _).trans_le (le_skipMissed ..)

/-- From 31 January to 28 February, at ten in the morning. -/
example : advance (30 * 86400000 + 36000000) .monthly = 58 * 86400000 + 36000000 := by
  decide +kernel

end Advance

section Owners

/-- The `nextRunAt` is a text, `none` where it is no date. -/
structure UpdateRecurringScheduleDto where
  interval : Option RecurringInterval
  totalAmount : Option String
  active : Option Bool
  nextRunAt : Option (Option Int)

/-- The columns that an update sets. -/
structure ScheduleData where
  interval : Option RecurringInterval
  totalAmount : Option Int
  active : Option Bool
  nextRunAt : Option (Option Nat)

def ScheduleData.apply (data : ScheduleData) (s : RecurringSchedule) : RecurringSchedule :=
  { s with
    interval := data.interval.getD s.interval
    totalAmount := data.totalAmount.getD s.totalAmount
    active := data.active.getD s.active
    nextRunAt := data.nextRunAt.join.getD s.nextRunAt }

def ScheduleData.Storable (data : ScheduleData) : Prop :=
  data.nextRunAt ≠ some none ∧ ∀ amount ∈ data.totalAmount, fitsBigInt amount

instance (data : ScheduleData) : Decidable data.Storable :=
  inferInstanceAs (Decidable (_ ∧ ∀ _ ∈ _, _))

def findOwned (env : Env) (id ownerAddress : String) : Tx RecurringSchedule := do
  prismaCall env .scheduleRead
  match (← get).schedules.find? id with
  | none => throw (.notFound s!"Recurring schedule {id} not found")
  | some schedule =>
      if schedule.ownerAddress ≠ ownerAddress then
        throw (.notFound s!"Recurring schedule {id} not found")
      return schedule

/-- The checks of `update`. -/
def UpdateRecurringScheduleDto.data (dto : UpdateRecurringScheduleDto) (now : Nat) :
    Except Exn ScheduleData := do
  let totalAmount ← match dto.totalAmount with
    | none => pure none
    | some text =>
        match bigIntOfString text with
        | none => throw .invalidValue
        | some amount => pure (some amount)
  match dto.nextRunAt with
  | some (some time) =>
      if time ≤ now then throw (.badRequest "nextRunAt must be in the future")
  | _ => pure ()
  return {
    interval := dto.interval
    totalAmount := totalAmount
    active := dto.active
    nextRunAt := dto.nextRunAt.map fun time => time.map Int.toNat }

/-- An `UPDATE` by id; it throws where there is no such row. -/
def scheduleUpdate (env : Env) (id : String) (data : ScheduleData) : Tx RecurringSchedule := do
  prismaCall env .scheduleWrite
  if ¬ data.Storable then throw .invalidValue
  match (← get).schedules.find? id with
  | none => throw .recordNotFound
  | some schedule =>
      modify fun db => { db with schedules := db.schedules.modify id data.apply fun _ => rfl }
      return data.apply schedule

def scheduleDelete (env : Env) (id : String) : Tx Unit := do
  prismaCall env .scheduleWrite
  if ((← get).schedules.find? id).isNone then throw .recordNotFound
  modify fun db => { db with schedules := db.schedules.filter fun s => s.id ≠ id }

end Owners

section Calls

/-- The job's query; schedules that are due at the same time come in any order. -/
def Db.dueInOrder (db : Db) (scan : Scan RecurringSchedule) (now : Nat) : List DueSchedule :=
  let due := scan.findMany db.schedules.rows fun s => s.active ∧ s.nextRunAt ≤ now
  let batch := (due.insertionSort fun a b => a.nextRunAt ≤ b.nextRunAt).take
    RecurringScheduleJob.BATCH_SIZE
  batch.filterMap fun s =>
    (db.templates.find? s.templateId).map fun template => ⟨s, template⟩

inductive ScheduleCall where
  | run
  | findDue (now : Nat)
  | runDue (now : Nat) (due : List DueSchedule)
  | update (id ownerAddress : String) (dto : UpdateRecurringScheduleDto)
  | write (id : String) (data : ScheduleData)
  | remove (id ownerAddress : String)
  | delete (id : String)

inductive ScheduleReply where
  | updated (schedule : RecurringSchedule)
  | removed
deriving DecidableEq

/-- The draft that a run has made, of the time that was due, with the clock reading of
the run and the time it has set. -/
structure ScheduleDraft where
  scheduleId : String
  nextRunAt : Nat
  now : Nat
  following : Nat
  shipmentId : String
deriving DecidableEq

structure ScheduleWorld where
  db : Db
  /-- the newest first -/
  drafts : List ScheduleDraft
  responses : List (Except Exn ScheduleReply)

/-- The inputs of a step. -/
structure ScheduleInput where
  env : Env
  lockHeld : Bool
  scan : Scan RecurringSchedule
  /-- the `randomUUID` of the draft -/
  shipmentId : String

/-- What others write. -/
inductive ScheduleEvent where
  | edit (db : Db)

namespace ScheduleWorld

variable (w : ScheduleWorld)

def respond (response : Except Exn ScheduleReply) : ScheduleWorld :=
  { w with responses := response :: w.responses }

/-- A schedule that fails is logged and skipped. -/
def runOne (services : Services) (env : Env) (due : DueSchedule) (shipmentId : String) :
    ScheduleWorld :=
  match exec (ChainSettle.runOne services env due ⟨shipmentId, due.nextRunAt env.now⟩) w.db with
  | (.ok true, db) =>
      { w with
        db := db
        drafts := ⟨due.schedule.id, due.schedule.nextRunAt, env.now, due.nextRunAt env.now,
          shipmentId⟩ :: w.drafts }
  | (_, db) => { w with db := db }

end ScheduleWorld

def ScheduleCall.resume (services : Services) (input : ScheduleInput) (w : ScheduleWorld) :
    ScheduleCall → ScheduleWorld × List ScheduleCall
  | .run => if input.lockHeld then (w, []) else (w, [.findDue input.env.now])
  | .findDue now =>
      if input.env.fails .jobRead then (w, [])
      else (w, [.runDue now (w.db.dueInOrder input.scan now)])
  | .runDue _ [] => (w, [])
  | .runDue now (due :: rest) =>
      (w.runOne services { input.env with now := now } due input.shipmentId, [.runDue now rest])
  | .update id ownerAddress dto =>
      match exec (findOwned input.env id ownerAddress) w.db with
      | (.error err, _) => (w.respond (.error err), [])
      | (.ok _, _) =>
          match dto.data input.env.now with
          | .error err => (w.respond (.error err), [])
          | .ok data => (w, [.write id data])
  | .write id data =>
      match exec (scheduleUpdate input.env id data) w.db with
      | (.error err, db) => ({ w with db := db }.respond (.error err), [])
      | (.ok schedule, db) => ({ w with db := db }.respond (.ok (.updated schedule)), [])
  | .remove id ownerAddress =>
      match exec (findOwned input.env id ownerAddress) w.db with
      | (.error err, _) => (w.respond (.error err), [])
      | (.ok _, _) => (w, [.delete id])
  | .delete id =>
      match exec (scheduleDelete input.env id) w.db with
      | (.error err, db) => ({ w with db := db }.respond (.error err), [])
      | (.ok _, db) => ({ w with db := db }.respond (.ok .removed), [])

def ScheduleCall.starts : ScheduleCall → Bool
  | .run | .update .. | .remove .. => true
  | _ => false

def schedules (services : Services) :
    PoolSystem ScheduleWorld ScheduleCall ScheduleInput ScheduleEvent where
  starts := ScheduleCall.starts
  resume input w call := call.resume services input w
  external
    | .edit db, w => { w with db := { db with schedules := w.db.schedules } }

abbrev SchedulePool := Pool ScheduleWorld ScheduleCall

abbrev ScheduleAction := PoolAction ScheduleCall ScheduleInput ScheduleEvent

end Calls

section Dates

def getUTCFullYear (time : Int) : Int := yearFromDay (time / msPerDay)

namespace Dates

/-- `Date.UTC`, which takes the years 0 to 99 for those of the last century. -/
def dateUTC (year month date : Int) : Option Int :=
  let year := if 0 ≤ year ∧ year ≤ 99 then 1900 + year else year
  timeClip (makeDay year month date * msPerDay)

/-- Advances a run time by one interval. MONTHLY clamps to the month's last day. -/
def advance (start : Int) (interval : RecurringInterval) : Option Int :=
  let next := start
  match interval with
  | .weekly => setUTCDate next (getUTCDate next + 7)
  | .monthly => do
      let day := getUTCDate next
      let next ← setUTCDate next 1
      let next ← setUTCMonth next (getUTCMonth next + 1)
      let lastDay := getUTCDate (← dateUTC (getUTCFullYear next) (getUTCMonth next + 1) 0)
      setUTCDate next (min day lastDay)

/-- What `advance` gives when it is applied a number of times. -/
def advances (interval : RecurringInterval) (start : Int) : Nat → Option Int
  | 0 => some start
  | k + 1 => (advances interval start k).bind (advance · interval)

end Dates

end Dates

end ChainSettle
