import ChainSettle.Lib.Numbered
import ChainSettle.Lib.Pool
import ChainSettle.Lib.Table
import ChainSettle.Semantics.Values
import Mathlib.Data.List.Sort

/-!
The nightly removal of read notifications, in batches: a page of ids is read, and then these ids are
deleted. Users read and delete their notifications beside it, and new ones come in. The lock of the
job expires after ten minutes, so here any number of runs overlap.

Nothing is removed that is unread or younger than the retention period. What was read and old when a
run began is gone when it is complete, and a run reads no more batches than the notifications that
were ever created can fill, and one.
-/

namespace ChainSettle

open Lib

section Statements

/-- `BATCH_SIZE` -/
def CLEANUP_BATCH_SIZE : Nat := 5000

structure StoredNotification where
  id : Nat
  userId : String
  read : Bool
  createdAt : Nat
deriving DecidableEq

inductive CleanupEvent where
  /-- the read of a batch, counted from 0 -/
  | read (batch : Nat)
  | complete (totalDeleted : Nat)
deriving DecidableEq

structure CleanupWorld where
  now : Nat
  table : Numbered StoredNotification.id
  runs : Nat
  /-- the latest first -/
  log : List (Nat × CleanupEvent)

/-- A run of the job, with its cutoff and the batches that are done. -/
structure CleanupRun where
  number : Nat
  cutoff : Int
  batches : Nat
  totalDeleted : Nat
deriving DecidableEq

inductive CleanupCall where
  | deleteReadNotifications
  | findMany (run : CleanupRun)
  | deleteMany (run : CleanupRun) (ids : List Nat)
deriving DecidableEq

/-- Whether the statement throws, and the order in which the database finds the rows. -/
structure CleanupInput where
  thrown : Bool
  scan : Scan StoredNotification

/-- The `where` of the query. -/
def StoredNotification.isStale (cutoff : Int) (row : StoredNotification) : Bool :=
  row.read && row.createdAt ≤ cutoff

namespace CleanupWorld

variable (w : CleanupWorld)

def event (number : Nat) (e : CleanupEvent) : CleanupWorld :=
  { w with log := (number, e) :: w.log }

def batch (scan : Scan StoredNotification) (cutoff : Int) : List StoredNotification :=
  ((scan.findMany w.table.rows (StoredNotification.isStale cutoff)).insertionSort fun a b =>
    a.createdAt ≤ b.createdAt).take CLEANUP_BATCH_SIZE

def without (ids : List Nat) : CleanupWorld :=
  { w with table := w.table.filter fun row => row.id ∉ ids }

def findMany (input : CleanupInput) (run : CleanupRun) : CleanupWorld × List CleanupCall :=
  let w := w.event run.number (.read run.batches)
  if input.thrown then (w, [])
  else
    let ids := (w.batch input.scan run.cutoff).map StoredNotification.id
    if ids.length = 0 then (w.event run.number (.complete run.totalDeleted), [])
    else (w, [.deleteMany run ids])

end CleanupWorld

/-- `days` is `NOTIFICATION_RETENTION_DAYS`. -/
def CleanupCall.resume (days : Nat) (input : CleanupInput) (w : CleanupWorld) :
    CleanupCall → CleanupWorld × List CleanupCall
  | .deleteReadNotifications =>
      let run : CleanupRun := ⟨w.runs, w.now - days * dayLength, 0, 0⟩
      { w with runs := w.runs + 1 }.findMany input run
  | .findMany run => w.findMany input run
  | .deleteMany run ids =>
      if input.thrown then (w, [])
      else
        let count := w.table.rows.length - (w.without ids).table.rows.length
        let run := { run with totalDeleted := run.totalDeleted + count }
        if ids.length < CLEANUP_BATCH_SIZE then
          ((w.without ids).event run.number (.complete run.totalDeleted), [])
        else (w.without ids, [.findMany { run with batches := run.batches + 1 }])

/-- What users do, one by one or all at once, and the time. A notification that is read stays so. -/
inductive NotificationEdit where
  | create (userId : String)
  | markRead (userId : String) (ids : List Nat)
  | deleteAllRead (userId : String)
  | elapse (ms : Nat)
deriving DecidableEq

def StoredNotification.markRead (userId : String) (ids : List Nat) (row : StoredNotification) :
    StoredNotification :=
  if row.userId = userId ∧ row.id ∈ ids then { row with read := true } else row

theorem id_markRead (userId : String) (ids : List Nat) (row : StoredNotification) :
    (row.markRead userId ids).id = row.id := by
  unfold StoredNotification.markRead
  split <;> rfl

def NotificationEdit.apply (w : CleanupWorld) : NotificationEdit → CleanupWorld
  | .create userId => { w with table := w.table.insert ⟨w.table.created, userId, false, w.now⟩ rfl }
  | .markRead userId ids =>
      { w with
        table := w.table.modify (StoredNotification.markRead userId ids) (id_markRead userId ids) }
  | .deleteAllRead userId =>
      { w with table := w.table.filter fun row => ¬ (row.userId = userId ∧ row.read) }
  | .elapse ms => { w with now := w.now + ms }

def cleanups (days : Nat) : PoolSystem CleanupWorld CleanupCall CleanupInput NotificationEdit where
  starts call := call = .deleteReadNotifications
  resume input w call := call.resume days input w
  external edit w := edit.apply w

abbrev CleanupPool := Pool CleanupWorld CleanupCall

abbrev CleanupAction := PoolAction CleanupCall CleanupInput NotificationEdit

def noNotifications (now : Nat) : CleanupPool := ⟨⟨now, .empty, 0, []⟩, []⟩

end Statements

section Batches

variable {w : CleanupWorld} {scan : Scan StoredNotification} {cutoff : Int}
  {row : StoredNotification}

theorem stale_of_mem_batch (h : row ∈ w.batch scan cutoff) :
    row ∈ w.table.rows ∧ row.isStale cutoff :=
  Scan.mem_findMany.mp ((List.perm_insertionSort _ _).mem_iff.mp (List.mem_of_mem_take h))

/-- A batch that is not full has everything. -/
theorem mem_batch_of_stale (hrow : row ∈ w.table.rows) (hstale : row.isStale cutoff)
    (hshort : (w.batch scan cutoff).length < CLEANUP_BATCH_SIZE) : row ∈ w.batch scan cutoff := by
  have hall : w.batch scan cutoff =
      (scan.findMany w.table.rows (StoredNotification.isStale cutoff)).insertionSort fun a b =>
        a.createdAt ≤ b.createdAt := by
    refine List.take_of_length_le ?_
    rw [CleanupWorld.batch, List.length_take] at hshort
    omega
  rw [hall]
  exact (List.perm_insertionSort _ _).mem_iff.mpr (Scan.mem_findMany.mpr ⟨hrow, hstale⟩)

theorem length_batch (w : CleanupWorld) (scan : Scan StoredNotification) (cutoff : Int) :
    (w.batch scan cutoff).length =
      min CLEANUP_BATCH_SIZE (w.table.rows.filter (StoredNotification.isStale cutoff)).length := by
  rw [CleanupWorld.batch, List.length_take, List.length_insertionSort, Scan.findMany,
    (scan.perm _).length_eq]

/-- Everything that reading a batch can do. -/
theorem findMany_cases (w : CleanupWorld) (input : CleanupInput) (run : CleanupRun) :
    let reading := w.event run.number (.read run.batches)
    w.findMany input run = (reading, []) ∨
    (w.batch input.scan run.cutoff = [] ∧
      w.findMany input run = (reading.event run.number (.complete run.totalDeleted), [])) ∨
    ∃ ids, ids = (w.batch input.scan run.cutoff).map StoredNotification.id ∧
      w.findMany input run = (reading, [.deleteMany run ids]) := by
  intro reading
  unfold CleanupWorld.findMany
  by_cases hthrown : input.thrown
  · exact .inl (if_pos hthrown)
  dsimp only
  rw [if_neg hthrown]
  by_cases hnone : ((w.batch input.scan run.cutoff).map StoredNotification.id).length = 0
  · refine .inr (.inl ⟨?_, if_pos hnone⟩)
    rw [List.length_map] at hnone
    exact List.length_eq_zero_iff.mp hnone
  · exact .inr (.inr ⟨_, rfl, if_neg hnone⟩)

/-- Everything that a deletion can do. -/
theorem deleteMany_cases (days : Nat) (input : CleanupInput) (w : CleanupWorld) (run : CleanupRun)
    (ids : List Nat) :
    let next := (CleanupCall.deleteMany run ids).resume days input w
    next = (w, []) ∨ ∃ total,
      (ids.length < CLEANUP_BATCH_SIZE ∧
        next = ((w.without ids).event run.number (.complete total), [])) ∨
      (CLEANUP_BATCH_SIZE ≤ ids.length ∧
        next = (w.without ids,
          [.findMany ⟨run.number, run.cutoff, run.batches + 1, total⟩])) := by
  intro next
  by_cases hthrown : input.thrown
  · exact .inl (if_pos hthrown)
  refine .inr
    ⟨run.totalDeleted + (w.table.rows.length - (w.without ids).table.rows.length), ?_⟩
  have hnext : next = _ := if_neg hthrown
  by_cases hshort : ids.length < CLEANUP_BATCH_SIZE
  · exact .inl ⟨hshort, hnext.trans (if_pos hshort)⟩
  · exact .inr ⟨Nat.le_of_not_lt hshort, hnext.trans (if_neg hshort)⟩

end Batches

section Rows

/-- What can become of a row that stays. -/
def ReadsOn (row row' : StoredNotification) : Prop :=
  row.createdAt = row'.createdAt ∧ (row.read → row'.read)

theorem ReadsOn.refl (row : StoredNotification) : ReadsOn row row := ⟨rfl, id⟩

theorem ReadsOn.stale {cutoff : Int} (row row' : StoredNotification) (h : ReadsOn row row')
    (hstale : row.isStale cutoff) : row'.isStale cutoff := by
  rw [StoredNotification.isStale, Bool.and_eq_true, decide_eq_true_eq] at hstale ⊢
  exact ⟨h.2 hstale.1, h.1 ▸ hstale.2⟩

/-- How the world goes on: no row is changed but that it is read. -/
structure CleanupGoesOn (w w' : CleanupWorld) : Prop where
  now : w.now ≤ w'.now
  runs : w.runs ≤ w'.runs
  table : w.table.GoesOn ReadsOn w'.table

variable {w w' : CleanupWorld}

theorem goesOn_without (w : CleanupWorld) (ids : List Nat) : CleanupGoesOn w (w.without ids) :=
  ⟨Nat.le_refl _, Nat.le_refl _, .filter ReadsOn.refl _⟩

/-- What holds of the ids of rows that were given out. -/
theorem CleanupGoesOn.given (h : CleanupGoesOn w w') {due Q : Nat → Prop}
    (hgiven : ∀ i, due i → i < w.table.created)
    (hrows : ∀ row ∈ w.table.rows, due row.id → Q row.id) :
    ∀ row ∈ w'.table.rows, due row.id → Q row.id := by
  intro row hrow hdue
  rcases h.table.rows row hrow with hnew | ⟨old, hold, hsame, -⟩
  · exact absurd (hgiven row.id hdue) (Nat.not_lt.mpr hnew)
  · exact hsame ▸ hrows old hold (hsame ▸ hdue)

theorem findMany_same (w : CleanupWorld) (input : CleanupInput) (run : CleanupRun) :
    (w.findMany input run).1.table = w.table ∧ (w.findMany input run).1.now = w.now ∧
      (w.findMany input run).1.runs = w.runs := by
  rcases findMany_cases w input run with h | ⟨-, h⟩ | ⟨ids, -, h⟩ <;> rw [h] <;>
    exact ⟨rfl, rfl, rfl⟩

theorem goesOn_findMany (w : CleanupWorld) (input : CleanupInput) (run : CleanupRun) :
    CleanupGoesOn w (w.findMany input run).1 := by
  obtain ⟨htable, hnow, hruns⟩ := findMany_same w input run
  exact ⟨Nat.le_of_eq hnow.symm, Nat.le_of_eq hruns.symm, htable ▸ .refl ReadsOn.refl⟩

theorem goesOn_resume (days : Nat) (input : CleanupInput) (w : CleanupWorld) (call : CleanupCall) :
    CleanupGoesOn w (call.resume days input w).1 := by
  cases call with
  | deleteReadNotifications =>
      have hfound := goesOn_findMany { w with runs := w.runs + 1 } input
        ⟨w.runs, w.now - days * dayLength, 0, 0⟩
      exact ⟨hfound.now, Nat.le_of_succ_le hfound.runs, hfound.table⟩
  | findMany run => exact goesOn_findMany w input run
  | deleteMany run ids =>
      rcases deleteMany_cases days input w run ids with h | ⟨total, ⟨-, h⟩ | ⟨-, h⟩⟩
      · rw [h]
        exact ⟨Nat.le_refl _, Nat.le_refl _, .refl ReadsOn.refl⟩
      · rw [h]
        exact ⟨Nat.le_refl _, Nat.le_refl _, (goesOn_without w ids).table⟩
      · rw [h]
        exact goesOn_without w ids

/-- A row that a statement of the job deletes is one of the batch. -/
theorem mem_of_gone (days : Nat) (input : CleanupInput) {call : CleanupCall}
    {row : StoredNotification} (hrow : row ∈ w.table.rows)
    (hgone : row ∉ (call.resume days input w).1.table.rows) :
    ∃ run ids, call = .deleteMany run ids ∧ row.id ∈ ids := by
  cases call with
  | deleteReadNotifications =>
      refine absurd ?_ hgone
      change row ∈ (CleanupWorld.findMany { w with runs := w.runs + 1 } input _).1.table.rows
      rwa [(findMany_same _ input _).1]
  | findMany run =>
      refine absurd ?_ hgone
      change row ∈ (w.findMany input run).1.table.rows
      rwa [(findMany_same w input run).1]
  | deleteMany run ids =>
      refine ⟨run, ids, rfl, ?_⟩
      by_contra hnot
      have hstays : row ∈ (w.without ids).table.rows :=
        List.mem_filter.mpr ⟨hrow, decide_eq_true hnot⟩
      rcases deleteMany_cases days input w run ids with h | ⟨total, ⟨-, h⟩ | ⟨-, h⟩⟩
      · rw [h] at hgone
        exact hgone hrow
      · rw [h] at hgone
        exact hgone hstays
      · rw [h] at hgone
        exact hgone hstays

theorem goesOn_edit (w : CleanupWorld) (edit : NotificationEdit) :
    CleanupGoesOn w (edit.apply w) := by
  cases edit with
  | create userId => exact ⟨Nat.le_refl _, Nat.le_refl _, .insert ReadsOn.refl rfl⟩
  | markRead userId ids =>
      refine ⟨Nat.le_refl _, Nat.le_refl _, .modify (fun row => ?_) (id_markRead userId ids)⟩
      unfold StoredNotification.markRead
      split
      · exact ⟨rfl, fun _ => rfl⟩
      · exact ReadsOn.refl row
  | deleteAllRead userId => exact ⟨Nat.le_refl _, Nat.le_refl _, .filter ReadsOn.refl _⟩
  | elapse ms => exact ⟨Nat.le_add_right _ _, Nat.le_refl _, .refl ReadsOn.refl⟩

end Rows

section Safety

variable {days : Nat} {w w' : CleanupWorld}

/-- The rows that are about to be deleted were found by the cutoff of their run. -/
def BatchStale (w : CleanupWorld) (cutoff : Int) (ids : List Nat) : Prop :=
  ∀ i ∈ ids, w.table.Known (fun row => row.isStale cutoff) i

/-- The cutoff of a run lies as far back as the retention period, and it deletes what is stale. -/
def WithinRetention (days : Nat) (w : CleanupWorld) : CleanupCall → Prop
  | .deleteReadNotifications => True
  | .findMany run => run.cutoff ≤ w.now - days * dayLength
  | .deleteMany run ids => run.cutoff ≤ w.now - days * dayLength ∧ BatchStale w run.cutoff ids

theorem CleanupGoesOn.cutoff (h : CleanupGoesOn w w') {cutoff : Int}
    (hcutoff : cutoff ≤ w.now - days * dayLength) : cutoff ≤ w'.now - days * dayLength := by
  have hnow := h.now
  omega

theorem WithinRetention.goesOn {call : CleanupCall} (h : WithinRetention days w call)
    (hon : CleanupGoesOn w w') : WithinRetention days w' call := by
  cases call with
  | deleteReadNotifications => trivial
  | findMany run => exact hon.cutoff h
  | deleteMany run ids =>
      exact ⟨hon.cutoff h.1, fun i hi => (h.2 i hi).goesOn hon.table ReadsOn.stale⟩

theorem retains_findMany (input : CleanupInput) {run : CleanupRun}
    (hcutoff : run.cutoff ≤ w.now - days * dayLength) :
    ∀ next ∈ (w.findMany input run).2, WithinRetention days (w.findMany input run).1 next := by
  rcases findMany_cases w input run with h | ⟨-, h⟩ | ⟨ids, rfl, h⟩
  · rw [h]
    exact List.forall_mem_nil _
  · rw [h]
    exact List.forall_mem_nil _
  · rw [h]
    refine List.forall_mem_singleton.mpr ⟨hcutoff, List.forall_mem_map.mpr fun row hrow => ?_⟩
    obtain ⟨hmem, hstale⟩ := stale_of_mem_batch hrow
    exact .of_mem hmem hstale

theorem retains_resume (input : CleanupInput) {call : CleanupCall}
    (hcall : WithinRetention days w call) :
    ∀ next ∈ (call.resume days input w).2,
      WithinRetention days (call.resume days input w).1 next := by
  cases call with
  | deleteReadNotifications =>
      exact retains_findMany (w := { w with runs := w.runs + 1 }) input (Int.le_refl _)
  | findMany run => exact retains_findMany input hcall
  | deleteMany run ids =>
      rcases deleteMany_cases days input w run ids with h | ⟨total, ⟨-, h⟩ | ⟨-, h⟩⟩
      · rw [h]
        exact List.forall_mem_nil _
      · rw [h]
        exact List.forall_mem_nil _
      · rw [h]
        exact List.forall_mem_singleton.mpr hcall.1

end Safety

section Bounds

variable {days : Nat} {w w' : CleanupWorld}

/-- Only runs that have begun write to the log, and the batches they have read before are gone. -/
structure LogAccounted (w : CleanupWorld) : Prop where
  issued : ∀ entry ∈ w.log, entry.1 < w.runs
  read : ∀ number batch, (number, .read batch) ∈ w.log →
    batch * CLEANUP_BATCH_SIZE ≤ w.table.created

def CallAccounted (w : CleanupWorld) : CleanupCall → Prop
  | .deleteReadNotifications => True
  | .findMany run => run.number < w.runs ∧
      run.batches * CLEANUP_BATCH_SIZE + w.table.rows.length ≤ w.table.created
  | .deleteMany run ids => run.number < w.runs ∧
      run.batches * CLEANUP_BATCH_SIZE + ids.length + (w.without ids).table.rows.length ≤
        w.table.created

theorem CleanupGoesOn.length_without (h : CleanupGoesOn w w') (ids : List Nat) :
    (w'.without ids).table.rows.length + w.table.created ≤
      (w.without ids).table.rows.length + w'.table.created := by
  have hcount := h.table.countP_le fun i => i ∉ ids
  rwa [List.countP_eq_length_filter, List.countP_eq_length_filter] at hcount

theorem CallAccounted.goesOn {call : CleanupCall} (h : CallAccounted w call)
    (hon : CleanupGoesOn w w') : CallAccounted w' call := by
  cases call with
  | deleteReadNotifications => trivial
  | findMany run =>
      obtain ⟨hnumber, hpaid⟩ := h
      have hlength := hon.table.length_le
      exact ⟨Nat.lt_of_lt_of_le hnumber hon.runs, by omega⟩
  | deleteMany run ids =>
      obtain ⟨hnumber, hpaid⟩ := h
      have hrest := hon.length_without ids
      exact ⟨Nat.lt_of_lt_of_le hnumber hon.runs, by omega⟩

theorem LogAccounted.goesOn (h : LogAccounted w) (hon : CleanupGoesOn w w')
    (hlog : w'.log = w.log) : LogAccounted w' where
  issued entry hentry := Nat.lt_of_lt_of_le (h.issued entry (hlog ▸ hentry)) hon.runs
  read number batch hread :=
    Nat.le_trans (h.read number batch (hlog ▸ hread)) hon.table.created

theorem LogAccounted.event (h : LogAccounted w) {number : Nat} (hnumber : number < w.runs)
    {e : CleanupEvent} (he : ∀ batch, e = .read batch →
      batch * CLEANUP_BATCH_SIZE ≤ w.table.created) : LogAccounted (w.event number e) where
  issued entry hentry := by
    rcases List.mem_cons.mp hentry with rfl | hentry
    · exact hnumber
    · exact h.issued entry hentry
  read other batch hread := by
    rcases List.mem_cons.mp hread with hsame | hread
    · cases hsame
      exact he batch rfl
    · exact h.read other batch hread

/-- The rows of a batch, and those that are not in it. -/
theorem length_batch_add (w : CleanupWorld) (scan : Scan StoredNotification) (cutoff : Int) :
    let ids := (w.batch scan cutoff).map StoredNotification.id
    ids.length + (w.without ids).table.rows.length ≤ w.table.rows.length := by
  intro ids
  have hnodup : (w.batch scan cutoff).Nodup := by
    refine List.Nodup.sublist (List.take_sublist _ _) ?_
    refine (List.perm_insertionSort _ _).nodup_iff.mpr ?_
    exact (scan.perm _).nodup_iff.mpr (w.table.nodup_rows.filter _)
  have hsub : w.batch scan cutoff ⊆ w.table.rows.filter fun row => row.id ∈ ids := by
    intro row hrow
    exact List.mem_filter.mpr ⟨(stale_of_mem_batch hrow).1,
      decide_eq_true (List.mem_map_of_mem hrow)⟩
  have hle : ids.length ≤ (w.table.rows.filter fun row => row.id ∈ ids).length := by
    rw [List.length_map]
    exact (List.subperm_of_subset hnodup hsub).length_le
  have hsum := List.length_eq_length_filter_add (l := w.table.rows) fun row => decide (row.id ∈ ids)
  have hwithout : (w.without ids).table.rows =
      w.table.rows.filter fun row => !decide (row.id ∈ ids) :=
    List.filter_congr fun row _ => decide_not
  rw [hwithout]
  omega

theorem accounted_findMany (h : LogAccounted w) (input : CleanupInput) {run : CleanupRun}
    (hnumber : run.number < w.runs)
    (hpaid : run.batches * CLEANUP_BATCH_SIZE + w.table.rows.length ≤ w.table.created) :
    LogAccounted (w.findMany input run).1 ∧
      ∀ next ∈ (w.findMany input run).2, CallAccounted (w.findMany input run).1 next := by
  have hreading : LogAccounted (w.event run.number (.read run.batches)) := by
    refine h.event hnumber ?_
    rintro batch ⟨⟩
    omega
  rcases findMany_cases w input run with hnext | ⟨-, hnext⟩ | ⟨ids, rfl, hnext⟩
  · rw [hnext]
    exact ⟨hreading, List.forall_mem_nil _⟩
  · rw [hnext]
    exact ⟨hreading.event hnumber (by rintro batch ⟨⟩), List.forall_mem_nil _⟩
  · rw [hnext]
    have hbatch := length_batch_add w input.scan run.cutoff
    refine ⟨hreading, List.forall_mem_singleton.mpr ⟨hnumber, ?_⟩⟩
    calc
      _ = run.batches * CLEANUP_BATCH_SIZE + (_ + _) := Nat.add_assoc _ _ _
      _ ≤ run.batches * CLEANUP_BATCH_SIZE + w.table.rows.length := Nat.add_le_add_left hbatch _
      _ ≤ w.table.created := hpaid

variable (days) in
theorem accounted_resume (h : LogAccounted w) (input : CleanupInput) {call : CleanupCall}
    (hcall : CallAccounted w call) :
    LogAccounted (call.resume days input w).1 ∧
      ∀ next ∈ (call.resume days input w).2, CallAccounted (call.resume days input w).1 next := by
  cases call with
  | deleteReadNotifications =>
      refine accounted_findMany (w := { w with runs := w.runs + 1 })
        ⟨fun entry hentry => ?_, h.read⟩ input (Nat.lt_succ_self _) ?_
      · exact Nat.lt_succ_of_lt (h.issued entry hentry)
      · rw [Nat.zero_mul, Nat.zero_add]
        exact w.table.length_le_created
  | findMany run => exact accounted_findMany h input hcall.1 hcall.2
  | deleteMany run ids =>
      obtain ⟨hnumber, hpaid⟩ := hcall
      have hafter := h.goesOn (goesOn_without w ids) rfl
      rcases deleteMany_cases days input w run ids with hnext | ⟨total, ⟨-, hnext⟩ | ⟨hfull, hnext⟩⟩
      · rw [hnext]
        exact ⟨h, List.forall_mem_nil _⟩
      · rw [hnext]
        exact ⟨hafter.event hnumber (by rintro batch ⟨⟩), List.forall_mem_nil _⟩
      · rw [hnext]
        refine ⟨hafter, List.forall_mem_singleton.mpr ⟨hnumber, ?_⟩⟩
        change (run.batches + 1) * CLEANUP_BATCH_SIZE + (w.without ids).table.rows.length ≤
          w.table.created
        rw [Nat.succ_mul]
        omega

end Bounds

section Completeness

variable {days : Nat} {number : Nat} {cutoff : Int} {w w' : CleanupWorld}

/-- The run with this number is to delete the rows with the ids `due`, which are stale. -/
structure Sweeping (number : Nat) (cutoff : Int) (due : Nat → Prop) (w : CleanupWorld) : Prop where
  runs : number < w.runs
  stale : ∀ i, due i → w.table.Known (fun row => row.isStale cutoff) i
  complete : ∀ total, (number, .complete total) ∈ w.log → ∀ row ∈ w.table.rows, ¬ due row.id

/-- A batch of that run which is not full has all rows that are due. -/
def SweepCall (number : Nat) (cutoff : Int) (due : Nat → Prop) (w : CleanupWorld) :
    CleanupCall → Prop
  | .deleteReadNotifications => True
  | .findMany run => run.number = number → run.cutoff = cutoff
  | .deleteMany run ids => run.number = number → run.cutoff = cutoff ∧
      (ids.length < CLEANUP_BATCH_SIZE → ∀ row ∈ w.table.rows, due row.id → row.id ∈ ids)

variable {due : Nat → Prop}

theorem Sweeping.given (h : Sweeping number cutoff due w) (i : Nat) (hi : due i) :
    i < w.table.created :=
  (h.stale i hi).given

theorem Sweeping.goesOn (h : Sweeping number cutoff due w) (hon : CleanupGoesOn w w')
    (hlog : ∀ total, (number, .complete total) ∈ w'.log →
      (number, .complete total) ∈ w.log ∨ ∀ row ∈ w'.table.rows, ¬ due row.id) :
    Sweeping number cutoff due w' where
  runs := Nat.lt_of_lt_of_le h.runs hon.runs
  stale i hi := (h.stale i hi).goesOn hon.table ReadsOn.stale
  complete total htotal := by
    rcases hlog total htotal with hbefore | hnone
    · exact hon.given (Q := fun _ => False) h.given (h.complete total hbefore)
    · exact hnone

theorem SweepCall.goesOn {call : CleanupCall} (h : SweepCall number cutoff due w call)
    (hgiven : ∀ i, due i → i < w.table.created) (hon : CleanupGoesOn w w') :
    SweepCall number cutoff due w' call := by
  cases call with
  | deleteReadNotifications => trivial
  | findMany run => exact h
  | deleteMany run ids =>
      intro hnumber
      obtain ⟨hcutoff, hall⟩ := h hnumber
      exact ⟨hcutoff, fun hshort => hon.given (Q := (· ∈ ids)) hgiven (hall hshort)⟩

theorem mem_event {other : Nat} {e : CleanupEvent} {total : Nat}
    (h : (number, .complete total) ∈ (w.event other e).log) :
    (number, .complete total) ∈ w.log ∨ other = number ∧ e = .complete total := by
  rcases List.mem_cons.mp h with hsame | hmem
  · cases hsame
    exact .inr ⟨rfl, rfl⟩
  · exact .inl hmem

theorem complete_before_read {other batch total : Nat}
    (h : (number, .complete total) ∈ (w.event other (.read batch)).log) :
    (number, .complete total) ∈ w.log :=
  (mem_event h).resolve_right (by rintro ⟨-, ⟨⟩⟩)

/-- Reading a batch, which has all rows that are due if it is one of the run with this number. -/
theorem Sweeping.findMany (hsweep : Sweeping number cutoff due w) (input : CleanupInput)
    (run : CleanupRun) (hrun : run.number = number → run.cutoff = cutoff) :
    (∀ total, (number, .complete total) ∈ (w.findMany input run).1.log →
      (number, .complete total) ∈ w.log ∨
        ∀ row ∈ (w.findMany input run).1.table.rows, ¬ due row.id) ∧
    ∀ next ∈ (w.findMany input run).2,
      SweepCall number cutoff due (w.findMany input run).1 next := by
  have hbatch (hnumber : run.number = number)
      (hshort : (w.batch input.scan run.cutoff).length < CLEANUP_BATCH_SIZE) :
      ∀ row ∈ w.table.rows, due row.id → row ∈ w.batch input.scan run.cutoff := by
    intro row hrow hdue
    have hstale := (hsweep.stale row.id hdue).holds row hrow rfl
    exact mem_batch_of_stale hrow (hrun hnumber ▸ hstale) hshort
  rcases findMany_cases w input run with h | ⟨hnone, h⟩ | ⟨ids, rfl, h⟩
  · rw [h]
    exact ⟨fun total htotal => .inl (complete_before_read htotal), List.forall_mem_nil _⟩
  · rw [h]
    refine ⟨fun total htotal => (mem_event htotal).imp complete_before_read ?_,
      List.forall_mem_nil _⟩
    rintro ⟨hnumber, -⟩ row hrow hdue
    have hmem := hbatch hnumber (by rw [hnone]; decide) row hrow hdue
    rw [hnone] at hmem
    cases hmem
  · rw [h]
    refine ⟨fun total htotal => .inl (complete_before_read htotal), ?_⟩
    refine List.forall_mem_singleton.mpr fun hnumber => ⟨hrun hnumber, ?_⟩
    intro hshort row hrow hdue
    rw [List.length_map] at hshort
    exact List.mem_map_of_mem (hbatch hnumber hshort row hrow hdue)

theorem Sweeping.begun (h : Sweeping number cutoff due w) :
    Sweeping number cutoff due { w with runs := w.runs + 1 } :=
  ⟨Nat.lt_succ_of_lt h.runs, h.stale, h.complete⟩

theorem sweep_resume (days : Nat) (input : CleanupInput) {call : CleanupCall}
    (h : Sweeping number cutoff due w) (hcall : SweepCall number cutoff due w call) :
    (∀ total, (number, .complete total) ∈ (call.resume days input w).1.log →
      (number, .complete total) ∈ w.log ∨
        ∀ row ∈ (call.resume days input w).1.table.rows, ¬ due row.id) ∧
    ∀ next ∈ (call.resume days input w).2,
      SweepCall number cutoff due (call.resume days input w).1 next := by
  cases call with
  | deleteReadNotifications =>
      refine h.begun.findMany input _ fun hnumber => ?_
      exact absurd h.runs (Nat.not_lt.mpr (Nat.le_of_eq hnumber))
  | findMany run => exact h.findMany input run hcall
  | deleteMany run ids =>
      rcases deleteMany_cases days input w run ids with hnext | ⟨total, ⟨hshort, hnext⟩ | ⟨-, hnext⟩⟩
      · rw [hnext]
        exact ⟨fun total htotal => .inl htotal, List.forall_mem_nil _⟩
      · rw [hnext]
        refine ⟨fun total htotal => (mem_event htotal).imp_right ?_, List.forall_mem_nil _⟩
        rintro ⟨hnumber, -⟩ row hrow hdue
        obtain ⟨hmem, hnot⟩ := List.mem_filter.mp hrow
        exact of_decide_eq_true hnot ((hcall hnumber).2 hshort row hmem hdue)
      · rw [hnext]
        exact ⟨fun total htotal => .inl htotal,
          List.forall_mem_singleton.mpr fun hnumber => (hcall hnumber).1⟩

end Completeness

section Runs

/-- What is kept along every run of the system. -/
structure CleanupSound (days : Nat) (s : CleanupPool) : Prop where
  accounted : LogAccounted s.shared
  calls : ∀ call ∈ s.inflight, WithinRetention days s.shared call ∧ CallAccounted s.shared call

variable {days : Nat} {s : CleanupPool}

theorem CleanupSound.step (h : CleanupSound days s) (a : CleanupAction) :
    CleanupSound days ((cleanups days).step s a) := by
  suffices hnext : LogAccounted ((cleanups days).step s a).shared ∧
      ∀ call ∈ ((cleanups days).step s a).inflight,
        WithinRetention days ((cleanups days).step s a).shared call ∧
          CallAccounted ((cleanups days).step s a).shared call from ⟨hnext.1, hnext.2⟩
  refine (cleanups days).keeps_step
    (P := fun w call => WithinRetention days w call ∧ CallAccounted w call) a
    h.accounted h.calls ?_ ?_ ?_
  · intro call _ hstart
    obtain rfl : call = .deleteReadNotifications := of_decide_eq_true hstart
    exact ⟨trivial, trivial⟩
  · intro index input call _ hcall
    have hon := goesOn_resume days input s.shared call
    obtain ⟨hretains, hpaid⟩ := h.calls call (List.mem_of_getElem? hcall)
    obtain ⟨hafter, hnext⟩ := accounted_resume days h.accounted input hpaid
    refine ⟨hafter, fun next hmem => ?_, fun other hother => ?_⟩
    · exact ⟨retains_resume input hretains next hmem, hnext next hmem⟩
    · obtain ⟨hold, hpaid⟩ := h.calls other (List.mem_of_mem_eraseIdx hother)
      exact ⟨hold.goesOn hon, hpaid.goesOn hon⟩
  · intro edit
    have hon := goesOn_edit s.shared edit
    have hlog : (edit.apply s.shared).log = s.shared.log := by cases edit <;> rfl
    exact ⟨h.accounted.goesOn hon hlog, fun other hother =>
      ⟨(h.calls other hother).1.goesOn hon, (h.calls other hother).2.goesOn hon⟩⟩

theorem cleanupSound_run (days now : Nat) (actions : List CleanupAction) :
    CleanupSound days ((cleanups days).run actions (noNotifications now)) := by
  refine List.foldlRecOn actions (cleanups days).step ⟨⟨?_, ?_⟩, ?_⟩ fun _ hs a _ => hs.step a
  · exact List.forall_mem_nil _
  · rintro number batch ⟨⟩
  · exact List.forall_mem_nil _

/-- The state of a run, and of the calls that are under way. -/
def SweepState (number : Nat) (cutoff : Int) (due : Nat → Prop) (s : CleanupPool) : Prop :=
  Sweeping number cutoff due s.shared ∧
    ∀ call ∈ s.inflight, SweepCall number cutoff due s.shared call

theorem SweepState.step {number : Nat} {cutoff : Int} {due : Nat → Prop} (a : CleanupAction)
    (h : SweepState number cutoff due s) :
    SweepState number cutoff due ((cleanups days).step s a) := by
  refine (cleanups days).keeps_step a h.1 h.2 ?_ ?_ ?_
  · intro call _ hstart
    obtain rfl : call = .deleteReadNotifications := of_decide_eq_true hstart
    trivial
  · intro index input call _ hcall
    have hon := goesOn_resume days input s.shared call
    obtain ⟨hlog, hnext⟩ := sweep_resume days input h.1 (h.2 call (List.mem_of_getElem? hcall))
    exact ⟨h.1.goesOn hon hlog, hnext, fun other hother =>
      (h.2 other (List.mem_of_mem_eraseIdx hother)).goesOn h.1.given hon⟩
  · intro edit
    have hon := goesOn_edit s.shared edit
    have hlog : (edit.apply s.shared).log = s.shared.log := by cases edit <;> rfl
    exact ⟨h.1.goesOn hon fun total htotal => .inl (hlog ▸ htotal),
      fun other hother => (h.2 other hother).goesOn h.1.given hon⟩

/-- The ids of what has been read and is as old as the retention period. -/
def DueNow (days : Nat) (w : CleanupWorld) (i : Nat) : Prop :=
  ∃ row ∈ w.table.rows, row.id = i ∧ row.isStale (w.now - days * dayLength)

/-- Calls that are under way before a run begins are none of its own. -/
theorem CallAccounted.sweepCall {w w' : CleanupWorld} {call : CleanupCall} {cutoff : Int}
    {due : Nat → Prop} (h : CallAccounted w call) : SweepCall w.runs cutoff due w' call := by
  cases call with
  | deleteReadNotifications => trivial
  | findMany run => exact fun heq => absurd heq (Nat.ne_of_lt h.1)
  | deleteMany run ids => exact fun heq => absurd heq (Nat.ne_of_lt h.1)

/-- A run that has just begun is to delete all rows that are stale now. -/
theorem sweepState_begun (h : CleanupSound days s) {index : Nat} (input : CleanupInput)
    (hcall : s.inflight[index]? = some .deleteReadNotifications) :
    SweepState s.shared.runs (s.shared.now - days * dayLength) (DueNow days s.shared)
      ((cleanups days).step s (.resume index input)) := by
  have hbegun : Sweeping s.shared.runs (s.shared.now - days * dayLength) (DueNow days s.shared)
      { s.shared with runs := s.shared.runs + 1 } := by
    refine ⟨Nat.lt_succ_self _, ?_, fun total htotal => ?_⟩
    · rintro i ⟨row, hrow, rfl, hstale⟩
      exact .of_mem hrow hstale
    · exact absurd (h.accounted.issued _ htotal) (Nat.lt_irrefl _)
  obtain ⟨hlog, hfirst⟩ := hbegun.findMany input
    ⟨s.shared.runs, s.shared.now - days * dayLength, 0, 0⟩ fun _ => rfl
  rw [(cleanups days).step_at input hcall]
  refine ⟨hbegun.goesOn (goesOn_findMany _ input _) hlog, ?_⟩
  refine List.forall_mem_append.mpr ⟨fun call hmem => ?_, List.forall_mem_append.mpr
    ⟨hfirst, fun call hmem => ?_⟩⟩
  · exact (h.calls call (List.mem_of_mem_take hmem)).2.sweepCall
  · exact (h.calls call (List.mem_of_mem_drop hmem)).2.sweepCall

def demoCleanupInput : CleanupInput := ⟨false, ⟨id, fun _ => .refl _⟩⟩

/-- A notification is read, and ninety days later the job begins. -/
def demoStale : List CleanupAction :=
  [.external (.create "u1"), .external (.markRead "u1" [0]), .external (.elapse (90 * dayLength)),
    .begin .deleteReadNotifications]

def demoStaleRow : StoredNotification := ⟨0, "u1", true, 0⟩

/-- A notification that goes has been read. Either its user removes it, or it is as old as the
retention period. -/
theorem cleanup_spares (days now : Nat) (actions : List CleanupAction) (a : CleanupAction)
    (row : StoredNotification) :
    let before := (cleanups days).run actions (noNotifications now)
    row ∈ before.shared.table.rows →
      (∀ row' ∈ ((cleanups days).step before a).shared.table.rows, row'.id ≠ row.id) →
      row.read ∧ (a = .external (.deleteAllRead row.userId) ∨
        row.createdAt + days * dayLength ≤ before.shared.now) := by
  intro before hrow hgone
  rcases (cleanups days).ended_by_step (Q := fun w => ∃ row' ∈ w.table.rows, row'.id = row.id) a
    ⟨row, hrow, rfl⟩ (by simpa using hgone) with
    ⟨index, input, call, -, hcall, hnot⟩ | ⟨edit, rfl, hnot⟩
  · obtain ⟨run, ids, rfl, hid⟩ := mem_of_gone days input hrow fun hmem => hnot ⟨row, hmem, rfl⟩
    have hsound : CleanupSound days before := cleanupSound_run days now actions
    obtain ⟨hcutoff, hbatch⟩ := (hsound.calls _ (List.mem_of_getElem? hcall)).1
    have hstale := (hbatch row.id hid).holds row hrow rfl
    rw [StoredNotification.isStale, Bool.and_eq_true, decide_eq_true_eq] at hstale
    refine ⟨hstale.1, .inr ?_⟩
    have hold := hstale.2
    omega
  · cases edit with
    | create userId => exact absurd ⟨row, List.mem_append_left _ hrow, rfl⟩ hnot
    | markRead userId ids =>
        exact absurd ⟨_, List.mem_map_of_mem hrow, id_markRead userId ids row⟩ hnot
    | deleteAllRead userId =>
        by_cases hdeleted : row.userId = userId ∧ row.read
        · obtain ⟨rfl, hread⟩ := hdeleted
          exact ⟨hread, .inl rfl⟩
        · exact absurd ⟨row, List.mem_filter.mpr ⟨hrow, decide_eq_true hdeleted⟩, rfl⟩ hnot
    | elapse ms => exact absurd ⟨row, hrow, rfl⟩ hnot

theorem demo_row_spared :
    demoStaleRow.read ∧ (PoolAction.resume 0 demoCleanupInput =
        (.external (.deleteAllRead demoStaleRow.userId) : CleanupAction) ∨
      demoStaleRow.createdAt + 90 * dayLength ≤ ((cleanups 90).run
        (demoStale ++ [.resume 0 demoCleanupInput]) (noNotifications 0)).shared.now) :=
  cleanup_spares 90 0 (demoStale ++ [.resume 0 demoCleanupInput]) (.resume 0 demoCleanupInput)
    demoStaleRow (List.mem_singleton.mpr rfl) (List.forall_mem_nil _)

/-- A run reads another batch only if those before it were full of notifications of their own. -/
theorem cleanup_batches_bounded (days now : Nat) (actions : List CleanupAction)
    (number batch : Nat) :
    let last := (cleanups days).run actions (noNotifications now)
    (number, .read batch) ∈ last.shared.log →
      batch * CLEANUP_BATCH_SIZE ≤ last.shared.table.created :=
  (cleanupSound_run days now actions).accounted.read number batch

section FullBatch

variable {days now : Nat} {input : CleanupInput}

theorem read_mem_findMany (w : CleanupWorld) (input : CleanupInput) (run : CleanupRun) :
    (run.number, .read run.batches) ∈ (w.findMany input run).1.log := by
  rcases findMany_cases w input run with h | ⟨-, h⟩ | ⟨ids, -, h⟩
  · rw [h]
    exact List.mem_cons_self
  · rw [h]
    exact List.mem_cons_of_mem _ List.mem_cons_self
  · rw [h]
    exact List.mem_cons_self

theorem step_alone {w w' : CleanupWorld} {call next : CleanupCall}
    (h : call.resume days input w = (w', [next])) :
    (cleanups days).step ⟨w, [call]⟩ (.resume 0 input) = ⟨w', [next]⟩ := by
  have hresume : (cleanups days).resume input w call = (w', [next]) := h
  rw [(cleanups days).step_at input rfl, hresume]
  rfl

/-- A run that finds a full batch, and deletes it, reads the next. -/
theorem second_read {w : CleanupWorld} (hcalm : input.thrown = false)
    (hstale : ∀ row ∈ w.table.rows, row.isStale (w.now - days * dayLength))
    (hfull : CLEANUP_BATCH_SIZE ≤ w.table.rows.length) :
    (w.runs, .read 1) ∈ ((cleanups days).run [.resume 0 input, .resume 0 input, .resume 0 input]
      ⟨w, [.deleteReadNotifications]⟩).shared.log := by
  have hthrown : ¬ input.thrown := Bool.not_eq_true _ ▸ hcalm
  generalize hids : (w.batch input.scan (w.now - days * dayLength)).map StoredNotification.id = ids
  have hlength : ids.length = CLEANUP_BATCH_SIZE := by
    rw [← hids, List.length_map, length_batch, List.filter_eq_self.mpr hstale]
    exact Nat.min_eq_left hfull
  have hsome : ids.length ≠ 0 := by rw [hlength]; decide
  have hfound : (CleanupCall.deleteReadNotifications).resume days input w =
      ({ w with runs := w.runs + 1 }.event w.runs (.read 0),
        [.deleteMany ⟨w.runs, w.now - days * dayLength, 0, 0⟩ ids]) := by
    rw [← hids] at hsome ⊢
    exact (if_neg hthrown).trans (if_neg hsome)
  have hdeleted (w : CleanupWorld) (run : CleanupRun) :
      (CleanupCall.deleteMany run ids).resume days input w =
        (w.without ids, [.findMany ⟨run.number, run.cutoff, run.batches + 1, run.totalDeleted +
          (w.table.rows.length - (w.without ids).table.rows.length)⟩]) :=
    (if_neg hthrown).trans (if_neg (Nat.not_lt.mpr (Nat.le_of_eq hlength.symm)))
  simp only [PoolSystem.run, List.foldl_cons, List.foldl_nil]
  rw [step_alone hfound, step_alone (hdeleted _ _), (cleanups days).step_at input rfl]
  exact read_mem_findMany _ input _

theorem created_run (days now count : Nat) :
    ∃ table : Numbered StoredNotification.id,
      (cleanups days).run (List.replicate count (.external (.create "u1"))) (noNotifications now) =
        ⟨⟨now, table, 0, []⟩, []⟩ ∧
      table.created = count ∧
      table.rows = (List.range count).map fun i => ⟨i, "u1", false, now⟩ := by
  induction count with
  | zero => exact ⟨.empty, rfl, rfl, rfl⟩
  | succ count ih =>
      obtain ⟨table, hrun, hcreated, hrows⟩ := ih
      refine ⟨table.insert ⟨table.created, "u1", false, now⟩ rfl, ?_, congrArg (· + 1) hcreated, ?_⟩
      · rw [List.replicate_succ', PoolSystem.run, List.foldl_append]
        exact congrArg (fun s => (cleanups days).step s (.external (.create "u1"))) hrun
      · rw [List.range_succ, List.map_append, ← hrows]
        exact congrArg (fun i => table.rows ++ [⟨i, "u1", false, now⟩]) hcreated

/-- So many notifications are read, and after the retention period the job runs. -/
def readAndRemoved (days count : Nat) : List CleanupAction :=
  List.replicate count (.external (.create "u1")) ++
    ([.external (.markRead "u1" (List.range count)), .external (.elapse (days * dayLength)),
      .begin .deleteReadNotifications] ++
    [.resume 0 demoCleanupInput, .resume 0 demoCleanupInput, .resume 0 demoCleanupInput])

theorem readAndRemoved_reads (days : Nat) {count : Nat} (hfull : CLEANUP_BATCH_SIZE ≤ count) :
    (0, .read 1) ∈
      ((cleanups days).run (readAndRemoved days count) (noNotifications 0)).shared.log := by
  obtain ⟨table, hrun, -, hrows⟩ := created_run days 0 count
  have hsplit (first second : List CleanupAction) (s : CleanupPool) :
      (cleanups days).run (first ++ second) s =
        (cleanups days).run second ((cleanups days).run first s) := List.foldl_append
  rw [readAndRemoved, hsplit, hrun, hsplit]
  let read := table.modify (StoredNotification.markRead "u1" (List.range count)) (id_markRead _ _)
  have hread : read.rows = (List.range count).map fun i => ⟨i, "u1", true, 0⟩ := by
    refine (congrArg (List.map _) hrows).trans ((List.map_map ..).trans ?_)
    refine List.map_congr_left fun i hi => ?_
    exact if_pos ⟨rfl, hi⟩
  refine second_read (w := ⟨0 + days * dayLength, read, 0, []⟩) rfl (fun row hrow => ?_) ?_
  · rw [hread] at hrow
    obtain ⟨i, -, rfl⟩ := List.mem_map.mp hrow
    simp [StoredNotification.isStale]
  · rw [hread, List.length_map, List.length_range]
    exact hfull

/-- The second batch is read after the first, which was full, is gone. -/
theorem demo_batches_bounded :
    let last := (cleanups 90).run (readAndRemoved 90 CLEANUP_BATCH_SIZE) (noNotifications 0)
    (0, .read 1) ∈ last.shared.log ∧ 1 * CLEANUP_BATCH_SIZE ≤ last.shared.table.created :=
  ⟨readAndRemoved_reads 90 (Nat.le_refl _),
    cleanup_batches_bounded 90 0 _ 0 1 (readAndRemoved_reads 90 (Nat.le_refl _))⟩

end FullBatch

/-- When a run is complete, what was read and as old as the retention period when it began is
gone. -/
theorem cleanup_complete (days now : Nat) (early late : List CleanupAction) (index : Nat)
    (input : CleanupInput) (total : Nat) (row : StoredNotification) :
    let before := (cleanups days).run early (noNotifications now)
    let last := (cleanups days).run (.resume index input :: late) before
    before.inflight[index]? = some .deleteReadNotifications →
      (before.shared.runs, .complete total) ∈ last.shared.log → row ∈ before.shared.table.rows →
      row.read → row.createdAt + days * dayLength ≤ before.shared.now →
      ∀ row' ∈ last.shared.table.rows, row'.id ≠ row.id := by
  intro before last hcall hcomplete hrow hread hold row' hrow' hid
  have hbegun := sweepState_begun (cleanupSound_run days now early) input hcall
  have hlast : SweepState before.shared.runs _ (DueNow days before.shared) last :=
    List.foldlRecOn late (cleanups days).step hbegun fun _ hs a _ => hs.step a
  refine hlast.1.complete total hcomplete row' hrow' ⟨row, hrow, hid.symm, ?_⟩
  rw [StoredNotification.isStale, Bool.and_eq_true, decide_eq_true_eq]
  exact ⟨hread, by omega⟩

theorem demo_cleanup_complete :
    let before := (cleanups 90).run demoStale (noNotifications 0)
    let last := (cleanups 90).run [.resume 0 demoCleanupInput, .resume 0 demoCleanupInput] before
    demoStaleRow ∈ before.shared.table.rows ∧
      ∀ row' ∈ last.shared.table.rows, row'.id ≠ demoStaleRow.id :=
  ⟨List.mem_singleton.mpr rfl, cleanup_complete 90 0 demoStale [.resume 0 demoCleanupInput] 0
    demoCleanupInput 1 demoStaleRow rfl (List.Mem.head _) (List.mem_singleton.mpr rfl) rfl
    (by decide)⟩

end Runs

end ChainSettle
