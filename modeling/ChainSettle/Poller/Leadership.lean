import ChainSettle.Lifecycle.Handlers
import ChainSettle.Poller.Steps

/-!
Who polls. The lock, `isLeader` and the stream handle are three pieces of
state; `Office` relates them for one replica, over every interleaving of
ticks, rewinds, shutdowns and lock operations.

`rewindCursor` on a follower borrows the lock and `isLeader`, restarts the
stream and gives both back without stopping it. The invariant holds as long as
no stream is started on borrowed leadership or during a shutdown.
-/

namespace ChainSettle

open Lib

/-- Redis has granted the lock to the call, and the call has not returned it. -/
def Task.holds : Task → Bool
  | .acquire (some true) | .rewindAcquire _ (some true) => true
  | .rewindRead call | .rewindWrite call _ | .rewindAudit call => call.acquiredHere
  | .rewindRelease _ _ executed => !executed
  | _ => false

def Task.leaving : Task → Bool
  | .destroyRelease _ => true
  | _ => false

/-- What the invariant reads of a task. -/
def Task.flags (task : Task) : Bool × Bool × Bool :=
  (task.holds, task.temporary, task.leaving)

namespace Cluster

variable {ι : Type}

/-- The replica has a running event-stream subscription. -/
def Running (c : Cluster ι) (r : ι) : Prop :=
  (c.replicas r).subscription ≠ none

/-- A rewind has borrowed the leadership and not yet given it back. -/
def Temporary (c : Cluster ι) (r : ι) : Prop :=
  ∃ id task, c.tasks id = some (r, task) ∧ task.temporary = true

/-- Not shutting down, and the leadership is not borrowed. -/
def Settled (c : Cluster ι) (r : ι) : Prop :=
  (c.replicas r).destroyed = false ∧ ¬ c.Temporary r

/-- The replica leads, or a call of it has been granted the lock. -/
def Live (c : Cluster ι) (r : ι) : Prop :=
  (c.replicas r).destroyed = false ∧
    ((c.replicas r).isLeader = true ∨
      ∃ id task, c.tasks id = some (r, task) ∧ task.holds = true)

/-- A live leader's lock does not expire. -/
def LockKept (c : Cluster ι) : Action ι → Prop
  | .expire => ∀ r, c.lock = some r → ¬ c.Live r
  | _ => True

/-- No stream is started during a shutdown or on borrowed leadership, a rewind
restarts the stream only on a leader, and the reply to the release of a
borrowed lock is not lost. -/
def Orderly (c : Cluster ι) : Action ι → Prop
  | .resume id ok => ∀ r task, c.tasks id = some (r, task) →
      match task with
      | .acquire (some true) => ok = true → c.Settled r
      | .rewindWrite _ true => ok = true → (c.replicas r).isLeader = true ∧ c.Settled r
      | .rewindRelease _ _ true => ok = true
      | _ => True
  | _ => True

/-- What relates the lock, the leadership and the stream of one replica. -/
structure Office (c : Cluster ι) (r : ι) : Prop where
  running : c.Running r → (c.replicas r).isLeader = true ∧ c.Settled r
  leading : (c.replicas r).isLeader = true → c.Settled r →
    c.lock = some r ∧ ∀ id task, c.tasks id = some (r, task) → task.holds = false
  holding : (c.replicas r).destroyed = false → ∀ id task, c.tasks id = some (r, task) →
    task.holds = true → c.lock = some r
  unique : (c.replicas r).destroyed = false → ∀ id id' task task',
    c.tasks id = some (r, task) → c.tasks id' = some (r, task') →
      task.holds = true → task'.holds = true → id = id'
  leaving : ∀ id task, c.tasks id = some (r, task) → task.leaving = true →
    (c.replicas r).destroyed = true

section Transport

variable {c c' : Cluster ι} {q r : ι}

/-- The office of a replica depends on its tasks only through their flags, and
tasks without flags may come and go. -/
theorem Office.mono (h : c.Office q)
    (hleader : (c'.replicas q).isLeader = (c.replicas q).isLeader)
    (hdestroyed : (c'.replicas q).destroyed = (c.replicas q).destroyed)
    (hrunning : c'.Running q → (c.replicas q).isLeader = true ∧ c.Settled q)
    (hlock : c.lock = some q → c'.lock = some q)
    (htasks : ∀ id task', c'.tasks id = some (q, task') →
      task'.flags = (false, false, false) ∨
        ∃ task, c.tasks id = some (q, task) ∧ task'.flags = task.flags)
    (htemporary : c.Temporary q → c'.Temporary q) : c'.Office q := by
  have hholds : ∀ id task', c'.tasks id = some (q, task') → task'.holds = true →
      ∃ task, c.tasks id = some (q, task) ∧ task.holds = true := by
    intro id task' htask hflag
    rcases htasks id task' htask with hnone | ⟨task, hold, hflags⟩
    · have hfalse : task'.holds = false := congrArg Prod.fst hnone
      rw [hfalse] at hflag
      cases hflag
    · exact ⟨task, hold, (congrArg Prod.fst hflags).symm.trans hflag⟩
  have hsettled : c'.Settled q ↔ c.Settled q := by
    unfold Settled
    rw [hdestroyed]
    refine and_congr_right fun _ => not_congr ⟨?_, htemporary⟩
    rintro ⟨id, task', htask, hflag⟩
    rcases htasks id task' htask with hnone | ⟨task, hold, hflags⟩
    · have hfalse : task'.temporary = false := congrArg (fun flags => flags.2.1) hnone
      rw [hfalse] at hflag
      cases hflag
    · exact ⟨id, task, hold, (congrArg (fun flags => flags.2.1) hflags).symm.trans hflag⟩
  refine ⟨?_, ?_, ?_, ?_, ?_⟩
  · intro hrun
    rw [hleader, hsettled]
    exact hrunning hrun
  · intro hisLeader hset
    rw [hleader] at hisLeader
    obtain ⟨hheld, hnone⟩ := h.leading hisLeader (hsettled.mp hset)
    refine ⟨hlock hheld, ?_⟩
    intro id task' htask
    cases hflag : task'.holds with
    | false => rfl
    | true =>
        obtain ⟨task, hold, hold'⟩ := hholds id task' htask hflag
        rw [hnone id task hold] at hold'
        cases hold'
  · intro halive id task' htask hflag
    obtain ⟨task, hold, hold'⟩ := hholds id task' htask hflag
    exact hlock (h.holding (hdestroyed ▸ halive) id task hold hold')
  · intro halive id id' task' other' htask hother hflag hflag'
    obtain ⟨task, hold, hold'⟩ := hholds id task' htask hflag
    obtain ⟨other, hold₂, hold₂'⟩ := hholds id' other' hother hflag'
    exact h.unique (hdestroyed ▸ halive) id id' task other hold hold₂ hold' hold₂'
  · intro id task' htask hflag
    rcases htasks id task' htask with hnone | ⟨task, hold, hflags⟩
    · have hfalse : task'.leaving = false := congrArg (fun flags => flags.2.2) hnone
      rw [hfalse] at hflag
      cases hflag
    · rw [hdestroyed]
      exact h.leaving id task hold ((congrArg (fun flags => flags.2.2) hflags).symm.trans hflag)

/-- What leaves a replica, its tasks and its lock alone leaves its office alone. -/
theorem Office.frame (h : c.Office q) (hreplica : c'.replicas q = c.replicas q)
    (hlock : c.lock = some q → c'.lock = some q)
    (htasks : ∀ id task, c'.tasks id = some (q, task) ↔ c.tasks id = some (q, task)) :
    c'.Office q := by
  refine h.mono (by rw [hreplica]) (by rw [hreplica]) ?_ hlock ?_ ?_
  · unfold Running
    rw [hreplica]
    exact h.running
  · intro id task hnew
    exact .inr ⟨task, (htasks id task).mp hnew, rfl⟩
  · rintro ⟨id, task, hold, hflag⟩
    exact ⟨id, task, (htasks id task).mpr hold, hflag⟩

/-- A step of `r` on its own task does not concern another replica. -/
theorem Office.other (h : c.Office q) (hne : q ≠ r) {id : Nat} {old : Task}
    {entry : Option (ι × Task)} (htask : c.tasks id = some (r, old))
    (hreplica : c'.replicas q = c.replicas q) (hlock : c.lock = some q → c'.lock = some q)
    (htasks : c'.tasks = Function.update c.tasks id entry)
    (hentry : ∀ task, entry ≠ some (q, task)) : c'.Office q := by
  refine h.frame hreplica hlock ?_
  intro other task
  rw [htasks]
  by_cases heq : other = id
  · subst heq
    rw [Function.update_self, htask]
    refine ⟨fun hnew => absurd hnew (hentry task), ?_⟩
    intro hold
    cases hold
    exact absurd rfl hne
  · rw [Function.update_of_ne heq]

/-- A task is replaced by one with the same flags. -/
theorem Office.retask (h : c.Office q) {id : Nat} {old new : Task}
    (htask : c.tasks id = some (r, old))
    (htasks : c'.tasks = Function.update c.tasks id (some (r, new)))
    (hflags : new.flags = old.flags)
    (hleader : (c'.replicas q).isLeader = (c.replicas q).isLeader)
    (hdestroyed : (c'.replicas q).destroyed = (c.replicas q).destroyed)
    (hrunning : c'.Running q → (c.replicas q).isLeader = true ∧ c.Settled q)
    (hlock : c.lock = some q → c'.lock = some q) : c'.Office q := by
  refine h.mono hleader hdestroyed hrunning hlock ?_ ?_
  · intro other task hnew
    rw [htasks] at hnew
    by_cases heq : other = id
    · subst heq
      rw [Function.update_self] at hnew
      cases hnew
      exact .inr ⟨old, htask, hflags⟩
    · rw [Function.update_of_ne heq] at hnew
      exact .inr ⟨task, hnew, rfl⟩
  · rintro ⟨other, task, hold, hflag⟩
    by_cases heq : other = id
    · subst heq
      rw [htask] at hold
      cases hold
      have hsame : new.temporary = old.temporary := congrArg (fun flags => flags.2.1) hflags
      exact ⟨other, new, by rw [htasks, Function.update_self], hsame.trans hflag⟩
    · exact ⟨other, task, by rw [htasks, Function.update_of_ne heq]; exact hold, hflag⟩

/-- A task that was not on borrowed leadership ends. -/
theorem Office.ended (h : c.Office q) {id : Nat} {old : Task}
    (htask : c.tasks id = some (r, old)) (htasks : c'.tasks = Function.update c.tasks id none)
    (hkind : old.temporary = false)
    (hleader : (c'.replicas q).isLeader = (c.replicas q).isLeader)
    (hdestroyed : (c'.replicas q).destroyed = (c.replicas q).destroyed)
    (hrunning : c'.Running q → (c.replicas q).isLeader = true ∧ c.Settled q)
    (hlock : c.lock = some q → c'.lock = some q) : c'.Office q := by
  refine h.mono hleader hdestroyed hrunning hlock ?_ ?_
  · intro other task hnew
    rw [htasks] at hnew
    by_cases heq : other = id
    · rw [heq, Function.update_self] at hnew
      cases hnew
    · rw [Function.update_of_ne heq] at hnew
      exact .inr ⟨task, hnew, rfl⟩
  · rintro ⟨other, task, hold, hflag⟩
    have hne : other ≠ id := by
      rintro rfl
      rw [htask] at hold
      cases hold
      rw [hkind] at hflag
      cases hflag
    exact ⟨other, task, by rw [htasks, Function.update_of_ne hne]; exact hold, hflag⟩

/-- A call starts: it has no flags yet. -/
theorem Office.began (h : c.Office q) {new : Task} (hfresh : c.tasks c.nextTask = none)
    (htasks : c'.tasks = Function.update c.tasks c.nextTask (some (r, new)))
    (hflags : new.flags = (false, false, false)) (hreplicas : c'.replicas = c.replicas)
    (hlock : c'.lock = c.lock) : c'.Office q := by
  refine h.mono (by rw [hreplicas]) (by rw [hreplicas]) ?_ (by rw [hlock]; exact fun held => held)
    ?_ ?_
  · unfold Running
    rw [hreplicas]
    exact h.running
  · intro id task hnew
    rw [htasks] at hnew
    by_cases heq : id = c.nextTask
    · subst heq
      rw [Function.update_self] at hnew
      cases hnew
      exact .inl hflags
    · rw [Function.update_of_ne heq] at hnew
      exact .inr ⟨task, hnew, rfl⟩
  · rintro ⟨id, task, hold, hflag⟩
    have hne : id ≠ c.nextTask := by
      rintro rfl
      rw [hfresh] at hold
      cases hold
    exact ⟨id, task, by rw [htasks, Function.update_of_ne hne]; exact hold, hflag⟩

/-- Without leadership and stream, only the granted locks matter. -/
theorem Office.resigned (h : c.Office r) (hleader : (c'.replicas r).isLeader = false)
    (hidle : ¬ c'.Running r) (hdestroyed : (c'.replicas r).destroyed = (c.replicas r).destroyed)
    (htasks : ∀ id task, c'.tasks id = some (r, task) → c.tasks id = some (r, task))
    (hlock : c'.lock = c.lock) : c'.Office r where
  running hrun := absurd hrun hidle
  leading hisLeader := by
    rw [hleader] at hisLeader
    cases hisLeader
  holding halive id task htask hflag := by
    rw [hlock]
    exact h.holding (hdestroyed ▸ halive) id task (htasks id task htask) hflag
  unique halive id id' task task' htask htask' :=
    h.unique (hdestroyed ▸ halive) id id' task task' (htasks id task htask)
      (htasks id' task' htask')
  leaving id task htask hflag := by
    rw [hdestroyed]
    exact h.leaving id task (htasks id task htask) hflag

/-- A replica that is shutting down has no office. -/
theorem Office.destroyed (hdestroyed : (c'.replicas r).destroyed = true)
    (hidle : ¬ c'.Running r) : c'.Office r where
  running hrun := absurd hrun hidle
  leading _ hsettled := by
    rw [hsettled.1] at hdestroyed
    cases hdestroyed
  holding halive := by
    rw [halive] at hdestroyed
    cases hdestroyed
  unique halive := by
    rw [halive] at hdestroyed
    cases hdestroyed
  leaving _ _ _ _ := hdestroyed

end Transport

section Lock

variable {c c' : Cluster ι} {r : ι} {id : Nat} {old new : Task}

/-- A free lock is granted to a call. -/
theorem Office.granted (h : c.Office r) (hfree : c.lock = none)
    (htask : c.tasks id = some (r, old)) (hold : old.temporary = false)
    (htasks : c'.tasks = Function.update c.tasks id (some (r, new)))
    (hnew : new.leaving = false) (hreplicas : c'.replicas = c.replicas)
    (hlock : c'.lock = some r) : c'.Office r := by
  have hback : ∀ other task, other ≠ id → c'.tasks other = some (r, task) →
      c.tasks other = some (r, task) := by
    intro other task hne hother
    rwa [htasks, Function.update_of_ne hne] at hother
  have hnone : (c.replicas r).destroyed = false → ∀ other task, c.tasks other = some (r, task) →
      task.holds = true → False := by
    intro halive other task hother hflag
    have hheld := h.holding halive other task hother hflag
    rw [hfree] at hheld
    cases hheld
  -- nobody can lead without the lock
  have hfollower : (c.replicas r).isLeader = true → ¬ c.Settled r := by
    intro hleader hsettled
    have hheld := (h.leading hleader hsettled).1
    rw [hfree] at hheld
    cases hheld
  refine ⟨?_, ?_, fun _ _ _ _ _ => hlock, ?_, ?_⟩
  · intro hrun
    unfold Running at hrun
    rw [hreplicas] at hrun
    obtain ⟨hleader, hsettled⟩ := h.running hrun
    exact absurd hsettled (hfollower hleader)
  · rintro hleader ⟨halive, hown⟩
    rw [hreplicas] at hleader halive
    refine absurd ⟨halive, ?_⟩ (hfollower hleader)
    rintro ⟨other, task, hother, hflag⟩
    have hne : other ≠ id := by
      rintro rfl
      rw [htask] at hother
      cases hother
      rw [hold] at hflag
      cases hflag
    exact hown ⟨other, task, by rw [htasks, Function.update_of_ne hne]; exact hother, hflag⟩
  · intro halive first second task task' hfirst hsecond hflag hflag'
    rw [hreplicas] at halive
    have hsame : ∀ other task, c'.tasks other = some (r, task) → task.holds = true →
        other = id := by
      intro other task hother hholds
      by_contra hne
      exact hnone halive other task (hback other task hne hother) hholds
    exact (hsame first task hfirst hflag).trans (hsame second task' hsecond hflag').symm
  · intro other task hother hflag
    rw [hreplicas]
    by_cases heq : other = id
    · subst heq
      rw [htasks, Function.update_self] at hother
      cases hother
      rw [hnew] at hflag
      cases hflag
    · exact h.leaving other task (hback other task heq hother) hflag

/-- The only holder ends and leaves the lock to the replica. -/
theorem Office.inherited (h : c.Office r) (htask : c.tasks id = some (r, old))
    (hold : old.holds = true) (htasks : c'.tasks = Function.update c.tasks id none)
    (hdestroyed : (c'.replicas r).destroyed = (c.replicas r).destroyed)
    (hrunning : c'.Running r → (c'.replicas r).isLeader = true ∧ c'.Settled r)
    (hlock : c'.lock = c.lock) : c'.Office r := by
  have hback : ∀ other task, c'.tasks other = some (r, task) →
      other ≠ id ∧ c.tasks other = some (r, task) := by
    intro other task hother
    rw [htasks] at hother
    by_cases heq : other = id
    · rw [heq, Function.update_self] at hother
      cases hother
    · exact ⟨heq, by rwa [Function.update_of_ne heq] at hother⟩
  have hnone : (c.replicas r).destroyed = false → ∀ other task, c'.tasks other = some (r, task) →
      task.holds = false := by
    intro halive other task hother
    obtain ⟨hne, hother'⟩ := hback other task hother
    cases hflag : task.holds with
    | false => rfl
    | true => exact absurd (h.unique halive other id task old hother' htask hflag hold) hne
  refine ⟨hrunning, ?_, ?_, ?_, ?_⟩
  · rintro _ ⟨halive, _⟩
    rw [hdestroyed] at halive
    rw [hlock]
    exact ⟨h.holding halive id old htask hold, hnone halive⟩
  · intro halive other task hother hflag
    rw [hdestroyed] at halive
    rw [hnone halive other task hother] at hflag
    cases hflag
  · intro halive first second task _ hfirst _ hflag
    rw [hdestroyed] at halive
    rw [hnone halive first task hfirst] at hflag
    cases hflag
  · intro other task hother hflag
    rw [hdestroyed]
    exact h.leaving other task (hback other task hother).2 hflag

/-- A call on borrowed leadership: nothing runs, and only what it holds of the
lock matters. -/
theorem Office.borrowed (h : c.Office r) (hidle : ¬ c.Running r)
    (htasks : c'.tasks = Function.update c.tasks id (some (r, new)))
    (htemporary : new.temporary = true) (hleaving : new.leaving = false)
    (hdestroyed : (c'.replicas r).destroyed = (c.replicas r).destroyed)
    (hrunning : c'.Running r → c.Running r)
    (hlock : ∀ other task, c'.tasks other = some (r, task) → task.holds = true →
      (c.replicas r).destroyed = false →
      c'.lock = some r ∧ ∃ task', c.tasks other = some (r, task') ∧ task'.holds = true) :
    c'.Office r := by
  refine ⟨fun hrun => absurd (hrunning hrun) hidle, ?_, ?_, ?_, ?_⟩
  · rintro _ ⟨_, hown⟩
    exact absurd ⟨id, new, by rw [htasks, Function.update_self], htemporary⟩ hown
  · intro halive other task hother hflag
    exact (hlock other task hother hflag (hdestroyed ▸ halive)).1
  · intro halive first second task task' hfirst hsecond hflag hflag'
    have halive' : (c.replicas r).destroyed = false := hdestroyed ▸ halive
    obtain ⟨_, before, hbefore, hholds⟩ := hlock first task hfirst hflag halive'
    obtain ⟨_, before', hbefore', hholds'⟩ := hlock second task' hsecond hflag' halive'
    exact h.unique halive' first second before before' hbefore hbefore' hholds hholds'
  · intro other task hother hflag
    rw [htasks] at hother
    by_cases heq : other = id
    · subst heq
      rw [Function.update_self] at hother
      cases hother
      rw [hleaving] at hflag
      cases hflag
    · rw [Function.update_of_ne heq] at hother
      rw [hdestroyed]
      exact h.leaving other task hother hflag

end Lock

section Steps

variable {c c' : Cluster ι} {q r : ι} {id : Nat} {old : Task}

/-- Borrowed leadership excludes a stream. -/
theorem Office.idle_of_temporary (h : c.Office r) (htask : c.tasks id = some (r, old))
    (hflag : old.temporary = true) : ¬ c.Running r :=
  fun hrun => (h.running hrun).2.2 ⟨id, old, htask, hflag⟩

theorem Office.idle_of_leaving (h : c.Office r) (htask : c.tasks id = some (r, old))
    (hflag : old.leaving = true) : (c.replicas r).destroyed = true ∧ ¬ c.Running r := by
  have hdestroyed := h.leaving id old htask hflag
  refine ⟨hdestroyed, ?_⟩
  intro hrun
  rw [(h.running hrun).2.1] at hdestroyed
  cases hdestroyed

variable [DecidableEq ι]

theorem office_acquire (new : Bool → Task) (h : c.Office q)
    (htask : c.tasks id = some (r, old)) (hold : old.flags = (false, false, false))
    (hrefused : (new false).flags = (false, false, false)) (hnew : (new true).leaving = false) :
    ((c.acquireLock r).setTask id r (new (c.lock = none))).Office q := by
  rw [acquireLock_eq]
  by_cases hfree : c.lock = none
  · by_cases hq : q = r
    · subst hq
      refine h.granted hfree htask (congrArg (fun flags => flags.2.1) hold) rfl ?_ rfl ?_
      · simpa [hfree] using hnew
      · simp [setTask, hfree]
    · refine h.other hq htask rfl ?_ rfl (by simp [Ne.symm hq])
      intro hheld
      rw [hfree] at hheld
      cases hheld
  · refine h.retask htask rfl ?_ rfl rfl h.running ?_
    · simp [hfree, hrefused, hold]
    · simp [setTask, hfree]

theorem office_release_other (h : c.Office q) (hq : q ≠ r) (htask : c.tasks id = some (r, old))
    (new : Task) : ((c.releaseLock r).setTask id r new).Office q := by
  rw [releaseLock_eq]
  refine h.other hq htask rfl ?_ rfl (by simp [Ne.symm hq])
  intro hheld
  have hne : c.lock ≠ some r := by simp [hheld, hq]
  simpa [setTask, hne] using hheld

theorem office_redis (h : ∀ q, c.Office q) (hredis : c.redis id = some c') : c'.Office q := by
  unfold redis at hredis
  split at hredis
  · rename_i r htask
    cases hredis
    exact (h q).retask htask rfl rfl rfl rfl (h q).running fun hheld => hheld
  · rename_i r htask
    cases hredis
    exact office_acquire (fun reply => .acquire (some reply)) (h q) htask rfl rfl rfl
  · rename_i r call htask
    cases hredis
    exact office_acquire (fun reply => .rewindAcquire call (some reply)) (h q) htask rfl rfl rfl
  · rename_i r call succeeded htask
    cases hredis
    by_cases hq : q = r
    · subst hq
      rw [releaseLock_eq]
      have hidle := (h q).idle_of_temporary htask rfl
      refine (h q).borrowed hidle rfl rfl rfl rfl (fun hrun => hrun) ?_
      -- the released lock was held by this call only
      intro other task hother hflag halive
      by_cases heq : other = id
      · subst heq
        simp only [setTask, Function.update_self, Option.some.injEq, Prod.mk.injEq] at hother
        rw [← hother.2] at hflag
        cases hflag
      · have hother' : c.tasks other = some (q, task) := by
          simpa [setTask, heq] using hother
        exact absurd ((h q).unique halive other id task _ hother' htask hflag rfl) heq
    · exact office_release_other (h q) hq htask _
  · rename_i r htask
    cases hredis
    by_cases hq : q = r
    · subst hq
      rw [releaseLock_eq]
      obtain ⟨hdestroyed, hidle⟩ := (h q).idle_of_leaving htask rfl
      exact .destroyed hdestroyed hidle
    · exact office_release_other (h q) hq htask _
  · cases hredis

/-- No continuation touches the lock, and it is only about its own replica. -/
theorem office_resumed_other {task : Task} {ok : Bool} (h : c.Office q) (hq : q ≠ r)
    (htask : c.tasks id = some (r, task)) (hresumed : Resumed c id r task ok c') :
    c'.Office q := by
  have hset : ∀ isLeader, (c.setLeader r isLeader).replicas q = c.replicas q := by
    intro isLeader
    simp [setLeader, setReplica, hq]
  cases hresumed with
  | ended => exact h.other hq htask rfl (fun hheld => hheld) rfl (by rintro _ ⟨⟩)
  | steppedDown =>
      refine h.other hq htask ?_ (fun hheld => hheld) rfl (by rintro _ ⟨⟩)
      simp [endTask, setLeader, stopStreamSubscription, setReplica, hq]
  | elected =>
      refine h.other hq htask ?_ (fun hheld => hheld) rfl (by rintro _ ⟨⟩)
      simp [endTask, setLeader, startStreamSubscription, setReplica, hq]
  | rewindElected call =>
      exact h.other hq htask (hset true) (fun hheld => hheld) rfl (by simp [Ne.symm hq])
  | rewindPlanned call previousLedger =>
      exact h.other hq htask rfl (fun hheld => hheld) rfl (by simp [Ne.symm hq])
  | rewindRestarted call =>
      refine h.other hq htask ?_ (fun hheld => hheld) rfl (by simp [Ne.symm hq])
      simp [setTask, setLast, startStreamSubscription, setReplica, hq]
  | @rewindFinished _ call _ succeeded hkind =>
      unfold finishRewind
      split
      · exact h.other hq htask rfl (fun hheld => hheld) rfl (by simp [Ne.symm hq])
      · cases succeeded <;> exact h.other hq htask rfl (fun hheld => hheld) rfl (by rintro _ ⟨⟩)
  | rewindReleased call succeeded =>
      cases succeeded <;> exact h.other hq htask (hset false) (fun hheld => hheld) rfl (by rintro _ ⟨⟩)
  | releaseFailed => exact h.other hq htask rfl (fun hheld => hheld) rfl (by rintro _ ⟨⟩)
  | destroyReleased => exact h.other hq htask (hset false) (fun hheld => hheld) rfl (by rintro _ ⟨⟩)

theorem office_resumed {task : Task} {ok : Bool} (h : c.Office r)
    (htask : c.tasks id = some (r, task)) (horderly : c.Orderly (.resume id ok))
    (hresumed : Resumed c id r task ok c') : c'.Office r := by
  have hsubset : ∀ other task', Function.update c.tasks id none other = some (r, task') →
      c.tasks other = some (r, task') := by
    intro other task' hother
    by_cases heq : other = id
    · rw [heq, Function.update_self] at hother
      cases hother
    · rwa [Function.update_of_ne heq] at hother
  cases hresumed with
  | ended hkind => exact h.ended htask rfl hkind rfl rfl h.running fun hheld => hheld
  | steppedDown =>
      refine h.resigned ?_ ?_ ?_ hsubset rfl
      · simp [endTask, setLeader, setReplica]
      · simp [Running, endTask, setLeader, stopStreamSubscription, setReplica]
      · simp [endTask, setLeader, stopStreamSubscription, setReplica]
  | elected =>
      have hsettled : c.Settled r := horderly r _ htask rfl
      refine h.inherited htask rfl rfl ?_ ?_ rfl
      · simp [endTask, setLeader, startStreamSubscription, setReplica]
      · intro _
        refine ⟨by simp [endTask, setLeader, startStreamSubscription, setReplica], ?_, ?_⟩
        · simpa [endTask, setLeader, startStreamSubscription, setReplica] using hsettled.1
        · rintro ⟨other, task', hother, hflag⟩
          exact hsettled.2 ⟨other, task', hsubset other task' hother, hflag⟩
  | rewindElected call =>
      have hidle : ¬ c.Running r := by
        intro hrun
        obtain ⟨hleader, hsettled⟩ := h.running hrun
        have hnone := (h.leading hleader hsettled).2 id _ htask
        cases hnone
      refine h.borrowed hidle rfl rfl rfl ?_ ?_ ?_
      · simp [setTask, setLeader, setReplica]
      · simp [Running, setTask, setLeader, setReplica]
      · intro other task' hother hflag halive
        refine ⟨h.holding halive id _ htask rfl, ?_⟩
        by_cases heq : other = id
        · subst heq
          exact ⟨_, htask, rfl⟩
        · exact ⟨task', by simpa [setTask, setLeader, setReplica, heq] using hother, hflag⟩
  | rewindPlanned call previousLedger =>
      exact h.retask htask rfl rfl rfl rfl h.running fun hheld => hheld
  | rewindRestarted call =>
      have hleader := horderly r _ htask rfl
      refine h.retask htask rfl rfl ?_ ?_ (fun _ => hleader) fun hheld => hheld
      · simp [setTask, setLast, startStreamSubscription, setReplica]
      · simp [setTask, setLast, startStreamSubscription, setReplica]
  | @rewindFinished _ call _ succeeded hkind =>
      unfold finishRewind
      split
      · rename_i hborrowed
        refine h.retask htask rfl ?_ rfl rfl h.running fun hheld => hheld
        cases hkind <;> simp [Task.flags, Task.holds, Task.temporary, Task.leaving, hborrowed]
      · rename_i hborrowed
        have hnone : task.temporary = false := by
          cases hkind <;> simpa [Task.temporary] using hborrowed
        cases succeeded <;>
          exact h.ended htask rfl hnone rfl rfl h.running fun hheld => hheld
  | rewindReleased call succeeded =>
      have hidle := h.idle_of_temporary htask rfl
      have hfields : ((c.setLeader r false).replicas r).isLeader = false ∧
          ((c.setLeader r false).Running r ↔ c.Running r) ∧
          ((c.setLeader r false).replicas r).destroyed = (c.replicas r).destroyed := by
        simp [Running, setLeader, setReplica]
      cases succeeded <;>
        exact h.resigned hfields.1 (fun hrun => hidle (hfields.2.1.mp hrun)) hfields.2.2 hsubset rfl
  | releaseFailed call succeeded executed =>
      cases executed with
      | false =>
          have hidle := h.idle_of_temporary htask rfl
          exact h.inherited htask rfl rfl rfl (fun hrun => absurd hrun hidle) rfl
      | true => cases horderly r _ htask
  | destroyReleased =>
      obtain ⟨hdestroyed, hidle⟩ := h.idle_of_leaving htask rfl
      refine .destroyed ?_ ?_
      · simpa [endTask, setLeader, setReplica] using hdestroyed
      · simpa [Running, endTask, setLeader, setReplica] using hidle

/-- A polling loop changes nothing here but the in-memory cursor. -/
theorem office_streamed {log : ContractLog} {sid : Nat} {s : Stream ι} {input : StreamInput}
    (h : c.Office q) (hstreamed : Streamed log c sid s input c') : c'.Office q := by
  have hsame : ∀ d : Cluster ι, d.lock = c.lock → d.tasks = c.tasks →
      (d.replicas q).isLeader = (c.replicas q).isLeader →
      (d.replicas q).destroyed = (c.replicas q).destroyed →
      (d.replicas q).subscription = (c.replicas q).subscription → d.Office q := by
    intro d hlock htasks hleader hdestroyed hsubscription
    refine h.mono hleader hdestroyed ?_ (by rw [hlock]; exact fun hheld => hheld) ?_ ?_
    · unfold Running
      rw [hsubscription]
      exact h.running
    · intro id task htask
      exact .inr ⟨task, by rwa [htasks] at htask, rfl⟩
    · unfold Temporary
      rw [htasks]
      exact fun htemporary => htemporary
  have hadvance : ∀ (d : Cluster ι) (event : RawEvent), d.lock = c.lock → d.tasks = c.tasks →
      d.replicas = c.replicas → (d.advance sid s event).Office q := by
    intro d event hlock htasks hreplicas
    refine hsame _ hlock htasks ?_ ?_ ?_ <;>
      by_cases hq : q = s.owner <;>
        simp [advance, setStream, setLast, setReplica, hreplicas, hq]
  cases hstreamed with
  | fetched => exact hsame _ rfl rfl rfl rfl rfl
  | delivered => exact hsame _ rfl rfl rfl rfl rfl
  | handled => exact hadvance _ _ rfl rfl rfl
  | failed => exact hsame _ rfl rfl rfl rfl rfl
  | stored => exact hadvance _ _ rfl rfl rfl
  | persisted => exact hsame _ rfl rfl rfl rfl rfl
  | finished => exact hsame _ rfl rfl rfl rfl rfl

theorem office_booted {ledger : Nat} {cursor : Option Nat} (hwf : c.WellFormed)
    (h : c.Office q) (hnew : (c.replicas r).booted = false) :
    ({ c.setReplica r (fun _ =>
        { Replica.fresh with booted := true, lastProcessedLedger := ledger }) with
      cursor := cursor } : Cluster ι).Office q := by
  by_cases hq : q = r
  · subst hq
    -- a process that is not yet running has no calls
    have hnone : ∀ id task, c.tasks id ≠ some (q, task) := by
      intro id task htask
      have halive := hwf.caller id q task htask
      simp [alive, hnew] at halive
    refine ⟨?_, ?_, ?_, ?_, ?_⟩
    · simp [Running, setReplica, Replica.fresh]
    · simp [setReplica, Replica.fresh]
    · exact fun _ id task htask => absurd htask (hnone id task)
    · exact fun _ id _ task _ htask => absurd htask (hnone id task)
    · exact fun id task htask => absurd htask (hnone id task)
  · refine h.frame ?_ (fun hheld => hheld) fun _ _ => Iff.rfl
    simp [setReplica, hq]

theorem office_crash (h : c.Office q) : (c.crash r).Office q := by
  by_cases hq : q = r
  · subst hq
    refine h.resigned ?_ ?_ ?_ ?_ rfl
    · simp [crash, setReplica]
    · simp [Running, crash, setReplica]
    · simp [crash, setReplica]
    · simp [crash, Option.filter_eq_some_iff]
  · refine h.frame ?_ (fun hheld => hheld) ?_
    · simp [crash, setReplica, hq]
    · simp [crash, Option.filter_eq_some_iff, hq]

theorem office_destroy (hwf : c.WellFormed) (h : c.Office q) : (c.destroy r).Office q := by
  unfold destroy
  dsimp only
  by_cases hq : q = r
  · subst hq
    split
    · refine .destroyed ?_ ?_
      · simp [newTask, setReplica]
      · simp [Running, newTask, setReplica]
    · refine .destroyed ?_ ?_
      · simp [setReplica]
      · simp [Running, setReplica]
  · split
    · refine h.frame ?_ (fun hheld => hheld) ?_
      · simp [newTask, setReplica, hq]
      · intro id task
        by_cases heq : id = c.nextTask
        · subst heq
          simp [newTask, setReplica, hwf.taskFresh, Ne.symm hq]
        · simp [newTask, setReplica, heq]
    · refine h.frame ?_ (fun hheld => hheld) fun _ _ => Iff.rfl
      simp [setReplica, hq]

/-- What the lock, the leadership and the stream are to each other is kept by
every orderly step. -/
theorem office_step {log : ContractLog} {a : Action ι} (hwf : c.WellFormed)
    (h : ∀ q, c.Office q) (hkept : c.LockKept a) (horderly : c.Orderly a)
    (hstep : c.step log a = some c') (q : ι) : c'.Office q := by
  cases step_cases hstep with
  | booted ledger cursor hnew => exact office_booted hwf (h q) hnew
  | crashed r => exact office_crash (h q)
  | expired =>
      refine ⟨(h q).running, ?_, ?_, (h q).unique, (h q).leaving⟩
      · intro hleader hsettled
        exact absurd ⟨hsettled.1, .inl hleader⟩ (hkept q ((h q).leading hleader hsettled).1)
      · intro halive id task htask hflag
        exact absurd ⟨halive, .inr ⟨id, task, htask, hflag⟩⟩
          (hkept q ((h q).holding halive id task htask hflag))
  | began halive hfresh =>
      refine (h q).began (hwf.taskFresh _ (Nat.le_refl _)) rfl ?_ rfl rfl
      cases hfresh with
      | rewindRead hborrowed =>
          simp [Task.flags, Task.holds, Task.temporary, Task.leaving, hborrowed]
      | _ => rfl
  | destroyed => exact office_destroy hwf (h q)
  | answered hredis => exact office_redis h hredis
  | upserted htask =>
      exact (h q).retask htask rfl rfl rfl rfl (h q).running fun hheld => hheld
  | @resumed id ok r task _ htask hresumed =>
      by_cases hq : q = r
      · subst hq
        exact office_resumed (h q) htask horderly hresumed
      · exact office_resumed_other (h q) hq htask hresumed
  | streamed _ hstreamed => exact office_streamed (h q) hstreamed

omit [DecidableEq ι] in
theorem office_initial (db : Db) (cursor : Option Nat) (r : ι) :
    (initial db cursor : Cluster ι).Office r := by
  refine ⟨?_, ?_, ?_, ?_, ?_⟩
  · simp [Running, initial, Replica.fresh]
  · simp [initial, Replica.fresh]
  · simp [initial]
  · simp [initial]
  · simp [initial]

end Steps

end Cluster

section Result

variable {ι : Type} [DecidableEq ι]

/-- In every orderly run a replica with a running subscription holds the lock;
hence at most one has. -/
theorem single_active_poller (log : ContractLog) (db : Db) (cursor : Option Nat)
    (c : Cluster ι)
    (hrun : StepsAlong (Cluster.step log) (fun t a => t.LockKept a ∧ t.Orderly a)
      (Cluster.initial db cursor) c) :
    (∀ r, c.Running r → c.lock = some r) ∧
      ∀ r q, c.Running r → c.Running q → r = q := by
  have hpreserved : ∀ (t : Cluster ι) (a : Action ι) (u : Cluster ι),
      t.LockKept a ∧ t.Orderly a → t.step log a = some u →
      (t.WellFormed ∧ ∀ r, t.Office r) → u.WellFormed ∧ ∀ r, u.Office r := by
    rintro t a u ⟨hkept, horderly⟩ hstep ⟨hwf, hoffice⟩
    exact ⟨Cluster.wellFormed_step hstep hwf,
      Cluster.office_step hwf hoffice hkept horderly hstep⟩
  have hinv := hrun.invariant hpreserved
    ⟨Cluster.wellFormed_initial db cursor, Cluster.office_initial db cursor⟩
  have hholds : ∀ r, c.Running r → c.lock = some r := by
    intro r hrunning
    obtain ⟨hleader, hsettled⟩ := (hinv.2 r).running hrunning
    exact ((hinv.2 r).leading hleader hsettled).1
  refine ⟨hholds, ?_⟩
  intro r q hr hq
  exact Option.some.inj ((hholds r hr).symm.trans (hholds q hq))

end Result

def idleLog : ContractLog := ⟨[], .nil⟩

/-- The first replica of a deployment is elected and polls. -/
theorem elected_replica_polls :
    ∃ c : Cluster Nat,
      StepsAlong (Cluster.step idleLog) (fun t a => t.LockKept a ∧ t.Orderly a)
        (Cluster.initial (Db.demo .pending) (some 50)) c ∧
      c.Running 0 ∧ c.lock = some 0 ∧ ∀ r, c.Running r → r = 0 := by
  obtain ⟨t, ht, horderly, c, hc, hrunning⟩ : ∃ t : Cluster Nat,
      [Action.boot 0 .resumed, .tick 0, .redis 0].foldlM (Cluster.step idleLog)
        (Cluster.initial (Db.demo .pending) (some 50)) = some t ∧
      t.Orderly (.resume 0 true) ∧
      ∃ c, t.step idleLog (.resume 0 true) = some c ∧ c.Running 0 := by
    refine ⟨_, rfl, ?_, _, rfl, nofun⟩
    intro r task htask
    cases htask
    refine fun _ => ⟨rfl, ?_⟩
    rintro ⟨id, task, htask, hflag⟩
    cases id with
    | zero =>
        cases htask
        cases hflag
    | succ id => cases htask
  have hkept : t.LockKept (.resume 0 true) := trivial
  have hrun : StepsAlong (Cluster.step idleLog) (fun t a => t.LockKept a ∧ t.Orderly a)
      (Cluster.initial (Db.demo .pending) (some 50)) c :=
    .tail (.of_foldlM (by simp [Cluster.LockKept, Cluster.Orderly]) ht) ⟨hkept, horderly⟩ hc
  obtain ⟨hholds, hone⟩ := single_active_poller idleLog _ _ c hrun
  exact ⟨c, hrun, hrunning, hholds 0 hrunning, fun r hr => hone r 0 hr hrunning⟩

/-- An administrator rewinds through a follower. The rewind restarts the stream,
returns the lock and leaves the stream running; another replica is elected and
both poll. -/
theorem follower_rewind_leaves_two_pollers :
    ∃ c : Cluster Nat,
      StepsAlong (Cluster.step idleLog) Cluster.LockKept
        (Cluster.initial (Db.demo .pending) (some 50)) c ∧
      c.Running 0 ∧ c.Running 1 ∧ c.lock = some 1 := by
  obtain ⟨c, hc, hfinal⟩ : ∃ c : Cluster Nat,
      [Action.boot 0 .resumed, .boot 1 .resumed, .rewind 0 40 60 10, .redis 0, .resume 0 true,
        .resume 0 true, .database 0, .resume 0 true, .resume 0 true, .redis 0, .resume 0 true,
        .tick 1, .redis 1, .resume 1 true].foldlM (Cluster.step idleLog)
        (Cluster.initial (Db.demo .pending) (some 50)) = some c ∧
      c.Running 0 ∧ c.Running 1 ∧ c.lock = some 1 := ⟨_, rfl, nofun, nofun, rfl⟩
  exact ⟨c, .of_foldlM (by simp [Cluster.LockKept]) hc, hfinal⟩

end ChainSettle
