import ChainSettle.Lib.Pool
import Mathlib.Algebra.Ring.Int.Defs
import Mathlib.Logic.Function.Basic

/-!
The locks in Redis: one key whose value is the token of the client that has it, and that expires
at its deadline. A command and a script are executed at one instant of the server's clock, which
is any time after the call was made.

Who holds the lock. This is read off what the clients were told: a client holds it until the
deadline of the last `acquireLock` or `renewLock` that it got `true` for, if it has not released
it since. The key in Redis agrees with that at every instant, so there is one holder at most, and
late calls of those whose lock expired do nothing.
-/

namespace ChainSettle

open Lib

section Redis

/-- A key with its deadline, in milliseconds on the server's clock. -/
structure RedisEntry where
  value : String
  expiresAt : Int
deriving DecidableEq

inductive RedisReply where
  | ok
  | nil
  | int (n : Int)
  | error
deriving DecidableEq

/-- The last time that a deadline can be. -/
def maxTime : Int := 2 ^ 63 - 1

/-- `get`; a key is gone at its deadline. -/
def redisGet (now : Int) (key : Option RedisEntry) : Option String :=
  (key.filter fun entry => now < entry.expiresAt).map RedisEntry.value

/-- `set key value PX ttlMs NX` -/
def redisSetNx (now : Int) (value : String) (ttlMs : Int) (key : Option RedisEntry) :
    Option RedisEntry × RedisReply :=
  if ttlMs ≤ 0 ∨ maxTime < now + ttlMs then (key, .error)
  else if (redisGet now key).isSome then (key, .nil)
  else (some ⟨value, now + ttlMs⟩, .ok)

def redisDel (now : Int) (key : Option RedisEntry) : Option RedisEntry × RedisReply :=
  if (redisGet now key).isSome then (none, .int 1) else (key, .int 0)

/-- A deadline that is over deletes the key at once. -/
def redisPexpire (now ttlMs : Int) (key : Option RedisEntry) : Option RedisEntry × RedisReply :=
  if ttlMs < -maxTime - 1 ∨ maxTime < now + ttlMs then (key, .error)
  else
    match redisGet now key with
    | none => (key, .int 0)
    | some value =>
        if now + ttlMs ≤ now then (none, .int 1) else (some ⟨value, now + ttlMs⟩, .int 1)

/-- What the scripts have in common: the key is touched by the owner of its token only. -/
def ifOwner (now : Int) (token : String) (key : Option RedisEntry)
    (run : Option RedisEntry × RedisReply) : Option RedisEntry × RedisReply :=
  if redisGet now key = some token then run else (key, .int 0)

end Redis

section Locks

/-- What a call of the service comes back with. -/
inductive LockAnswer where
  | returned (result : Bool)
  | void
  | rejected
deriving DecidableEq

def acquireLock (now : Int) (token : String) (ttlMs : Int) (key : Option RedisEntry) :
    Option RedisEntry × LockAnswer :=
  let (key, result) := redisSetNx now token ttlMs key
  (key, if result = .error then .rejected else .returned (result = .ok))

def releaseLock (now : Int) (token : String) (key : Option RedisEntry) :
    Option RedisEntry × LockAnswer :=
  let (key, result) := ifOwner now token key (redisDel now key)
  (key, if result = .error then .rejected else .void)

def renewLock (now : Int) (token : String) (ttlMs : Int) (key : Option RedisEntry) :
    Option RedisEntry × LockAnswer :=
  let (key, result) := ifOwner now token key (redisPexpire now ttlMs key)
  (key, if result = .error then .rejected else .returned (result = .int 1))

/-- Any number of clients, each with a token of its own. -/
structure LockClients (ι : Type) where
  token : ι → String
  distinct : Function.Injective token

variable {ι : Type}

inductive LockCall (ι : Type) where
  | acquire (client : ι) (ttlMs : Int)
  | renew (client : ι) (ttlMs : Int)
  | release (client : ι)
deriving DecidableEq

/-- A call that has been executed. -/
structure LockEvent (ι : Type) where
  call : LockCall ι
  at_ : Int
  answer : LockAnswer
deriving DecidableEq

structure LockWorld (ι : Type) where
  now : Int
  lock : Option RedisEntry
  /-- the latest first -/
  log : List (LockEvent ι)
deriving DecidableEq

variable (clients : LockClients ι)

def LockCall.perform (w : LockWorld ι) : LockCall ι → Option RedisEntry × LockAnswer
  | .acquire client ttlMs => acquireLock w.now (clients.token client) ttlMs w.lock
  | .renew client ttlMs => renewLock w.now (clients.token client) ttlMs w.lock
  | .release client => releaseLock w.now (clients.token client) w.lock

def LockCall.execute (w : LockWorld ι) (call : LockCall ι) : LockWorld ι :=
  let (lock, answer) := call.perform clients w
  { w with lock := lock, log := ⟨call, w.now, answer⟩ :: w.log }

/-- The calls of all clients, executed in any order and any time after they were made, while the
clock goes on. A call may be lost before it is executed. -/
def locks : PoolSystem (LockWorld ι) (LockCall ι) Unit Nat where
  starts _ := true
  resume _ w call := (call.execute clients w, [])
  external elapsedMs w := { w with now := w.now + elapsedMs }

abbrev LockPool (ι : Type) := Pool (LockWorld ι) (LockCall ι)

abbrev LockAction (ι : Type) := PoolAction (LockCall ι) Unit Nat

def freeLock (now : Int) : LockPool ι where
  shared := ⟨now, none, []⟩
  inflight := []

end Locks

variable {ι : Type} [DecidableEq ι]

section Holders

/-- The deadline that a client was last given and has not given up. -/
def grantedUntil (client : ι) : List (LockEvent ι) → Option Int
  | [] => none
  | ⟨.acquire other ttlMs, at_, answer⟩ :: log | ⟨.renew other ttlMs, at_, answer⟩ :: log =>
      if other = client ∧ answer = .returned true then some (at_ + ttlMs)
      else grantedUntil client log
  | ⟨.release other, _, _⟩ :: log => if other = client then none else grantedUntil client log

def HoldsUntil (client : ι) (deadline : Int) (w : LockWorld ι) : Prop :=
  grantedUntil client w.log = some deadline ∧ w.now < deadline

def Holds (client : ι) (w : LockWorld ι) : Prop := ∃ deadline, HoldsUntil client deadline w

instance (client : ι) (w : LockWorld ι) : Decidable (Holds client w) :=
  decidable_of_iff (∃ deadline ∈ grantedUntil client w.log, w.now < deadline) Iff.rfl

/-- The key in Redis, if its deadline is not over, is that of the holder. -/
def LockSound (clients : LockClients ι) (w : LockWorld ι) : Prop :=
  ∀ client deadline, HoldsUntil client deadline w ↔
    w.lock = some ⟨clients.token client, deadline⟩ ∧ w.now < deadline

end Holders

section Commands

variable {now : Int} {key : Option RedisEntry}

theorem redisGet_eq_some_iff {value : String} :
    redisGet now key = some value ↔
      ∃ deadline, key = some ⟨value, deadline⟩ ∧ now < deadline := by
  cases key with
  | none => simp [redisGet]
  | some entry =>
      obtain ⟨found, deadline⟩ := entry
      by_cases hlive : now < deadline
      · simp only [redisGet, Option.filter_some, hlive, decide_true, if_true, Option.map_some,
          Option.some.injEq, RedisEntry.mk.injEq]
        constructor
        · rintro rfl
          exact ⟨deadline, ⟨rfl, rfl⟩, hlive⟩
        · rintro ⟨_, ⟨hvalue, _⟩, _⟩
          exact hvalue
      · simp only [redisGet, Option.filter_some, hlive, decide_false, Bool.false_eq_true, if_false,
          Option.map_none, Option.some.injEq, RedisEntry.mk.injEq]
        constructor
        · nofun
        · rintro ⟨_, ⟨_, rfl⟩, hnow⟩
          exact absurd hnow hlive

/-- An `acquireLock` gets the lock where the key is gone, and else leaves it alone. -/
theorem acquireLock_cases (now : Int) (token : String) (ttlMs : Int) (key : Option RedisEntry) :
    (redisGet now key = none ∧ 0 < ttlMs ∧
        acquireLock now token ttlMs key = (some ⟨token, now + ttlMs⟩, .returned true)) ∨
    ∃ answer, answer ≠ .returned true ∧ acquireLock now token ttlMs key = (key, answer) := by
  by_cases hbad : ttlMs ≤ 0 ∨ maxTime < now + ttlMs
  · exact .inr ⟨.rejected, nofun, by simp only [acquireLock, redisSetNx, hbad, if_true]⟩
  · cases hget : redisGet now key with
    | some value =>
        refine .inr ⟨.returned false, nofun, ?_⟩
        simp [acquireLock, redisSetNx, hbad, hget]
    | none =>
        refine .inl ⟨rfl, by omega, ?_⟩
        simp [acquireLock, redisSetNx, hbad, hget]

/-- A `renewLock` sets the deadline of the client's own key, which may delete it, and else leaves
it alone. -/
theorem renewLock_cases (now : Int) (token : String) (ttlMs : Int) (key : Option RedisEntry) :
    (redisGet now key = some token ∧ ∃ after,
        renewLock now token ttlMs key = (after, .returned true) ∧
        ((0 < ttlMs ∧ after = some ⟨token, now + ttlMs⟩) ∨ ttlMs ≤ 0 ∧ after = none)) ∨
    ∃ answer, answer ≠ .returned true ∧ renewLock now token ttlMs key = (key, answer) := by
  by_cases hown : redisGet now key = some token
  · by_cases hbad : ttlMs < -maxTime - 1 ∨ maxTime < now + ttlMs
    · exact .inr ⟨.rejected, nofun, by
        simp only [renewLock, ifOwner, redisPexpire, hown, hbad, if_true]⟩
    · by_cases hover : now + ttlMs ≤ now
      · refine .inl ⟨hown, none, ?_, .inr ⟨by omega, rfl⟩⟩
        simp [renewLock, ifOwner, redisPexpire, hown, hbad, hover]
      · refine .inl ⟨hown, _, ?_, .inl ⟨by omega, rfl⟩⟩
        simp [renewLock, ifOwner, redisPexpire, hown, hbad, hover]
  · exact .inr ⟨.returned false, nofun, by simp [renewLock, ifOwner, hown]⟩

/-- A `releaseLock` deletes the client's own key, and else leaves it alone. -/
theorem releaseLock_cases (now : Int) (token : String) (key : Option RedisEntry) :
    (redisGet now key = some token ∧ releaseLock now token key = (none, .void)) ∨
      redisGet now key ≠ some token ∧ releaseLock now token key = (key, .void) := by
  by_cases hown : redisGet now key = some token
  · exact .inl ⟨hown, by simp [releaseLock, ifOwner, redisDel, hown]⟩
  · exact .inr ⟨hown, by simp [releaseLock, ifOwner, hown]⟩

end Commands

section Calls

variable {clients : LockClients ι} {w : LockWorld ι}

theorem LockSound.get_eq_some_iff (h : LockSound clients w) {client : ι} :
    redisGet w.now w.lock = some (clients.token client) ↔ Holds client w := by
  rw [redisGet_eq_some_iff]
  exact exists_congr fun deadline => (h client deadline).symm

theorem LockSound.unique (h : LockSound clients w) {a b : ι} (ha : Holds a w) (hb : Holds b w) :
    a = b := by
  have htokens := (h.get_eq_some_iff.mpr ha).symm.trans (h.get_eq_some_iff.mpr hb)
  exact clients.distinct (Option.some.inj htokens)

theorem LockSound.none_holds (h : LockSound clients w) (hfree : redisGet w.now w.lock = none)
    (client : ι) : ¬ Holds client w := by
  intro hholds
  rw [h.get_eq_some_iff.mpr hholds] at hfree
  cases hfree

/-- A client that has been told something other than `true` holds what it held. -/
theorem grantedUntil_refused {client : ι} {call : LockCall ι} {at_ : Int} {answer : LockAnswer}
    (hanswer : answer ≠ .returned true) (hcall : ∀ other, call ≠ .release other)
    (log : List (LockEvent ι)) :
    grantedUntil client (⟨call, at_, answer⟩ :: log) = grantedUntil client log := by
  cases call with
  | acquire other ttlMs => exact if_neg fun hgranted => hanswer hgranted.2
  | renew other ttlMs => exact if_neg fun hgranted => hanswer hgranted.2
  | release other => exact absurd rfl (hcall other)

/-- Nothing is granted, and the key is left alone. -/
theorem LockSound.refused (h : LockSound clients w) {call : LockCall ι} {answer : LockAnswer}
    (hanswer : answer ≠ .returned true) (hcall : ∀ other, call ≠ .release other) :
    LockSound clients { w with log := ⟨call, w.now, answer⟩ :: w.log } := by
  intro client deadline
  rw [← h client deadline]
  unfold HoldsUntil
  rw [grantedUntil_refused hanswer hcall]

/-- The key becomes that of a client, where it is not that of another one. The client is told the
deadline, which is over where the key is deleted. -/
theorem lockSound_granted {owner : ι} {ttlMs : Int} {after : Option RedisEntry}
    {log : List (LockEvent ι)} (halone : ∀ client, Holds client w → client = owner)
    (hlog : ∀ client, grantedUntil client log =
      if owner = client then some (w.now + ttlMs) else grantedUntil client w.log)
    (hafter : (0 < ttlMs ∧ after = some ⟨clients.token owner, w.now + ttlMs⟩) ∨
      ttlMs ≤ 0 ∧ after = none) :
    LockSound clients { w with lock := after, log := log } := by
  intro client deadline
  unfold HoldsUntil
  simp only [hlog client]
  by_cases hself : owner = client
  · subst hself
    rw [if_pos rfl]
    rcases hafter with ⟨hpos, rfl⟩ | ⟨hover, rfl⟩
    · simp only [Option.some.injEq, RedisEntry.mk.injEq, true_and]
    · constructor
      · rintro ⟨hdeadline, hlive⟩
        have hsame := Option.some.inj hdeadline
        omega
      · nofun
  · rw [if_neg hself]
    constructor
    · intro hholds
      exact absurd (halone client ⟨deadline, hholds⟩).symm hself
    · rintro ⟨hkey, -⟩
      rcases hafter with ⟨-, rfl⟩ | ⟨-, rfl⟩
      · exact absurd (clients.distinct (RedisEntry.mk.inj (Option.some.inj hkey)).1) hself
      · cases hkey

theorem LockSound.released (h : LockSound clients w) {owner : ι} {after : Option RedisEntry}
    {answer : LockAnswer}
    (hafter : (Holds owner w ∧ after = none) ∨ ¬ Holds owner w ∧ after = w.lock) :
    LockSound clients
      { w with lock := after, log := ⟨.release owner, w.now, answer⟩ :: w.log } := by
  intro client deadline
  unfold HoldsUntil
  simp only [grantedUntil]
  by_cases hself : owner = client
  · subst hself
    rw [if_pos rfl]
    refine ⟨nofun, ?_⟩
    rintro ⟨hkey, hlive⟩
    rcases hafter with ⟨-, rfl⟩ | ⟨hnot, rfl⟩
    · cases hkey
    · exact absurd ⟨deadline, (h owner deadline).mpr ⟨hkey, hlive⟩⟩ hnot
  · rw [if_neg hself]
    rcases hafter with ⟨hholds, rfl⟩ | ⟨-, rfl⟩
    · constructor
      · intro hother
        exact absurd (h.unique hholds ⟨deadline, hother⟩) hself
      · nofun
    · exact h client deadline

theorem LockSound.execute (h : LockSound clients w) (call : LockCall ι) :
    LockSound clients (call.execute clients w) := by
  unfold LockCall.execute LockCall.perform
  cases call with
  | acquire owner ttlMs =>
      rcases acquireLock_cases w.now (clients.token owner) ttlMs w.lock with
        ⟨hfree, hpos, hnext⟩ | ⟨answer, hanswer, hnext⟩
      · simp only [hnext]
        refine lockSound_granted (fun client hholds => ?_) (fun client => ?_) (.inl ⟨hpos, rfl⟩)
        · exact absurd hholds (h.none_holds hfree client)
        · simp only [grantedUntil, and_true]
      · simp only [hnext]
        exact h.refused hanswer nofun
  | renew owner ttlMs =>
      rcases renewLock_cases w.now (clients.token owner) ttlMs w.lock with
        ⟨hown, after, hnext, hafter⟩ | ⟨answer, hanswer, hnext⟩
      · simp only [hnext]
        refine lockSound_granted (fun client hholds => ?_) (fun client => ?_) hafter
        · exact h.unique hholds (h.get_eq_some_iff.mp hown)
        · simp only [grantedUntil, and_true]
      · simp only [hnext]
        exact h.refused hanswer nofun
  | release owner =>
      rcases releaseLock_cases w.now (clients.token owner) w.lock with
        ⟨hown, hnext⟩ | ⟨hother, hnext⟩
      · simp only [hnext]
        exact h.released (.inl ⟨h.get_eq_some_iff.mp hown, rfl⟩)
      · simp only [hnext]
        exact h.released (.inr ⟨fun hholds => hother (h.get_eq_some_iff.mpr hholds), rfl⟩)

end Calls

section Runs

variable {clients : LockClients ι}

theorem LockSound.elapse {w : LockWorld ι} (h : LockSound clients w) (elapsedMs : Nat) :
    LockSound clients { w with now := w.now + elapsedMs } := by
  intro client deadline
  constructor
  · rintro ⟨hgranted, hlive⟩
    have hbefore : w.now < deadline := by
      dsimp only at hlive
      omega
    exact ⟨((h client deadline).mp ⟨hgranted, hbefore⟩).1, hlive⟩
  · rintro ⟨hkey, hlive⟩
    have hbefore : w.now < deadline := by
      dsimp only at hlive
      omega
    exact ⟨((h client deadline).mpr ⟨hkey, hbefore⟩).1, hlive⟩

theorem lockSound_step {s : LockPool ι} (h : LockSound clients s.shared) (a : LockAction ι) :
    LockSound clients ((locks clients).step s a).shared :=
  (locks clients).shared_step a h (fun _ call _ => h.execute call) fun elapsedMs =>
    h.elapse elapsedMs

theorem lockSound_run (clients : LockClients ι) (now : Int) (actions : List (LockAction ι)) :
    LockSound clients ((locks clients).run actions (freeLock now)).shared := by
  have hfree : LockSound clients (freeLock now : LockPool ι).shared := fun client deadline =>
    ⟨fun hholds => absurd hholds.1 nofun, fun hkey => absurd hkey.1 nofun⟩
  exact List.foldlRecOn (motive := fun s : LockPool ι => LockSound clients s.shared) actions _ hfree
    fun s hs a _ => lockSound_step hs a

/-- A call that leaves the key alone. -/
theorem LockSound.same_holder {w : LockWorld ι} (h : LockSound clients w) {call : LockCall ι}
    (hkey : (call.execute clients w).lock = w.lock) (client : ι) (deadline : Int) :
    HoldsUntil client deadline (call.execute clients w) ↔ HoldsUntil client deadline w := by
  have hnow : (call.execute clients w).now = w.now := rfl
  rw [h.execute call client deadline, h client deadline, hkey, hnow]

/-- Whatever calls the clients make, and whenever these are executed: at most one client holds the
lock; `acquireLock` returns true only where none does, and `renewLock` only for the one that does;
and where a client that does not hold it renews or releases, holder and deadline stay. -/
theorem one_holder_at_most (clients : LockClients ι) (now : Int) (actions : List (LockAction ι)) :
    let w := ((locks clients).run actions (freeLock now)).shared
    (∀ a b, Holds a w → Holds b w → a = b) ∧
      (∀ client ttlMs, ((LockCall.acquire client ttlMs).perform clients w).2 = .returned true →
        ∀ other, ¬ Holds other w) ∧
      (∀ client ttlMs, ((LockCall.renew client ttlMs).perform clients w).2 = .returned true →
        Holds client w) ∧
      ∀ client ttlMs, ¬ Holds client w →
        ∀ call ∈ [LockCall.renew client ttlMs, LockCall.release client],
          (call.execute clients w).lock = w.lock ∧ ∀ other deadline,
            HoldsUntil other deadline (call.execute clients w) ↔ HoldsUntil other deadline w := by
  intro w
  have h : LockSound clients w := lockSound_run clients now actions
  refine ⟨fun a b => h.unique, fun client ttlMs htrue => ?_, fun client ttlMs htrue => ?_,
    fun client ttlMs hnot call hcall => ?_⟩
  · rcases acquireLock_cases w.now (clients.token client) ttlMs w.lock with
      ⟨hfree, -, -⟩ | ⟨answer, hanswer, hnext⟩
    · exact h.none_holds hfree
    · rw [LockCall.perform, hnext] at htrue
      exact absurd htrue hanswer
  · rcases renewLock_cases w.now (clients.token client) ttlMs w.lock with
      ⟨hown, -⟩ | ⟨answer, hanswer, hnext⟩
    · exact h.get_eq_some_iff.mp hown
    · rw [LockCall.perform, hnext] at htrue
      exact absurd htrue hanswer
  · have hother : redisGet w.now w.lock ≠ some (clients.token client) := fun hown =>
      hnot (h.get_eq_some_iff.mp hown)
    have hkey : (call.execute clients w).lock = w.lock := by
      rcases List.mem_cons.mp hcall with rfl | hrelease
      · rcases renewLock_cases w.now (clients.token client) ttlMs w.lock with
          ⟨hown, -⟩ | ⟨answer, -, hnext⟩
        · exact absurd hown hother
        · simp only [LockCall.execute, LockCall.perform, hnext]
      · rw [List.mem_singleton.mp hrelease]
        rcases releaseLock_cases w.now (clients.token client) w.lock with ⟨hown, -⟩ | ⟨-, hnext⟩
        · exact absurd hown hother
        · simp only [LockCall.execute, LockCall.perform, hnext]
    exact ⟨hkey, h.same_holder hkey⟩

end Runs

end ChainSettle
