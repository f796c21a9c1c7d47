import ChainSettle.Semantics.Throttler
import Mathlib.Data.List.Nodup
import Mathlib.Data.List.Perm.Subperm

/-!
The windows of a counter. The log of a key is cut where the key expires; between two
cuts its hits are numbered from 1. What happens to a key is decided by the commands
that name it, and a call that has come to its end leaves no counter without an expiry.
-/

namespace ChainSettle

open Lib

section Numbering

variable (redisKey : String)

/-- The number that a hit of the key was given. -/
def CounterEvent.hitOf : CounterEvent → Option Nat
  | .hit key totalHits => if key = redisKey then some totalHits else none
  | .expired _ => none

def hits (log : List CounterEvent) : List Nat :=
  log.filterMap (CounterEvent.hitOf redisKey)

/-- The value of the counter after an event. -/
def CounterEvent.count (value : Nat) : CounterEvent → Nat
  | .hit key _ => if key = redisKey then value + 1 else value
  | .expired key => if key = redisKey then 0 else value

/-- Every hit was given the next number of a counter with this value at first. -/
def Numbered : Nat → List CounterEvent → Prop
  | _, [] => True
  | value, event :: rest =>
      (∀ totalHits, event = .hit redisKey totalHits → totalHits = value + 1) ∧
        Numbered (event.count redisKey value) rest

/-- The events from one expiration of a key to the next, which begin at a place in the log; also
those before its first one, if there was no such key. -/
def IsWindow (store : Store String Nat) (log : List CounterEvent) (first : Nat)
    (window : List CounterEvent) : Prop :=
  .expired redisKey ∉ window ∧
    ((∃ pre post, log = pre ++ .expired redisKey :: (window ++ post) ∧ first = pre.length + 1) ∨
      store redisKey = none ∧ first = 0 ∧ ∃ post, log = window ++ post)

variable {redisKey}

theorem numbered_append {value : Nat} {log later : List CounterEvent} :
    Numbered redisKey value (log ++ later) ↔
      Numbered redisKey value log ∧
        Numbered redisKey (log.foldl (CounterEvent.count redisKey) value) later := by
  induction log generalizing value with
  | nil => simp [Numbered]
  | cons event rest ih => simp only [List.cons_append, Numbered, ih, List.foldl_cons, and_assoc]

theorem Numbered.hits_eq {value : Nat} {window : List CounterEvent}
    (h : Numbered redisKey value window) (hopen : .expired redisKey ∉ window) :
    hits redisKey window = List.range' (value + 1) (hits redisKey window).length := by
  induction window generalizing value with
  | nil => rfl
  | cons event rest ih =>
      obtain ⟨hnumber, hrest⟩ := h
      obtain ⟨hevent, hopen⟩ := not_or.mp (fun hmem => hopen (List.mem_cons.mpr hmem))
      have hlater := ih hrest hopen
      cases event with
      | hit key totalHits =>
          by_cases hkey : key = redisKey
          · subst hkey
            obtain rfl := hnumber totalHits rfl
            simp only [CounterEvent.count, if_true] at hlater
            simp only [hits, List.filterMap_cons, CounterEvent.hitOf, if_true, List.length_cons,
              List.range'_succ]
            exact congrArg _ hlater
          · simp only [CounterEvent.count, if_neg hkey] at hlater
            simpa only [hits, List.filterMap_cons, CounterEvent.hitOf, if_neg hkey] using hlater
      | expired key =>
          have hkey : key ≠ redisKey := fun hkey => hevent (by rw [hkey])
          simp only [CounterEvent.count, if_neg hkey] at hlater
          simpa only [hits, List.filterMap_cons, CounterEvent.hitOf] using hlater

theorem Numbered.window {value first : Nat} {store : Store String Nat}
    {log window : List CounterEvent} (h : Numbered redisKey value log)
    (hstart : store redisKey = none → value = 0)
    (hwindow : IsWindow redisKey store log first window) :
    hits redisKey window = List.range' 1 (hits redisKey window).length := by
  obtain ⟨hopen, ⟨pre, post, rfl, -⟩ | ⟨hnone, -, post, rfl⟩⟩ := hwindow
  · obtain ⟨-, -, hafter⟩ := numbered_append.mp h
    simp only [CounterEvent.count, if_true] at hafter
    exact (numbered_append.mp hafter).1.hits_eq hopen
  · obtain rfl := hstart hnone
    exact (numbered_append.mp h).1.hits_eq hopen

theorem IsWindow.getElem? {first : Nat} {store : Store String Nat} {log window : List CounterEvent}
    (h : IsWindow redisKey store log first window) {place : Nat} (hplace : place < window.length) :
    log[first + place]? = window[place]? := by
  obtain ⟨-, ⟨pre, post, rfl, rfl⟩ | ⟨-, rfl, post, rfl⟩⟩ := h
  · have hdrop : (pre ++ .expired redisKey :: (window ++ post)).drop (pre.length + 1) =
        window ++ post := by
      simp
    rw [← List.getElem?_drop, hdrop, List.getElem?_append_left hplace]
  · rw [Nat.zero_add, List.getElem?_append_left hplace]

/-- Where the values of a function are pairwise different, a value has one place. -/
theorem place_unique {α β : Type} {f : α → Option β} {xs : List α} (h : (xs.filterMap f).Nodup)
    {i j : Nat} {x y : α} {value : β} (hi : xs[i]? = some x) (hj : xs[j]? = some y)
    (hx : f x = some value) (hy : f y = some value) : i = j := by
  induction xs generalizing i j with
  | nil => cases hi
  | cons first rest ih =>
      have hrest : (rest.filterMap f).Nodup :=
        h.sublist ((List.sublist_cons_self first rest).filterMap f)
      have honce {z : α} {k : Nat} (hfirst : f first = some value) (hz : rest[k]? = some z)
          (hvalue : f z = some value) : False := by
        rw [List.filterMap_cons_some hfirst, List.nodup_cons] at h
        exact h.1 (List.mem_filterMap.mpr ⟨z, List.mem_of_getElem? hz, hvalue⟩)
      cases i with
      | zero =>
          obtain rfl : first = x := Option.some.inj hi
          cases j with
          | zero => rfl
          | succ j => exact (honce hx hj hy).elim
      | succ i =>
          cases j with
          | zero =>
              obtain rfl : first = y := Option.some.inj hj
              exact (honce hy hi hx).elim
          | succ j => exact congrArg _ (ih hrest hi hj)

theorem hits_nodup_of_window {window : List CounterEvent}
    (h : hits redisKey window = List.range' 1 (hits redisKey window).length) :
    (hits redisKey window).Nodup := by
  rw [h]
  exact List.nodup_range'

/-- At most `limit` of the numbers from 1 on are within the limit. -/
theorem countP_range'_le (limit n : Nat) : (List.range' 1 n).countP (· ≤ limit) ≤ limit := by
  have hcount : (List.range' 1 n).countP (· ≤ limit) = min n limit := by
    induction n with
    | zero => simp
    | succ n ih =>
        rw [List.range'_1_concat, List.countP_append, ih]
        by_cases hlimit : 1 + n ≤ limit <;> simp [hlimit] <;> omega
  omega

end Numbering

section Counting

/-- The value of a counter; without the key it is 0. -/
def Counters.value (redis : Counters) (redisKey : String) : Nat :=
  (redis.store redisKey).elim 0 Entry.value

/-- The log since the counter had the value `start` numbers its hits, up to the value it has. -/
structure Counted (redisKey : String) (start : Nat) (redis : Counters) : Prop where
  numbered : Numbered redisKey start redis.log
  value_eq : redis.log.foldl (CounterEvent.count redisKey) start = redis.value redisKey

variable {redisKey : String} {start : Nat} {redis : Counters}

theorem Counted.expire (h : Counted redisKey start redis) (key : String) :
    Counted redisKey start (redis.expire key) where
  numbered := numbered_append.mpr ⟨h.numbered, nofun, trivial⟩
  value_eq := by
    have hvalue := h.value_eq
    simp only [Counters.expire, List.foldl_append, List.foldl_cons, List.foldl_nil, hvalue,
      CounterEvent.count, Counters.value]
    by_cases hkey : key = redisKey
    · subst hkey
      simp only [if_true, Store.del_self, Option.elim_none]
    · rw [if_neg hkey, Store.del_of_ne _ (Ne.symm hkey)]

theorem Counted.expireIfNeeded (h : Counted redisKey start redis) (key : String) :
    Counted redisKey start (redis.expireIfNeeded key) := by
  unfold Counters.expireIfNeeded
  split
  · split
    · exact h.expire key
    · exact h
  · exact h

theorem incr_eq (redis : Counters) (key : String) :
    redis.incr key =
      (redis.value key + 1,
        { redis with
          store := redis.store.set key (redis.value key + 1) ((redis.store key).bind Entry.expiresAt)
          log := redis.log ++ [.hit key (redis.value key + 1)] }) := by
  unfold Counters.incr Counters.value
  cases redis.store key <;> rfl

theorem Counted.incr (h : Counted redisKey start redis) (key : String) :
    Counted redisKey start (redis.incr key).2 where
  numbered := by
    rw [incr_eq]
    refine numbered_append.mpr ⟨h.numbered, ?_, trivial⟩
    rw [h.value_eq]
    intro totalHits hevent
    cases hevent
    rfl
  value_eq := by
    have hvalue := h.value_eq
    rw [incr_eq]
    simp only [List.foldl_append, List.foldl_cons, List.foldl_nil, hvalue, CounterEvent.count]
    by_cases hkey : key = redisKey
    · subst hkey
      simp [Counters.value]
    · simp only [Counters.value, if_neg hkey, Store.set_of_ne _ (Ne.symm hkey)]

theorem Counted.multi (h : Counted redisKey start redis) (key : String) :
    Counted redisKey start (redis.multi key).2 :=
  (h.expireIfNeeded key).incr key

theorem Counted.pexpire (h : Counted redisKey start redis) (key : String) (ttl : Int) :
    Counted redisKey start (redis.pexpire key ttl) := by
  have hlive := h.expireIfNeeded key
  unfold Counters.pexpire
  dsimp only
  split
  · exact hlive
  · rename_i entry hentry
    split
    · exact hlive.expire key
    · refine ⟨hlive.numbered, hlive.value_eq.trans ?_⟩
      by_cases hkey : redisKey = key
      · subst hkey
        simp [Counters.value, hentry]
      · simp only [Counters.value, Store.set_of_ne _ hkey]

theorem Counted.exec (h : Counted redisKey start redis) (command : RedisCommand) :
    Counted redisKey start (command.exec redis) := by
  cases command with
  | multi key => exact h.multi key
  | pexpire key ttl => exact h.pexpire key ttl
  | activeExpire key => exact h.expireIfNeeded key
  | tick ms => exact ⟨h.numbered, h.value_eq⟩

end Counting

section Keys

/-- The command can change the key, or the time. -/
def RedisCommand.concerns (redisKey : String) : RedisCommand → Bool
  | .multi key | .pexpire key _ | .activeExpire key => key = redisKey
  | .tick _ => true

/-- What there is of a key: the time, its counter, and what has happened to it. -/
def Counters.view (redis : Counters) (redisKey : String) :
    Nat × Option (Entry Nat) × List CounterEvent :=
  (redis.now, redis.store redisKey, redis.log.filter (·.redisKey = redisKey))

variable {redisKey key : String} {redis redis' : Counters}

theorem view_eq_iff : redis.view redisKey = redis'.view redisKey ↔
    redis.now = redis'.now ∧ redis.store redisKey = redis'.store redisKey ∧
      redis.log.filter (·.redisKey = redisKey) = redis'.log.filter (·.redisKey = redisKey) := by
  simp only [Counters.view, Prod.mk.injEq]

theorem view_expire_of_ne (h : key ≠ redisKey) :
    (redis.expire key).view redisKey = redis.view redisKey := by
  simp [Counters.view, Counters.expire, Store.del_of_ne _ (Ne.symm h), CounterEvent.redisKey, h]

theorem view_expireIfNeeded_of_ne (h : key ≠ redisKey) :
    (redis.expireIfNeeded key).view redisKey = redis.view redisKey := by
  unfold Counters.expireIfNeeded
  split
  · split
    · exact view_expire_of_ne h
    · rfl
  · rfl

theorem view_multi_of_ne (h : key ≠ redisKey) :
    (redis.multi key).2.view redisKey = redis.view redisKey := by
  have hlive : (redis.expireIfNeeded key).view redisKey = redis.view redisKey :=
    view_expireIfNeeded_of_ne h
  rw [← hlive]
  simp [Counters.multi, incr_eq, Counters.view, Store.set_of_ne _ (Ne.symm h),
    CounterEvent.redisKey, h]

theorem view_pexpire_of_ne (h : key ≠ redisKey) (ttl : Int) :
    (redis.pexpire key ttl).view redisKey = redis.view redisKey := by
  have hlive : (redis.expireIfNeeded key).view redisKey = redis.view redisKey :=
    view_expireIfNeeded_of_ne h
  rw [← hlive]
  unfold Counters.pexpire
  dsimp only
  split
  · rfl
  · split
    · exact view_expire_of_ne h
    · simp only [Counters.view, Store.set_of_ne _ (Ne.symm h)]

/-- A command on another key changes nothing of this one. -/
theorem view_exec_of_not_concerns {command : RedisCommand} (h : ¬ command.concerns redisKey) :
    (command.exec redis).view redisKey = redis.view redisKey := by
  cases command with
  | multi key => exact view_multi_of_ne (by simpa [RedisCommand.concerns] using h)
  | pexpire key ttl => exact view_pexpire_of_ne (by simpa [RedisCommand.concerns] using h) ttl
  | activeExpire key => exact view_expireIfNeeded_of_ne (by simpa [RedisCommand.concerns] using h)
  | tick ms => exact absurd rfl h

theorem view_expire (h : redis.view redisKey = redis'.view redisKey) :
    (redis.expire redisKey).view redisKey = (redis'.expire redisKey).view redisKey := by
  obtain ⟨hnow, -, hlog⟩ := view_eq_iff.mp h
  rw [view_eq_iff]
  refine ⟨hnow, ?_, ?_⟩
  · simp only [Counters.expire, Store.del_self]
  · simp only [Counters.expire, List.filter_append, hlog]

theorem view_expireIfNeeded (h : redis.view redisKey = redis'.view redisKey) :
    (redis.expireIfNeeded redisKey).view redisKey =
      (redis'.expireIfNeeded redisKey).view redisKey := by
  obtain ⟨hnow, hstore, -⟩ := view_eq_iff.mp h
  unfold Counters.expireIfNeeded
  rw [hnow, hstore]
  split
  · split
    · exact view_expire h
    · exact h
  · exact h

theorem view_incr (h : redis.view redisKey = redis'.view redisKey) :
    (redis.incr redisKey).2.view redisKey = (redis'.incr redisKey).2.view redisKey ∧
      (redis.incr redisKey).1 = (redis'.incr redisKey).1 := by
  obtain ⟨hnow, hstore, hlog⟩ := view_eq_iff.mp h
  simp only [incr_eq, Counters.value, Counters.view, hstore, hnow, List.filter_append, hlog,
    Store.set_self, and_self]

theorem view_multi (h : redis.view redisKey = redis'.view redisKey) :
    (redis.multi redisKey).2.view redisKey = (redis'.multi redisKey).2.view redisKey ∧
      (redis.multi redisKey).1 = (redis'.multi redisKey).1 := by
  obtain ⟨hview, hhits⟩ := view_incr (view_expireIfNeeded h)
  obtain ⟨hnow, hstore, -⟩ := view_eq_iff.mp hview
  refine ⟨hview, ?_⟩
  simp only [Counters.multi, Counters.pttl, hhits, hnow, hstore]

theorem view_pexpire (h : redis.view redisKey = redis'.view redisKey) (ttl : Int) :
    (redis.pexpire redisKey ttl).view redisKey = (redis'.pexpire redisKey ttl).view redisKey := by
  have hlive := view_expireIfNeeded h
  obtain ⟨hnow, hstore, hlog⟩ := view_eq_iff.mp hlive
  unfold Counters.pexpire
  dsimp only
  rw [hnow, hstore]
  split
  · exact hlive
  · split
    · exact view_expire hlive
    · simp only [Counters.view, Store.set_self, hlog]

/-- What a command makes of a key depends on nothing but what there is of it. -/
theorem view_exec {command : RedisCommand} (hconcerns : command.concerns redisKey)
    (h : redis.view redisKey = redis'.view redisKey) :
    (command.exec redis).view redisKey = (command.exec redis').view redisKey := by
  cases command with
  | multi key =>
      obtain rfl : key = redisKey := by simpa [RedisCommand.concerns] using hconcerns
      exact (view_multi h).1
  | pexpire key ttl =>
      obtain rfl : key = redisKey := by simpa [RedisCommand.concerns] using hconcerns
      exact view_pexpire h ttl
  | activeExpire key =>
      obtain rfl : key = redisKey := by simpa [RedisCommand.concerns] using hconcerns
      exact view_expireIfNeeded h
  | tick ms =>
      obtain ⟨hnow, hrest⟩ := view_eq_iff.mp h
      exact view_eq_iff.mpr ⟨congrArg (· + ms) hnow, hrest⟩

/-- The commands that do not concern a key can be left out. -/
theorem view_commands (commands : List RedisCommand) (redis redis' : Counters)
    (h : redis.view redisKey = redis'.view redisKey) :
    (commands.foldl (fun redis command => command.exec redis) redis).view redisKey =
      ((commands.filter (·.concerns redisKey)).foldl
        (fun redis command => command.exec redis) redis').view redisKey := by
  induction commands generalizing redis redis' with
  | nil => exact h
  | cons command rest ih =>
      by_cases hconcerns : command.concerns redisKey
      · rw [List.filter_cons_of_pos hconcerns]
        exact ih _ _ (view_exec hconcerns h)
      · rw [List.filter_cons_of_neg hconcerns]
        exact ih _ _ ((view_exec_of_not_concerns hconcerns).trans h)

end Keys

section Calls

/-- The commands that Redis executes in a run, for some of the calls or on its own. -/
def throttleCommands (ofCalls : IncrementCall → Bool) :
    List ThrottleAction → ThrottlePool → List RedisCommand
  | [], _ => []
  | a :: rest, s =>
      (throttleCommand ofCalls s a).toList ++ throttleCommands ofCalls rest (throttler.step s a)

variable {w : ThrottleWorld} {s : ThrottlePool}

theorem resume_redis (w : ThrottleWorld) (call : IncrementCall) :
    (call.resume w).1.redis = call.command.exec w.redis := by
  cases call with
  | increment key ttl =>
      simp only [IncrementCall.resume]
      split <;> rfl
  | expiring key ttl totalHits hit => rfl

theorem redis_step (s : ThrottlePool) (a : ThrottleAction) :
    (throttler.step s a).shared.redis =
      (throttleCommand (fun _ => true) s a).toList.foldl (fun redis command => command.exec redis)
        s.shared.redis := by
  cases a with
  | begin call =>
      simp only [PoolSystem.step]
      split <;> rfl
  | resume index input =>
      simp only [PoolSystem.step, throttleCommand]
      cases s.inflight[index]? with
      | none => rfl
      | some call =>
          rw [Option.filter_some, if_pos rfl]
          exact resume_redis s.shared call
  | crash index => rfl
  | external event => rfl

theorem redis_run (actions : List ThrottleAction) (s : ThrottlePool) :
    (throttler.run actions s).shared.redis =
      (throttleCommands (fun _ => true) actions s).foldl (fun redis command => command.exec redis)
        s.shared.redis := by
  induction actions generalizing s with
  | nil => rfl
  | cons a rest ih =>
      rw [throttleCommands, List.foldl_append, ← redis_step]
      exact ih (throttler.step s a)

theorem Counted.run {redisKey : String} {start : Nat} (actions : List ThrottleAction)
    (h : Counted redisKey start s.shared.redis) :
    Counted redisKey start (throttler.run actions s).shared.redis := by
  rw [redis_run]
  exact List.foldlRecOn _ _ h fun redis hredis command _ => hredis.exec command

/-- A call names the counter of its own key. -/
theorem concerns_command (call : IncrementCall) (key : String) :
    call.command.concerns (throttlePrefix ++ key) = true ↔ call.key = key := by
  cases call <;> simp [IncrementCall.command, RedisCommand.concerns, IncrementCall.key]

theorem commands_ofKey (key : String) (actions : List ThrottleAction) (s : ThrottlePool) :
    (throttleCommands (fun _ => true) actions s).filter (·.concerns (throttlePrefix ++ key)) =
      (throttleCommands (·.key = key) actions s).filter (·.concerns (throttlePrefix ++ key)) := by
  induction actions generalizing s with
  | nil => rfl
  | cons a rest ih =>
      rw [throttleCommands, throttleCommands, List.filter_append, List.filter_append, ih]
      refine congrArg (· ++ _) ?_
      cases a with
      | resume index input =>
          simp only [throttleCommand]
          cases s.inflight[index]? with
          | none => rfl
          | some call =>
              have hconcerns := concerns_command call key
              by_cases hkey : call.key = key
              · simp [Option.filter_some, hkey]
              · simp [Option.filter_some, hkey, hconcerns]
      | _ => rfl

/-- The commands of the calls with other keys can be left out. -/
theorem view_ofKey (key : String) (actions : List ThrottleAction) (s : ThrottlePool) :
    (throttler.run actions s).shared.redis.view (throttlePrefix ++ key) =
      ((throttleCommands (·.key = key) actions s).foldl
        (fun redis command => command.exec redis) s.shared.redis).view (throttlePrefix ++ key) := by
  rw [redis_run, view_commands _ _ _ rfl, commands_ofKey]
  exact (view_commands _ _ _ rfl).symm

end Calls

section Returns

/-- Where the hit of a call that has not returned is recorded. -/
def IncrementCall.hit? : IncrementCall → Option Nat
  | .increment _ _ => none
  | .expiring _ _ _ hit => some hit

def IncrementCall.Recorded (log : List CounterEvent) : IncrementCall → Prop
  | .increment _ _ => True
  | .expiring key _ totalHits hit => log[hit]? = some (.hit (throttlePrefix ++ key) totalHits)

/-- The call has returned the number of its hit, which was one of the counter of its key. -/
def Increment.Recorded (log : List CounterEvent) (made : Increment) : Prop :=
  log[made.hit]? = some (.hit (throttlePrefix ++ made.key) made.result.totalHits)

/-- The hits that calls have made, in flight or returned. -/
def hitsMade (s : ThrottlePool) : List Nat :=
  s.inflight.filterMap IncrementCall.hit? ++ s.shared.returned.map Increment.hit

/-- Every call has a hit of its own, and returns its number. -/
structure HitRecorded (s : ThrottlePool) : Prop where
  nodup : (hitsMade s).Nodup
  inflight : ∀ call ∈ s.inflight, call.Recorded s.shared.redis.log
  returned : ∀ made ∈ s.shared.returned, made.Recorded s.shared.redis.log

variable {w : ThrottleWorld} {s : ThrottlePool}

/-- Nothing but expirations has been recorded since. -/
def OnlyExpired (log later : List CounterEvent) : Prop :=
  ∃ redisKeys : List String, later = log ++ redisKeys.map .expired

theorem OnlyExpired.refl (log : List CounterEvent) : OnlyExpired log log :=
  ⟨[], (List.append_nil log).symm⟩

theorem OnlyExpired.extends {log later : List CounterEvent} (h : OnlyExpired log later) :
    log <+: later := by
  obtain ⟨redisKeys, rfl⟩ := h
  exact List.prefix_append ..

theorem OnlyExpired.expire {log : List CounterEvent} {redis : Counters}
    (h : OnlyExpired log redis.log) (key : String) : OnlyExpired log (redis.expire key).log := by
  obtain ⟨redisKeys, hlog⟩ := h
  refine ⟨redisKeys ++ [key], ?_⟩
  rw [Counters.expire, hlog, List.map_append, List.map_singleton, List.append_assoc]

theorem expireIfNeeded_log (redis : Counters) (key : String) :
    OnlyExpired redis.log (redis.expireIfNeeded key).log := by
  unfold Counters.expireIfNeeded
  split
  · split
    · exact (OnlyExpired.refl _).expire key
    · exact .refl _
  · exact .refl _

theorem multi_log (redis : Counters) (key : String) :
    (redis.multi key).2.log =
      (redis.expireIfNeeded key).log ++ [.hit key (redis.multi key).1.1] := by
  simp only [Counters.multi, incr_eq]

theorem pexpire_log (redis : Counters) (key : String) (ttl : Int) :
    OnlyExpired redis.log (redis.pexpire key ttl).log := by
  have hlive := expireIfNeeded_log redis key
  unfold Counters.pexpire
  dsimp only
  split
  · exact hlive
  · split
    · exact hlive.expire key
    · exact hlive

theorem event_log (redis : Counters) (event : RedisEvent) :
    OnlyExpired redis.log (event.command.exec redis).log := by
  cases event with
  | activeExpire key => exact expireIfNeeded_log redis key
  | tick ms => exact .refl _

/-- Everything a step of a call can do: it makes its hit and goes on or returns, or it
returns with the hit that it has made. -/
theorem increment_cases (w : ThrottleWorld) (call : IncrementCall) :
    (∃ log totalHits, call.hit? = none ∧ OnlyExpired w.redis.log log ∧
      (call.resume w).1.redis.log = log ++ [.hit (throttlePrefix ++ call.key) totalHits] ∧
      ((∃ ttl, (call.resume w).2 = [.expiring call.key ttl totalHits log.length] ∧
        (call.resume w).1.returned = w.returned) ∨
      ∃ pttl, (call.resume w).2 = [] ∧ (call.resume w).1.returned =
        w.returned ++ [⟨call.key, log.length, incrementResult totalHits pttl⟩])) ∨
    ∃ ttl totalHits hit, call = .expiring call.key ttl totalHits hit ∧
      OnlyExpired w.redis.log (call.resume w).1.redis.log ∧ (call.resume w).2 = [] ∧
      (call.resume w).1.returned =
        w.returned ++ [⟨call.key, hit, incrementResult totalHits ttl⟩] := by
  cases call with
  | increment key ttl =>
      have hlog := multi_log w.redis (throttlePrefix ++ key)
      refine .inl ⟨_, (w.redis.multi (throttlePrefix ++ key)).1.1, rfl,
        expireIfNeeded_log w.redis (throttlePrefix ++ key), ?_, ?_⟩
      · rw [resume_redis]
        exact hlog
      · simp only [IncrementCall.resume, IncrementCall.key, IncrementCall.command,
          RedisCommand.exec, hlog, List.length_append, List.length_singleton, Nat.add_sub_cancel]
        split
        · exact .inl ⟨ttl, rfl, rfl⟩
        · exact .inr ⟨_, rfl, rfl⟩
  | expiring key ttl totalHits hit =>
      exact .inr ⟨ttl, totalHits, hit, rfl, pexpire_log w.redis _ ttl, rfl, rfl⟩

theorem recorded_mono {log later : List CounterEvent} {hit : Nat} {event : CounterEvent}
    (h : log[hit]? = some event) (hlog : log <+: later) : later[hit]? = some event := by
  obtain ⟨more, rfl⟩ := hlog
  rw [List.getElem?_append_left (List.getElem?_eq_some_iff.mp h).1, h]

theorem IncrementCall.Recorded.mono {call : IncrementCall} {log later : List CounterEvent}
    (h : call.Recorded log) (hlog : log <+: later) : call.Recorded later := by
  cases call with
  | increment key ttl => trivial
  | expiring key ttl totalHits hit => exact recorded_mono h hlog

theorem HitRecorded.lt_length (h : HitRecorded s) {hit : Nat} (hmade : hit ∈ hitsMade s) :
    hit < s.shared.redis.log.length := by
  rcases List.mem_append.mp hmade with hflight | hreturned
  · obtain ⟨call, hmem, hhit⟩ := List.mem_filterMap.mp hflight
    have hrecorded := h.inflight call hmem
    cases call with
    | increment key ttl => cases hhit
    | expiring key ttl totalHits place =>
        cases hhit
        exact (List.getElem?_eq_some_iff.mp hrecorded).1
  · obtain ⟨made, hmem, rfl⟩ := List.mem_map.mp hreturned
    exact (List.getElem?_eq_some_iff.mp (h.returned made hmem)).1

/-- The same hits, in a state with a longer log. -/
theorem HitRecorded.later (h : HitRecorded s) {redis : Counters}
    (hlog : s.shared.redis.log <+: redis.log) :
    HitRecorded { s with shared := { s.shared with redis := redis } } where
  nodup := h.nodup
  inflight call hmem := (h.inflight call hmem).mono hlog
  returned made hmem := recorded_mono (h.returned made hmem) hlog

/-- The state after a step of a call: what the other calls have made stays recorded, and
the new hits, of the call or of what it leaves behind, are recorded and its own. -/
theorem HitRecorded.replace (h : HitRecorded s) {call : IncrementCall}
    {pre post next : List IncrementCall} (hsplit : s.inflight = pre ++ call :: post)
    {after : ThrottleWorld} {more : List Increment}
    (hlog : s.shared.redis.log <+: after.redis.log)
    (hreturned : after.returned = s.shared.returned ++ more)
    (hnodup : (next.filterMap IncrementCall.hit? ++ more.map Increment.hit ++
      ((pre ++ post).filterMap IncrementCall.hit? ++ s.shared.returned.map Increment.hit)).Nodup)
    (hnext : ∀ call ∈ next, call.Recorded after.redis.log)
    (hmore : ∀ made ∈ more, made.Recorded after.redis.log) :
    HitRecorded { shared := after, inflight := pre ++ (next ++ post) } where
  nodup := by
    refine (List.Perm.nodup_iff (List.perm_iff_count.mpr fun hit => ?_)).mp hnodup
    simp only [hitsMade, hreturned, List.filterMap_append, List.map_append, List.count_append]
    omega
  inflight other hmem := by
    have hold : other ∈ s.inflight → other.Recorded after.redis.log := fun hmem =>
      (h.inflight other hmem).mono hlog
    rw [hsplit] at hold
    grind
  returned made hmem := by
    rw [hreturned] at hmem
    rcases List.mem_append.mp hmem with hold | hnew
    · exact recorded_mono (h.returned made hold) hlog
    · exact hmore made hnew

theorem HitRecorded.resume (h : HitRecorded s) {call : IncrementCall} {pre post : List IncrementCall}
    (hsplit : s.inflight = pre ++ call :: post) :
    HitRecorded
      { shared := (call.resume s.shared).1
        inflight := pre ++ ((call.resume s.shared).2 ++ post) } := by
  have hnodup := h.nodup
  rcases increment_cases s.shared call with
    ⟨log, totalHits, hhit, hlog, hnext, hrest⟩ | ⟨ttl, totalHits, hit, heq, hlog, hleft, hreturned⟩
  · -- The new hit comes after everything that is recorded.
    have hfresh : log.length ∉ hitsMade s := fun hmade =>
      Nat.not_lt.mpr hlog.extends.length_le (h.lt_length hmade)
    have hrecorded : (call.resume s.shared).1.redis.log[log.length]? =
        some (.hit (throttlePrefix ++ call.key) totalHits) := by
      rw [hnext, List.getElem?_concat_length]
    have hlater : s.shared.redis.log <+: (call.resume s.shared).1.redis.log :=
      hnext ▸ hlog.extends.trans (List.prefix_append ..)
    simp only [hitsMade, hsplit, List.filterMap_append, List.filterMap_cons, hhit]
      at hnodup hfresh
    rcases hrest with ⟨ttl, hleft, hreturned⟩ | ⟨pttl, hleft, hreturned⟩
    · rw [← List.append_nil s.shared.returned] at hreturned
      refine h.replace hsplit hlater hreturned ?_ ?_ (by simp)
      · rw [hleft, List.filterMap_append]
        exact List.nodup_cons.mpr ⟨hfresh, hnodup⟩
      · rw [hleft]
        exact List.forall_mem_singleton.mpr hrecorded
    · refine h.replace hsplit hlater hreturned ?_ (by simp [hleft]) ?_
      · rw [hleft, List.filterMap_append]
        exact List.nodup_cons.mpr ⟨hfresh, hnodup⟩
      · exact List.forall_mem_singleton.mpr hrecorded
  · have hcall : call.Recorded s.shared.redis.log := h.inflight call (by simp [hsplit])
    rw [heq] at hcall
    refine h.replace hsplit hlog.extends hreturned ?_ (by simp [hleft]) ?_
    · rw [hleft]
      refine (List.Perm.nodup_iff (List.perm_iff_count.mpr fun made => ?_)).mp hnodup
      rw [hitsMade, hsplit, heq]
      simp only [List.filterMap_append, List.filterMap_cons, List.filterMap_nil, List.map_cons,
        List.map_nil, IncrementCall.hit?, List.count_append, List.count_cons, List.count_nil]
      omega
    · exact List.forall_mem_singleton.mpr (recorded_mono hcall hlog.extends)

theorem HitRecorded.step (h : HitRecorded s) (a : ThrottleAction) :
    HitRecorded (throttler.step s a) := by
  rcases throttler.step_cases s a with ⟨call, -, hstart, hnext⟩ |
    ⟨index, input, call, pre, post, -, -, hsplit, -, hnext⟩ |
    ⟨index, call, pre, post, -, -, hsplit, -, hnext⟩ | ⟨event, -, hnext⟩ | ⟨hnext, -⟩
  · cases call with
    | expiring key ttl totalHits hit => cases hstart
    | increment key ttl =>
        rw [hnext]
        refine ⟨?_, List.forall_mem_append.mpr ⟨h.inflight, ?_⟩, h.returned⟩
        · simpa [hitsMade, IncrementCall.hit?, List.filterMap_cons] using h.nodup
        · exact List.forall_mem_singleton.mpr trivial
  · rw [hnext]
    exact h.resume hsplit
  · rw [hnext]
    have hnodup := h.nodup
    have hkept : (pre ++ post).Sublist s.inflight := by simp [hsplit]
    refine ⟨?_, fun other hmem => h.inflight other (hkept.subset hmem), h.returned⟩
    exact hnodup.sublist ((hkept.filterMap _).append_right _)
  · rw [hnext]
    exact h.later (event_log s.shared.redis event).extends
  · rwa [hnext]

/-- The event is a hit. -/
def CounterEvent.IsHit (event : CounterEvent) : Prop :=
  ∃ redisKey totalHits, event = .hit redisKey totalHits

/-- Every hit was made by a call that is in flight or has returned. -/
def AllMade (s : ThrottlePool) : Prop :=
  ∀ place event, s.shared.redis.log[place]? = some event → event.IsHit → place ∈ hitsMade s

theorem OnlyExpired.isHit {log later : List CounterEvent} (h : OnlyExpired log later) {place : Nat}
    {event : CounterEvent} (hevent : later[place]? = some event) (hhit : event.IsHit) :
    log[place]? = some event := by
  obtain ⟨redisKeys, rfl⟩ := h
  by_cases hplace : place < log.length
  · rwa [List.getElem?_append_left hplace] at hevent
  · rw [List.getElem?_append_right (Nat.not_lt.mp hplace)] at hevent
    obtain ⟨key, -, rfl⟩ := List.mem_map.mp (List.mem_of_getElem? hevent)
    obtain ⟨redisKey, totalHits, hnot⟩ := hhit
    cases hnot

theorem AllMade.resume (h : AllMade s) {call : IncrementCall} {pre post : List IncrementCall}
    (hsplit : s.inflight = pre ++ call :: post) :
    AllMade
      { shared := (call.resume s.shared).1
        inflight := pre ++ ((call.resume s.shared).2 ++ post) } := by
  intro place event hevent hhit
  have hmade (hold : s.shared.redis.log[place]? = some event) :
      call.hit? = some place ∨ place ∈ (pre ++ post).filterMap IncrementCall.hit? ∨
        place ∈ s.shared.returned.map Increment.hit := by
    have hmem := h place event hold hhit
    simp only [hitsMade, hsplit, List.filterMap_append, List.filterMap_cons, List.mem_append]
      at hmem ⊢
    cases hcall : call.hit? with
    | none => grind
    | some hit => grind
  have hmore (more : List Nat) (hplace : place ∈ more ∨
      place ∈ (pre ++ post).filterMap IncrementCall.hit? ∨
        place ∈ s.shared.returned.map Increment.hit)
      (hnew : ((call.resume s.shared).2.filterMap IncrementCall.hit? ++
        (call.resume s.shared).1.returned.map Increment.hit).Perm
          (more ++ s.shared.returned.map Increment.hit)) :
      place ∈ (pre ++ ((call.resume s.shared).2 ++ post)).filterMap IncrementCall.hit? ++
        (call.resume s.shared).1.returned.map Increment.hit := by
    have hsame := hnew.mem_iff (a := place)
    simp only [List.filterMap_append, List.mem_append] at hplace hsame ⊢
    grind
  rcases increment_cases s.shared call with
    ⟨log, totalHits, hnone, hlog, hnext, hrest⟩ | ⟨ttl, totalHits, hit, heq, hlog, hleft, hreturned⟩
  · have hplace : place ∈ [log.length] ∨ place ∈ (pre ++ post).filterMap IncrementCall.hit? ∨
        place ∈ s.shared.returned.map Increment.hit := by
      rw [hnext] at hevent
      by_cases hold : place < log.length
      · rw [List.getElem?_append_left hold] at hevent
        have hcall := hmade (hlog.isHit hevent hhit)
        rw [hnone] at hcall
        exact .inr (hcall.resolve_left nofun)
      · rw [List.getElem?_append_right (Nat.not_lt.mp hold)] at hevent
        have hlast := (List.getElem?_eq_some_iff.mp hevent).1
        rw [List.length_singleton] at hlast
        exact .inl (List.mem_singleton.mpr (by omega))
    rcases hrest with ⟨ttl, hleft, hreturned⟩ | ⟨pttl, hleft, hreturned⟩
    · refine hmore _ hplace ?_
      rw [hleft, hreturned]
      exact .refl _
    · refine hmore _ hplace ?_
      rw [hleft, hreturned, List.map_append, List.filterMap_nil, List.nil_append]
      exact List.perm_append_comm
  · have hcall := hmade (hlog.isHit hevent hhit)
    rw [heq] at hcall
    refine hmore [hit] (hcall.imp_left fun hsome => ?_) ?_
    · cases hsome
      exact .head _
    · rw [hleft, hreturned, List.map_append, List.filterMap_nil, List.nil_append]
      exact List.perm_append_comm

/-- No process is lost in the action. -/
theorem AllMade.step (h : AllMade s) {a : ThrottleAction} (hkept : ∀ index, a ≠ .crash index) :
    AllMade (throttler.step s a) := by
  rcases throttler.step_cases s a with ⟨call, -, hstart, hnext⟩ |
    ⟨index, input, call, pre, post, -, -, hsplit, -, hnext⟩ |
    ⟨index, call, pre, post, hcrash, -⟩ | ⟨event, -, hnext⟩ | ⟨hnext, -⟩
  · rw [hnext]
    intro place event hevent hhit
    rw [hitsMade, List.filterMap_append, List.append_assoc]
    rcases List.mem_append.mp (h place event hevent hhit) with hflight | hreturned
    · exact List.mem_append_left _ hflight
    · exact List.mem_append_right _ (List.mem_append_right _ hreturned)
  · rw [hnext]
    exact h.resume hsplit
  · exact absurd hcrash (hkept index)
  · rw [hnext]
    intro place other hother hhit
    exact h place other ((event_log s.shared.redis event).isHit hother hhit) hhit
  · rwa [hnext]

end Returns

section Totals

/-- The numbers that were returned for a key, of its hits in a part of the log. -/
def ThrottleWorld.totals (w : ThrottleWorld) (key : String) (first count : Nat) : List Nat :=
  (w.returned.filter fun made => made.key = key ∧ first ≤ made.hit ∧ made.hit < first + count).map
    fun made => made.result.totalHits

variable {s : ThrottlePool} {store : Store String Nat} {key : String} {first : Nat}
  {window : List CounterEvent}

theorem mem_totals_iff {w : ThrottleWorld} {count n : Nat} :
    n ∈ w.totals key first count ↔ ∃ made ∈ w.returned, made.key = key ∧
      (first ≤ made.hit ∧ made.hit < first + count) ∧ made.result.totalHits = n := by
  simp only [ThrottleWorld.totals, List.mem_map, List.mem_filter, decide_eq_true_iff, and_assoc]

/-- Where a call that returned has hit in a window. -/
theorem HitRecorded.in_window (h : HitRecorded s)
    (hwindow : IsWindow (throttlePrefix ++ key) store s.shared.redis.log first window)
    {made : Increment} (hmade : made ∈ s.shared.returned) (hkey : made.key = key)
    (hplace : first ≤ made.hit ∧ made.hit < first + window.length) :
    window[made.hit - first]? = some (.hit (throttlePrefix ++ key) made.result.totalHits) := by
  rw [← hwindow.getElem? (by omega), Nat.add_sub_cancel' hplace.1, ← hkey]
  exact h.returned made hmade

theorem hitOf_eq_some_iff {redisKey : String} {event : CounterEvent} {n : Nat} :
    event.hitOf redisKey = some n ↔ event = .hit redisKey n := by
  cases event with
  | hit key totalHits => by_cases hkey : key = redisKey <;> simp [CounterEvent.hitOf, hkey]
  | expired key => simp [CounterEvent.hitOf]

theorem mem_hits_iff {redisKey : String} {n : Nat} :
    n ∈ hits redisKey window ↔ .hit redisKey n ∈ window := by
  simp [hits, List.mem_filterMap, hitOf_eq_some_iff]

/-- What is returned for a key within a window are numbers of its hits there, each once. -/
theorem totals_of_window (h : HitRecorded s)
    (hwindow : IsWindow (throttlePrefix ++ key) store s.shared.redis.log first window)
    (hhits : (hits (throttlePrefix ++ key) window).Nodup) :
    (s.shared.totals key first window.length).Nodup ∧
      s.shared.totals key first window.length ⊆ hits (throttlePrefix ++ key) window := by
  have hplaces : (s.shared.returned.map Increment.hit).Nodup :=
    h.nodup.sublist (List.sublist_append_right ..)
  constructor
  · refine List.Nodup.map_on (fun made hmade other hother hsame => ?_) (hplaces.of_map.filter _)
    rw [List.mem_filter, decide_eq_true_iff] at hmade hother
    have hhere := h.in_window hwindow hmade.1 hmade.2.1 hmade.2.2
    have hthere := h.in_window hwindow hother.1 hother.2.1 hother.2.2
    have hplace := place_unique hhits hhere hthere (hitOf_eq_some_iff.mpr rfl)
      (hitOf_eq_some_iff.mpr (by rw [hsame]))
    exact List.inj_on_of_nodup_map hplaces hmade.1 hother.1 (by omega)
  · intro n hn
    obtain ⟨made, hmade, hkey, hplace, rfl⟩ := mem_totals_iff.mp hn
    exact mem_hits_iff.mpr (List.mem_of_getElem? (h.in_window hwindow hmade hkey hplace))

/-- With no process lost and no call under way, they are the numbers of all its hits. -/
theorem hits_subset_totals (h : HitRecorded s) (hmade : AllMade s) (hsettled : s.inflight = [])
    (hwindow : IsWindow (throttlePrefix ++ key) store s.shared.redis.log first window) :
    hits (throttlePrefix ++ key) window ⊆ s.shared.totals key first window.length := by
  intro n hn
  obtain ⟨place, hplace, hevent⟩ := List.mem_iff_getElem.mp (mem_hits_iff.mp hn)
  have hlog : s.shared.redis.log[first + place]? = some (.hit (throttlePrefix ++ key) n) := by
    rw [hwindow.getElem? hplace, List.getElem?_eq_getElem hplace, hevent]
  have hhit := hmade _ _ hlog ⟨_, _, rfl⟩
  rw [hitsMade, hsettled, List.filterMap_nil, List.nil_append] at hhit
  obtain ⟨made, hmem, hat⟩ := List.mem_map.mp hhit
  have hrecorded : s.shared.redis.log[made.hit]? = _ := h.returned made hmem
  rw [hat, hlog, Option.some.injEq, CounterEvent.hit.injEq, String.append_right_inj] at hrecorded
  exact mem_totals_iff.mpr ⟨made, hmem, hrecorded.1.symm, by omega, hrecorded.2.symm⟩

end Totals

section Expiry

/-- A counter that is found has an expiry. -/
def Counters.Expires (redis : Counters) (redisKey : String) : Prop :=
  ∀ entry, redis.store redisKey = some entry → entry.expiresAt.isSome

variable {w : ThrottleWorld} {call : IncrementCall}

/-- A call that comes to its end leaves its counter with an expiry. -/
theorem expires_of_returned (h : (call.resume w).2 = []) :
    (call.resume w).1.redis.Expires (throttlePrefix ++ call.key) := by
  intro entry hentry
  rw [resume_redis] at hentry
  cases call with
  | increment key ttl =>
      simp only [IncrementCall.resume] at h
      split at h
      · cases h
      · rename_i hpttl
        simp only [IncrementCall.command, RedisCommand.exec, IncrementCall.key] at hentry
        simp only [Counters.multi] at hentry hpttl
        unfold Counters.pttl at hpttl
        rw [hentry] at hpttl
        obtain ⟨value, expiresAt⟩ := entry
        cases expiresAt with
        | none => exact absurd (show (-1 : Int) < 0 by omega) hpttl
        | some at_ => rfl
  | expiring key ttl totalHits hit =>
      simp only [IncrementCall.command, RedisCommand.exec, IncrementCall.key,
        Counters.pexpire] at hentry
      split at hentry
      · rename_i hnone
        rw [hnone] at hentry
        cases hentry
      · split at hentry
        · simp [Counters.expire] at hentry
        · cases (Store.set_self ..).symm.trans hentry
          rfl

/-- For every key: in every window of its counter the hits are numbered from 1 on, and what is
returned for the key are numbers of these hits, each at most once, and all of them when no process
has been lost and no call is under way; the calls with other keys play no part; and a call that
ends leaves an expiry. -/
theorem increment_counts (now : Nat) (store : Store String Nat) (actions : List ThrottleAction) :
    let start : ThrottlePool := ⟨.start now store, []⟩
    let s := throttler.run actions start
    (∀ key first window, IsWindow (throttlePrefix ++ key) store s.shared.redis.log first window →
      let numbers := hits (throttlePrefix ++ key) window
      let totals := s.shared.totals key first window.length
      numbers = List.range' 1 numbers.length ∧ totals.Nodup ∧ totals ⊆ numbers ∧
        (∀ limit, totals.countP (· ≤ limit) ≤ limit) ∧
        ((∀ index, .crash index ∉ actions) → s.inflight = [] → totals.Perm numbers)) ∧
    ((s.shared.returned.map Increment.hit).Nodup ∧
      ∀ made ∈ s.shared.returned, made.Recorded s.shared.redis.log) ∧
    (∀ key, ∃ alone : Counters,
      alone = (throttleCommands (·.key = key) actions start).foldl
        (fun redis command => command.exec redis) start.shared.redis ∧
      s.shared.redis.view (throttlePrefix ++ key) = alone.view (throttlePrefix ++ key) ∧
      (s.shared.redis.multi (throttlePrefix ++ key)).1 =
        (alone.multi (throttlePrefix ++ key)).1) ∧
    ∀ call ∈ s.inflight, (call.resume s.shared).2 = [] →
      (call.resume s.shared).1.redis.Expires (throttlePrefix ++ call.key) := by
  intro start s
  have hrecorded : HitRecorded s :=
    List.foldlRecOn actions throttler.step ⟨List.nodup_nil, nofun, nofun⟩
      fun _ h a _ => h.step a
  refine ⟨fun key first window hwindow => ?_, ⟨?_, hrecorded.returned⟩, fun key => ?_,
    fun call _ h => expires_of_returned h⟩
  · have hcounted : Counted (throttlePrefix ++ key)
        (start.shared.redis.value (throttlePrefix ++ key)) s.shared.redis :=
      Counted.run actions ⟨trivial, rfl⟩
    have hhits := hcounted.numbered.window (fun hnone => by
      simp only [start, ThrottleWorld.start, Counters.value, hnone, Option.elim_none]) hwindow
    have hnodup := hits_nodup_of_window hhits
    obtain ⟨honce, hsubset⟩ := totals_of_window hrecorded hwindow hnodup
    refine ⟨hhits, honce, hsubset, fun limit => ?_, fun hkept hsettled => ?_⟩
    · have hcount := (List.subperm_of_subset honce hsubset).countP_le (· ≤ limit)
      rw [hhits] at hcount
      exact Nat.le_trans hcount (countP_range'_le limit _)
    · have hmade : AllMade s :=
        List.foldlRecOn actions throttler.step nofun
          fun _ h a hmem => h.step fun index hcrash => hkept index (hcrash ▸ hmem)
      exact (List.perm_ext_iff_of_nodup honce hnodup).mpr fun n =>
        ⟨fun hn => hsubset hn, fun hn => hits_subset_totals hrecorded hmade hsettled hwindow hn⟩
  · exact hrecorded.nodup.sublist (List.sublist_append_right ..)
  · have hview := view_ofKey key actions start
    exact ⟨_, rfl, hview, (view_multi hview).2⟩

/-- Two keys; one call of each comes while the other one's first is under way. -/
def twoKeys : List ThrottleAction :=
  [.begin (.increment "a" 10000), .begin (.increment "b" 10000), .begin (.increment "a" 10000),
    .resume 0 (), .resume 1 (), .resume 2 (), .resume 0 (), .resume 0 (), .resume 0 (),
    .external (.tick 8500), .begin (.increment "a" 10000), .resume 0 ()]

/-- Each key is counted on its own. -/
theorem two_keys_counted :
    let w := (throttler.run twoKeys ⟨.start 0 Store.empty, []⟩).shared
    (w.totals "a" 0 4).Perm [1, 2, 3] ∧ (w.totals "b" 0 4).Perm [1] := by
  have hcounts := (increment_counts 0 Store.empty twoKeys).1
  have hcrash : ∀ index, .crash index ∉ twoKeys := by simp [twoKeys]
  exact ⟨(hcounts "a" 0 _ ⟨by decide, .inr ⟨rfl, rfl, [], (List.append_nil _).symm⟩⟩).2.2.2.2
      hcrash (by decide),
    (hcounts "b" 0 _ ⟨by decide, .inr ⟨rfl, rfl, [], (List.append_nil _).symm⟩⟩).2.2.2.2
      hcrash (by decide)⟩

end Expiry

end ChainSettle
