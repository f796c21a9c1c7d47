import ChainSettle.Lib.Pool
import ChainSettle.Lib.Store

/-!
The throttler's storage: `increment`, on counters that all instances share in Redis. A
call sends `INCR` and `PTTL` as one transaction; when the counter has no expiry it then
sends `PEXPIRE`, and other calls can come between, or the process can end.

Redis executes each of the two without failing. A key is past its expiry from the
millisecond after it on; Redis deletes it when a command names it next, or on its own at
some time. Every deletion is recorded, and so is every hit, with the number it was
given. Numbers stay small enough for Redis and JavaScript to be exact.
-/

namespace ChainSettle

open Lib

section Redis

inductive CounterEvent where
  | hit (redisKey : String) (totalHits : Nat)
  | expired (redisKey : String)
deriving DecidableEq

def CounterEvent.redisKey : CounterEvent → String
  | .hit redisKey _ | .expired redisKey => redisKey

/-- The counters in Redis, and what has happened to them, the latest last. -/
structure Counters where
  /-- in milliseconds, as all times here -/
  now : Nat
  store : Store String Nat
  log : List CounterEvent

namespace Counters

variable (redis : Counters) (redisKey : String)

def expire : Counters :=
  { redis with store := redis.store.del redisKey, log := redis.log ++ [.expired redisKey] }

def expireIfNeeded : Counters :=
  match redis.store redisKey with
  | some ⟨_, some at_⟩ => if at_ < redis.now then redis.expire redisKey else redis
  | _ => redis

/-- `INCR` of a key that is not past its expiry. -/
def incr : Nat × Counters :=
  let (value, expiresAt) : Nat × Option Nat :=
    match redis.store redisKey with
    | some entry => (entry.value, entry.expiresAt)
    | none => (0, none)
  (value + 1,
    { redis with
      store := redis.store.set redisKey (value + 1) expiresAt
      log := redis.log ++ [.hit redisKey (value + 1)] })

/-- `PTTL`: -2 without the key, -1 without an expiry. -/
def pttl : Int :=
  match redis.store redisKey with
  | none => -2
  | some ⟨_, none⟩ => -1
  | some ⟨_, some at_⟩ => (at_ - redis.now : Nat)

/-- `MULTI`, `INCR`, `PTTL`, `EXEC`, with both replies. -/
def multi : (Nat × Int) × Counters :=
  let (totalHits, redis) := (redis.expireIfNeeded redisKey).incr redisKey
  ((totalHits, redis.pttl redisKey), redis)

/-- `PEXPIRE`. A time that is over deletes the key. -/
def pexpire (ttl : Int) : Counters :=
  let redis := redis.expireIfNeeded redisKey
  match redis.store redisKey with
  | none => redis
  | some entry =>
      if ttl ≤ 0 then redis.expire redisKey
      else
        { redis with
          store := redis.store.set redisKey entry.value (some (redis.now + ttl.toNat)) }

end Counters

/-- What Redis does, for a client or on its own. -/
inductive RedisCommand where
  | multi (redisKey : String)
  | pexpire (redisKey : String) (ttl : Int)
  | activeExpire (redisKey : String)
  | tick (ms : Nat)
deriving DecidableEq

def RedisCommand.exec (redis : Counters) : RedisCommand → Counters
  | .multi redisKey => (redis.multi redisKey).2
  | .pexpire redisKey ttl => redis.pexpire redisKey ttl
  | .activeExpire redisKey => redis.expireIfNeeded redisKey
  | .tick ms => { redis with now := redis.now + ms }

end Redis

section Increment

def throttlePrefix : String := "throttle:"

/-- What `increment` returns; the time in seconds. -/
structure IncrementResult where
  totalHits : Nat
  timeToExpire : Nat
deriving DecidableEq

/-- `Math.ceil(pttl / 1000)` -/
def incrementResult (totalHits : Nat) (pttl : Int) : IncrementResult :=
  ⟨totalHits, if 0 < pttl then (pttl.toNat + 999) / 1000 else 0⟩

inductive IncrementCall where
  | increment (key : String) (ttl : Int)
  /-- The counter had no expiry; `hit` is where the call's hit is recorded. -/
  | expiring (key : String) (ttl : Int) (totalHits hit : Nat)
deriving DecidableEq

def IncrementCall.key : IncrementCall → String
  | .increment key _ | .expiring key _ _ _ => key

/-- A call that has returned, with the place of its hit. -/
structure Increment where
  key : String
  hit : Nat
  result : IncrementResult
deriving DecidableEq

structure ThrottleWorld where
  redis : Counters
  returned : List Increment

def ThrottleWorld.start (now : Nat) (store : Store String Nat) : ThrottleWorld :=
  ⟨⟨now, store, []⟩, []⟩

def ThrottleWorld.return (w : ThrottleWorld) (key : String) (hit : Nat)
    (result : IncrementResult) : ThrottleWorld :=
  { w with returned := w.returned ++ [⟨key, hit, result⟩] }

/-- What a call sends next. -/
def IncrementCall.command : IncrementCall → RedisCommand
  | .increment key _ => .multi (throttlePrefix ++ key)
  | .expiring key ttl _ _ => .pexpire (throttlePrefix ++ key) ttl

def IncrementCall.resume (w : ThrottleWorld) (call : IncrementCall) :
    ThrottleWorld × List IncrementCall :=
  let next : ThrottleWorld := { w with redis := call.command.exec w.redis }
  match call with
  | .increment key ttl =>
      let (totalHits, pttl) := (w.redis.multi (throttlePrefix ++ key)).1
      let hit := next.redis.log.length - 1
      if pttl < 0 then (next, [.expiring key ttl totalHits hit])
      else (next.return key hit (incrementResult totalHits pttl), [])
  | .expiring key ttl totalHits hit =>
      (next.return key hit (incrementResult totalHits ttl), [])

/-- What Redis does on its own. -/
inductive RedisEvent where
  | activeExpire (redisKey : String)
  | tick (ms : Nat)
deriving DecidableEq

def RedisEvent.command : RedisEvent → RedisCommand
  | .activeExpire redisKey => .activeExpire redisKey
  | .tick ms => .tick ms

def throttler : PoolSystem ThrottleWorld IncrementCall Unit RedisEvent where
  starts
    | .increment _ _ => true
    | _ => false
  resume _ w call := call.resume w
  external event w := { w with redis := event.command.exec w.redis }

abbrev ThrottlePool := Pool ThrottleWorld IncrementCall

abbrev ThrottleAction := PoolAction IncrementCall Unit RedisEvent

/-- The command that Redis executes in an action, if any, for some of the calls or on its own. -/
def throttleCommand (ofCalls : IncrementCall → Bool) (s : ThrottlePool) :
    ThrottleAction → Option RedisCommand
  | .resume index _ => (s.inflight[index]?.filter ofCalls).map IncrementCall.command
  | .external event => some event.command
  | _ => none

end Increment

end ChainSettle
