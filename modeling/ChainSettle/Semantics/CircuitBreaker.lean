import ChainSettle.Lib.Pool

/-!
The circuit breaker. `exec` runs up to the wrapped call in one go and goes on when
that call has settled, which may be any time later; any number of calls are under
way. The clock may be read as anything.
-/

namespace ChainSettle

open Lib

section Breaker

inductive CircuitState where
  | closed | opened | halfOpen
deriving DecidableEq

structure CircuitBreakerOptions where
  failureThreshold : Nat
  /-- in milliseconds, as all times here -/
  cooldownMs : Nat
deriving DecidableEq

structure CircuitBreaker where
  name : String
  options : CircuitBreakerOptions
  state : CircuitState
  consecutiveFailures : Nat
  openedAt : Option Nat
  trialInFlight : Bool
  lastError : Option String
deriving DecidableEq

namespace CircuitBreaker

def new (name : String) (options : CircuitBreakerOptions) : CircuitBreaker where
  name := name
  options := options
  state := .closed
  consecutiveFailures := 0
  openedAt := none
  trialInFlight := false
  lastError := none

variable (breaker : CircuitBreaker)

def maybeHalfOpen (now : Nat) : CircuitBreaker :=
  if breaker.state = .opened ∧ breaker.openedAt.any fun t => t + breaker.options.cooldownMs ≤ now then
    { breaker with state := .halfOpen }
  else breaker

/-- Calls are short-circuited. -/
def isOpen (now : Nat) : Bool := (breaker.maybeHalfOpen now).state = .opened

def onSuccess : CircuitBreaker :=
  { breaker with
    state := .closed, consecutiveFailures := 0, openedAt := none, lastError := none }

/-- A failure trips the breaker in a trial, or when there are too many. -/
def trips : Bool :=
  breaker.state = .halfOpen || breaker.options.failureThreshold ≤ breaker.consecutiveFailures + 1

def onFailure (now : Nat) (error : String) : CircuitBreaker :=
  let failed := { breaker with
    consecutiveFailures := breaker.consecutiveFailures + 1, lastError := some error }
  if breaker.trips then { failed with state := .opened, openedAt := some now } else failed

/-- The `finally` of a call. -/
def settled (isTrial : Bool) : CircuitBreaker :=
  if isTrial then { breaker with trialInFlight := false } else breaker

end CircuitBreaker

end Breaker

section Calls

inductive BreakerCall where
  | exec
  /-- the wrapped function has been started, in a state of the breaker -/
  | running (isTrial : Bool) (startedIn : CircuitState)
deriving DecidableEq

/-- What happened, with the clock's reading. -/
inductive BreakerEvent where
  | started (now : Nat)
  | opened (now : Nat)
  | succeeded
  | failed (error : String)
  /-- `CircuitOpenError` -/
  | refused (message : String)
deriving DecidableEq

structure BreakerWorld where
  breaker : CircuitBreaker
  now : Nat
  /-- the latest first -/
  log : List BreakerEvent
deriving DecidableEq

/-- What the wrapped function settles with: nothing, or a message. -/
abbrev CallResult := Option String

def BreakerWorld.refuse (w : BreakerWorld) : BreakerWorld :=
  { w with log := .refused ("Circuit '" ++ w.breaker.name ++ "' is open — skipping call") :: w.log }

def BreakerCall.resume (result : CallResult) (w : BreakerWorld) :
    BreakerCall → BreakerWorld × List BreakerCall
  | .exec =>
      let breaker := w.breaker.maybeHalfOpen w.now
      let w := { w with breaker := breaker }
      if breaker.state = .opened then (w.refuse, [])
      else
        let isTrial := decide (breaker.state = .halfOpen)
        if isTrial ∧ breaker.trialInFlight then (w.refuse, [])
        else
          ({ w with
            breaker := { breaker with trialInFlight := isTrial || breaker.trialInFlight }
            log := .started w.now :: w.log }, [.running isTrial breaker.state])
  | .running isTrial _ =>
      match result with
      | none =>
          ({ w with
            breaker := w.breaker.onSuccess.settled isTrial, log := .succeeded :: w.log }, [])
      | some error =>
          let openings := if w.breaker.trips then [.opened w.now] else []
          ({ w with
            breaker := (w.breaker.onFailure w.now error).settled isTrial
            log := .failed error :: (openings ++ w.log) }, [])

/-- Events other than calls: the clock shows another time, and `isOpen`, `getState`
and `getSnapshot` are asked, which all begin with `maybeHalfOpen`. -/
inductive BreakerOther where
  | clock (reading : Nat)
  | getState
deriving DecidableEq

def BreakerOther.apply (w : BreakerWorld) : BreakerOther → BreakerWorld
  | .clock reading => { w with now := reading }
  | .getState => { w with breaker := w.breaker.maybeHalfOpen w.now }

def circuit : PoolSystem BreakerWorld BreakerCall CallResult BreakerOther where
  starts call := call = .exec
  resume result w call := call.resume result w
  external event w := event.apply w

abbrev BreakerPool := Pool BreakerWorld BreakerCall

abbrev BreakerAction := PoolAction BreakerCall CallResult BreakerOther

def freshBreaker (name : String) (options : CircuitBreakerOptions) (now : Nat) : BreakerPool where
  shared := ⟨.new name options, now, []⟩
  inflight := []

end Calls

end ChainSettle
