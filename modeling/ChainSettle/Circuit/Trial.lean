import ChainSettle.Semantics.CircuitBreaker

/-!
The trial call of a half-open breaker. Calls that were started while it was closed
settle later and move the state underneath a running trial; the flag stays in step
with the trial all the same, so there is never a second one, and none is left behind
that would have calls refused for ever.
-/

namespace ChainSettle

open Lib

section Trial

/-- What can happen to a breaker. Its process holds it and its calls, so none of them
is lost alone; one that never settles is simply not gone on with. -/
inductive BreakerMove where
  | call
  | resume (index : Nat) (result : CallResult)
  | other (event : BreakerOther)
deriving DecidableEq

def BreakerMove.action : BreakerMove → BreakerAction
  | .call => .begin .exec
  | .resume index result => .resume index result
  | .other event => .external event

/-- The state in which the function of a running call was started. -/
def BreakerCall.startedIn : BreakerCall → Option CircuitState
  | .exec => none
  | .running _ startedIn => some startedIn

/-- How many calls were started while the breaker was half-open. -/
def trialsInFlight (calls : List BreakerCall) : Nat :=
  calls.countP fun call => call.startedIn = some .halfOpen

structure TrialSound (s : BreakerPool) : Prop where
  flag : trialsInFlight s.inflight = if s.shared.breaker.trialInFlight then 1 else 0
  /-- a call resets the flag if it was started as a trial -/
  labelled : ∀ isTrial startedIn, .running isTrial startedIn ∈ s.inflight →
    isTrial = decide (startedIn = .halfOpen)
  /-- an open breaker knows when its cool-down ends -/
  opened : s.shared.breaker.state = .opened → s.shared.breaker.openedAt.isSome

variable {breaker : CircuitBreaker} {now : Nat}

theorem trialInFlight_maybeHalfOpen :
    (breaker.maybeHalfOpen now).trialInFlight = breaker.trialInFlight := by
  unfold CircuitBreaker.maybeHalfOpen
  split <;> rfl

theorem openedAt_maybeHalfOpen : (breaker.maybeHalfOpen now).openedAt = breaker.openedAt := by
  unfold CircuitBreaker.maybeHalfOpen
  split <;> rfl

theorem opened_of_maybeHalfOpen (h : (breaker.maybeHalfOpen now).state = .opened) :
    breaker.state = .opened := by
  unfold CircuitBreaker.maybeHalfOpen at h
  split at h
  · cases h
  · exact h

theorem trialInFlight_onFailure (error : String) :
    (breaker.onFailure now error).trialInFlight = breaker.trialInFlight := by
  unfold CircuitBreaker.onFailure
  dsimp only
  split <;> rfl

theorem isSome_openedAt_onFailure (error : String)
    (hsome : breaker.state = .opened → breaker.openedAt.isSome)
    (h : (breaker.onFailure now error).state = .opened) :
    (breaker.onFailure now error).openedAt.isSome := by
  unfold CircuitBreaker.onFailure at h ⊢
  cases htrips : breaker.trips with
  | true => rfl
  | false =>
      simp only [htrips, Bool.false_eq_true, if_false] at h ⊢
      exact hsome h

/-- The `finally` resets the flag of a trial, and leaves it to the others. -/
theorem trialInFlight_settled (isTrial : Bool) :
    (breaker.settled isTrial).trialInFlight = (!isTrial && breaker.trialInFlight) := by
  cases isTrial <;> rfl

theorem openedAt_settled (isTrial : Bool) : (breaker.settled isTrial).openedAt = breaker.openedAt := by
  cases isTrial <;> rfl

theorem state_settled (isTrial : Bool) : (breaker.settled isTrial).state = breaker.state := by
  cases isTrial <;> rfl

variable {w : BreakerWorld}

/-- What a call under way does to the flag when it settles. -/
theorem trialInFlight_running (isTrial : Bool) (startedIn : CircuitState) (result : CallResult) :
    ((BreakerCall.running isTrial startedIn).resume result w).1.breaker.trialInFlight =
        (!isTrial && w.breaker.trialInFlight) ∧
      ((BreakerCall.running isTrial startedIn).resume result w).2 = [] := by
  cases result with
  | none => exact ⟨trialInFlight_settled isTrial, rfl⟩
  | some error =>
      refine ⟨?_, rfl⟩
      simp only [BreakerCall.resume, trialInFlight_settled, trialInFlight_onFailure]

theorem opened_running (isTrial : Bool) (startedIn : CircuitState) (result : CallResult)
    (hsome : w.breaker.state = .opened → w.breaker.openedAt.isSome)
    (h : ((BreakerCall.running isTrial startedIn).resume result w).1.breaker.state = .opened) :
    ((BreakerCall.running isTrial startedIn).resume result w).1.breaker.openedAt.isSome := by
  cases result with
  | none =>
      have hclosed : w.breaker.onSuccess.state = .opened := (state_settled isTrial).symm.trans h
      cases hclosed
  | some error =>
      have hstate := (state_settled isTrial).symm.trans h
      have hfailed := isSome_openedAt_onFailure error hsome hstate
      simpa only [BreakerCall.resume, openedAt_settled] using hfailed

/-- Everything an `exec` can do before it waits: it is refused by an open breaker, or
by a half-open one whose trial is under way, and else starts its function, as the
trial if the breaker is half-open. -/
theorem exec_cases (result : CallResult) (w : BreakerWorld) :
    (((w.breaker.maybeHalfOpen w.now).state = .opened ∨
        (w.breaker.maybeHalfOpen w.now).state = .halfOpen ∧ w.breaker.trialInFlight = true) ∧
      BreakerCall.exec.resume result w =
        ({ w with breaker := w.breaker.maybeHalfOpen w.now }.refuse, [])) ∨
    ∃ isTrial, isTrial = decide ((w.breaker.maybeHalfOpen w.now).state = .halfOpen) ∧
      (w.breaker.maybeHalfOpen w.now).state ≠ .opened ∧
      (isTrial = true → w.breaker.trialInFlight = false) ∧
      BreakerCall.exec.resume result w =
        ({ w with
          breaker := { w.breaker.maybeHalfOpen w.now with
            trialInFlight := isTrial || w.breaker.trialInFlight }
          log := .started w.now :: w.log },
          [.running isTrial (w.breaker.maybeHalfOpen w.now).state]) := by
  have hflag := @trialInFlight_maybeHalfOpen w.breaker w.now
  by_cases hopen : (w.breaker.maybeHalfOpen w.now).state = .opened
  · exact .inl ⟨.inl hopen, by simp only [BreakerCall.resume, hopen, if_true]⟩
  · by_cases hbusy : (w.breaker.maybeHalfOpen w.now).state = .halfOpen ∧
      w.breaker.trialInFlight = true
    · refine .inl ⟨.inr hbusy, ?_⟩
      simp [BreakerCall.resume, hbusy.1, hbusy.2, hflag]
    · refine .inr ⟨decide ((w.breaker.maybeHalfOpen w.now).state = .halfOpen), rfl,
        hopen, fun htrial => ?_, ?_⟩
      · have hhalf := of_decide_eq_true htrial
        exact eq_false_of_ne_true fun hset => hbusy ⟨hhalf, hset⟩
      · simp only [BreakerCall.resume, hopen, if_false, hflag, decide_eq_true_eq]
        exact if_neg hbusy

theorem trialsInFlight_append (calls others : List BreakerCall) :
    trialsInFlight (calls ++ others) = trialsInFlight calls + trialsInFlight others :=
  List.countP_append

theorem trialsInFlight_running {isTrial : Bool} {startedIn : CircuitState}
    (h : isTrial = decide (startedIn = .halfOpen)) :
    trialsInFlight [.running isTrial startedIn] = if isTrial then 1 else 0 := by
  subst h
  cases startedIn <;> rfl

/-- One step of a call, between the others. -/
theorem trialSound_resume {s : BreakerPool} (h : TrialSound s) (result : CallResult)
    (call : BreakerCall) {pre post : List BreakerCall} (hsplit : s.inflight = pre ++ call :: post) :
    TrialSound ⟨(call.resume result s.shared).1, pre ++ ((call.resume result s.shared).2 ++ post)⟩ := by
  have hflag := h.flag
  rw [hsplit, ← List.singleton_append, trialsInFlight_append, trialsInFlight_append] at hflag
  have hothers : ∀ isTrial startedIn, .running isTrial startedIn ∈ pre ++ post →
      isTrial = decide (startedIn = .halfOpen) := by
    intro isTrial startedIn hmem
    refine h.labelled isTrial startedIn (hsplit ▸ ?_)
    exact (List.Sublist.append_left (List.sublist_cons_self _ _) _).subset hmem
  cases call with
  | exec =>
      have hnone : trialsInFlight [.exec] = 0 := rfl
      rcases exec_cases result s.shared with ⟨-, hnext⟩ | ⟨isTrial, hlabel, hopen, hfree, hnext⟩
      · rw [hnext]
        refine ⟨?_, hothers, fun hstate => ?_⟩
        · change trialsInFlight (pre ++ post) =
            if (s.shared.breaker.maybeHalfOpen s.shared.now).trialInFlight then 1 else 0
          rw [trialInFlight_maybeHalfOpen, trialsInFlight_append]
          omega
        · have hopened := h.opened (opened_of_maybeHalfOpen hstate)
          exact (congrArg _ openedAt_maybeHalfOpen).trans hopened
      · rw [hnext]
        refine ⟨?_, ?_, fun hstate => absurd hstate hopen⟩
        · rw [trialsInFlight_append, trialsInFlight_append, trialsInFlight_running hlabel]
          cases hlabelled : isTrial with
          | true =>
              rw [hfree hlabelled, if_neg Bool.false_ne_true] at hflag
              simp
              omega
          | false =>
              rw [Bool.false_or, if_neg Bool.false_ne_true]
              change trialsInFlight pre + (0 + trialsInFlight post) =
                if s.shared.breaker.trialInFlight then 1 else 0
              omega
        · intro other startedIn hmem
          rcases List.mem_append.mp hmem with hpre | hrest
          · exact hothers other startedIn (List.mem_append_left _ hpre)
          · rcases List.mem_append.mp hrest with hnew | hpost
            · cases List.mem_singleton.mp hnew
              exact hlabel
            · exact hothers other startedIn (List.mem_append_right _ hpost)
  | running isTrial startedIn =>
      obtain ⟨hafter, hnone⟩ := @trialInFlight_running s.shared isTrial startedIn result
      have hlabel := h.labelled isTrial startedIn (hsplit ▸ List.mem_append_right _ (.head _))
      rw [trialsInFlight_running hlabel] at hflag
      refine ⟨?_, ?_, opened_running isTrial startedIn result h.opened⟩
      · rw [hnone, hafter, List.nil_append, trialsInFlight_append]
        cases isTrial with
        | true =>
            have hset : s.shared.breaker.trialInFlight = true := by
              by_contra hnot
              rw [if_neg hnot] at hflag
              simp at hflag
            rw [if_pos rfl, if_pos hset] at hflag
            rw [Bool.not_true, Bool.false_and, if_neg Bool.false_ne_true]
            omega
        | false =>
            rw [if_neg Bool.false_ne_true] at hflag
            rw [Bool.not_false, Bool.true_and]
            omega
      · rw [hnone, List.nil_append]
        exact hothers

theorem trialSound_step {s : BreakerPool} (h : TrialSound s) (move : BreakerMove) :
    TrialSound (circuit.step s move.action) := by
  rcases circuit.step_cases s move.action with ⟨call, -, hstart, hnext⟩ |
    ⟨index, result, call, pre, post, -, -, hsplit, -, hnext⟩ |
    ⟨index, call, pre, post, hcrash, -, -, -, -⟩ | ⟨event, -, hnext⟩ | ⟨hnext, -⟩
  · have hexec : call = .exec := of_decide_eq_true hstart
    subst hexec
    rw [hnext]
    refine ⟨(trialsInFlight_append _ _).trans h.flag, fun isTrial startedIn hmem => ?_, h.opened⟩
    rcases List.mem_append.mp hmem with hold | hnew
    · exact h.labelled isTrial startedIn hold
    · cases List.mem_singleton.mp hnew
  · rw [hnext]
    exact trialSound_resume h result call hsplit
  · cases move <;> cases hcrash
  · rw [hnext]
    cases event with
    | clock reading => exact ⟨h.flag, h.labelled, h.opened⟩
    | getState =>
        refine ⟨h.flag.trans ?_, h.labelled, fun hstate => ?_⟩
        · rw [← @trialInFlight_maybeHalfOpen s.shared.breaker s.shared.now]
          rfl
        · have hopened := h.opened (opened_of_maybeHalfOpen hstate)
          exact (congrArg _ openedAt_maybeHalfOpen).trans hopened
  · rwa [hnext]

theorem trialSound_run (name : String) (options : CircuitBreakerOptions) (now : Nat)
    (moves : List BreakerMove) :
    TrialSound (circuit.run (moves.map BreakerMove.action) (freshBreaker name options now)) := by
  have hfresh : TrialSound (freshBreaker name options now) := ⟨rfl, nofun, nofun⟩
  unfold PoolSystem.run
  rw [List.foldl_map]
  exact List.foldlRecOn moves _ hfresh fun s hs move _ => trialSound_step hs move

/-- An `exec` that meets a half-open breaker while a trial is under way. -/
theorem exec_refused_in_trial {s : BreakerPool} (h : TrialSound s)
    (htrial : 0 < trialsInFlight s.inflight)
    (hhalf : (s.shared.breaker.maybeHalfOpen s.shared.now).state = .halfOpen) (result : CallResult) :
    (BreakerCall.exec.resume result s.shared).2 = [] ∧
      (BreakerCall.exec.resume result s.shared).1.log =
        .refused ("Circuit '" ++ (s.shared.breaker.maybeHalfOpen s.shared.now).name ++
          "' is open — skipping call") :: s.shared.log := by
  have hset : s.shared.breaker.trialInFlight = true := by
    by_contra hnot
    have hnone := h.flag
    rw [if_neg hnot] at hnone
    omega
  rcases exec_cases result s.shared with ⟨-, hnext⟩ | ⟨isTrial, hlabel, -, hfree, -⟩
  · rw [hnext]
    exact ⟨rfl, rfl⟩
  · have hclear := hfree (hlabel.trans (decide_eq_true hhalf))
    rw [hset] at hclear
    cases hclear

/-- With nothing under way and the cool-down over, a call is let through. -/
theorem exec_starts_after_cooldown {s : BreakerPool} (h : TrialSound s)
    (hsettled : ∀ call ∈ s.inflight, call.startedIn = none) (reading : Nat)
    (hcooled : ∀ t ∈ s.shared.breaker.openedAt,
      t + s.shared.breaker.options.cooldownMs ≤ reading) (result : CallResult) :
    (∃ call, (BreakerCall.exec.resume result { s.shared with now := reading }).2 = [call] ∧
        call.startedIn = some (s.shared.breaker.maybeHalfOpen reading).state) ∧
      (BreakerCall.exec.resume result { s.shared with now := reading }).1.log =
        .started reading :: s.shared.log := by
  have hnone : trialsInFlight s.inflight = 0 :=
    List.countP_eq_zero.mpr fun call hmem => by rw [hsettled call hmem]; simp
  have hclear : s.shared.breaker.trialInFlight = false := by
    by_contra hset
    have hone := h.flag
    rw [if_pos (eq_true_of_ne_false hset), hnone] at hone
    cases hone
  have hclosed : (s.shared.breaker.maybeHalfOpen reading).state ≠ .opened := by
    intro hopen
    have hstate := opened_of_maybeHalfOpen hopen
    obtain ⟨t, ht⟩ := Option.isSome_iff_exists.mp (h.opened hstate)
    simp [CircuitBreaker.maybeHalfOpen, hstate, ht, hcooled t ht] at hopen
  rcases exec_cases result { s.shared with now := reading } with ⟨hopen | hbusy, -⟩ |
    ⟨isTrial, -, -, -, hnext⟩
  · exact absurd hopen hclosed
  · exact absurd (hclear.symm.trans hbusy.2) nofun
  · rw [hnext]
    exact ⟨⟨_, rfl, rfl⟩, rfl⟩

/-- In every state of every run the flag is set exactly while one call that was started in
`HALF_OPEN` is under way, and there is no second one; a call that then finds the breaker half-open
is refused and its function not started; and when all calls have settled, the breaker lets one
through at every instant at which the cool-down is over. -/
theorem single_trial_in_flight (name : String) (options : CircuitBreakerOptions) (now : Nat)
    (moves : List BreakerMove) (result : CallResult) :
    let s := circuit.run (moves.map BreakerMove.action) (freshBreaker name options now)
    (trialsInFlight s.inflight = if s.shared.breaker.trialInFlight then 1 else 0) ∧
      (0 < trialsInFlight s.inflight →
        (s.shared.breaker.maybeHalfOpen s.shared.now).state = .halfOpen →
        (BreakerCall.exec.resume result s.shared).2 = [] ∧
          (BreakerCall.exec.resume result s.shared).1.log =
            .refused ("Circuit '" ++ (s.shared.breaker.maybeHalfOpen s.shared.now).name ++
              "' is open — skipping call") :: s.shared.log) ∧
      ((∀ call ∈ s.inflight, call.startedIn = none) → ∀ reading,
        (∀ t ∈ s.shared.breaker.openedAt, t + s.shared.breaker.options.cooldownMs ≤ reading) →
        (∃ call, (BreakerCall.exec.resume result { s.shared with now := reading }).2 = [call] ∧
            call.startedIn = some (s.shared.breaker.maybeHalfOpen reading).state) ∧
          (BreakerCall.exec.resume result { s.shared with now := reading }).1.log =
            .started reading :: s.shared.log) := by
  intro s
  have hsound : TrialSound s := trialSound_run name options now moves
  exact ⟨hsound.flag, fun htrial hhalf => exec_refused_in_trial hsound htrial hhalf result,
    fun hsettled reading hcooled => exec_starts_after_cooldown hsound hsettled reading hcooled result⟩

/-- The only call fails; when the cool-down is over a trial is started, and has not settled. -/
def trialUnderWay : List BreakerMove :=
  [.call, .resume 0 none, .resume 0 (some "provider down"), .other (.clock 61000), .call,
    .resume 0 none]

/-- A call that comes while the trial is under way is refused. -/
theorem second_trial_refused :
    let s := circuit.run (trialUnderWay.map BreakerMove.action)
      (freshBreaker "rpc" ⟨1, 60000⟩ 1000)
    s.inflight = [.running true .halfOpen] ∧ s.shared.breaker.trialInFlight = true ∧
      (BreakerCall.exec.resume none s.shared).2 = [] := by
  have htrial := (single_trial_in_flight "rpc" ⟨1, 60000⟩ 1000 trialUnderWay none).2.1
    (by decide) (by decide)
  exact ⟨by decide, by decide, htrial.1⟩

end Trial

end ChainSettle
