import ChainSettle.Semantics.CircuitBreaker

/-!
The cool-down of the circuit breaker. While it is open no wrapped function is to be
started until the cool-down is over. A call that was started before the opening and
succeeds after it closes the breaker at once; where that does not happen, and the
clock is not set back, the cool-down is kept.
-/

namespace ChainSettle

open Lib

section Cooldown

/-- After an opening nothing is started before the cool-down is over. -/
def CooldownKept (cooldownMs : Nat) (log : List BreakerEvent) : Prop :=
  log.Pairwise fun later earlier =>
    ∀ now t, later = .started now → earlier = .opened t → t + cooldownMs ≤ now

instance (cooldownMs : Nat) (log : List BreakerEvent) : Decidable (CooldownKept cooldownMs log) :=
  haveI (later earlier : BreakerEvent) : Decidable
      (∀ now t, later = .started now → earlier = .opened t → t + cooldownMs ≤ now) :=
    match later, earlier with
    | .started now, .opened t =>
        decidable_of_iff (t + cooldownMs ≤ now)
          ⟨fun h _ _ hnow ht => by cases hnow; cases ht; exact h, fun h => h now t rfl rfl⟩
    | .opened _, _ | .succeeded, _ | .failed _, _ | .refused _, _ => isTrue nofun
    | .started _, .started _ | .started _, .succeeded | .started _, .failed _
    | .started _, .refused _ => isTrue nofun
  inferInstanceAs (Decidable (List.Pairwise _ _))

/-- All openings are over. -/
def CooledDown (w : BreakerWorld) : Prop :=
  ∀ t, .opened t ∈ w.log → t + w.breaker.options.cooldownMs ≤ w.now

structure BreakerSound (w : BreakerWorld) : Prop where
  kept : CooldownKept w.breaker.options.cooldownMs w.log
  past : ∀ t, .opened t ∈ w.log → t ≤ w.now
  /-- the breaker knows of the latest opening -/
  latest : w.breaker.state = .opened → ∃ openedAt, w.breaker.openedAt = some openedAt ∧
    ∀ t, .opened t ∈ w.log → t ≤ openedAt
  cooled : w.breaker.state ≠ .opened → CooledDown w

variable {w : BreakerWorld}

/-- An event that starts nothing. -/
theorem CooldownKept.cons {cooldownMs : Nat} {log : List BreakerEvent} {event : BreakerEvent}
    (h : CooldownKept cooldownMs log)
    (hevent : ∀ now t, event = .started now → .opened t ∈ log → t + cooldownMs ≤ now) :
    CooldownKept cooldownMs (event :: log) := by
  refine List.pairwise_cons.mpr ⟨?_, h⟩
  rintro earlier hmem now t hstarted rfl
  exact hevent now t hstarted hmem

theorem BreakerSound.cooledDown (h : BreakerSound w) (hclosed : w.breaker.isOpen w.now = false) :
    CooledDown w := by
  by_cases hstate : w.breaker.state = .opened
  · obtain ⟨openedAt, hopenedAt, hlatest⟩ := h.latest hstate
    have hover : openedAt + w.breaker.options.cooldownMs ≤ w.now := by
      by_contra hwaiting
      have hopen : w.breaker.isOpen w.now = true := by
        simp [CircuitBreaker.isOpen, CircuitBreaker.maybeHalfOpen, hstate, hopenedAt, hwaiting]
      rw [hopen] at hclosed
      cases hclosed
    intro t hmem
    exact Nat.le_trans (Nat.add_le_add_right (hlatest t hmem) _) hover
  · exact h.cooled hstate

theorem options_maybeHalfOpen (breaker : CircuitBreaker) (now : Nat) :
    (breaker.maybeHalfOpen now).options = breaker.options := by
  unfold CircuitBreaker.maybeHalfOpen
  split <;> rfl

theorem BreakerSound.maybeHalfOpen (h : BreakerSound w) :
    BreakerSound { w with breaker := w.breaker.maybeHalfOpen w.now } := by
  have hoptions := options_maybeHalfOpen w.breaker w.now
  refine ⟨by rw [hoptions]; exact h.kept, h.past, fun hstate => ?_, fun hstate => ?_⟩
  · unfold CircuitBreaker.maybeHalfOpen at hstate ⊢
    split at hstate
    · cases hstate
    · rename_i hsame
      rw [if_neg hsame]
      exact h.latest hstate
  · have hclosed : w.breaker.isOpen w.now = false := decide_eq_false hstate
    unfold CooledDown
    rw [hoptions]
    exact h.cooledDown hclosed

/-- The breaker is left in the state it is in. -/
theorem BreakerSound.refuse (h : BreakerSound w) : BreakerSound w.refuse := by
  have hold {t : Nat} (hmem : .opened t ∈ w.refuse.log) : .opened t ∈ w.log := by
    simpa [BreakerWorld.refuse] using hmem
  refine ⟨h.kept.cons nofun, fun t hmem => h.past t (hold hmem), fun hstate => ?_,
    fun hstate t hmem => h.cooled hstate t (hold hmem)⟩
  obtain ⟨openedAt, hopenedAt, hlatest⟩ := h.latest hstate
  exact ⟨openedAt, hopenedAt, fun t hmem => hlatest t (hold hmem)⟩

theorem BreakerSound.start (h : BreakerSound w) (hstate : w.breaker.state ≠ .opened)
    (trialInFlight : Bool) :
    BreakerSound { w with
      breaker := { w.breaker with trialInFlight := trialInFlight }
      log := .started w.now :: w.log } := by
  have hold {t : Nat} (hmem : .opened t ∈ .started w.now :: w.log) : .opened t ∈ w.log := by
    simpa using hmem
  refine ⟨h.kept.cons ?_, fun t hmem => h.past t (hold hmem), fun hopen => absurd hopen hstate,
    fun _ t hmem => h.cooled hstate t (hold hmem)⟩
  intro now t hnow hmem
  cases hnow
  exact h.cooled hstate t hmem

theorem BreakerSound.succeed (h : BreakerSound w) (hclosed : w.breaker.isOpen w.now = false)
    (isTrial : Bool) :
    BreakerSound { w with
      breaker := w.breaker.onSuccess.settled isTrial, log := .succeeded :: w.log } := by
  have hold {t : Nat} (hmem : .opened t ∈ .succeeded :: w.log) : .opened t ∈ w.log := by
    simpa using hmem
  have hbreaker : (w.breaker.onSuccess.settled isTrial).state = .closed ∧
      (w.breaker.onSuccess.settled isTrial).options = w.breaker.options := by
    cases isTrial <;> exact ⟨rfl, rfl⟩
  refine ⟨?_, fun t hmem => h.past t (hold hmem), fun hopen => ?_, fun _ t hmem => ?_⟩
  · rw [hbreaker.2]
    exact h.kept.cons nofun
  · rw [hbreaker.1] at hopen
    cases hopen
  · show t + (w.breaker.onSuccess.settled isTrial).options.cooldownMs ≤ w.now
    rw [hbreaker.2]
    exact h.cooledDown hclosed t (hold hmem)

theorem BreakerSound.fail (h : BreakerSound w) (isTrial : Bool) (error : String) :
    BreakerSound { w with
      breaker := (w.breaker.onFailure w.now error).settled isTrial
      log := .failed error :: ((if w.breaker.trips then [.opened w.now] else []) ++ w.log) } := by
  have hsettled (breaker : CircuitBreaker) : (breaker.settled isTrial).state = breaker.state ∧
      (breaker.settled isTrial).openedAt = breaker.openedAt ∧
      (breaker.settled isTrial).options = breaker.options := by
    cases isTrial <;> exact ⟨rfl, rfl, rfl⟩
  cases htrips : w.breaker.trips with
  | true =>
      have hfailed : (w.breaker.onFailure w.now error).state = .opened ∧
          (w.breaker.onFailure w.now error).openedAt = some w.now ∧
          (w.breaker.onFailure w.now error).options = w.breaker.options := by
        simp [CircuitBreaker.onFailure, htrips]
      obtain ⟨hstate, hopenedAt, hoptions⟩ := hsettled (w.breaker.onFailure w.now error)
      have hpast (t : Nat) (hmem : .opened t ∈ .failed error :: .opened w.now :: w.log) :
          t ≤ w.now := by
        rcases List.mem_cons.mp ((List.mem_cons.mp hmem).resolve_left nofun) with hself | hold
        · cases hself
          exact Nat.le_refl _
        · exact h.past t hold
      refine ⟨?_, hpast, fun _ => ⟨w.now, hopenedAt.trans hfailed.2.1, hpast⟩, fun hopen => ?_⟩
      · have hopened : CooldownKept w.breaker.options.cooldownMs (.opened w.now :: w.log) :=
          h.kept.cons nofun
        rw [hoptions, hfailed.2.2]
        exact hopened.cons nofun
      · exact absurd (hstate.trans hfailed.1) hopen
  | false =>
      have hfailed : (w.breaker.onFailure w.now error).state = w.breaker.state ∧
          (w.breaker.onFailure w.now error).openedAt = w.breaker.openedAt ∧
          (w.breaker.onFailure w.now error).options = w.breaker.options := by
        simp [CircuitBreaker.onFailure, htrips]
      obtain ⟨hstate, hopenedAt, hoptions⟩ := hsettled (w.breaker.onFailure w.now error)
      have hold {t : Nat} (hmem : .opened t ∈ .failed error :: w.log) : .opened t ∈ w.log :=
        (List.mem_cons.mp hmem).resolve_left nofun
      refine ⟨?_, fun t hmem => h.past t (hold hmem), fun hopen => ?_, fun hnot t hmem => ?_⟩
      · rw [hoptions, hfailed.2.2]
        exact h.kept.cons nofun
      · obtain ⟨openedAt, hat, hlatest⟩ := h.latest (hfailed.1.symm.trans (hstate.symm.trans hopen))
        exact ⟨openedAt, hopenedAt.trans (hfailed.2.1.trans hat),
          fun t hmem => hlatest t (hold hmem)⟩
      · have hclosed : w.breaker.state ≠ .opened := fun hopen =>
          hnot (hstate.trans (hfailed.1.trans hopen))
        show t + ((w.breaker.onFailure w.now error).settled isTrial).options.cooldownMs ≤ w.now
        rw [hoptions, hfailed.2.2]
        exact h.cooled hclosed t (hold hmem)

end Cooldown

section Runs

/-- No call succeeds while the breaker is open and its cool-down is not over, and the
clock is not set back. -/
def BreakerApart (s : BreakerPool) : BreakerAction → Prop
  | .resume index result =>
      ∀ call ∈ s.inflight[index]?, call ≠ .exec → result = none →
        s.shared.breaker.isOpen s.shared.now = false
  | .external (.clock reading) => s.shared.now ≤ reading
  | _ => True

instance (s : BreakerPool) : (a : BreakerAction) → Decidable (BreakerApart s a)
  | .resume index result =>
      inferInstanceAs (Decidable (∀ call ∈ s.inflight[index]?, _ → result = none → _))
  | .external (.clock reading) => inferInstanceAs (Decidable (s.shared.now ≤ reading))
  | .external .getState | .begin _ | .crash _ => inferInstanceAs (Decidable True)

theorem breakerSound_resume {w : BreakerWorld} (h : BreakerSound w) (result : CallResult)
    (call : BreakerCall)
    (hapart : call ≠ .exec → result = none → w.breaker.isOpen w.now = false) :
    BreakerSound (call.resume result w).1 := by
  cases call with
  | exec =>
      have hhalf := h.maybeHalfOpen
      simp only [BreakerCall.resume]
      split
      · exact hhalf.refuse
      · rename_i hnot
        split
        · exact hhalf.refuse
        · exact hhalf.start hnot _
  | running isTrial startedIn =>
      cases result with
      | none => exact h.succeed (hapart nofun rfl) isTrial
      | some error => exact h.fail isTrial error

theorem options_resume (w : BreakerWorld) (result : CallResult) (call : BreakerCall) :
    (call.resume result w).1.breaker.options = w.breaker.options := by
  cases call with
  | exec =>
      have hoptions := options_maybeHalfOpen w.breaker w.now
      simp only [BreakerCall.resume]
      split
      · exact hoptions
      · split
        · exact hoptions
        · exact hoptions
  | running isTrial startedIn =>
      cases result with
      | none => cases isTrial <;> rfl
      | some error =>
          have hfailed : (w.breaker.onFailure w.now error).options = w.breaker.options := by
            unfold CircuitBreaker.onFailure
            dsimp only
            split <;> rfl
          cases isTrial <;> exact hfailed

theorem breakerSound_step {s : BreakerPool} (h : BreakerSound s.shared) (a : BreakerAction)
    (hapart : BreakerApart s a) : BreakerSound (circuit.step s a).shared := by
  rcases circuit.step_cases s a with ⟨call, -, -, hnext⟩ |
    ⟨index, result, call, pre, post, rfl, hcall, -, -, hnext⟩ |
    ⟨index, call, pre, post, -, -, -, -, hnext⟩ | ⟨event, rfl, hnext⟩ | ⟨hnext, -⟩
  · rwa [hnext]
  · rw [hnext]
    exact breakerSound_resume h result call (hapart call hcall)
  · rwa [hnext]
  · rw [hnext]
    cases event with
    | clock reading =>
        have hlater : s.shared.now ≤ reading := hapart
        exact ⟨h.kept, fun t hmem => Nat.le_trans (h.past t hmem) hlater, h.latest,
          fun hstate t hmem => Nat.le_trans (h.cooled hstate t hmem) hlater⟩
    | getState => exact h.maybeHalfOpen
  · rwa [hnext]

theorem options_step (s : BreakerPool) (a : BreakerAction) :
    (circuit.step s a).shared.breaker.options = s.shared.breaker.options := by
  refine circuit.shared_step (Q := fun w => w.breaker.options = s.shared.breaker.options) a rfl
    (fun result call _ => options_resume s.shared result call) fun event => ?_
  cases event with
  | clock reading => rfl
  | getState => exact options_maybeHalfOpen _ _

/-- Along every run of a breaker in which no call succeeds while it is open, and the
clock is not set back, nothing is started during a cool-down. -/
theorem cooldown_kept_while_apart (name : String) (options : CircuitBreakerOptions) (now : Nat)
    (actions : List BreakerAction)
    (h : Along circuit.step BreakerApart (freshBreaker name options now) actions) :
    ∀ pre post, actions = pre ++ post →
      CooldownKept options.cooldownMs (circuit.run pre (freshBreaker name options now)).shared.log := by
  have hfresh : BreakerSound (freshBreaker name options now).shared :=
    ⟨List.Pairwise.nil, nofun, nofun, fun _ => nofun⟩
  intro pre post hsplit
  have hstep (s : BreakerPool) (a : BreakerAction)
      (hs : BreakerSound s.shared ∧ s.shared.breaker.options = options) (hapart : BreakerApart s a) :
      BreakerSound (circuit.step s a).shared ∧
        (circuit.step s a).shared.breaker.options = options :=
    ⟨breakerSound_step hs.1 a hapart, (options_step s a).trans hs.2⟩
  obtain ⟨hsound, hoptions⟩ := h.invariant hstep ⟨hfresh, rfl⟩ pre post hsplit
  have hkept := hsound.kept
  rwa [hoptions] at hkept

def oneFailure : CircuitBreakerOptions where
  failureThreshold := 1
  cooldownMs := 60000

/-- The only call fails; after half a minute the next one is refused, after a whole
one a trial is let through, and succeeds. -/
def trialAfterCooldown : List BreakerAction :=
  [.begin .exec, .resume 0 none, .resume 0 (some "provider down"),
    .external (.clock 31000), .begin .exec, .resume 0 none,
    .external (.clock 61000), .begin .exec, .resume 0 none, .resume 0 none]

theorem trial_waits_for_cooldown :
    CooldownKept 60000
        (circuit.run trialAfterCooldown (freshBreaker "rpc" oneFailure 1000)).shared.log ∧
      .started 61000 ∈
        (circuit.run trialAfterCooldown (freshBreaker "rpc" oneFailure 1000)).shared.log :=
  ⟨cooldown_kept_while_apart "rpc" oneFailure 1000 trialAfterCooldown (by decide) trialAfterCooldown
    [] rfl, by decide⟩

/-- Two calls are under way. One fails and opens the breaker, then the other succeeds
and closes it, and a third is let through at the same instant. -/
def lateSuccess : List BreakerAction :=
  [.begin .exec, .begin .exec, .resume 0 none, .resume 1 none, .resume 0 (some "provider down"),
    .resume 0 none, .begin .exec, .resume 0 none]

theorem started_in_cooldown :
    ¬ CooldownKept 60000 (circuit.run lateSuccess (freshBreaker "rpc" oneFailure 1000)).shared.log ∧
      (circuit.run lateSuccess (freshBreaker "rpc" oneFailure 1000)).shared.log.take 2 =
        [.started 1000, .succeeded] := by
  decide

end Runs

end ChainSettle
