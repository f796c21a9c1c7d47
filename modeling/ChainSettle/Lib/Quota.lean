import ChainSettle.Lib.Pool

/-!
Quotas that calls count in one step and use up in a later one. `used w key` is what is in use of
the quota of a key in the shared state. A call is `counting` a key before the step that looks at
it, and `past` its count of a key while it may still take one.

What a count has seen includes nothing of what the other calls past theirs are about to take. So
it can be relied on as long as it would have been refused whenever those reach the limit with what
is in use.
-/

namespace Lib

variable {σ κ ι ω δ : Type} [DecidableEq δ]

/-- The calls past their count of a key. -/
def onTheWay (past : κ → Option δ) (calls : List κ) (key : δ) : Nat :=
  calls.countP fun call => past call = some key

/-- Whenever a call counts a key while what is in use and on the way reaches the limit, its count
alone has reached it. -/
def Counted (used : σ → δ → Nat) (counting past : κ → Option δ) (limit : Nat) (s : Pool σ κ) :
    PoolAction κ ι ω → Prop
  | .resume index _ =>
      ∀ key ∈ (s.inflight[index]?).bind counting,
        limit ≤ used s.shared key + onTheWay past s.inflight key → limit ≤ used s.shared key
  | _ => True

instance (used : σ → δ → Nat) (counting past : κ → Option δ) (limit : Nat) (s : Pool σ κ) :
    (a : PoolAction κ ι ω) → Decidable (Counted used counting past limit s a)
  | .resume .. => inferInstanceAs (Decidable (∀ key ∈ _, _))
  | .begin _ | .crash _ | .external _ => inferInstanceAs (Decidable True)

variable (S : PoolSystem σ κ ι ω) (used : σ → δ → Nat) (counting past : κ → Option δ) (limit : Nat)

/-- Everything that the step of a call may do to quotas. -/
inductive QuotaStep (input : ι) (w : σ) (call : κ) : Prop
  | idle (hused : ∀ key, used (S.resume input w call).1 key ≤ used w key)
      (hnext : ∀ next ∈ (S.resume input w call).2, past next = none)
  | counted {key : δ} {next : κ} (hcall : counting call = some key) (hbelow : used w key < limit)
      (hused : ∀ key, used (S.resume input w call).1 key ≤ used w key)
      (hnext : (S.resume input w call).2 = [next]) (hpast : past next = some key)
  | moved {key : δ} {next : κ} (hcall : past call = some key)
      (hused : ∀ key, used (S.resume input w call).1 key ≤ used w key)
      (hnext : (S.resume input w call).2 = [next]) (hpast : past next = some key)
  | took {key : δ} (hcall : past call = some key)
      (hused : ∀ other,
        used (S.resume input w call).1 other ≤ used w other + if key = other then 1 else 0)
      (hnext : (S.resume input w call).2 = [])

/-- The steps of calls do nothing else to quotas, in the states of an invariant. -/
structure PoolQuota (Inv : Pool σ κ → Prop) : Prop where
  keeps : ∀ s a, Inv s → Inv (S.step s a)
  starts : ∀ call, S.starts call → past call = none
  resume : ∀ s, Inv s → ∀ call ∈ s.inflight, ∀ input,
    QuotaStep S used counting past limit input s.shared call
  external : ∀ event w key, used (S.external event w) key ≤ used w key

variable {S used counting past limit}

theorem onTheWay_none {calls : List κ} (h : ∀ call ∈ calls, past call = none) (key : δ) :
    onTheWay past calls key = 0 := by
  refine List.countP_eq_zero.mpr fun call hmem => ?_
  rw [h call hmem]
  simp

theorem onTheWay_singleton {call : κ} {key : δ} (h : past call = some key) (other : δ) :
    onTheWay past [call] other = if key = other then 1 else 0 := by
  simp [onTheWay, h]

/-- What a step of a call pays with: what the call had, or what its count has left. -/
theorem QuotaStep.paid {input : ι} {w : σ} {call : κ}
    (h : QuotaStep S used counting past limit input w call) (key : δ) :
    used (S.resume input w call).1 key + onTheWay past (S.resume input w call).2 key ≤
        used w key + onTheWay past [call] key ∨
      (counting call = some key ∧ used w key < limit ∧
        used (S.resume input w call).1 key + onTheWay past (S.resume input w call).2 key ≤
          used w key + 1) := by
  cases h with
  | idle hused hnext =>
      rw [onTheWay_none hnext]
      exact .inl (Nat.le_add_right_of_le (hused key))
  | @counted counted next hcall hbelow hused hnext hpast =>
      rw [hnext, onTheWay_singleton hpast]
      by_cases hkey : counted = key
      · subst hkey
        rw [if_pos rfl]
        exact .inr ⟨hcall, hbelow, Nat.add_le_add_right (hused counted) 1⟩
      · rw [if_neg hkey]
        exact .inl (Nat.le_add_right_of_le (hused key))
  | moved hcall hused hnext hpast =>
      rw [hnext, onTheWay_singleton hpast, onTheWay_singleton hcall]
      exact .inl (Nat.add_le_add_right (hused key) _)
  | took hcall hused hnext =>
      rw [hnext, onTheWay_singleton hcall]
      exact .inl (hused key)

/-- What is in use and on the way is within the limit. -/
def WithinQuota (used : σ → δ → Nat) (past : κ → Option δ) (limit : Nat) (s : Pool σ κ) : Prop :=
  ∀ key, used s.shared key + onTheWay past s.inflight key ≤ limit

theorem WithinQuota.used_le {s : Pool σ κ} (h : WithinQuota used past limit s) (key : δ) :
    used s.shared key ≤ limit :=
  Nat.le_trans (Nat.le_add_right _ _) (h key)

/-- Nothing is on the way before a call has begun. -/
theorem withinQuota_idle {w : σ} (h : ∀ key, used w key ≤ limit) :
    WithinQuota used past limit ⟨w, []⟩ :=
  h

theorem onTheWay_split (pre post : List κ) (call : κ) (key : δ) :
    onTheWay past (pre ++ call :: post) key =
      onTheWay past [call] key + onTheWay past (pre ++ post) key := by
  simp only [onTheWay, List.countP_append, List.countP_cons, List.countP_nil]
  omega

variable {Inv : Pool σ κ → Prop}

theorem PoolQuota.step (quota : PoolQuota S used counting past limit Inv) {s : Pool σ κ}
    (a : PoolAction κ ι ω) (hinv : Inv s) (hwithin : WithinQuota used past limit s)
    (hcounted : Counted used counting past limit s a) :
    WithinQuota used past limit (S.step s a) := by
  intro key
  have hkey := hwithin key
  rcases S.step_cases s a with ⟨call, rfl, hstart, hnext⟩ |
    ⟨index, input, call, pre, post, rfl, hcall, hsplit, -, hnext⟩ |
    ⟨index, call, pre, post, -, -, hsplit, -, hnext⟩ | ⟨event, -, hnext⟩ | ⟨hnext, -⟩
  · rw [hnext]
    simpa [onTheWay, quota.starts call hstart] using hkey
  · have hstep := quota.resume s hinv call (List.mem_of_getElem? hcall) input
    have hafter : onTheWay past (pre ++ ((S.resume input s.shared call).2 ++ post)) key =
        onTheWay past (S.resume input s.shared call).2 key + onTheWay past (pre ++ post) key := by
      simp only [onTheWay, List.countP_append]
      omega
    have hbefore : onTheWay past s.inflight key =
        onTheWay past [call] key + onTheWay past (pre ++ post) key := by
      rw [hsplit, onTheWay_split]
    rw [hnext, hafter]
    dsimp only
    rcases hstep.paid key with hpaid | ⟨hcounting, hbelow, hpaid⟩
    · omega
    · have hseen := hcounted key (by rw [hcall]; exact hcounting)
      omega
  · rw [hsplit, onTheWay_split] at hkey
    rw [hnext]
    exact Nat.le_trans (Nat.add_le_add_left (Nat.le_add_left _ _) _) hkey
  · rw [hnext]
    exact Nat.le_trans (Nat.add_le_add_right (quota.external event s.shared key) _) hkey
  · rwa [hnext]

/-- Along a run whose counts can be relied on, no quota is exceeded. -/
theorem PoolQuota.run (quota : PoolQuota S used counting past limit Inv) {s : Pool σ κ}
    {actions : List (PoolAction κ ι ω)} (hinv : Inv s) (hwithin : WithinQuota used past limit s)
    (h : Along S.step (Counted used counting past limit) s actions) :
    Inv (S.run actions s) ∧ WithinQuota used past limit (S.run actions s) := by
  have hstep (s : Pool σ κ) (a : PoolAction κ ι ω) (hs : Inv s ∧ WithinQuota used past limit s)
      (hcounted : Counted used counting past limit s a) :
      Inv (S.step s a) ∧ WithinQuota used past limit (S.step s a) :=
    ⟨quota.keeps s a hs.1, quota.step a hs.1 hs.2 hcounted⟩
  exact h.invariant hstep ⟨hinv, hwithin⟩ actions [] (List.append_nil _).symm

end Lib
