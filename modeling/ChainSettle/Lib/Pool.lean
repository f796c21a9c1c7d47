import ChainSettle.Lib.Run
import Mathlib.Algebra.Ring.Nat

/-!
Calls that fan out. As in `Lib.Calls`, a call is what is left of a program that
is suspended before its next atomic step. Here a step may leave any number of
calls behind, which go on independently of each other, so the calls in flight
are a list. A call may also be lost at any moment, with the process that ran it.

The step function is total: an action that names no call does nothing. Runs are
therefore folds over arbitrary lists of actions, and `PoolSystem.step_cases` says
everything an action can do.
-/

namespace Lib

variable {σ κ ι ω : Type}

/-- `starts` are the calls that may begin. -/
structure PoolSystem (σ κ ι ω : Type) where
  starts : κ → Bool
  resume : ι → σ → κ → σ × List κ
  external : ω → σ → σ

structure Pool (σ κ : Type) where
  shared : σ
  inflight : List κ

inductive PoolAction (κ ι ω : Type) where
  | begin (call : κ)
  | resume (index : Nat) (input : ι)
  | crash (index : Nat)
  | external (event : ω)

namespace PoolSystem

variable (S : PoolSystem σ κ ι ω)

def step (s : Pool σ κ) : PoolAction κ ι ω → Pool σ κ
  | .begin call => if S.starts call then { s with inflight := s.inflight ++ [call] } else s
  | .resume index input =>
      match s.inflight[index]? with
      | none => s
      | some call =>
          { shared := (S.resume input s.shared call).1
            inflight := s.inflight.take index ++
              ((S.resume input s.shared call).2 ++ s.inflight.drop (index + 1)) }
  | .crash index => { s with inflight := s.inflight.eraseIdx index }
  | .external event => { s with shared := S.external event s.shared }

def run (actions : List (PoolAction κ ι ω)) (s : Pool σ κ) : Pool σ κ :=
  actions.foldl S.step s

theorem step_at {s : Pool σ κ} {index : Nat} {call : κ} (input : ι)
    (h : s.inflight[index]? = some call) :
    S.step s (.resume index input) =
      { shared := (S.resume input s.shared call).1
        inflight := s.inflight.take index ++
          ((S.resume input s.shared call).2 ++ s.inflight.drop (index + 1)) } := by
  simp only [step, h]

/-- A call that is in flight, between the others. -/
theorem inflight_split {calls : List κ} {index : Nat} {call : κ} (h : calls[index]? = some call) :
    calls = calls.take index ++ call :: calls.drop (index + 1) ∧
      calls.eraseIdx index = calls.take index ++ calls.drop (index + 1) := by
  obtain ⟨hlt, rfl⟩ := List.getElem?_eq_some_iff.mp h
  refine ⟨?_, List.eraseIdx_eq_take_drop_succ _ _⟩
  rw [List.getElem_cons_drop, List.take_append_drop]

/-- Everything an action can do. -/
theorem step_cases (s : Pool σ κ) (a : PoolAction κ ι ω) :
    (∃ call, a = .begin call ∧ S.starts call ∧
      S.step s a = { s with inflight := s.inflight ++ [call] }) ∨
    (∃ index input call pre post, a = .resume index input ∧ s.inflight[index]? = some call ∧
      s.inflight = pre ++ call :: post ∧ s.inflight.eraseIdx index = pre ++ post ∧
      S.step s a =
        { shared := (S.resume input s.shared call).1
          inflight := pre ++ ((S.resume input s.shared call).2 ++ post) }) ∨
    (∃ index call pre post, a = .crash index ∧ s.inflight[index]? = some call ∧
      s.inflight = pre ++ call :: post ∧ s.inflight.eraseIdx index = pre ++ post ∧
      S.step s a = { s with inflight := pre ++ post }) ∨
    (∃ event, a = .external event ∧
      S.step s a = { s with shared := S.external event s.shared }) ∨
    (S.step s a = s ∧ ∀ index, (∃ input, a = .resume index input) ∨ a = .crash index →
      s.inflight[index]? = none) := by
  cases a with
  | begin call =>
      by_cases hstart : S.starts call
      · exact .inl ⟨call, rfl, hstart, if_pos hstart⟩
      · refine .inr (.inr (.inr (.inr ⟨if_neg hstart, ?_⟩)))
        rintro index (⟨input, h⟩ | h) <;> cases h
  | resume index input =>
      cases hcall : s.inflight[index]? with
      | none =>
          refine .inr (.inr (.inr (.inr ⟨by simp only [step, hcall], ?_⟩)))
          rintro other (⟨input', h⟩ | h) <;> cases h
          exact hcall
      | some call =>
          obtain ⟨hsplit, herase⟩ := inflight_split hcall
          exact .inr (.inl ⟨index, input, call, _, _, rfl, hcall, hsplit, herase,
            S.step_at input hcall⟩)
  | crash index =>
      cases hcall : s.inflight[index]? with
      | none =>
          refine .inr (.inr (.inr (.inr ⟨?_, ?_⟩)))
          · simp only [step, List.eraseIdx_of_length_le (List.getElem?_eq_none_iff.mp hcall)]
          · rintro other (⟨input', h⟩ | h) <;> cases h
            exact hcall
      | some call =>
          obtain ⟨hsplit, herase⟩ := inflight_split hcall
          exact .inr (.inr (.inl ⟨index, call, _, _, rfl, hcall, hsplit, herase,
            by simp only [step, herase]⟩))
  | external event => exact .inr (.inr (.inr (.inl ⟨event, rfl, rfl⟩)))

variable {s : Pool σ κ}

/-- A property of the shared state, where only steps of calls and other events
change it. -/
theorem shared_step {Q : σ → Prop} (a : PoolAction κ ι ω) (h : Q s.shared)
    (hresume : ∀ input, ∀ call ∈ s.inflight, Q (S.resume input s.shared call).1)
    (hexternal : ∀ event, Q (S.external event s.shared)) : Q (S.step s a).shared := by
  rcases S.step_cases s a with ⟨call, -, -, hnext⟩ |
    ⟨index, input, call, pre, post, -, hcall, -, -, hnext⟩ |
    ⟨index, call, pre, post, -, -, -, -, hnext⟩ | ⟨event, -, hnext⟩ | ⟨hnext, -⟩
  · rwa [hnext]
  · rw [hnext]
    exact hresume input call (List.mem_of_getElem? hcall)
  · rwa [hnext]
  · rw [hnext]
    exact hexternal event
  · rwa [hnext]

/-- What no longer holds of the shared state was ended by a step of a call, or by another event. -/
theorem ended_by_step {Q : σ → Prop} (a : PoolAction κ ι ω) (h : Q s.shared)
    (hnot : ¬ Q (S.step s a).shared) :
    (∃ index input call, a = .resume index input ∧ s.inflight[index]? = some call ∧
      ¬ Q (S.resume input s.shared call).1) ∨
    ∃ event, a = .external event ∧ ¬ Q (S.external event s.shared) := by
  rcases S.step_cases s a with ⟨call, -, -, hnext⟩ |
    ⟨index, input, call, pre, post, haction, hcall, -, -, hnext⟩ |
    ⟨index, call, pre, post, -, -, -, -, hnext⟩ | ⟨event, haction, hnext⟩ | ⟨hnext, -⟩
  · rw [hnext] at hnot
    exact absurd h hnot
  · rw [hnext] at hnot
    exact .inl ⟨index, input, call, haction, hcall, hnot⟩
  · rw [hnext] at hnot
    exact absurd h hnot
  · rw [hnext] at hnot
    exact .inr ⟨event, haction, hnot⟩
  · rw [hnext] at hnot
    exact absurd h hnot

/-- An invariant that consists of a property of the shared state and one of each
call in flight. A step of a call keeps both, in the state and for the action it is
taken with; the calls that begin have theirs. -/
theorem keeps_step {Q : σ → Prop} {P : σ → κ → Prop} (a : PoolAction κ ι ω) (hshared : Q s.shared)
    (hcalls : ∀ call ∈ s.inflight, P s.shared call)
    (hstarts : ∀ call, a = .begin call → S.starts call → P s.shared call)
    (hresume : ∀ index input call, a = .resume index input → s.inflight[index]? = some call →
      Q (S.resume input s.shared call).1 ∧
      (∀ next ∈ (S.resume input s.shared call).2, P (S.resume input s.shared call).1 next) ∧
      ∀ other ∈ s.inflight.eraseIdx index, P (S.resume input s.shared call).1 other)
    (hexternal : ∀ event, Q (S.external event s.shared) ∧
      ∀ other ∈ s.inflight, P (S.external event s.shared) other) :
    Q (S.step s a).shared ∧ ∀ call ∈ (S.step s a).inflight, P (S.step s a).shared call := by
  rcases S.step_cases s a with ⟨call, hbegin, hstart, hnext⟩ |
    ⟨index, input, call, pre, post, rfl, hcall, -, herase, hnext⟩ |
    ⟨index, call, pre, post, -, -, -, herase, hnext⟩ | ⟨event, -, hnext⟩ | ⟨hnext, -⟩
  · rw [hnext]
    refine ⟨hshared, List.forall_mem_append.mpr ⟨hcalls, ?_⟩⟩
    exact List.forall_mem_singleton.mpr (hstarts call hbegin hstart)
  · rw [hnext]
    obtain ⟨hafter, hnew, hothers⟩ := hresume index input call rfl hcall
    rw [herase] at hothers
    obtain ⟨hpre, hpost⟩ := List.forall_mem_append.mp hothers
    exact ⟨hafter, List.forall_mem_append.mpr ⟨hpre, List.forall_mem_append.mpr ⟨hnew, hpost⟩⟩⟩
  · rw [hnext, ← herase]
    exact ⟨hshared, fun other hmem => hcalls other (List.mem_of_mem_eraseIdx hmem)⟩
  · rw [hnext]
    exact hexternal event
  · rw [hnext]
    exact ⟨hshared, hcalls⟩

/-- A property of each call in flight: those that begin have it, those that a step
leaves behind have it, and the others keep it. -/
theorem calls_step {P : σ → κ → Prop} (a : PoolAction κ ι ω)
    (h : ∀ call ∈ s.inflight, P s.shared call)
    (hstarts : ∀ call, S.starts call → P s.shared call)
    (hresume : ∀ input, ∀ call ∈ s.inflight,
      (∀ next ∈ (S.resume input s.shared call).2, P (S.resume input s.shared call).1 next) ∧
        ∀ other, P s.shared other → P (S.resume input s.shared call).1 other)
    (hexternal : ∀ event other, P s.shared other → P (S.external event s.shared) other) :
    ∀ call ∈ (S.step s a).inflight, P (S.step s a).shared call := by
  refine (S.keeps_step (Q := fun _ => True) a trivial h (fun call _ => hstarts call) ?_ ?_).2
  · intro index input call _ hcall
    obtain ⟨hnew, hkeeps⟩ := hresume input call (List.mem_of_getElem? hcall)
    exact ⟨trivial, hnew, fun other hmem => hkeeps other (h other (List.mem_of_mem_eraseIdx hmem))⟩
  · exact fun event => ⟨trivial, fun other hmem => hexternal event other (h other hmem)⟩

/-- A budget that the calls in flight share: each step pays for what it spends, and
for the calls it leaves behind, out of what its own call had and what it adds, given
what the other calls have. -/
theorem budget_step (spent budget : σ → Nat) (share : κ → Nat) (a : PoolAction κ ι ω)
    (h : spent s.shared + (s.inflight.map share).sum ≤ budget s.shared)
    (hstarts : ∀ call, S.starts call → share call = 0)
    (hresume : ∀ index input call others, a = .resume index input →
      s.inflight[index]? = some call → others = ((s.inflight.eraseIdx index).map share).sum →
      spent s.shared + (share call + others) ≤ budget s.shared →
      spent (S.resume input s.shared call).1 +
          (((S.resume input s.shared call).2.map share).sum + others) ≤
        budget (S.resume input s.shared call).1)
    (hexternal : ∀ event, spent (S.external event s.shared) ≤ spent s.shared ∧
      budget s.shared ≤ budget (S.external event s.shared)) :
    spent (S.step s a).shared + ((S.step s a).inflight.map share).sum ≤
      budget (S.step s a).shared := by
  rcases S.step_cases s a with ⟨call, -, hstart, hnext⟩ |
    ⟨index, input, call, pre, post, haction, hcall, hsplit, herase, hnext⟩ |
    ⟨index, call, pre, post, -, -, hsplit, -, hnext⟩ | ⟨event, -, hnext⟩ | ⟨hnext, -⟩
  · rw [hnext]
    simpa [hstarts call hstart] using h
  · have hpaid := hresume index input call _ haction hcall rfl
    rw [hsplit] at h
    rw [herase] at hpaid
    rw [hnext]
    simp only [List.map_append, List.map_cons, List.sum_append, List.sum_cons] at h hpaid ⊢
    omega
  · rw [hsplit] at h
    rw [hnext]
    simp only [List.map_append, List.map_cons, List.sum_append, List.sum_cons] at h ⊢
    omega
  · rw [hnext]
    obtain ⟨hspent, hbudget⟩ := hexternal event
    dsimp only
    omega
  · rwa [hnext]

/-- A call in flight after a step was so before, has begun, or was left behind by another. -/
theorem mem_inflight_step {call : κ} (a : PoolAction κ ι ω) (h : call ∈ (S.step s a).inflight) :
    call ∈ s.inflight ∨ (a = .begin call ∧ S.starts call) ∨
      ∃ index input parent, a = .resume index input ∧ s.inflight[index]? = some parent ∧
        call ∈ (S.resume input s.shared parent).2 := by
  rcases S.step_cases s a with ⟨begun, hbegin, hstart, hnext⟩ |
    ⟨index, input, parent, pre, post, haction, hparent, hsplit, -, hnext⟩ |
    ⟨index, lost, pre, post, -, -, hsplit, -, hnext⟩ | ⟨event, -, hnext⟩ | ⟨hnext, -⟩
  · rw [hnext] at h
    rcases List.mem_append.mp h with hold | hnew
    · exact .inl hold
    · cases List.mem_singleton.mp hnew
      exact .inr (.inl ⟨hbegin, hstart⟩)
  · rw [hnext] at h
    rcases List.mem_append.mp h with hpre | hlater
    · exact .inl (by simp [hsplit, hpre])
    · rcases List.mem_append.mp hlater with hnew | hpost
      · exact .inr (.inr ⟨index, input, parent, haction, hparent, hnew⟩)
      · exact .inl (by simp [hsplit, hpost])
  · rw [hnext] at h
    rw [hsplit]
    rcases List.mem_append.mp h with hpre | hpost
    · exact .inl (by simp [hpre])
    · exact .inl (by simp [hpost])
  · rw [hnext] at h
    exact .inl h
  · rw [hnext] at h
    exact .inl h

/-- The action `a` of a run has left the call in flight, and it has been so ever since. -/
structure LeftBy (start : Pool σ κ) (earlier : List (PoolAction κ ι ω)) (a : PoolAction κ ι ω)
    (later : List (PoolAction κ ι ω)) (call : κ) : Prop where
  by_step : (a = .begin call ∧ S.starts call) ∨
    ∃ index input parent, a = .resume index input ∧
      (S.run earlier start).inflight[index]? = some parent ∧
      call ∈ (S.resume input (S.run earlier start).shared parent).2
  since : ∀ pre post, later = pre ++ post → call ∈ (S.run (earlier ++ a :: pre) start).inflight

/-- Every call in flight was left there by an action of the run. -/
theorem left_of_mem_inflight {start : Pool σ κ} (hidle : start.inflight = [])
    (actions : List (PoolAction κ ι ω)) {call : κ}
    (hcall : call ∈ (S.run actions start).inflight) :
    ∃ earlier a later, actions = earlier ++ a :: later ∧ S.LeftBy start earlier a later call := by
  have hrun (first second : List (PoolAction κ ι ω)) :
      S.run (first ++ second) start = S.run second (S.run first start) := List.foldl_append
  -- a history grows at its end
  induction actions using List.reverseRecOn with
  | nil =>
      rw [show (S.run [] start).inflight = [] from hidle] at hcall
      cases hcall
  | append_singleton before a ih =>
      have hafter := hcall
      rw [hrun] at hafter
      rcases S.mem_inflight_step a hafter with hold | hnew
      · obtain ⟨earlier, b, later, rfl, hleft⟩ := ih hold
        refine ⟨earlier, b, later ++ [a], by simp, hleft.by_step, fun pre post hsplit => ?_⟩
        rcases List.eq_nil_or_concat post with rfl | ⟨rest, last, rfl⟩
        · rw [List.append_nil] at hsplit
          rw [← hsplit, ← List.cons_append, ← List.append_assoc]
          exact hcall
        · rw [List.concat_eq_append, ← List.append_assoc] at hsplit
          exact hleft.since pre rest (List.append_inj_left' hsplit rfl)
      · refine ⟨before, a, [], rfl, hnew, fun pre post hsplit => ?_⟩
        obtain ⟨rfl, -⟩ := List.append_eq_nil_iff.mp hsplit.symm
        exact hcall

end PoolSystem

end Lib
