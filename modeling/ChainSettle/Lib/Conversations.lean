import ChainSettle.Lib.Pool
import Mathlib.Data.List.Nodup

/-!
Conversations in a pool of calls. The first step of a call takes a number, and from then on
whatever is left of it belongs to the conversation with that number. Every step adds one event to
its conversation and leaves at most one call behind.

A protocol says which events may follow each other. Where every step of a call obeys it, so does
every conversation of a run, in whatever order the calls of all conversations are resumed.
-/

namespace Lib

variable {σ κ ι ω φ ε : Type}

structure Protocol (φ ε : Type) where
  start : φ
  step : φ → ε → φ → Prop
  /-- Nothing follows. -/
  closed : φ → Prop

/-- The phase of a conversation after its events, the latest first. -/
inductive Protocol.Path (P : Protocol φ ε) : List ε → φ → Prop where
  | nil : P.Path [] P.start
  | cons {trace : List ε} {p q : φ} {e : ε} :
      P.Path trace p → P.step p e q → P.Path (e :: trace) q

/-- The events of one conversation. -/
def traceOf (i : Nat) (log : List (Nat × ε)) : List ε :=
  log.filterMap fun entry => if entry.1 = i then some entry.2 else none

theorem traceOf_cons_self (i : Nat) (e : ε) (log : List (Nat × ε)) :
    traceOf i ((i, e) :: log) = e :: traceOf i log := by
  simp [traceOf]

theorem traceOf_cons_of_ne {i j : Nat} (h : j ≠ i) (e : ε) (log : List (Nat × ε)) :
    traceOf j ((i, e) :: log) = traceOf j log := by
  simp [traceOf, Ne.symm h]

/-- What a step obeys: `number` is that of the call, if it has one already. -/
structure Conversations (S : PoolSystem σ κ ι ω) (P : Protocol φ ε) where
  issued : σ → Nat
  log : σ → List (Nat × ε)
  number : κ → Option Nat
  phase : κ → φ
  starts : ∀ call, S.starts call → number call = none
  fresh : ∀ call, number call = none → phase call = P.start
  external : ∀ event s, issued (S.external event s) = issued s ∧ log (S.external event s) = log s
  resume : ∀ input s call, ∃ e q,
    log (S.resume input s call).1 = ((number call).getD (issued s), e) :: log s ∧
      issued (S.resume input s call).1 =
        (if (number call).isNone then issued s + 1 else issued s) ∧
      P.step (phase call) e q ∧
      ((S.resume input s call).2 = [] ∧ P.closed q ∨
        ∃ next, (S.resume input s call).2 = [next] ∧
          number next = some ((number call).getD (issued s)) ∧ phase next = q)

namespace Conversations

variable {S : PoolSystem σ κ ι ω} {P : Protocol φ ε} (C : Conversations S P)

def trace (i : Nat) (s : σ) : List ε := traceOf i (C.log s)

/-- Each number is that of one call at most, whose phase is that of its conversation. -/
structure Coherent (s : Pool σ κ) : Prop where
  nodup : (s.inflight.filterMap C.number).Nodup
  issued : ∀ i ∈ s.inflight.filterMap C.number, i < C.issued s.shared
  silent : ∀ i, C.issued s.shared ≤ i → C.trace i s.shared = []
  inflight : ∀ call ∈ s.inflight, ∀ i, C.number call = some i →
    P.Path (C.trace i s.shared) (C.phase call)
  obeys : ∀ i, ∃ p, P.Path (C.trace i s.shared) p

/-- Every conversation that has begun is going on or closed. -/
def Served (s : Pool σ κ) : Prop :=
  ∀ i < C.issued s.shared, (∃ call ∈ s.inflight, C.number call = some i) ∨
    ∃ p, P.Path (C.trace i s.shared) p ∧ P.closed p

variable {C}

theorem coherent_empty {s : σ} (h : C.log s = []) : C.Coherent ⟨s, []⟩ where
  nodup := List.nodup_nil
  issued := List.forall_mem_nil _
  silent i _ := by
    rw [trace, h]
    rfl
  inflight := List.forall_mem_nil _
  obeys i := ⟨P.start, by
    rw [trace, h]
    exact .nil⟩

variable {s : Pool σ κ}

theorem sublist_of_split {inflight pre post : List κ} {call : κ}
    (hsplit : inflight = pre ++ call :: post) : (pre ++ post).Sublist inflight := by
  rw [hsplit]
  exact (List.sublist_cons_self call post).append_left pre

/-- The call that is resumed is the only one of its conversation. -/
theorem Coherent.other_ne (h : C.Coherent s) {pre post : List κ} {call other : κ}
    (hsplit : s.inflight = pre ++ call :: post) (hother : other ∈ pre ++ post) {j : Nat}
    (hnumber : C.number other = some j) : j ≠ (C.number call).getD (C.issued s.shared) := by
  have hmem : other ∈ s.inflight := (sublist_of_split hsplit).subset hother
  cases hcall : C.number call with
  | none =>
      have hlt := h.issued j (List.mem_filterMap.mpr ⟨other, hmem, hnumber⟩)
      exact Nat.ne_of_lt hlt
  | some i =>
      have hnodup := h.nodup
      rw [hsplit, List.filterMap_append, List.filterMap_cons_some hcall] at hnodup
      have hin : j ∈ pre.filterMap C.number ++ post.filterMap C.number := by
        rw [← List.filterMap_append]
        exact List.mem_filterMap.mpr ⟨other, hother, hnumber⟩
      rintro rfl
      exact (List.nodup_middle.mp hnodup).notMem hin

/-- The conversation of the call that is resumed goes on by one event. -/
theorem Coherent.path (h : C.Coherent s) {call : κ} (hmem : call ∈ s.inflight) :
    P.Path (C.trace ((C.number call).getD (C.issued s.shared)) s.shared) (C.phase call) := by
  cases hcall : C.number call with
  | none =>
      rw [Option.getD_none, h.silent _ le_rfl, C.fresh call hcall]
      exact .nil
  | some i => exact h.inflight call hmem i hcall

theorem Coherent.resume (h : C.Coherent s) (input : ι) {pre post : List κ} {call : κ}
    (hsplit : s.inflight = pre ++ call :: post) :
    C.Coherent {
      shared := (S.resume input s.shared call).1
      inflight := pre ++ ((S.resume input s.shared call).2 ++ post) } := by
  have hmem : call ∈ s.inflight := by simp [hsplit]
  have hsub := sublist_of_split hsplit
  have hpath := h.path hmem
  have hne {other : κ} (hother : other ∈ pre ++ post) {j : Nat}
      (hnumber : C.number other = some j) := h.other_ne hsplit hother hnumber
  obtain ⟨e, q, hlog, hissued, hstep, hnext⟩ := C.resume input s.shared call
  have hbound : ∀ i ∈ (pre ++ post).filterMap C.number, i < C.issued s.shared := by
    intro i hi
    exact h.issued i ((hsub.filterMap _).subset hi)
  have hnow : (C.number call).getD (C.issued s.shared) <
      C.issued (S.resume input s.shared call).1 := by
    rw [hissued]
    cases hcall : C.number call with
    | none => exact Nat.lt_succ_self _
    | some i => exact h.issued i (List.mem_filterMap.mpr ⟨call, hmem, hcall⟩)
  have hgrows : C.issued s.shared ≤ C.issued (S.resume input s.shared call).1 := by
    rw [hissued]
    split
    · exact Nat.le_succ _
    · exact le_rfl
  have hown : P.Path (C.trace ((C.number call).getD (C.issued s.shared))
      (S.resume input s.shared call).1) q := by
    rw [trace, hlog, traceOf_cons_self]
    exact .cons hpath hstep
  have hothers {j : Nat} (hj : j ≠ (C.number call).getD (C.issued s.shared)) :
      C.trace j (S.resume input s.shared call).1 = C.trace j s.shared := by
    rw [trace, hlog, traceOf_cons_of_ne hj]
    rfl
  have hfree : (C.number call).getD (C.issued s.shared) ∉ (pre ++ post).filterMap C.number := by
    intro hi
    obtain ⟨other, hother, hnumber⟩ := List.mem_filterMap.mp hi
    exact hne hother hnumber rfl
  have hpairs : ((pre ++ post).filterMap C.number).Nodup := h.nodup.sublist (hsub.filterMap _)
  have hkept : ∀ other ∈ pre ++ post, ∀ j, C.number other = some j →
      P.Path (C.trace j (S.resume input s.shared call).1) (C.phase other) := by
    intro other hother j hnumber
    rw [hothers (hne hother hnumber)]
    exact h.inflight other (hsub.subset hother) j hnumber
  have hcalls : ∀ other ∈ (S.resume input s.shared call).2,
      C.number other = some ((C.number call).getD (C.issued s.shared)) ∧ C.phase other = q := by
    rcases hnext with ⟨hnil, -⟩ | ⟨next, hone, hnumber, hphase⟩
    · rw [hnil]
      exact List.forall_mem_nil _
    · rw [hone]
      exact List.forall_mem_singleton.mpr ⟨hnumber, hphase⟩
  have hnumbers : ((pre ++ ((S.resume input s.shared call).2 ++ post)).filterMap C.number).Nodup ∧
      ∀ i ∈ (pre ++ ((S.resume input s.shared call).2 ++ post)).filterMap C.number,
        i < C.issued (S.resume input s.shared call).1 := by
    rcases hnext with ⟨hnil, -⟩ | ⟨next, hone, hnumber, -⟩
    · rw [hnil, List.nil_append]
      exact ⟨hpairs, fun i hi => Nat.lt_of_lt_of_le (hbound i hi) hgrows⟩
    · rw [hone, List.singleton_append, List.filterMap_append, List.filterMap_cons_some hnumber]
      rw [List.filterMap_append] at hpairs hfree hbound
      refine ⟨List.nodup_middle.mpr (List.nodup_cons.mpr ⟨hfree, hpairs⟩), fun i hi => ?_⟩
      rcases List.mem_cons.mp (List.perm_middle.mem_iff.mp hi) with rfl | hi
      · exact hnow
      · exact Nat.lt_of_lt_of_le (hbound i hi) hgrows
  refine ⟨hnumbers.1, hnumbers.2, fun i hi => ?_, fun other hother j hnumber => ?_, fun i => ?_⟩
  · dsimp only at hi ⊢
    rw [hothers (by omega), h.silent i (by omega)]
  · rcases List.mem_append.mp hother with hother | hother
    · exact hkept other (List.mem_append_left _ hother) j hnumber
    · rcases List.mem_append.mp hother with hother | hother
      · obtain ⟨hsome, hphase⟩ := hcalls other hother
        obtain rfl := Option.some.inj (hnumber.symm.trans hsome)
        rw [hphase]
        exact hown
      · exact hkept other (List.mem_append_right _ hother) j hnumber
  · by_cases hi : i = (C.number call).getD (C.issued s.shared)
    · subst hi
      exact ⟨q, hown⟩
    · dsimp only
      rw [hothers hi]
      exact h.obeys i

theorem Coherent.step (h : C.Coherent s) (a : PoolAction κ ι ω) : C.Coherent (S.step s a) := by
  rcases S.step_cases s a with ⟨call, -, hstart, hnext⟩ |
    ⟨index, input, call, pre, post, -, -, hsplit, -, hnext⟩ |
    ⟨index, call, pre, post, -, -, hsplit, -, hnext⟩ | ⟨event, -, hnext⟩ | ⟨hnext, -⟩
  · rw [hnext]
    have hnumbers : (s.inflight ++ [call]).filterMap C.number =
        s.inflight.filterMap C.number := by
      rw [List.filterMap_append, List.filterMap_cons_none (C.starts call hstart),
        List.filterMap_nil, List.append_nil]
    refine ⟨?_, ?_, h.silent, ?_, h.obeys⟩
    · rw [hnumbers]
      exact h.nodup
    · rw [hnumbers]
      exact h.issued
    · refine List.forall_mem_append.mpr ⟨h.inflight, List.forall_mem_singleton.mpr ?_⟩
      intro i hi
      rw [C.starts call hstart] at hi
      cases hi
  · rw [hnext]
    exact h.resume input hsplit
  · rw [hnext]
    have hsub := sublist_of_split hsplit
    exact ⟨h.nodup.sublist (hsub.filterMap _),
      fun i hi => h.issued i ((hsub.filterMap _).subset hi), h.silent,
      fun other hother => h.inflight other (hsub.subset hother), h.obeys⟩
  · rw [hnext]
    obtain ⟨hissued, hlog⟩ := C.external event s.shared
    have htrace (i : Nat) : C.trace i (S.external event s.shared) = C.trace i s.shared := by
      rw [trace, hlog]
      rfl
    refine ⟨h.nodup, fun i hi => ?_, fun i hi => ?_, fun call hcall i hi => ?_, fun i => ?_⟩
    · exact Nat.lt_of_lt_of_eq (h.issued i hi) hissued.symm
    · exact (htrace i).trans (h.silent i (Nat.le_trans (Nat.le_of_eq hissued.symm) hi))
    · exact (htrace i).symm ▸ h.inflight call hcall i hi
    · exact (htrace i).symm ▸ h.obeys i
  · rwa [hnext]

/-- Every conversation of a run obeys the protocol. -/
theorem coherent_run (h : C.Coherent s) (actions : List (PoolAction κ ι ω)) :
    C.Coherent (S.run actions s) :=
  List.foldlRecOn actions S.step h fun _ hs a _ => hs.step a

/-- Where no call is lost, none is forgotten. -/
theorem Served.step (h : C.Served s) (hcoherent : C.Coherent s) (a : PoolAction κ ι ω)
    (hcrash : ∀ index, a ≠ .crash index) : C.Served (S.step s a) := by
  rcases S.step_cases s a with ⟨call, -, -, hnext⟩ |
    ⟨index, input, call, pre, post, -, -, hsplit, -, hnext⟩ |
    ⟨index, call, pre, post, rfl, -⟩ | ⟨event, -, hnext⟩ | ⟨hnext, -⟩
  · rw [hnext]
    intro i hi
    refine (h i hi).imp_left ?_
    rintro ⟨other, hother, hnumber⟩
    exact ⟨other, List.mem_append_left _ hother, hnumber⟩
  · rw [hnext]
    have hmem : call ∈ s.inflight := by simp [hsplit]
    have hpath := hcoherent.path hmem
    obtain ⟨e, q, hlog, hissued, hstep, hleft⟩ := C.resume input s.shared call
    intro i hi
    dsimp only at hi ⊢
    by_cases hown : i = (C.number call).getD (C.issued s.shared)
    · subst hown
      rcases hleft with ⟨-, hclosed⟩ | ⟨next, hone, hnumber, -⟩
      · refine .inr ⟨q, ?_, hclosed⟩
        rw [trace, hlog, traceOf_cons_self]
        exact .cons hpath hstep
      · refine .inl ⟨next, ?_, hnumber⟩
        simp [hone]
    · have hbefore : i < C.issued s.shared := by
        rw [hissued] at hi
        cases hcall : C.number call with
        | none =>
            simp only [hcall, Option.isNone_none, if_true, Option.getD_none] at hi hown
            omega
        | some j => simpa [hcall] using hi
      rw [trace, hlog, traceOf_cons_of_ne hown]
      refine (h i hbefore).imp_left ?_
      rintro ⟨other, hother, hnumber⟩
      have hne : other ≠ call := by
        rintro rfl
        rw [hnumber] at hown
        exact hown rfl
      rw [hsplit] at hother
      refine ⟨other, ?_, hnumber⟩
      rcases List.mem_append.mp hother with hother | hother
      · exact List.mem_append_left _ hother
      · exact List.mem_append_right _ (List.mem_append_right _
          ((List.mem_cons.mp hother).resolve_left hne))
  · exact absurd rfl (hcrash index)
  · rw [hnext]
    obtain ⟨hissued, hlog⟩ := C.external event s.shared
    intro i hi
    dsimp only at hi ⊢
    rw [trace, hlog]
    exact h i (hissued ▸ hi)
  · rwa [hnext]

theorem served_run (h : C.Coherent s) (hserved : C.Served s) {actions : List (PoolAction κ ι ω)}
    (hcrash : ∀ a ∈ actions, ∀ index, a ≠ .crash index) : C.Served (S.run actions s) := by
  refine (List.foldlRecOn actions S.step (motive := fun s => C.Coherent s ∧ C.Served s)
    ⟨h, hserved⟩ fun s hs a ha => ⟨hs.1.step a, hs.2.step hs.1 a (hcrash a ha)⟩).2

end Conversations

end Lib
