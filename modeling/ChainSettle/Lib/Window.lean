import Mathlib.Data.List.Basic

/-!
Rate limits. A list of times keeps a limit when no interval of the given length holds
more of them. The newest time keeps it where not too many of the others are recent; no
other interval need be looked at.
-/

namespace Lib

section Rate

/-- At most `limit` of the times lie in any closed interval of length `span`. -/
def WithinRate (limit span : Nat) (times : List Nat) : Prop :=
  ∀ start, (times.filter fun t => start ≤ t ∧ t ≤ start + span).length ≤ limit

/-- The times that an interval of length `span` which ends now or later can hold. -/
def recent (span now : Nat) (times : List Nat) : List Nat :=
  times.filter fun t => now ≤ t + span

variable {limit span now : Nat} {times : List Nat}

theorem withinRate_nil : WithinRate limit span [] :=
  fun _ => Nat.zero_le _

@[simp] theorem recent_cons :
    recent span now (now :: times) = now :: recent span now times := by
  simp [recent]

/-- Nothing becomes recent again. -/
theorem length_recent_le {later : Nat} (h : now ≤ later) :
    (recent span later times).length ≤ (recent span now times).length := by
  refine (List.monotone_filter_right times fun t ht => ?_).length_le
  exact decide_eq_true (Nat.le_trans h (of_decide_eq_true ht))

/-- The newest time keeps the rate where fewer than the limit are recent. -/
theorem WithinRate.cons (h : WithinRate limit span times)
    (hrecent : (recent span now times).length < limit) :
    WithinRate limit span (now :: times) := by
  intro start
  by_cases hnow : start ≤ now ∧ now ≤ start + span
  · rw [List.filter_cons, if_pos (decide_eq_true hnow), List.length_cons]
    have hsub : (times.filter fun t => start ≤ t ∧ t ≤ start + span).length ≤
        (recent span now times).length := by
      refine (List.monotone_filter_right times fun t ht => ?_).length_le
      have hbounds : start ≤ t ∧ t ≤ start + span := of_decide_eq_true ht
      exact decide_eq_true (by omega)
    omega
  · rw [List.filter_cons, if_neg (by simpa using hnow)]
    exact h start

end Rate

end Lib
