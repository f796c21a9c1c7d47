import Mathlib.Data.Int.Order.Basic

/-!
Search by halving for the first number that is accepted. A number is asked for at each step, and
what is asked may answer differently each time, or end the search.
-/

namespace Lib

inductive Verdict where
  | accepted | rejected | aborted
deriving DecidableEq

/-- What was found and the numbers that were asked for. `ask` gets the count of the questions before
this one. -/
def bisect (ask : Nat → Int → Verdict) (count : Nat) (lo hi found : Int) : Int × List Int :=
  if lo ≤ hi then
    let mid := (lo + hi) / 2
    match ask count mid with
    | .accepted =>
        let rest := bisect ask (count + 1) lo (mid - 1) mid
        (rest.1, mid :: rest.2)
    | .rejected =>
        let rest := bisect ask (count + 1) (mid + 1) hi found
        (rest.1, mid :: rest.2)
    | .aborted => (found, [mid])
  else (found, [])
termination_by (hi + 1 - lo).toNat
decreasing_by
  · omega
  · omega

variable {ask : Nat → Int → Verdict}

/-- Whatever the answers are, the search ends with what it began with or with a number that was
accepted when it was asked for. -/
theorem bisect_found (count : Nat) (lo hi found : Int) :
    (bisect ask count lo hi found).1 = found ∨
      ∃ k, (bisect ask count lo hi found).2[k]? = some (bisect ask count lo hi found).1 ∧
        ask (count + k) (bisect ask count lo hi found).1 = .accepted := by
  fun_induction bisect ask count lo hi found with
  | case1 count lo hi found hle mid haccepted rest ih =>
      right
      rcases ih with hfound | ⟨k, hprobe, hverdict⟩
      · refine ⟨0, ?_, ?_⟩
        · simp only [List.getElem?_cons_zero]
          exact congrArg some hfound.symm
        · change ask count rest.1 = .accepted
          rw [hfound]
          exact haccepted
      · refine ⟨k + 1, hprobe, ?_⟩
        rw [Nat.add_comm k 1, ← Nat.add_assoc]
        exact hverdict
  | case2 count lo hi found hle mid hrejected rest ih =>
      rcases ih with hfound | ⟨k, hprobe, hverdict⟩
      · exact .inl hfound
      · refine .inr ⟨k + 1, hprobe, ?_⟩
        rw [Nat.add_comm k 1, ← Nat.add_assoc]
        exact hverdict
  | case3 => exact .inl rfl
  | case4 => exact .inl rfl

/-- If the numbers from `first` on are the ones that are accepted, the least of them is found; if
the bounds have none, the search ends behind the upper one. -/
theorem bisect_first {first : Int} (haccepted : ∀ count n, first ≤ n → ask count n = .accepted)
    (hrejected : ∀ count n, n < first → ask count n = .rejected) (count : Nat) (lo hi : Int) :
    (bisect ask count lo hi (hi + 1)).1 = min (max first lo) (hi + 1) := by
  generalize hfound : hi + 1 = found
  fun_induction bisect ask count lo hi found with
  | case1 count lo hi found hle mid hverdict rest ih =>
      have hmid : first ≤ mid := by
        by_contra hlt
        rw [hrejected count mid (Int.not_le.mp hlt)] at hverdict
        cases hverdict
      have hrest : rest.1 = min (max first lo) mid := ih (by omega)
      change rest.1 = _
      omega
  | case2 count lo hi found hle mid hverdict rest ih =>
      have hmid : mid < first := by
        by_contra hge
        rw [haccepted count mid (Int.not_lt.mp hge)] at hverdict
        cases hverdict
      have hrest : rest.1 = min (max first (mid + 1)) found := ih hfound
      change rest.1 = _
      omega
  | case3 count lo hi found hle mid hverdict =>
      by_cases hmid : first ≤ mid
      · rw [haccepted count mid hmid] at hverdict
        cases hverdict
      · rw [hrejected count mid (Int.not_le.mp hmid)] at hverdict
        cases hverdict
  | case4 => omega

end Lib
