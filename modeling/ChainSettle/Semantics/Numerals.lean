import ChainSettle.Semantics.Values
import Mathlib.Data.List.TakeDrop
import Mathlib.Data.List.TakeWhile

/-!
What `BigInt` and `Number` read from texts of digits only: the number that is written.
-/

namespace ChainSettle

theorem exists_digitChar {c : Char} (h : c.isDigit) : ∃ k < 10, c = Nat.digitChar k := by
  have hrange : 48 ≤ c.toNat ∧ c.toNat ≤ 57 := Char.isDigit_iff_toNat.mp h
  refine ⟨c.toNat - 48, by omega, ?_⟩
  apply Char.toNat_inj.mp
  rw [Nat.toNat_digitChar_of_lt_ten (by omega)]
  omega

theorem not_isJsSpace_of_isDigit {c : Char} (h : c.isDigit) : ¬ isJsSpace c := by
  obtain ⟨k, hk, rfl⟩ := exists_digitChar h
  have hall : ∀ k < 10, ¬ isJsSpace (Nat.digitChar k) := by decide
  exact hall k hk

theorem digitValue_of_isDigit {c : Char} (h : c.isDigit) :
    digitValue c = some (c.toNat - '0'.toNat) ∧ c.toNat - '0'.toNat < 10 := by
  obtain ⟨k, hk, rfl⟩ := exists_digitChar h
  have hall : ∀ k < 10, digitValue (Nat.digitChar k) =
      some ((Nat.digitChar k).toNat - '0'.toNat) ∧ (Nat.digitChar k).toNat - '0'.toNat < 10 := by
    decide
  exact hall k hk

theorem dropWhile_of_forall_not {α : Type} {p : α → Bool} {xs : List α} (h : ∀ x ∈ xs, ¬ p x) :
    xs.dropWhile p = xs := by
  cases xs with
  | nil => rfl
  | cons x xs => exact List.dropWhile_cons_of_neg (h x (.head _))

theorem jsTrim_of_digits {cs : List Char} (h : ∀ c ∈ cs, c.isDigit) : jsTrim cs = cs := by
  have hspace : ∀ c ∈ cs, ¬ isJsSpace c := fun c hc => not_isJsSpace_of_isDigit (h c hc)
  unfold jsTrim
  rw [dropWhile_of_forall_not hspace, dropWhile_of_forall_not (by simpa using hspace),
    List.reverse_reverse]

theorem parseDigits_of_digits {cs : List Char} (hne : cs ≠ []) (h : ∀ c ∈ cs, c.isDigit) :
    parseDigits 10 cs = some (Nat.ofDigitChars 10 cs 0) := by
  unfold parseDigits
  rw [if_neg (by simpa using hne)]
  generalize 0 = start
  clear hne
  induction cs generalizing start with
  | nil => rfl
  | cons c cs ih =>
      obtain ⟨hvalue, hless⟩ := digitValue_of_isDigit (h c (.head _))
      rw [List.foldlM_cons, Nat.ofDigitChars_cons, hvalue]
      simp only [Option.bind_eq_bind, Option.bind_some, if_pos hless, Nat.mul_comm start]
      exact ih (fun d hd => h d (.tail _ hd)) _

theorem parseDecimal_of_digits {cs : List Char} (hne : cs ≠ []) (h : ∀ c ∈ cs, c.isDigit) :
    parseDecimal cs = some (Nat.ofDigitChars 10 cs 0) := by
  have hdigit {p : Char → Bool} (hp : ∀ k < 10, p (Nat.digitChar k)) : ∀ c ∈ cs, p c := by
    intro c hc
    obtain ⟨k, hk, rfl⟩ := exists_digitChar (h c hc)
    exact hp k hk
  have hspan {p : Char → Bool} (hp : ∀ k < 10, p (Nat.digitChar k)) : cs.span p = (cs, []) := by
    rw [List.span_eq_takeWhile_dropWhile, List.takeWhile_eq_self_iff.mpr (hdigit hp),
      List.dropWhile_eq_nil_iff.mpr (hdigit hp)]
  unfold parseDecimal
  rw [hspan (by decide)]
  simp only [hspan (p := fun c => c != '.') (by decide)]
  simp [parseDigits_of_digits hne h]
  omega

theorem parseRadix_of_digits {cs : List Char} (h : ∀ c ∈ cs, c.isDigit) : parseRadix cs = none := by
  have hletter {c d : Char} {rest : List Char} (hd : ¬ d.isDigit) : cs ≠ c :: d :: rest := by
    rintro rfl
    exact hd (h d (.tail _ (.head _)))
  unfold parseRadix
  split
  · exact absurd rfl (hletter (by decide))
  · exact absurd rfl (hletter (by decide))
  · exact absurd rfl (hletter (by decide))
  · exact absurd rfl (hletter (by decide))
  · exact absurd rfl (hletter (by decide))
  · exact absurd rfl (hletter (by decide))
  · rfl

theorem bigIntOfString_of_digits {cs : List Char} (h : ∀ c ∈ cs, c.isDigit) :
    bigIntOfString (String.ofList cs) = some (Nat.ofDigitChars 10 cs 0 : Nat) := by
  unfold bigIntOfString
  rw [String.toList_ofList, jsTrim_of_digits h]
  simp only [List.isEmpty_iff, parseRadix_of_digits h]
  split
  · rename_i hempty
    rw [hempty]
    rfl
  · rename_i hne
    unfold parseSigned
    split
    · exact absurd (h '-' (.head _)) (by decide)
    · exact absurd (h '+' (.head _)) (by decide)
    · rw [parseDigits_of_digits hne h]
      rfl

end ChainSettle
