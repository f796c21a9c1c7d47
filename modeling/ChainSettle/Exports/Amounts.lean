import ChainSettle.Exports.ReadBack
import ChainSettle.Responses.Fields
import ChainSettle.Semantics.Numerals
import Mathlib.Data.Set.Function

/-!
Amounts in base units and as texts. `toHumanAmount` writes every amount with all its decimals,
and `toBaseUnit` reads each text of that form back: with up to 22 decimals the two are inverse to
each other.

The amounts of an export next to those of the API. `buildCsv` writes every amount with seven
decimals, `serialize` with the decimals of the shipment's token.
-/

namespace ChainSettle

open Lib

/-- A numeral, a point and exactly so many digits. -/
def CanonicalAmount (decimals : Nat) (text : String) : Prop :=
  ∃ whole fraction, text.toList = whole ++ '.' :: fraction ∧ Numeral whole ∧
    (∀ c ∈ fraction, c.isDigit) ∧ fraction.length = decimals

section Conversion

variable {decimals : Nat}

/-- Five to the 22nd is the last power that fits the significand of a double. -/
theorem powerOfTen_eq (h : decimals ≤ 22) : powerOfTen decimals = 10 ^ decimals := by
  have hfits : 5 ^ decimals < 2 ^ significandBits :=
    Nat.lt_of_le_of_lt (Nat.pow_le_pow_right (by decide) h) (by decide)
  have hfactors : 10 ^ decimals = 5 ^ decimals * 2 ^ decimals := Nat.mul_pow 5 2 decimals
  rw [powerOfTen, hfactors]
  exact nearestDouble_mul_two_pow hfits decimals

theorem toList_toHumanAmount (amount : Int) (decimals : Nat) :
    (toHumanAmount amount decimals).toList =
      (toString (amount.tdiv (powerOfTen decimals))).toList ++ '.' ::
        (toString (amount.tmod (powerOfTen decimals))).toList.leftpad decimals '0' := by
  have hself (text : String) : toString text = text := rfl
  have hint (n : Int) : toString n = n.repr := rfl
  unfold toHumanAmount padStart
  simp only [String.toList_append, hself, hint, String.toList_ofList, List.append_assoc,
    List.leftpad, String.length_toList]
  rfl

theorem toList_toHumanAmount_natCast (h : decimals ≤ 22) (amount : Nat) :
    (toHumanAmount amount decimals).toList =
      Nat.toDigits 10 (amount / 10 ^ decimals) ++ '.' ::
        decimal decimals (amount % 10 ^ decimals) := by
  have htext (n : Nat) : (toString (n : Int)).toList = Nat.toDigits 10 n := Nat.toList_repr
  rw [toList_toHumanAmount, powerOfTen_eq h, ← Int.ofNat_tdiv, ← Int.ofNat_tmod, htext, htext,
    decimal]

/-- The fraction of an amount, padded and cut, has the same value. -/
theorem ofDigitChars_fraction {rest : Nat} (h : rest < 10 ^ decimals) :
    Nat.ofDigitChars 10 (((decimal decimals rest).rightpad decimals '0').take decimals) 0 =
      rest := by
  cases decimals with
  | zero => exact (Nat.lt_one_iff.mp h).symm
  | succ k =>
      have hlength := length_decimal (Nat.succ_pos k) h
      rw [List.rightpad, hlength, Nat.sub_self, List.replicate_zero, List.append_nil,
        List.take_of_length_le (Nat.le_of_eq hlength), ofDigitChars_decimal]

theorem toBaseUnit_of_digits (h : decimals ≤ 22) {text : String} {whole fraction : List Char}
    (htext : text.toList = whole ++ '.' :: fraction) (hwhole : ∀ c ∈ whole, c.isDigit)
    (hfraction : ∀ c ∈ fraction, c.isDigit) :
    toBaseUnit text decimals = some ((Nat.ofDigitChars 10 whole 0 * 10 ^ decimals +
      Nat.ofDigitChars 10 ((fraction.rightpad decimals '0').take decimals) 0 : Nat) : Int) := by
  have hpoint {cs : List Char} (hcs : ∀ c ∈ cs, c.isDigit) : '.' ∉ cs := fun hmem =>
    absurd (hcs '.' hmem) (by decide)
  have hpadded : ∀ c ∈ (fraction.rightpad decimals '0').take decimals, c.isDigit := by
    intro c hc
    rcases List.mem_append.mp (List.mem_of_mem_take hc) with hdigit | hzero
    · exact hfraction c hdigit
    · rw [List.eq_of_mem_replicate hzero]
      rfl
  have hparts : text.toList.splitOn '.' = [whole, fraction] := by
    rw [htext, List.splitOn_append_cons_self_of_not_mem (hpoint hwhole),
      List.splitOn_eq_singleton (hpoint hfraction)]
  unfold toBaseUnit
  simp only [hparts, List.headD_cons, List.getElem?_cons_succ, List.getElem?_cons_zero,
    Option.getD_some, bigIntOfString_of_digits hwhole, bigIntOfString_of_digits hpadded,
    powerOfTen_eq h]
  push_cast
  rfl

theorem toBaseUnit_toHumanAmount (h : decimals ≤ 22) (amount : Nat) :
    toBaseUnit (toHumanAmount amount decimals) decimals = some (amount : Int) := by
  have hpos : 0 < 10 ^ decimals := Nat.pow_pos (by decide)
  rw [toBaseUnit_of_digits h (toList_toHumanAmount_natCast h amount) (numeral_toDigits _).digits
    (fun _ hc => isDigit_of_mem_decimal hc), ofDigitChars_fraction (Nat.mod_lt _ hpos),
    Nat.ofDigitChars_ten_toDigits, Nat.mul_comm, Nat.div_add_mod]

theorem canonical_toHumanAmount (hpos : 0 < decimals) (h : decimals ≤ 22) (amount : Nat) :
    CanonicalAmount decimals (toHumanAmount amount decimals) :=
  ⟨_, _, toList_toHumanAmount_natCast h amount, numeral_toDigits _,
    fun _ hc => isDigit_of_mem_decimal hc,
    length_decimal hpos (Nat.mod_lt _ (Nat.pow_pos (by decide)))⟩

theorem toHumanAmount_of_canonical (hpos : 0 < decimals) (h : decimals ≤ 22) {text : String}
    (hcanonical : CanonicalAmount decimals text) :
    ∃ amount : Nat, toBaseUnit text decimals = some (amount : Int) ∧
      toHumanAmount amount decimals = text := by
  obtain ⟨whole, fraction, htext, hwhole, hfraction, rfl⟩ := hcanonical
  have hrest := ofDigitChars_lt hfraction
  refine ⟨_, toBaseUnit_of_digits h htext hwhole.digits hfraction, String.toList_injective ?_⟩
  rw [List.rightpad, Nat.sub_self, List.replicate_zero, List.append_nil, List.take_length,
    toList_toHumanAmount_natCast h, Nat.mul_comm, Nat.mul_add_div (Nat.pow_pos (by decide)),
    Nat.div_eq_of_lt hrest, Nat.add_zero, Nat.mul_add_mod, Nat.mod_eq_of_lt hrest,
    hwhole.toDigits_ofDigitChars, decimal_ofDigitChars (List.length_pos_iff.mp hpos) hfraction,
    htext]

/-- With up to 22 decimals nothing is lost: the power of ten is exact, every amount is read back
from its text, and from one decimal on the texts are the canonical ones, each of which is
written again as it was read. -/
theorem amounts_lossless (h : decimals ≤ 22) :
    powerOfTen decimals = 10 ^ decimals ∧
      (∀ amount : Int, 0 ≤ amount →
        toBaseUnit (toHumanAmount amount decimals) decimals = some amount) ∧
      (0 < decimals →
        (∀ text, CanonicalAmount decimals text → ∃ amount, 0 ≤ amount ∧
          toBaseUnit text decimals = some amount ∧ toHumanAmount amount decimals = text) ∧
        Set.BijOn (toHumanAmount · decimals) {amount | 0 ≤ amount}
          {text | CanonicalAmount decimals text}) := by
  have hback (amount : Int) (hsign : 0 ≤ amount) :
      toBaseUnit (toHumanAmount amount decimals) decimals = some amount := by
    obtain ⟨n, rfl⟩ := Int.eq_ofNat_of_zero_le hsign
    exact toBaseUnit_toHumanAmount h n
  have hread (hpos : 0 < decimals) (text : String) (hcanonical : CanonicalAmount decimals text) :
      ∃ amount, 0 ≤ amount ∧ toBaseUnit text decimals = some amount ∧
        toHumanAmount amount decimals = text := by
    obtain ⟨n, hunit, htext⟩ := toHumanAmount_of_canonical hpos h hcanonical
    exact ⟨n, Int.natCast_nonneg n, hunit, htext⟩
  refine ⟨powerOfTen_eq h, hback, fun hpos => ⟨hread hpos, fun amount hsign => ?_, ?_, ?_⟩⟩
  · obtain ⟨n, rfl⟩ := Int.eq_ofNat_of_zero_le hsign
    exact canonical_toHumanAmount hpos h n
  · intro amount hsign other hsign' hsame
    have hunit := congrArg (toBaseUnit · decimals) hsame
    simp only [hback amount hsign, hback other hsign'] at hunit
    exact Option.some.inj hunit
  · intro text hcanonical
    obtain ⟨amount, hsign, -, htext⟩ := hread hpos text hcanonical
    exact ⟨amount, hsign, htext⟩

example : toHumanAmount 100 7 = "0.0000100" := by decide

example : toBaseUnit "1.12345678" 7 = some 11234567 := by decide +kernel

theorem seven_decimals_lossless :
    toBaseUnit (toHumanAmount 15000000 7) 7 = some 15000000 ∧
      Set.BijOn (toHumanAmount · 7) {amount | 0 ≤ amount} {text | CanonicalAmount 7 text} := by
  obtain ⟨-, hback, hcanonical⟩ := @amounts_lossless 7 (by decide)
  exact ⟨hback 15000000 (by decide), (hcanonical (by decide)).2⟩

end Conversion

section Texts

/-- The characters of an integer. -/
def signed (n : Int) : List Char := (toString n).toList

theorem signed_natCast (n : Nat) : signed n = Nat.toDigits 10 n := Nat.toList_repr

theorem signed_negSucc (n : Nat) : signed (.negSucc n) = '-' :: Nat.toDigits 10 (n + 1) := by
  change ("-" ++ (n + 1).repr).toList = _
  rw [String.toList_append, Nat.toList_repr]
  rfl

theorem isDigit_toDigits {n : Nat} : ∀ c ∈ Nat.toDigits 10 n, c.isDigit :=
  fun _ hc => Nat.isDigit_of_mem_toDigits (by decide) (by decide) hc

theorem point_not_mem_signed (n : Int) : '.' ∉ signed n := by
  have hdigits (n : Nat) : '.' ∉ Nat.toDigits 10 n := fun hmem =>
    absurd (isDigit_toDigits _ hmem) (by decide)
  cases n with
  | ofNat n =>
      change '.' ∉ signed (n : Int)
      rw [signed_natCast]
      exact hdigits n
  | negSucc n =>
      rw [signed_negSucc, List.mem_cons, not_or]
      exact ⟨by decide, hdigits _⟩

/-- Zeros before an integer do not hide it. -/
theorem leftpad_signed_inj {width width' : Nat} {n m : Int}
    (h : (signed n).leftpad width '0' = (signed m).leftpad width' '0') : n = m := by
  have hminus {width width' n m : Nat} (h : (signed (n : Int)).leftpad width '0' =
      (signed (.negSucc m)).leftpad width' '0') : False := by
    rw [signed_natCast, signed_negSucc] at h
    have hmem : '-' ∈ (Nat.toDigits 10 n).leftpad width '0' := by
      rw [h, List.leftpad]
      simp
    exact absurd (isDigit_of_mem_decimal hmem) (by decide)
  cases n with
  | ofNat n =>
      cases m with
      | ofNat m =>
          change (signed (n : Int)).leftpad width '0' = (signed (m : Int)).leftpad width' '0' at h
          rw [signed_natCast, signed_natCast] at h
          have hvalue := congrArg (Nat.ofDigitChars 10 · 0) h
          have hread := ofDigitChars_decimal
          unfold decimal at hread
          simp only [hread] at hvalue
          rw [hvalue]
      | negSucc m => exact (hminus h).elim
  | negSucc n =>
      cases m with
      | ofNat m => exact (hminus h.symm).elim
      | negSucc m =>
          rw [signed_negSucc, signed_negSucc, List.leftpad, List.leftpad] at h
          have hzeros {k : Nat} : ∀ c ∈ List.replicate k '0', c ≠ '-' := by
            intro c hc
            rw [List.eq_of_mem_replicate hc]
            decide
          obtain ⟨-, -, hdigits⟩ := append_cons_inj hzeros hzeros (not_not.mpr rfl)
            (not_not.mpr rfl) h
          have hvalue := congrArg (Nat.ofDigitChars 10 · 0) hdigits
          simp only [Nat.ofDigitChars_ten_toDigits] at hvalue
          rw [Int.negSucc.injEq]
          exact Nat.succ.inj hvalue

/-- Equal texts have the same whole part and the same rest, padded to the same length. -/
theorem toHumanAmount_eq_iff_parts (amount : Int) (a b : Nat) :
    toHumanAmount amount a = toHumanAmount amount b ↔
      amount.tdiv (powerOfTen a) = amount.tdiv (powerOfTen b) ∧
        amount.tmod (powerOfTen a) = amount.tmod (powerOfTen b) ∧
        max a (signed (amount.tmod (powerOfTen a))).length =
          max b (signed (amount.tmod (powerOfTen b))).length := by
  rw [← String.toList_inj, toList_toHumanAmount, toList_toHumanAmount]
  change signed _ ++ '.' :: (signed _).leftpad a '0' = signed _ ++ '.' :: (signed _).leftpad b '0' ↔ _
  have hpoint {n : Int} : ∀ c ∈ signed n, c ≠ '.' := by
    rintro c hc rfl
    exact point_not_mem_signed n hc
  constructor
  · intro h
    obtain ⟨hwhole, -, hrest⟩ := append_cons_inj hpoint hpoint (not_not.mpr rfl) (not_not.mpr rfl) h
    have hlength := congrArg List.length hrest
    rw [List.length_leftpad, List.length_leftpad] at hlength
    refine ⟨?_, leftpad_signed_inj hrest, hlength⟩
    have hpadded : (signed (amount.tdiv (powerOfTen a))).leftpad 0 '0' =
        (signed (amount.tdiv (powerOfTen b))).leftpad 0 '0' := by
      rw [hwhole]
    exact leftpad_signed_inj hpadded
  · rintro ⟨hwhole, hrest, hlength⟩
    rw [hwhole]
    rw [hrest] at hlength ⊢
    have hzeros : a - (signed (amount.tmod (powerOfTen b))).length =
        b - (signed (amount.tmod (powerOfTen b))).length := by omega
    rw [List.leftpad, List.leftpad, hzeros]

/-- Seven decimals, or a negative amount whose text is as long at six or eight. -/
def SameAtSeven (amount : Int) (decimals : Nat) : Prop :=
  decimals = 7 ∨ (decimals = 6 ∧ -10 ^ 6 < amount ∧ amount ≤ -10 ^ 5) ∨
    (decimals = 8 ∧ -10 ^ 7 < amount ∧ amount ≤ -10 ^ 6)

instance (amount : Int) (decimals : Nat) : Decidable (SameAtSeven amount decimals) :=
  inferInstanceAs (Decidable (_ ∨ _))

theorem length_signed_le {n : Int} {k : Nat} (hk : 0 < k) (h : n.natAbs < 10 ^ k) :
    (signed n).length ≤ k + 1 := by
  cases n with
  | ofNat n =>
      change (signed (n : Int)).length ≤ k + 1
      rw [signed_natCast]
      exact Nat.le_succ_of_le ((Nat.length_toDigits_le_iff (by decide) hk).mpr h)
  | negSucc n =>
      rw [signed_negSucc, List.length_cons]
      exact Nat.succ_le_succ ((Nat.length_toDigits_le_iff (by decide) hk).mpr h)

/-- An amount below one unit at both precisions. -/
theorem parts_of_small {amount : Int} {decimals : Nat} (h : decimals ≤ 22)
    (hsmall : amount.natAbs < 10 ^ decimals) :
    amount.tdiv (powerOfTen decimals) = 0 ∧ amount.tmod (powerOfTen decimals) = amount := by
  have hmod : amount.tmod (powerOfTen decimals) = amount := by
    rw [powerOfTen_eq h]
    cases amount with
    | ofNat n =>
        have hless : n < 10 ^ decimals := hsmall
        change (n : Int).tmod _ = n
        rw [← Int.ofNat_tmod, Nat.mod_eq_of_lt hless]
    | negSucc n =>
        have hless : n.succ < 10 ^ decimals := hsmall
        rw [Int.negSucc_eq, ← Int.natCast_succ, Int.neg_tmod, ← Int.ofNat_tmod,
          Nat.mod_eq_of_lt hless]
  have hsum := Int.mul_tdiv_add_tmod amount (powerOfTen decimals)
  rw [hmod, powerOfTen_eq h] at hsum
  have hpos : (0 : Int) < (10 ^ decimals : Nat) := by exact_mod_cast Nat.pow_pos (by decide)
  rw [powerOfTen_eq h]
  refine ⟨?_, powerOfTen_eq h ▸ hmod⟩
  have hzero : ((10 ^ decimals : Nat) : Int) * amount.tdiv (10 ^ decimals : Nat) = 0 := by omega
  exact (Int.mul_eq_zero.mp hzero).resolve_left hpos.ne'

/-- With other decimals than seven the amounts that keep their text are below one unit. -/
theorem small_of_same {amount : Int} {decimals : Nat} (hne : decimals ≠ 7)
    (h : toHumanAmount amount 7 = toHumanAmount amount decimals) :
    decimals ≤ 8 ∧ amount.natAbs < 10 ^ 7 ∧ amount.natAbs < 10 ^ decimals ∧
      max 7 (signed amount).length = max decimals (signed amount).length := by
  obtain ⟨hwhole, hrest, hlength⟩ := (toHumanAmount_eq_iff_parts amount 7 decimals).mp h
  have hseven : powerOfTen 7 = 10 ^ 7 := rfl
  have hbound : (amount.tmod (powerOfTen 7)).natAbs < 10 ^ 7 := by
    rw [hseven, Int.natAbs_tmod, Int.natAbs_natCast]
    exact Nat.mod_lt _ (by decide)
  have hshort := length_signed_le (by decide) hbound
  have hle : decimals ≤ 8 := by omega
  have hpower := powerOfTen_eq (Nat.le_trans hle (by decide : 8 ≤ 22))
  have hpos : 0 < 10 ^ decimals := Nat.pow_pos (by decide)
  -- the whole part is the same multiple of two different powers
  have hzero : amount.tdiv (powerOfTen 7) = 0 := by
    have hsum := Int.mul_tdiv_add_tmod amount (powerOfTen 7)
    have hsum' := Int.mul_tdiv_add_tmod amount (powerOfTen decimals)
    rw [← hwhole, ← hrest] at hsum'
    have hsame := add_right_cancel (hsum.trans hsum'.symm)
    by_contra hnonzero
    have hpowers := (Int.mul_eq_mul_right_iff hnonzero).mp hsame
    rw [hseven, hpower, Int.ofNat_inj] at hpowers
    exact hne (Nat.pow_right_injective (by decide : 2 ≤ 10) hpowers).symm
  have hamount : amount.tmod (powerOfTen 7) = amount := by
    have hsum := Int.mul_tdiv_add_tmod amount (powerOfTen 7)
    rwa [hzero, Int.mul_zero, Int.zero_add] at hsum
  have hbound' : (amount.tmod (powerOfTen decimals)).natAbs < 10 ^ decimals := by
    rw [hpower, Int.natAbs_tmod, Int.natAbs_natCast]
    exact Nat.mod_lt _ hpos
  rw [← hrest, hamount] at hbound'
  rw [hamount] at hbound hlength
  rw [← hrest, hamount] at hlength
  exact ⟨hle, hbound, hbound', hlength⟩

theorem toHumanAmount_seven_iff (amount : Int) (decimals : Nat) :
    toHumanAmount amount 7 = toHumanAmount amount decimals ↔ SameAtSeven amount decimals := by
  constructor
  · intro h
    by_cases hne : decimals = 7
    · exact .inl hne
    · obtain ⟨hle, hbound, hbound', hlength⟩ := small_of_same hne h
      have hdigits {n k : Nat} (hk : 0 < k) : (Nat.toDigits 10 n).length ≤ k ↔ n < 10 ^ k :=
        Nat.length_toDigits_le_iff (by decide) hk
      have hless {n k : Nat} (hk : decimals ≤ k) (hn : n < 10 ^ decimals) : n < 10 ^ k :=
        Nat.lt_of_lt_of_le hn (Nat.pow_le_pow_right (by decide) hk)
      cases amount with
      | ofNat n =>
          -- it would have seven digits, and fewer than seven decimals leave six at most
          have hsigned : signed (Int.ofNat n) = Nat.toDigits 10 n := signed_natCast n
          have hseven := (hdigits (by decide : 0 < 7)).mpr (show n < 10 ^ 7 from hbound)
          have hsix (hk : decimals ≤ 6) :=
            (hdigits (by decide : 0 < 6)).mpr (hless hk (show n < 10 ^ decimals from hbound'))
          rw [hsigned] at hlength
          omega
      | negSucc n =>
          rw [signed_negSucc, List.length_cons] at hlength
          have hseven := (hdigits (by decide : 0 < 7)).mpr (show n + 1 < 10 ^ 7 from hbound)
          have hfive (hk : decimals ≤ 5) :=
            (hdigits (by decide : 0 < 5)).mpr (hless hk (show n + 1 < 10 ^ decimals from hbound'))
          have hcases : decimals = 6 ∨ decimals = 8 := by omega
          rcases hcases with rfl | rfl
          · have hmore : ¬ n + 1 < 10 ^ 5 := by
              rw [← hdigits (by decide)]
              omega
            have hupper : n + 1 < 10 ^ 6 := hbound'
            exact .inr (.inl ⟨rfl, by omega, by omega⟩)
          · have hmore : ¬ n + 1 < 10 ^ 6 := by
              rw [← hdigits (by decide)]
              omega
            have hupper : n + 1 < 10 ^ 7 := hbound
            exact .inr (.inr ⟨rfl, by omega, by omega⟩)
  · have hnegative {k : Nat} (hk : 0 < k) (hlow : -10 ^ (k + 1) < amount) (hhigh : amount ≤ -10 ^ k) :
        (signed amount).length = k + 2 := by
      cases amount with
      | ofNat n =>
          have hpos : (0 : Int) < 10 ^ k := Int.pow_pos (by decide)
          exact absurd (Int.natCast_nonneg n) (not_le.mpr (lt_of_le_of_lt hhigh (Int.neg_neg_of_pos hpos)))
      | negSucc n =>
          rw [Int.negSucc_eq] at hlow hhigh
          have hmost : n + 1 < 10 ^ (k + 1) := by exact_mod_cast Int.neg_lt_neg_iff.mp hlow
          have hleast : 10 ^ k ≤ n + 1 := by exact_mod_cast Int.neg_le_neg_iff.mp hhigh
          have hlong := (Nat.length_toDigits_le_iff (by decide : 1 < 10) (Nat.succ_pos k)).mpr hmost
          have hnotshort : ¬ (Nat.toDigits 10 (n + 1)).length ≤ k := by
            rw [Nat.length_toDigits_le_iff (by decide) hk]
            exact Nat.not_lt.mpr hleast
          rw [signed_negSucc, List.length_cons]
          omega
    have hsmall {k : Nat} (hk : k ≤ 22) (hlow : amount.natAbs < 10 ^ k) := parts_of_small hk hlow
    rintro (rfl | ⟨rfl, hlow, hhigh⟩ | ⟨rfl, hlow, hhigh⟩)
    · rfl
    · have hseven := hsmall (by decide : 7 ≤ 22) (by omega)
      have hsix := hsmall (by decide : 6 ≤ 22) (by omega)
      rw [toHumanAmount_eq_iff_parts, hseven.1, hseven.2, hsix.1, hsix.2,
        hnegative (by decide : 0 < 5) hlow hhigh]
      exact ⟨rfl, rfl, rfl⟩
    · have hseven := hsmall (by decide : 7 ≤ 22) (by omega)
      have height := hsmall (by decide : 8 ≤ 22) (by omega)
      rw [toHumanAmount_eq_iff_parts, hseven.1, hseven.2, height.1, height.2,
        hnegative (by decide : 0 < 6) hlow hhigh]
      exact ⟨rfl, rfl, rfl⟩

end Texts

section Records

/-- A record has the amounts of its shipment at the decimals of the shipment's token. -/
structure CarriesAmounts (s : ExportedShipment) (record : List String) : Prop where
  total : record[exportHeaders.idxOf "totalAmount"]? =
    some (toHumanAmount s.row.totalAmount s.row.tokenDecimals)
  released : record[exportHeaders.idxOf "releasedAmount"]? =
    some (toHumanAmount s.row.releasedAmount s.row.tokenDecimals)

theorem amounts_of_record {s : ExportedShipment} {record : List String} (h : record ∈ s.records) :
    record[exportHeaders.idxOf "totalAmount"]? = some (toUsdc s.row.totalAmount) ∧
      record[exportHeaders.idxOf "releasedAmount"]? = some (toUsdc s.row.releasedAmount) := by
  have hbase (cells : List String) : (s.base ++ cells)[5]? = some (toUsdc s.row.totalAmount) ∧
      (s.base ++ cells)[6]? = some (toUsdc s.row.releasedAmount) := ⟨rfl, rfl⟩
  have htotal : exportHeaders.idxOf "totalAmount" = 5 := by decide
  have hreleased : exportHeaders.idxOf "releasedAmount" = 6 := by decide
  rw [htotal, hreleased]
  unfold ExportedShipment.records at h
  split at h
  · rw [List.mem_singleton.mp h]
    exact hbase _
  · obtain ⟨m, -, rfl⟩ := List.mem_map.mp h
    exact hbase _

theorem records_nonempty (s : ExportedShipment) : ∃ record, record ∈ s.records := by
  unfold ExportedShipment.records
  cases s.milestones with
  | nil => exact ⟨_, .head _⟩
  | cons m rest => exact ⟨_, .head _⟩

theorem carriesAmounts_iff {s : ExportedShipment} {record : List String} (h : record ∈ s.records) :
    CarriesAmounts s record ↔ SameAtSeven s.row.totalAmount s.row.tokenDecimals ∧
      SameAtSeven s.row.releasedAmount s.row.tokenDecimals := by
  obtain ⟨htotal, hreleased⟩ := amounts_of_record h
  rw [← toHumanAmount_seven_iff, ← toHumanAmount_seven_iff]
  constructor
  · rintro ⟨htotal', hreleased'⟩
    exact ⟨Option.some.inj (htotal.symm.trans htotal'),
      Option.some.inj (hreleased.symm.trans hreleased')⟩
  · rintro ⟨hsame, hsame'⟩
    exact ⟨htotal.trans (congrArg some hsame), hreleased.trans (congrArg some hsame')⟩

/-- The API reports the amounts of a shipment at the decimals of its token, and the export of
any shipments has the same in every record if and only if seven decimals make no difference. -/
theorem exported_amounts_iff (shipments : List ExportedShipment) :
    (∀ (loaded : LoadedShipment) (relations : List ShipmentRelation) (now : Nat)
      (callerUserId : Option String),
      let response := serialize now callerUserId (loaded.withRelations relations)
      Fields.get? response "totalAmountFormatted" =
          some (.str (toHumanAmount loaded.row.totalAmount loaded.row.tokenDecimals)) ∧
        Fields.get? response "releasedAmountFormatted" =
          some (.str (toHumanAmount loaded.row.releasedAmount loaded.row.tokenDecimals))) ∧
    ((∀ s ∈ shipments, ∀ record ∈ s.records, CarriesAmounts s record) ↔
      ∀ s ∈ shipments, SameAtSeven s.row.totalAmount s.row.tokenDecimals ∧
        SameAtSeven s.row.releasedAmount s.row.tokenDecimals) := by
  refine ⟨fun loaded relations now callerUserId => ?_, ?_⟩
  · intro response
    simp only [response, get?_serialize]
    exact ⟨rfl, rfl⟩
  · refine forall₂_congr fun s _ => ⟨fun h => ?_, fun h record hmem => ?_⟩
    · obtain ⟨record, hmem⟩ := records_nonempty s
      exact (carriesAmounts_iff hmem).mp (h record hmem)
    · exact (carriesAmounts_iff hmem).mpr h

/-- Ten units of a token with six decimals. -/
def sixDecimals : ExportedShipment :=
  let usdc := namedMilestone "Delivery"
  { usdc with row := { usdc.row with tokenDecimals := 6, tokenSymbol := "USDT" } }

theorem six_decimals_divided :
    ¬ ∀ s ∈ [sixDecimals], ∀ record ∈ s.records, CarriesAmounts s record := by
  intro h
  have hrecord := h sixDecimals (.head _) _ (.head _)
  have hsame := (carriesAmounts_iff (.head _)).mp hrecord
  exact absurd hsame.1 (by decide)

end Records

end ChainSettle
