import ChainSettle.Lib.Utf8

/-!
Bytes as base64url texts without padding. Three bytes are four digits of six bits; what is left
of the last group is written with as many digits as it needs.
-/

namespace Lib

def base64Digits : List Char :=
  "ABCDEFGHIJKLMNOPQRSTUVWXYZabcdefghijklmnopqrstuvwxyz0123456789-_".toList

def base64Digit (n : Nat) : Char := base64Digits.getD n '_'

def base64Value (c : Char) : Option Nat := base64Digits.idxOf? c

theorem base64Value_base64Digit : ∀ n < 64, base64Value (base64Digit n) = some n := by
  decide +kernel

theorem base64Digit_ne_dot : ∀ n < 64, base64Digit n ≠ '.' := by
  decide +kernel

/-- The digits of some bytes. -/
def sextets : List UInt8 → List Nat
  | a :: b :: c :: rest =>
      a.toNat / 4 :: (a.toNat % 4 * 16 + b.toNat / 16) :: (b.toNat % 16 * 4 + c.toNat / 64) ::
        c.toNat % 64 :: sextets rest
  | [a, b] => [a.toNat / 4, a.toNat % 4 * 16 + b.toNat / 16, b.toNat % 16 * 4]
  | [a] => [a.toNat / 4, a.toNat % 4 * 16]
  | [] => []

/-- The bytes of some digits; bits that fill no byte are dropped. -/
def octets : List Nat → List UInt8
  | p :: q :: r :: s :: rest =>
      UInt8.ofNat (p * 4 + q / 16) :: UInt8.ofNat (q % 16 * 16 + r / 4) ::
        UInt8.ofNat (r % 4 * 64 + s) :: octets rest
  | [p, q, r] => [UInt8.ofNat (p * 4 + q / 16), UInt8.ofNat (q % 16 * 16 + r / 4)]
  | [p, q] => [UInt8.ofNat (p * 4 + q / 16)]
  | _ => []

theorem sextets_lt (bytes : List UInt8) : ∀ n ∈ sextets bytes, n < 64 := by
  fun_induction sextets bytes with
  | case1 a b c rest ih =>
      have ha := a.toNat_lt
      have hb := b.toNat_lt
      have hc := c.toNat_lt
      simp only [List.forall_mem_cons]
      refine ⟨?_, ?_, ?_, ?_, ih⟩ <;> omega
  | case2 a b =>
      have ha := a.toNat_lt
      have hb := b.toNat_lt
      simp only [List.forall_mem_cons]
      refine ⟨?_, ?_, ?_, nofun⟩ <;> omega
  | case3 a =>
      have ha := a.toNat_lt
      simp only [List.forall_mem_cons]
      refine ⟨?_, ?_, nofun⟩ <;> omega
  | case4 => exact nofun

theorem octets_sextets (bytes : List UInt8) : octets (sextets bytes) = bytes := by
  have hbyte {b : UInt8} {n : Nat} (h : n = b.toNat) : UInt8.ofNat n = b := by
    rw [h, UInt8.ofNat_toNat]
  fun_induction sextets bytes with
  | case1 a b c rest ih =>
      have hb := b.toNat_lt
      have hc := c.toNat_lt
      rw [octets, ih, hbyte (b := a) (by omega), hbyte (b := b) (by omega),
        hbyte (b := c) (by omega)]
  | case2 a b =>
      have hb := b.toNat_lt
      rw [octets, hbyte (b := a) (by omega), hbyte (b := b) (by omega)]
  | case3 a =>
      rw [octets, hbyte (b := a) (by omega)]
  | case4 => rfl

def base64url (bytes : List UInt8) : List Char := (sextets bytes).map base64Digit

/-- Characters that are no digits are passed over. -/
def decodeBase64url (text : List Char) : List UInt8 := octets (text.filterMap base64Value)

theorem decodeBase64url_base64url (bytes : List UInt8) :
    decodeBase64url (base64url bytes) = bytes := by
  have hdigits : (base64url bytes).filterMap base64Value = sextets bytes := by
    rw [base64url, List.filterMap_map]
    have hsome := fun n hn => base64Value_base64Digit n (sextets_lt bytes n hn)
    exact (List.filterMap_congr hsome).trans List.filterMap_some
  rw [decodeBase64url, hdigits, octets_sextets]

theorem base64url_injective : Function.Injective base64url :=
  Function.LeftInverse.injective decodeBase64url_base64url

theorem dot_not_mem_base64url (bytes : List UInt8) : '.' ∉ base64url bytes := by
  intro hmem
  obtain ⟨n, hn, hdot⟩ := List.mem_map.mp hmem
  exact base64Digit_ne_dot n (sextets_lt bytes n hn) hdot

end Lib
