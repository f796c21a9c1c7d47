import Mathlib.Data.List.Basic

/-!
Texts as UTF-8. A byte in the middle of the encoding of a character is a continuation byte, its
first byte is not, so the places where a text may be cut are those that are not before a
continuation byte.
-/

namespace Lib

def utf8 (text : List Char) : List UInt8 := text.flatMap String.utf8EncodeChar

/-- What bytes are decoded to, a replacement character if they are not a text. -/
def decodeUtf8 (bytes : List UInt8) : List Char :=
  (bytes.toByteArray.utf8Decode?.map Array.toList).getD [Char.ofNat 0xFFFD]

theorem decodeUtf8_utf8 (text : List Char) : decodeUtf8 (utf8 text) = text := by
  have hencode : (utf8 text).toByteArray = text.utf8Encode := rfl
  rw [decodeUtf8, hencode, List.utf8Decode?_utf8Encode]
  rfl

def isContinuation (b : UInt8) : Bool := b &&& 0xc0 == 0x80

theorem isContinuation_ofNat : ∀ n < 64, isContinuation (UInt8.ofNat (n + 0x80)) := by
  decide

theorem not_isContinuation_ofNat :
    (∀ n < 128, ¬ isContinuation (UInt8.ofNat n)) ∧
      ∀ n < 64, ¬ isContinuation (UInt8.ofNat (n + 0xc0)) := by
  decide

/-- The encoding of a character is one first byte and up to three continuation bytes. -/
structure CharBytes (bytes : List UInt8) : Prop where
  first : ∀ b ∈ bytes.head?, ¬ isContinuation b
  rest : ∀ b ∈ bytes.tail, isContinuation b
  pos : 0 < bytes.length
  le : bytes.length ≤ 4

theorem charBytes_cons {b : UInt8} {rest : List UInt8} (hb : ¬ isContinuation b)
    (hrest : ∀ b ∈ rest, isContinuation b) (hle : rest.length ≤ 3) : CharBytes (b :: rest) where
  first := by
    rintro b' ⟨⟩
    exact hb
  rest := hrest
  pos := Nat.succ_pos _
  le := Nat.succ_le_succ hle

theorem charBytes_utf8EncodeChar (c : Char) : CharBytes (String.utf8EncodeChar c) := by
  have hcont (n : Nat) : isContinuation (UInt8.ofNat (n % 64 + 128)) :=
    isContinuation_ofNat _ (Nat.mod_lt _ (by decide))
  have hfirst (n : Nat) (hn : n < 64) : ¬ isContinuation (UInt8.ofNat (n + 192)) :=
    not_isContinuation_ofNat.2 n hn
  have hmore {b : UInt8} {rest : List UInt8} (hb : isContinuation b)
      (hrest : ∀ b ∈ rest, isContinuation b) : ∀ b' ∈ b :: rest, isContinuation b' :=
    List.forall_mem_cons.mpr ⟨hb, hrest⟩
  unfold String.utf8EncodeChar
  simp only
  split_ifs with hone htwo hthree
  · exact charBytes_cons (not_isContinuation_ofNat.1 _ (by omega)) nofun (by simp)
  · exact charBytes_cons (hfirst _ (by omega)) (hmore (hcont _) nofun) (by simp)
  · have hlead := hfirst (c.val.toNat / 4096 % 16 + 32) (by omega)
    rw [Nat.add_assoc] at hlead
    exact charBytes_cons hlead (hmore (hcont _) (hmore (hcont _) nofun)) (by simp)
  · have hlead := hfirst (c.val.toNat / 262144 % 8 + 48) (by omega)
    rw [Nat.add_assoc] at hlead
    exact charBytes_cons hlead (hmore (hcont _) (hmore (hcont _) (hmore (hcont _) nofun)))
      (by simp)

theorem utf8_cons (c : Char) (text : List Char) :
    utf8 (c :: text) = String.utf8EncodeChar c ++ utf8 text := List.flatMap_cons

theorem utf8_append (a b : List Char) : utf8 (a ++ b) = utf8 a ++ utf8 b := List.flatMap_append

/-- No continuation byte follows, so a text may be cut here. -/
def CutAt (bytes : List UInt8) (n : Nat) : Prop := ∀ b ∈ bytes[n]?, ¬ isContinuation b

theorem cutAt_iff {bytes : List UInt8} {n : Nat} :
    CutAt bytes n ↔ ¬ bytes[n]?.any isContinuation := by
  unfold CutAt
  cases bytes[n]? <;> simp

/-- A text starts with a first byte. -/
theorem cutAt_zero (text : List Char) : CutAt (utf8 text) 0 := by
  cases text with
  | nil => nofun
  | cons c text =>
      have hbytes := charBytes_utf8EncodeChar c
      rw [CutAt, utf8_cons, List.getElem?_append_left hbytes.pos, ← List.head?_eq_getElem?]
      exact hbytes.first

/-- Where bytes of a text may be cut, the text itself is cut. -/
theorem exists_cut {text : List Char} {n : Nat} (hn : n ≤ (utf8 text).length)
    (hcut : CutAt (utf8 text) n) : ∃ a b, text = a ++ b ∧ (utf8 a).length = n := by
  induction text generalizing n with
  | nil => exact ⟨[], [], rfl, (Nat.le_zero.mp hn).symm⟩
  | cons c text ih =>
      have hbytes := charBytes_utf8EncodeChar c
      rw [utf8_cons] at hn hcut
      by_cases hfirst : n < (String.utf8EncodeChar c).length
      · -- all bytes of the character but the first are continuation bytes
        cases n with
        | zero => exact ⟨[], c :: text, rfl, rfl⟩
        | succ n =>
            rw [CutAt, List.getElem?_append_left hfirst] at hcut
            have htail : (String.utf8EncodeChar c).tail[n]? =
                (String.utf8EncodeChar c)[n + 1]? := List.getElem?_tail
            have hmem : (String.utf8EncodeChar c)[n + 1] ∈ (String.utf8EncodeChar c).tail :=
              List.mem_of_getElem? (htail.trans (List.getElem?_eq_getElem hfirst))
            exact absurd (hbytes.rest _ hmem) (hcut _ (List.getElem?_eq_getElem hfirst))
      · rw [Nat.not_lt] at hfirst
        rw [List.length_append] at hn
        rw [CutAt, List.getElem?_append_right hfirst] at hcut
        obtain ⟨a, b, rfl, hlength⟩ := ih (by omega) hcut
        refine ⟨c :: a, b, rfl, ?_⟩
        rw [utf8_cons, List.length_append, hlength]
        omega

end Lib
