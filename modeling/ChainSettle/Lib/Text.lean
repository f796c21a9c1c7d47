import Mathlib.Algebra.Ring.Nat
import Mathlib.Data.List.Basic
import Mathlib.Data.List.Infix
import Mathlib.Data.List.Nodup

/-!
Texts that can be taken apart again. A text written as parts with separators is
read back by cutting it at the first character outside a part's alphabet; the
parts here are decimal numbers, padded with zeros, and hex digests.

A digest is a parameter of a program: what is used of it is its alphabet and
that it has no collisions. `DigestTable` gives one that takes prescribed values
on finitely many texts, so that a concrete run can be evaluated.
-/

namespace Lib

/-- `text.includes(part)` -/
def includes (text part : String) : Bool := decide (part.toList <:+: text.toList)

/-- A list is cut at its first element outside `p` in one way only. -/
theorem append_cons_inj {α : Type} {p : α → Prop} {a b x y : List α} {c d : α}
    (ha : ∀ e ∈ a, p e) (hb : ∀ e ∈ b, p e) (hc : ¬ p c) (hd : ¬ p d)
    (h : a ++ c :: x = b ++ d :: y) : a = b ∧ c = d ∧ x = y := by
  induction a generalizing b with
  | nil =>
      cases b with
      | nil => simpa using h
      | cons e b =>
          -- the first element would be in the alphabet and outside it
          have hce : c = e := (List.cons.inj h).1
          exact absurd (hb e (.head _)) (hce ▸ hc)
  | cons e a ih =>
      cases b with
      | nil =>
          have hed : e = d := (List.cons.inj h).1
          exact absurd (ha e (.head _)) (hed ▸ hd)
      | cons f b =>
          obtain ⟨rfl, hrest⟩ := List.cons.inj h
          obtain ⟨rfl, hsep, htail⟩ :=
            ih (fun g hg => ha g (.tail _ hg)) (fun g hg => hb g (.tail _ hg)) hrest
          exact ⟨rfl, hsep, htail⟩

section Joined

theorem intercalate_append_singleton (sep : List Char) (init : List (List Char)) (last : List Char) :
    sep.intercalate (init ++ [last]) = (init.flatMap (· ++ sep)) ++ last := by
  induction init with
  | nil => rw [List.nil_append, List.intercalate_singleton]; rfl
  | cons first init ih =>
      rw [List.cons_append, List.intercalate_cons_of_ne_nil (by simp), ih, List.flatMap_cons]
      simp only [List.append_assoc]

theorem intercalate_cons (sep first : List Char) (rest : List (List Char)) :
    sep.intercalate (first :: rest) = first ++ rest.flatMap (sep ++ ·) := by
  induction rest generalizing first with
  | nil => rw [List.intercalate_singleton, List.flatMap_nil, List.append_nil]
  | cons second rest ih =>
      rw [List.intercalate_cons_of_ne_nil (by simp), ih, List.flatMap_cons]
      simp only [List.append_assoc]

/-- With a separator at the end, too, each text is followed by one. -/
theorem intercalate_append_sep (sep first : List Char) (rest : List (List Char)) :
    sep.intercalate (first :: rest) ++ sep = (first :: rest).flatMap (· ++ sep) := by
  induction rest generalizing first with
  | nil => rw [List.intercalate_singleton, List.flatMap_singleton]
  | cons second rest ih =>
      rw [List.intercalate_cons_of_ne_nil (by simp), List.append_assoc, List.append_assoc, ih second]
      simp only [List.flatMap_cons, List.append_assoc]

/-- A part of a text that is split has no separator. -/
theorem not_mem_of_mem_splitOn {α : Type} [DecidableEq α] {sep : α} {text part : List α}
    (h : part ∈ text.splitOn sep) : sep ∉ part := by
  induction text generalizing part with
  | nil =>
      rw [List.splitOn_nil, List.mem_singleton] at h
      rw [h]
      exact List.not_mem_nil
  | cons x text ih =>
      obtain ⟨first, rest, hparts⟩ := List.exists_cons_of_ne_nil (List.splitOn_ne_nil sep text)
      rw [hparts] at ih
      rw [List.splitOn_cons_eq_if_modifyHead, hparts] at h
      split at h
      · rcases List.mem_cons.mp h with rfl | hmem
        · exact List.not_mem_nil
        · exact ih hmem
      · rename_i hne
        rw [List.modifyHead_cons] at h
        rcases List.mem_cons.mp h with rfl | hmem
        · rw [List.mem_cons, not_or]
          exact ⟨fun heq => hne (beq_iff_eq.mpr heq.symm), ih (.head _)⟩
        · exact ih (.tail _ hmem)

end Joined

section Decimal

/-- The decimal digits, `padStart` with zeros to the given width. -/
def decimal (width n : Nat) : List Char :=
  (Nat.toDigits 10 n).leftpad width '0'

theorem ofDigitChars_decimal (width n : Nat) : Nat.ofDigitChars 10 (decimal width n) 0 = n := by
  rw [decimal, List.leftpad, Nat.ofDigitChars_append, Nat.ofDigitChars_replicate_zero,
    Nat.mul_zero, Nat.ofDigitChars_ten_toDigits]

theorem decimal_injective (width : Nat) : Function.Injective (decimal width) :=
  Function.LeftInverse.injective (ofDigitChars_decimal width)

theorem length_decimal {width n : Nat} (hwidth : 0 < width) (h : n < 10 ^ width) :
    (decimal width n).length = width := by
  rw [decimal, List.length_leftpad]
  exact Nat.max_eq_left ((Nat.length_toDigits_le_iff (by decide) hwidth).mpr h)

theorem isDigit_of_mem_decimal {width n : Nat} {c : Char} (h : c ∈ decimal width n) :
    c.isDigit := by
  rcases List.mem_append.mp h with hpad | hdigit
  · rw [List.eq_of_mem_replicate hpad]
    rfl
  · exact Nat.isDigit_of_mem_toDigits (by decide) (by decide) hdigit

/-- A number is read off up to the first character that is no digit. -/
theorem decimal_append_inj {width n m : Nat} {c d : Char} {x y : List Char}
    (hc : ¬ c.isDigit) (hd : ¬ d.isDigit)
    (h : decimal width n ++ c :: x = decimal width m ++ d :: y) : n = m ∧ c = d ∧ x = y := by
  obtain ⟨hnumber, hsep, hrest⟩ := append_cons_inj (p := fun e => e.isDigit)
    (fun _ he => isDigit_of_mem_decimal he) (fun _ he => isDigit_of_mem_decimal he) hc hd h
  exact ⟨decimal_injective width hnumber, hsep, hrest⟩

theorem ofDigitChars_cons_zero (c : Char) (cs : List Char) :
    Nat.ofDigitChars 10 (c :: cs) 0 =
      10 ^ cs.length * (c.toNat - '0'.toNat) + Nat.ofDigitChars 10 cs 0 := by
  rw [Nat.ofDigitChars_cons, Nat.ofDigitChars_eq_ofDigitChars_zero, Nat.mul_zero, Nat.zero_add]

theorem digit_lt_ten {c : Char} (h : c.isDigit) : c.toNat - '0'.toNat < 10 := by
  have hrange : 48 ≤ c.toNat ∧ c.toNat ≤ 57 := Char.isDigit_iff_toNat.mp h
  change c.toNat - 48 < 10
  omega

theorem ofDigitChars_lt {cs : List Char} (h : ∀ c ∈ cs, c.isDigit) :
    Nat.ofDigitChars 10 cs 0 < 10 ^ cs.length := by
  induction cs with
  | nil => decide
  | cons c cs ih =>
      have hrest := ih fun d hd => h d (.tail _ hd)
      have hdigit := Nat.mul_le_mul_left (10 ^ cs.length)
        (Nat.le_of_lt_succ (digit_lt_ten (h c (.head _))))
      rw [ofDigitChars_cons_zero, List.length_cons, Nat.pow_succ]
      omega

/-- Texts of digits of the same length have different values. -/
theorem ofDigitChars_inj {a b : List Char} (ha : ∀ c ∈ a, c.isDigit) (hb : ∀ c ∈ b, c.isDigit)
    (hlength : a.length = b.length)
    (h : Nat.ofDigitChars 10 a 0 = Nat.ofDigitChars 10 b 0) : a = b := by
  induction a generalizing b with
  | nil => exact (List.length_eq_zero_iff.mp hlength.symm).symm
  | cons c a ih =>
      cases b with
      | nil => cases hlength
      | cons d b =>
          have hrest : a.length = b.length := Nat.succ.inj hlength
          have hlow := ofDigitChars_lt fun e he => ha e (.tail _ he)
          have hlow' := ofDigitChars_lt fun e he => hb e (.tail _ he)
          rw [ofDigitChars_cons_zero, ofDigitChars_cons_zero, hrest] at h
          rw [hrest] at hlow
          have hfirst := congrArg (· / 10 ^ b.length) h
          simp only [Nat.mul_add_div (Nat.pow_pos (by decide : 0 < 10)), Nat.div_eq_of_lt hlow,
            Nat.div_eq_of_lt hlow', Nat.add_zero] at hfirst
          rw [hfirst] at h
          have hrange : 48 ≤ c.toNat := (Char.isDigit_iff_toNat.mp (ha c (.head _))).1
          have hrange' : 48 ≤ d.toNat := (Char.isDigit_iff_toNat.mp (hb d (.head _))).1
          change c.toNat - 48 = d.toNat - 48 at hfirst
          have hsame : c = d := Char.toNat_inj.mp (by omega)
          rw [hsame, ih (fun e he => ha e (.tail _ he)) (fun e he => hb e (.tail _ he)) hrest
            (Nat.add_left_cancel h)]

theorem decimal_ofDigitChars {cs : List Char} (hne : cs ≠ []) (h : ∀ c ∈ cs, c.isDigit) :
    decimal cs.length (Nat.ofDigitChars 10 cs 0) = cs :=
  ofDigitChars_inj (fun _ hc => isDigit_of_mem_decimal hc) h
    (length_decimal (List.length_pos_iff.mpr hne) (ofDigitChars_lt h)) (ofDigitChars_decimal _ _)

/-- Digits without a superfluous leading zero. -/
structure Numeral (cs : List Char) : Prop where
  nonempty : cs ≠ []
  digits : ∀ c ∈ cs, c.isDigit
  lead : cs.head? = some '0' → cs = ['0']

/-- A numeral is what its number is written with. -/
theorem Numeral.toDigits_ofDigitChars {cs : List Char} (h : Numeral cs) :
    Nat.toDigits 10 (Nat.ofDigitChars 10 cs 0) = cs := by
  cases cs with
  | nil => exact absurd rfl h.nonempty
  | cons c cs =>
      by_cases hzero : c = '0'
      · rw [h.lead (congrArg some hzero)]
        rfl
      · refine ofDigitChars_inj ?_ h.digits ?_ Nat.ofDigitChars_ten_toDigits
        · exact fun _ hd => Nat.isDigit_of_mem_toDigits (by decide) (by decide) hd
        · apply Nat.le_antisymm
          · exact (Nat.length_toDigits_le_iff (by decide) (Nat.succ_pos _)).mpr
              (ofDigitChars_lt h.digits)
          · -- the first digit alone makes the number this large
            have hrange : 48 ≤ c.toNat :=
              (Char.isDigit_iff_toNat.mp (h.digits c (.head _))).1
            have hfirst : 0 < c.toNat - '0'.toNat := by
              have hne : c.toNat ≠ 48 := fun heq => hzero (Char.toNat_inj.mp heq)
              change 0 < c.toNat - 48
              omega
            have hlarge := Nat.le_mul_of_pos_right (10 ^ cs.length) hfirst
            by_contra hshort
            rw [Nat.not_le, List.length_cons, Nat.lt_succ_iff] at hshort
            have hpos := Nat.lt_of_lt_of_le (Nat.length_toDigits_pos (b := 10)) hshort
            rw [Nat.length_toDigits_le_iff (by decide) hpos, ofDigitChars_cons_zero] at hshort
            omega

theorem numeral_toDigits (n : Nat) : Numeral (Nat.toDigits 10 n) where
  nonempty := Nat.toDigits_ne_nil
  digits _ hc := Nat.isDigit_of_mem_toDigits (by decide) (by decide) hc
  lead hhead := by
    cases hcs : Nat.toDigits 10 n with
    | nil => exact absurd hcs Nat.toDigits_ne_nil
    | cons c cs =>
        rw [hcs] at hhead
        obtain rfl : c = '0' := Option.some.inj hhead
        cases cs with
        | nil => rfl
        | cons d cs =>
            -- without its first digit the number would be written just as well
            have hdigits : ∀ e ∈ d :: cs, e.isDigit := fun e he =>
              Nat.isDigit_of_mem_toDigits (by decide) (by decide) (hcs ▸ List.mem_cons_of_mem _ he)
            have hvalue : n = Nat.ofDigitChars 10 (d :: cs) 0 := by
              rw [← Nat.ofDigitChars_ten_toDigits (n := n), hcs, ofDigitChars_cons_zero]
              simp
            have hshort := (Nat.length_toDigits_le_iff (by decide : 1 < 10) (Nat.succ_pos _)).mpr
              (hvalue ▸ ofDigitChars_lt hdigits)
            rw [hcs] at hshort
            exact absurd hshort (Nat.not_succ_le_self _)

end Decimal

section Digest

def isHex (c : Char) : Bool :=
  c.isDigit || ('a' ≤ c && c ≤ 'f')

/-- A hash function with hex output and no collisions. -/
structure HexDigest where
  digest : String → String
  injective : Function.Injective digest
  hex : ∀ text, ∀ c ∈ (digest text).toList, isHex c

/-- A text spelled in hex digits, longer than any digest of 40 characters. -/
def spell (text : List Char) : List Char :=
  List.replicate 41 '0' ++ text.flatMap fun c => Nat.toDigits 10 c.toNat ++ ['a']

theorem spell_injective : Function.Injective spell := by
  intro a b h
  have hletters := List.append_cancel_left h
  clear h
  induction a generalizing b with
  | nil => cases b <;> simp_all
  | cons c a ih =>
      cases b with
      | nil => simp at hletters
      | cons d b =>
          simp only [List.flatMap_cons, List.append_assoc, List.singleton_append] at hletters
          obtain ⟨hcode, -, hrest⟩ := append_cons_inj (p := fun e : Char => e.isDigit)
            (fun _ he => Nat.isDigit_of_mem_toDigits (by decide) (by decide) he)
            (fun _ he => Nat.isDigit_of_mem_toDigits (by decide) (by decide) he)
            (by decide) (by decide) hletters
          have hnat := congrArg (Nat.ofDigitChars 10 · 0) hcode
          simp only [Nat.ofDigitChars_ten_toDigits] at hnat
          rw [Char.toNat_inj.mp hnat, ih hrest]

theorem isHex_of_mem_spell {text : List Char} {c : Char} (h : c ∈ spell text) : isHex c := by
  rcases List.mem_append.mp h with hzero | hletter
  · rw [List.eq_of_mem_replicate hzero]
    rfl
  · obtain ⟨d, -, hd⟩ := List.mem_flatMap.mp hletter
    rcases List.mem_append.mp hd with hdigit | hend
    · have := Nat.isDigit_of_mem_toDigits (by decide) (by decide) hdigit
      simp [isHex, this]
    · rw [List.mem_singleton.mp hend]
      rfl

/-- Prescribed digests, of 40 hex characters at most. -/
structure DigestTable where
  entries : List (String × String)
  nodup : (entries.map Prod.snd).Nodup
  hex : ∀ e ∈ entries, ∀ c ∈ e.2.toList, isHex c
  short : ∀ e ∈ entries, e.2.toList.length ≤ 40

namespace DigestTable

variable (table : DigestTable)

def digest (text : String) : String :=
  match table.entries.find? fun e => e.1 = text with
  | some entry => entry.2
  | none => String.ofList (spell text.toList)

theorem digest_cases (text : String) :
    (∃ entry ∈ table.entries, entry.1 = text ∧ table.digest text = entry.2) ∨
      table.digest text = String.ofList (spell text.toList) := by
  unfold digest
  split
  · rename_i entry hfound
    have htext : entry.1 = text := by simpa using List.find?_some hfound
    exact .inl ⟨entry, List.mem_of_find?_eq_some hfound, htext, rfl⟩
  · exact .inr rfl

theorem entry_ne_spell {entry : String × String} (h : entry ∈ table.entries) (text : List Char) :
    entry.2 ≠ String.ofList (spell text) := by
  intro hsame
  have hlength := table.short entry h
  rw [hsame, String.toList_ofList, spell, List.length_append, List.length_replicate] at hlength
  omega

/-- The digest that agrees with the table. -/
def toHexDigest : HexDigest where
  digest := table.digest
  injective := by
    intro a b h
    rcases table.digest_cases a with ⟨e, he, hea, hda⟩ | hda <;>
      rcases table.digest_cases b with ⟨f, hf, hfb, hdb⟩ | hdb
    · have hsame : e = f :=
        List.inj_on_of_nodup_map table.nodup he hf (hda.symm.trans (h.trans hdb))
      rw [← hea, hsame, hfb]
    · exact absurd (hda.symm.trans (h.trans hdb)) (table.entry_ne_spell he _)
    · exact absurd (hdb.symm.trans (h.symm.trans hda)) (table.entry_ne_spell hf _)
    · have hspell := String.ofList_injective (hda.symm.trans (h.trans hdb))
      exact String.toList_injective (spell_injective hspell)
  hex := by
    intro text c hc
    rcases table.digest_cases text with ⟨e, he, -, hd⟩ | hd
    · rw [hd] at hc
      exact table.hex e he c hc
    · rw [hd, String.toList_ofList] at hc
      exact isHex_of_mem_spell hc

end DigestTable

end Digest

end Lib
