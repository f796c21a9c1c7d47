import Mathlib.Algebra.Ring.Nat
import Mathlib.Data.List.TakeWhile

/-!
Spans of time as text: a decimal number, with a fraction or without, then blanks, then
a unit in one of its spellings, in upper or lower case. A number without a unit counts
milliseconds.
-/

namespace Lib

section Units

/-- The milliseconds of each unit, with its spellings. -/
def timeUnits : List (Nat × List String) :=
  [(1, ["", "milliseconds", "millisecond", "msecs", "msec", "ms"]),
    (1000, ["seconds", "second", "secs", "sec", "s"]),
    (60000, ["minutes", "minute", "mins", "min", "m"]),
    (3600000, ["hours", "hour", "hrs", "hr", "h"]),
    (86400000, ["days", "day", "d"]),
    (604800000, ["weeks", "week", "w"]),
    -- of 365.25 days
    (31557600000, ["years", "year", "yrs", "yr", "y"])]

def unitMs (unit : List Char) : Option Nat :=
  (timeUnits.find? fun entry => String.ofList (unit.map Char.toLower) ∈ entry.2).map Prod.fst

theorem toLower_of_isDigit {c : Char} (h : c.isDigit) : c.toLower = c := by
  have hrange : 48 ≤ c.toNat ∧ c.toNat ≤ 57 := Char.isDigit_iff_toNat.mp h
  refine dif_neg fun hupper => ?_
  have hle : 65 ≤ c.toNat := hupper.1
  omega

theorem not_isDigit_of_timeUnits {entry : Nat × List String} (hentry : entry ∈ timeUnits)
    {spelling : String} (hspelling : spelling ∈ entry.2) {c : Char} (hc : c ∈ spelling.toList) :
    ¬ c.isDigit := by
  have hletters : (timeUnits.all fun entry => entry.2.all fun spelling =>
      spelling.toList.all fun c => !c.isDigit) = true := by
    decide
  have hspellings := List.all_eq_true.mp hletters entry hentry
  have hletter := List.all_eq_true.mp (List.all_eq_true.mp hspellings spelling hspelling) c hc
  exact Bool.eq_false_iff.mp (Bool.not_eq_true' _ ▸ hletter)

theorem not_isDigit_of_unitMs {unit : List Char} {ms : Nat} (h : unitMs unit = some ms) {c : Char}
    (hc : c ∈ unit) : ¬ c.isDigit := by
  obtain ⟨entry, hentry, -⟩ := Option.map_eq_some_iff.mp h
  have hfound := List.find?_some hentry
  have hspelling : String.ofList (unit.map Char.toLower) ∈ entry.2 := of_decide_eq_true hfound
  have hlower : c.toLower ∈ (String.ofList (unit.map Char.toLower)).toList := by
    rw [String.toList_ofList]
    exact List.mem_map_of_mem hc
  intro hdigit
  refine not_isDigit_of_timeUnits (List.mem_of_find?_eq_some hentry) hspelling hlower ?_
  rwa [toLower_of_isDigit hdigit]

end Units

structure Timespan where
  negative : Bool
  whole : List Char
  fraction : Option (List Char)
  spaces : Nat
  unit : List Char
  /-- the milliseconds of the unit -/
  scale : Nat
  whole_digits : ∀ c ∈ whole, c.isDigit
  fraction_digits : ∀ digits ∈ fraction, digits ≠ [] ∧ ∀ c ∈ digits, c.isDigit
  number : whole ≠ [] ∨ fraction.isSome
  unit_ms : unitMs unit = some scale

namespace Timespan

variable (span : Timespan)

/-- What follows the digits before the point. -/
def rest : List Char :=
  (span.fraction.elim [] fun digits => '.' :: digits) ++
    (List.replicate span.spaces ' ' ++ span.unit)

def text : List Char := (if span.negative then ['-'] else []) ++ (span.whole ++ span.rest)

/-- The whole seconds from now to the end of the span, none when it ends before. -/
def seconds : Nat :=
  if span.negative then 0
  else
    let decimals := span.fraction.getD []
    Nat.ofDigitChars 10 (span.whole ++ decimals) 0 * span.scale / (10 ^ decimals.length * 1000)

theorem not_isDigit_of_rest {c : Char} {cs : List Char} (h : span.rest = c :: cs) :
    ¬ c.isDigit := by
  unfold rest at h
  cases hfraction : span.fraction with
  | some digits =>
      rw [hfraction] at h
      cases h
      decide
  | none =>
      rw [hfraction] at h
      cases hspaces : span.spaces with
      | succ n =>
          rw [hspaces] at h
          cases h
          decide
      | zero =>
          rw [hspaces] at h
          have hunit : span.unit = c :: cs := h
          exact not_isDigit_of_unitMs span.unit_ms (hunit ▸ List.mem_cons_self ..)

theorem takeWhile_rest : span.rest.takeWhile Char.isDigit = [] := by
  cases hrest : span.rest with
  | nil => rfl
  | cons c cs => exact List.takeWhile_cons_of_neg (span.not_isDigit_of_rest hrest)

theorem dropWhile_rest : span.rest.dropWhile Char.isDigit = span.rest := by
  cases hrest : span.rest with
  | nil => rfl
  | cons c cs => exact List.dropWhile_cons_of_neg (span.not_isDigit_of_rest hrest)

/-- The digits that a span begins with. -/
theorem takeWhile_text :
    span.text.takeWhile Char.isDigit = if span.negative then [] else span.whole := by
  unfold text
  cases span.negative with
  | true => rfl
  | false =>
      show (span.whole ++ span.rest).takeWhile Char.isDigit = span.whole
      rw [List.takeWhile_append_of_pos span.whole_digits, takeWhile_rest, List.append_nil]

theorem dropWhile_text (h : span.negative = false) :
    span.text.dropWhile Char.isDigit = span.rest := by
  unfold text
  rw [h]
  show (span.whole ++ span.rest).dropWhile Char.isDigit = span.rest
  rw [List.dropWhile_append_of_pos span.whole_digits, dropWhile_rest]

/-- The end of a span without a fraction or blanks is its unit. -/
theorem rest_eq_iff {cs : List Char} (hpoint : ∀ rest, cs ≠ '.' :: rest)
    (hblank : ∀ rest, cs ≠ ' ' :: rest) :
    span.rest = cs ↔ span.fraction = none ∧ span.spaces = 0 ∧ span.unit = cs := by
  unfold rest
  cases span.fraction with
  | some digits => exact ⟨fun h => absurd h.symm (hpoint _), fun h => nomatch h.1⟩
  | none =>
      cases span.spaces with
      | succ n => exact ⟨fun h => absurd h.symm (hblank _), fun h => nomatch h.2.1⟩
      | zero => exact ⟨fun h => ⟨rfl, rfl, h⟩, fun h => h.2.2⟩

end Timespan

end Lib
