import Mathlib.Data.List.Nodup
import Mathlib.Data.List.Perm.Subperm
import Mathlib.Data.List.Range

/-!
Tables whose keys are numbers that are given out in turn. `created` counts those that were given out,
so a number does not come back when its row is deleted: what holds of the row with a number, when
the row is found, holds of it for as long as updates keep it.

`GoesOn R t t'` says that every row of `t'` is new or stems from one of `t`, to which it is related,
and `Known P t i` that `P` holds of the row with the number `i` if there still is one.
-/

namespace Lib

variable {ρ : Type}

structure Numbered (id : ρ → Nat) where
  rows : List ρ
  created : Nat
  nodup : (rows.map id).Nodup
  below : ∀ row ∈ rows, id row < created

namespace Numbered

variable {id : ρ → Nat}

def empty : Numbered id := ⟨[], 0, List.nodup_nil, List.forall_mem_nil _⟩

/-- Append a row with the next number. -/
def insert (t : Numbered id) (row : ρ) (hid : id row = t.created) : Numbered id where
  rows := t.rows ++ [row]
  created := t.created + 1
  nodup := by
    rw [List.map_append, List.map_singleton, ← List.concat_eq_append]
    refine List.Nodup.concat (fun hmem => ?_) t.nodup
    obtain ⟨other, hother, hsame⟩ := List.mem_map.mp hmem
    exact absurd (t.below other hother) (Nat.not_lt.mpr (Nat.le_of_eq (hsame.trans hid).symm))
  below other hother := by
    rcases List.mem_append.mp hother with hother | hother
    · exact Nat.lt_succ_of_lt (t.below other hother)
    · rw [List.mem_singleton.mp hother, hid]
      exact Nat.lt_succ_self _

/-- Update all rows, which keep their numbers. -/
def modify (t : Numbered id) (f : ρ → ρ) (hf : ∀ row, id (f row) = id row) : Numbered id where
  rows := t.rows.map f
  created := t.created
  nodup := by
    rw [List.map_map]
    exact (List.map_congr_left fun row _ => hf row) ▸ t.nodup
  below row hrow := by
    obtain ⟨old, hold, rfl⟩ := List.mem_map.mp hrow
    exact hf old ▸ t.below old hold

/-- `deleteMany`: keep the rows that meet a condition. -/
def filter (t : Numbered id) (p : ρ → Bool) : Numbered id where
  rows := t.rows.filter p
  created := t.created
  nodup := t.nodup.sublist (List.filter_sublist.map id)
  below row hrow := t.below row (List.mem_of_mem_filter hrow)

variable {t t' : Numbered id} {P : ρ → Prop} {R : ρ → ρ → Prop} {i : Nat}

theorem eq_of_id {row other : ρ} (hrow : row ∈ t.rows) (hother : other ∈ t.rows)
    (h : id row = id other) : row = other :=
  List.inj_on_of_nodup_map t.nodup hrow hother h

theorem nodup_rows (t : Numbered id) : t.rows.Nodup := t.nodup.of_map id

structure GoesOn (R : ρ → ρ → Prop) (t t' : Numbered id) : Prop where
  created : t.created ≤ t'.created
  rows : ∀ row' ∈ t'.rows, t.created ≤ id row' ∨ ∃ row ∈ t.rows, id row = id row' ∧ R row row'

theorem GoesOn.filter (hR : ∀ row, R row row) (p : ρ → Bool) : GoesOn R t (t.filter p) where
  created := Nat.le_refl _
  rows row hrow := .inr ⟨row, List.mem_of_mem_filter hrow, rfl, hR row⟩

theorem GoesOn.refl (hR : ∀ row, R row row) : GoesOn R t t where
  created := Nat.le_refl _
  rows row hrow := .inr ⟨row, hrow, rfl, hR row⟩

theorem GoesOn.insert (hR : ∀ row, R row row) {row : ρ} (hid : id row = t.created) :
    GoesOn R t (t.insert row hid) where
  created := Nat.le_succ _
  rows other hother := by
    rcases List.mem_append.mp hother with hother | hother
    · exact .inr ⟨other, hother, rfl, hR other⟩
    · rw [List.mem_singleton.mp hother]
      exact .inl (Nat.le_of_eq hid.symm)

theorem GoesOn.modify {f : ρ → ρ} (hR : ∀ row, R row (f row)) (hf : ∀ row, id (f row) = id row) :
    GoesOn R t (t.modify f hf) where
  created := Nat.le_refl _
  rows row' hrow' := by
    obtain ⟨row, hrow, rfl⟩ := List.mem_map.mp hrow'
    exact .inr ⟨row, hrow, (hf row).symm, hR row⟩

/-- There are no more rows with certain numbers than there were, but for those that are new. -/
theorem GoesOn.countP_le (h : GoesOn R t t') (p : Nat → Bool) :
    t'.rows.countP (p ∘ id) + t.created ≤ t.rows.countP (p ∘ id) + t'.created := by
  have hcount (t : Numbered id) : ((t.rows.map id).filter p).length = t.rows.countP (p ∘ id) := by
    rw [← List.countP_eq_length_filter, List.countP_map]
  have hsub : (t'.rows.map id).filter p ⊆
      (t.rows.map id).filter p ++ List.range' t.created (t'.created - t.created) := by
    intro i hi
    obtain ⟨hmem, hp⟩ := List.mem_filter.mp hi
    obtain ⟨row', hrow', rfl⟩ := List.mem_map.mp hmem
    rcases h.rows row' hrow' with hnew | ⟨row, hrow, hsame, -⟩
    · have hbelow := t'.below row' hrow'
      exact List.mem_append_right _ (List.mem_range'_1.mpr ⟨hnew, by omega⟩)
    · refine List.mem_append_left _ (List.mem_filter.mpr ⟨?_, hp⟩)
      exact hsame ▸ List.mem_map_of_mem hrow
  have hle := (List.subperm_of_subset (t'.nodup.filter p) hsub).length_le
  rw [List.length_append, List.length_range', hcount, hcount] at hle
  have hcreated := h.created
  omega

theorem GoesOn.length_le (h : GoesOn R t t') :
    t'.rows.length + t.created ≤ t.rows.length + t'.created := by
  have hall (t : Numbered id) : t.rows.countP ((fun _ => true) ∘ id) = t.rows.length :=
    List.countP_eq_length.mpr fun _ _ => rfl
  have hcount := h.countP_le fun _ => true
  rwa [hall, hall] at hcount

theorem length_le_created (t : Numbered id) : t.rows.length ≤ t.created := by
  have hall : GoesOn (fun _ _ => True) empty t := ⟨Nat.zero_le _, fun _ _ => .inl (Nat.zero_le _)⟩
  exact hall.length_le.trans (Nat.le_of_eq (Nat.zero_add _))

structure Known (P : ρ → Prop) (t : Numbered id) (i : Nat) : Prop where
  given : i < t.created
  holds : ∀ row ∈ t.rows, id row = i → P row

theorem Known.of_mem {row : ρ} (hrow : row ∈ t.rows) (hP : P row) : Known P t (id row) where
  given := t.below row hrow
  holds other hother hid := by rwa [eq_of_id hother hrow hid]

theorem Known.goesOn (h : Known P t i) (hon : GoesOn R t t')
    (hP : ∀ row row', R row row' → P row → P row') : Known P t' i where
  given := Nat.lt_of_lt_of_le h.given hon.created
  holds row' hrow' hid := by
    rcases hon.rows row' hrow' with hnew | ⟨row, hrow, hsame, hrelated⟩
    · exact absurd h.given (Nat.not_lt.mpr (hid ▸ hnew))
    · exact hP row row' hrelated (h.holds row hrow (hsame.trans hid))

end Numbered

end Lib
