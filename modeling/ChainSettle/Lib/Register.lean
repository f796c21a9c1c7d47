import ChainSettle.Lib.Table

/-!
Tables of requests that are opened and answered. Beside its key a `Register` has
a partial unique index: of the rows with one `group` at most one is open. Rows
enter through `insert?`, which respects both indexes, and `close` is the
compare-and-set by which they are answered, an `UPDATE` of the row with a key
provided that it is still open. A closed row does not change any more.
-/

namespace Lib

variable {ρ κ γ : Type}

structure Register (key : ρ → κ) (group : ρ → γ) (isOpen : ρ → Bool) extends Table key where
  one_open : ((rows.filter isOpen).map group).Nodup

namespace Register

variable {key : ρ → κ} {group : ρ → γ} {isOpen : ρ → Bool}

/-- `deleteMany`: keep the rows that meet a condition. -/
def filter (t : Register key group isOpen) (p : ρ → Bool) : Register key group isOpen where
  toTable := t.toTable.filter p
  one_open := t.one_open.sublist ((List.filter_sublist.filter isOpen).map group)

/-- Two open rows of one group are the same row. -/
theorem eq_of_open {t : Register key group isOpen} {row row' : ρ} (hrow : row ∈ t.rows)
    (hrow' : row' ∈ t.rows) (hopen : isOpen row = true) (hopen' : isOpen row' = true)
    (hgroup : group row = group row') : row = row' :=
  List.inj_on_of_nodup_map t.one_open (List.mem_filter.mpr ⟨hrow, hopen⟩)
    (List.mem_filter.mpr ⟨hrow', hopen'⟩) hgroup

/-- The row after an update that addresses it. -/
def answered (isOpen : ρ → Bool) (f : ρ → ρ) (row : ρ) : ρ :=
  if isOpen row then f row else row

theorem answered_key {f : ρ → ρ} (hf : ∀ row, key (f row) = key row) (row : ρ) :
    key (answered isOpen f row) = key row := by
  unfold answered
  split
  · exact hf row
  · rfl

/-- A closed row is not answered again. -/
theorem answered_closed {f : ρ → ρ} {row : ρ} (h : isOpen row = false) :
    answered isOpen f row = row := by
  simp [answered, h]

theorem answered_open {f : ρ → ρ} {row : ρ} (h : isOpen row = true) :
    answered isOpen f row = f row :=
  if_pos h

variable [DecidableEq κ]

def empty : Register key group isOpen := ⟨Table.empty, List.nodup_nil⟩

def find? (t : Register key group isOpen) (k : κ) : Option ρ :=
  t.toTable.find? k

theorem filter_open_answered {f : ρ → ρ} (hclosed : ∀ row, isOpen (f row) = false) (k : κ)
    (rows : List ρ) :
    ((rows.map fun row => if key row = k then answered isOpen f row else row).filter
      isOpen).Sublist (rows.filter isOpen) := by
  induction rows with
  | nil => exact List.Sublist.refl _
  | cons row rest ih =>
      rw [List.map_cons]
      by_cases hrow : key row = k
      · cases hopen : isOpen row with
        | true =>
            have hgone : isOpen (answered isOpen f row) = false := by
              rw [answered, if_pos hopen]
              exact hclosed row
            rw [if_pos hrow, List.filter_cons_of_neg (by simp [hgone]),
              List.filter_cons_of_pos hopen]
            exact ih.cons row
        | false =>
            have hsame : isOpen (answered isOpen f row) = false := by
              simp [answered, hopen]
            rw [if_pos hrow, List.filter_cons_of_neg (by simp [hsame]),
              List.filter_cons_of_neg (by simp [hopen])]
            exact ih
      · rw [if_neg hrow]
        cases hopen : isOpen row with
        | true =>
            rw [List.filter_cons_of_pos hopen, List.filter_cons_of_pos hopen]
            exact ih.cons_cons row
        | false =>
            rw [List.filter_cons_of_neg (by simp [hopen]), List.filter_cons_of_neg (by simp [hopen])]
            exact ih

/-- Answer the row with this key if it is open. -/
def close (t : Register key group isOpen) (k : κ) (f : ρ → ρ) (hf : ∀ row, key (f row) = key row)
    (hclosed : ∀ row, isOpen (f row) = false) : Register key group isOpen where
  toTable := t.toTable.modify k (answered isOpen f) (answered_key hf)
  one_open := t.one_open.sublist ((filter_open_answered hclosed k t.rows).map group)

theorem find?_close (t : Register key group isOpen) (k : κ) {f : ρ → ρ}
    (hf : ∀ row, key (f row) = key row) (hclosed : ∀ row, isOpen (f row) = false) (other : κ) :
    (t.close k f hf hclosed).find? other =
      if other = k then (t.find? k).map (answered isOpen f) else t.find? other :=
  Table.find?_modify t.toTable k (answered isOpen f) (answered_key hf) other

/-- An update that addresses no open row does nothing. -/
theorem close_of_closed (t : Register key group isOpen) {k : κ} {f : ρ → ρ}
    (hf : ∀ row, key (f row) = key row) (hclosed : ∀ row, isOpen (f row) = false)
    (h : (t.find? k).any isOpen = false) : t.close k f hf hclosed = t := by
  have htable : t.toTable.modify k (answered isOpen f) (answered_key hf) = t.toTable := by
    apply Table.modify_eq_self
    intro row hrow
    have hrowclosed : isOpen row = false := by
      rw [show t.find? k = some row from hrow] at h
      exact h
    exact answered_closed hrowclosed
  cases t
  simp only [close, htable]

variable [DecidableEq γ]

/-- The open row of a group. -/
def openOf (t : Register key group isOpen) (g : γ) : Option ρ :=
  t.rows.find? fun row => isOpen row && decide (group row = g)

/-- Neither index is violated by the row. -/
def Fits (t : Register key group isOpen) (row : ρ) : Prop :=
  key row ∉ t.rows.map key ∧ (isOpen row = true → group row ∉ (t.rows.filter isOpen).map group)

instance (t : Register key group isOpen) (row : ρ) : Decidable (t.Fits row) :=
  inferInstanceAs (Decidable (_ ∧ _))

/-- Append a row, or nothing if an index is violated. -/
def insert? (t : Register key group isOpen) (row : ρ) : Option (Register key group isOpen) :=
  if hfits : t.Fits row then
    some
      { toTable := t.toTable.insert row
        one_open := by
          rw [Table.rows_insert hfits.1, List.filter_append, List.map_append]
          cases hopen : isOpen row with
          | false => simpa [hopen] using t.one_open
          | true =>
              rw [List.filter_singleton, hopen, cond_true, List.map_singleton,
                ← List.concat_eq_append]
              exact t.one_open.concat (hfits.2 hopen) }
  else none

theorem find?_insert? {t t' : Register key group isOpen} {row : ρ} (h : t.insert? row = some t')
    (k : κ) : t'.find? k = (t.find? k).or (if k = key row then some row else none) := by
  unfold insert? at h
  split at h
  · cases h
    exact Table.find?_insert t.toTable row k
  · cases h

end Register

end Lib
