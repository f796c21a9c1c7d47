import Mathlib.Data.List.Nodup
import Mathlib.Data.List.Infix

/-!
Tables with a unique key. A `Table key` is the list of its rows, in insertion
order, together with the proof that no two of them have the same key, so a
state that violates the unique index cannot be built. `modify` is an `UPDATE`
addressed by key, `upsert` is an `INSERT ... ON CONFLICT (key) DO UPDATE`.

Every operation has one lemma that says what `find?` returns afterwards.
-/

namespace Lib

structure Table {ρ κ : Type} (key : ρ → κ) where
  rows : List ρ
  nodup : (rows.map key).Nodup

namespace Table

variable {ρ κ : Type} {key : ρ → κ} [DecidableEq κ]

def empty : Table key := ⟨[], List.nodup_nil⟩

def find? (t : Table key) (k : κ) : Option ρ :=
  t.rows.find? fun row => decide (key row = k)

/-- Replace the row with key `k`, if there is one. The new row keeps its key. -/
def modify (t : Table key) (k : κ) (f : ρ → ρ) (hf : ∀ row, key (f row) = key row) :
    Table key where
  rows := t.rows.map fun row => if key row = k then f row else row
  nodup := by
    have hkeys : (t.rows.map fun row => if key row = k then f row else row).map key =
        t.rows.map key := by
      rw [List.map_map]
      apply List.map_congr_left
      intro row _
      by_cases hrow : key row = k <;> simp [hrow, hf]
    rw [hkeys]
    exact t.nodup

/-- Append a row unless its key is taken. -/
def insert (t : Table key) (row : ρ) : Table key :=
  if hfree : key row ∉ t.rows.map key then
    ⟨t.rows ++ [row], by
      rw [List.map_append, List.map_singleton, ← List.concat_eq_append]
      exact List.Nodup.concat hfree t.nodup⟩
  else t

/-- Update the row that has the key of `create`, or append `create`. -/
def upsert (t : Table key) (create : ρ) (update : ρ → ρ)
    (hupdate : ∀ row, key (update row) = key row) : Table key :=
  match t.find? (key create) with
  | none => t.insert create
  | some _ => t.modify (key create) update hupdate

/-- `deleteMany`: keep the rows that meet a condition. -/
def filter (t : Table key) (p : ρ → Bool) : Table key where
  rows := t.rows.filter p
  nodup := t.nodup.sublist (List.filter_sublist.map key)

/-- Replace every row that meets a condition. The new row keeps its key. -/
def updateMany (t : Table key) (p : ρ → Bool) (f : ρ → ρ) (hf : ∀ row, key (f row) = key row) :
    Table key where
  rows := t.rows.map fun row => if p row then f row else row
  nodup := by
    have hkeys : (t.rows.map fun row => if p row then f row else row).map key =
        t.rows.map key := by
      rw [List.map_map]
      apply List.map_congr_left
      intro row _
      cases hrow : p row <;> simp [hrow, hf]
    rw [hkeys]
    exact t.nodup

theorem key_of_find? {t : Table key} {k : κ} {row : ρ} (h : t.find? k = some row) :
    key row = k := by
  simpa using List.find?_some h

theorem mem_of_find? {t : Table key} {k : κ} {row : ρ} (h : t.find? k = some row) :
    row ∈ t.rows :=
  List.mem_of_find?_eq_some h

/-- The key determines the row: looking up a stored row finds that row. -/
theorem find?_of_mem {t : Table key} {row : ρ} (h : row ∈ t.rows) :
    t.find? (key row) = some row := by
  have hsome : (t.find? (key row)).isSome := by
    simp only [find?, List.find?_isSome, decide_eq_true_eq]
    exact ⟨row, h, rfl⟩
  obtain ⟨other, hother⟩ := Option.isSome_iff_exists.mp hsome
  rw [hother, List.inj_on_of_nodup_map t.nodup (mem_of_find? hother) h (key_of_find? hother)]

theorem find?_eq_none_iff {t : Table key} {k : κ} :
    t.find? k = none ↔ k ∉ t.rows.map key := by
  simp [find?, List.find?_eq_none]

/-- A row that is kept is found as before. -/
theorem find?_filter_eq_some_iff {t : Table key} {p : ρ → Bool} {k : κ} {row : ρ} :
    (t.filter p).find? k = some row ↔ t.find? k = some row ∧ p row = true := by
  constructor
  · intro h
    have hmem : row ∈ t.rows ∧ p row = true := List.mem_filter.mp (mem_of_find? h)
    have hkey : key row = k := key_of_find? h
    refine ⟨?_, hmem.2⟩
    rw [← hkey]
    exact find?_of_mem hmem.1
  · rintro ⟨hfind, hp⟩
    have hkey : key row = k := key_of_find? hfind
    have hmem : row ∈ (t.filter p).rows := List.mem_filter.mpr ⟨mem_of_find? hfind, hp⟩
    rw [← hkey]
    exact find?_of_mem hmem

/-- Where every row is replaced by one with its key, so is the row that is found. -/
theorem find?_of_map {t t' : Table key} {f : ρ → ρ} (hrows : t'.rows = t.rows.map f)
    (hf : ∀ row, key (f row) = key row) (k : κ) : t'.find? k = (t.find? k).map f := by
  have hsame : ((fun row => decide (key row = k)) ∘ f) = fun row => decide (key row = k) := by
    funext row
    simp [hf]
  unfold find?
  rw [hrows, List.find?_map, hsame]

theorem find?_modify (t : Table key) (k : κ) (f : ρ → ρ)
    (hf : ∀ row, key (f row) = key row) (other : κ) :
    (t.modify k f hf).find? other =
      if other = k then (t.find? k).map f else t.find? other := by
  obtain ⟨rows, hnodup⟩ := t
  simp only [find?, modify]
  clear hnodup
  induction rows with
  | nil => simp
  | cons row rest ih =>
      by_cases hrow : key row = k
      · by_cases hother : other = k
        · subst hother
          simp [hrow, hf]
        · have hne : key row ≠ other := fun h => hother (h.symm.trans hrow)
          simpa [hrow, hf, hne, hother, Ne.symm hother] using ih
      · by_cases hother : key row = other
        · subst hother
          simp [hrow]
        · simpa [hrow, hother] using ih

@[simp] theorem find?_modify_self (t : Table key) (k : κ) (f : ρ → ρ)
    (hf : ∀ row, key (f row) = key row) :
    (t.modify k f hf).find? k = (t.find? k).map f := by
  rw [find?_modify, if_pos rfl]

theorem find?_modify_of_ne (t : Table key) {k other : κ} (f : ρ → ρ)
    (hf : ∀ row, key (f row) = key row) (h : other ≠ k) :
    (t.modify k f hf).find? other = t.find? other := by
  rw [find?_modify, if_neg h]

/-- What an update does not change is the same in every row. -/
theorem map_modify {β : Type} {g : ρ → β} (t : Table key) (k : κ) (f : ρ → ρ)
    (hf : ∀ row, key (f row) = key row) (hg : ∀ row, g (f row) = g row) :
    (t.modify k f hf).rows.map g = t.rows.map g := by
  simp only [modify, List.map_map]
  apply List.map_congr_left
  intro row _
  by_cases hrow : key row = k <;> simp [hrow, hg]

@[simp] theorem keys_modify (t : Table key) (k : κ) (f : ρ → ρ)
    (hf : ∀ row, key (f row) = key row) : (t.modify k f hf).rows.map key = t.rows.map key :=
  map_modify t k f hf hf

/-- An update that would not change the row it addresses, or that addresses no
row, does nothing. -/
theorem modify_eq_self (t : Table key) {k : κ} (f : ρ → ρ)
    (hf : ∀ row, key (f row) = key row) (h : ∀ row, t.find? k = some row → f row = row) :
    t.modify k f hf = t := by
  have hrows : (t.rows.map fun row => if key row = k then f row else row) = t.rows := by
    conv_rhs => rw [← List.map_id t.rows]
    apply List.map_congr_left
    intro row hrow
    split
    · rename_i hkey
      exact h row (hkey ▸ find?_of_mem hrow)
    · rfl
  cases t
  simp only [modify, hrows]

theorem rows_insert {t : Table key} {row : ρ} (hfree : key row ∉ t.rows.map key) :
    (t.insert row).rows = t.rows ++ [row] := by
  simp [insert, hfree]

theorem mem_insert {t : Table key} {row other : ρ} (h : other ∈ (t.insert row).rows) :
    other ∈ t.rows ∨ other = row := by
  unfold insert at h
  split at h
  · exact (List.mem_append.mp h).imp_right List.mem_singleton.mp
  · exact .inl h

/-- Rows with new and different keys are all appended. -/
theorem rows_foldl_insert {t : Table key} {new : List ρ}
    (hfree : ((t.rows ++ new).map key).Nodup) : (new.foldl insert t).rows = t.rows ++ new := by
  induction new generalizing t with
  | nil => simp
  | cons row rest ih =>
      rw [List.append_cons] at hfree
      have hrow : key row ∉ t.rows.map key := by
        rw [List.map_append, List.map_append] at hfree
        have hfirst := (List.nodup_append.mp hfree).1
        intro hmem
        exact (List.nodup_append.mp hfirst).2.2 _ hmem _ (List.mem_singleton.mpr rfl) rfl
      have hrows := rows_insert hrow
      rw [List.foldl_cons, ih (hrows ▸ hfree), hrows, ← List.append_cons]

theorem find?_insert (t : Table key) (row : ρ) (k : κ) :
    (t.insert row).find? k =
      (t.find? k).or (if k = key row then some row else none) := by
  by_cases htaken : key row ∈ t.rows.map key
  · have hsame : t.insert row = t := by simp [insert, htaken]
    rw [hsame]
    by_cases hk : k = key row
    · subst hk
      cases hfind : t.find? (key row) with
      | none => exact absurd htaken (find?_eq_none_iff.mp hfind)
      | some _ => rfl
    · simp [hk]
  · simp only [find?, rows_insert htaken, List.find?_append]
    by_cases hk : k = key row
    · subst hk
      simp
    · simp [hk, Ne.symm hk]

theorem find?_insert_of_ne (t : Table key) {row : ρ} {k : κ} (h : k ≠ key row) :
    (t.insert row).find? k = t.find? k := by
  rw [find?_insert, if_neg h, Option.or_none]

/-- After an upsert its key holds the updated old row, or the created one. -/
theorem find?_upsert (t : Table key) (create : ρ) (update : ρ → ρ)
    (hupdate : ∀ row, key (update row) = key row) (k : κ) :
    (t.upsert create update hupdate).find? k =
      if k = key create then some ((t.find? (key create)).elim create update)
      else t.find? k := by
  unfold upsert
  cases hfind : t.find? (key create) with
  | none =>
      rw [find?_insert]
      by_cases hk : k = key create
      · subst hk
        simp [hfind]
      · simp [hk]
  | some row =>
      rw [find?_modify, hfind]
      rfl

end Table

/-- A query without an order: the rows come in any order. -/
structure Scan (ρ : Type) where
  order : List ρ → List ρ
  perm : ∀ rows, (order rows).Perm rows

namespace Scan

variable {ρ : Type} (scan : Scan ρ)

/-- `findMany`. -/
def findMany (rows : List ρ) (p : ρ → Bool) : List ρ := scan.order (rows.filter p)

/-- `findFirst`. -/
def findFirst (rows : List ρ) (p : ρ → Bool) : Option ρ := (scan.findMany rows p).head?

variable {scan}

theorem mem_findMany {rows : List ρ} {p : ρ → Bool} {row : ρ} :
    row ∈ scan.findMany rows p ↔ row ∈ rows ∧ p row :=
  (scan.perm _).mem_iff.trans List.mem_filter

theorem mem_of_findFirst {rows : List ρ} {p : ρ → Bool} {row : ρ}
    (h : scan.findFirst rows p = some row) : row ∈ rows ∧ p row :=
  mem_findMany.mp (List.mem_of_head? h)

end Scan

end Lib
