import ChainSettle.Lib.Fields
import Mathlib.Algebra.Ring.Nat
import Mathlib.Data.List.Sort
import Mathlib.Order.Defs.LinearOrder

/-!
Queries with an order, and one query for many parents. An answer has the selected rows, each one
time, in an order that was asked for; where this leaves rows tied, they come in any order. The rows
of an answer for many parents are handed out to the parents in the order they come in, and every
parent gets an answer of the query for it alone.
-/

namespace Lib

variable {ρ κ : Type}

/-- The selected rows, ordered. -/
structure Answers (rows : List ρ) (p : ρ → Bool) (before : ρ → ρ → Prop) (answer : List ρ) : Prop where
  perm : answer.Perm (rows.filter p)
  ordered : answer.Pairwise before

namespace Answers

variable {rows : List ρ} {p q : ρ → Bool} {before : ρ → ρ → Prop} {answer : List ρ}

/-- A part of an answer is an answer of the narrower query. -/
theorem filter (h : Answers rows p before answer) (q : ρ → Bool) :
    Answers rows (fun row => q row && p row) before (answer.filter q) where
  perm := by
    rw [← List.filter_filter]
    exact h.perm.filter q
  ordered := h.ordered.filter q

theorem mem_iff (h : Answers rows p before answer) {row : ρ} :
    row ∈ answer ↔ row ∈ rows ∧ p row = true :=
  h.perm.mem_iff.trans List.mem_filter

theorem congr (h : Answers rows p before answer) (hpq : ∀ row ∈ rows, p row = q row) :
    Answers rows q before answer where
  perm := by
    rw [← List.filter_congr hpq]
    exact h.perm
  ordered := h.ordered

/-- An order without ties leaves one answer. -/
theorem unique {other : List ρ} (h : Answers rows p before answer)
    (h' : Answers rows p before other)
    (hties : ∀ a ∈ answer, ∀ b ∈ answer, before a b → before b a → a = b) : answer = other := by
  have hperm := h.perm.trans h'.perm.symm
  refine List.Perm.eq_of_pairwise ?_ h.ordered h'.ordered hperm
  intro a b ha hb hab hba
  exact hties a ha b (hperm.mem_iff.mpr hb) hab hba

end Answers

section Tied

variable {ι : Type} [LinearOrder ι] {at_ : ρ → ι}

/-- A stable sort of the selected rows is an answer. -/
theorem answers_insertionSort (rows : List ρ) (p : ρ → Bool) (at_ : ρ → ι) :
    Answers rows p (fun a b => at_ a ≤ at_ b)
      ((rows.filter p).insertionSort fun a b => at_ a ≤ at_ b) where
  perm := List.perm_insertionSort _ _
  ordered := by
    have htotal : Std.Total fun a b : ρ => at_ a ≤ at_ b := ⟨fun a b => le_total _ _⟩
    have htrans : IsTrans ρ fun a b => at_ a ≤ at_ b := ⟨fun a b c => le_trans⟩
    exact List.pairwise_insertionSort _ _

/-- The order by a value, ties broken as in a list. -/
def BeforeIn (at_ : ρ → ι) (order : List ρ) (a b : ρ) : Prop :=
  at_ a < at_ b ∨ at_ a = at_ b ∧ List.Sublist [a, b] order

instance [DecidableEq ρ] (order : List ρ) (a b : ρ) : Decidable (BeforeIn at_ order a b) :=
  inferInstanceAs (Decidable (_ ∨ _ ∧ _))

theorem eq_of_sublist_swap {order : List ρ} (hnodup : order.Nodup) {a b : ρ}
    (hab : List.Sublist [a, b] order) (hba : List.Sublist [b, a] order) : a = b := by
  induction order with
  | nil => cases hab
  | cons x order ih =>
      obtain ⟨hfresh, hrest⟩ := List.nodup_cons.mp hnodup
      rw [List.sublist_cons_iff] at hab hba
      rcases hab with hab | ⟨_, ⟨⟩, -⟩
      · rcases hba with hba | ⟨_, ⟨⟩, -⟩
        · exact ih hrest hab hba
        · exact absurd (hab.subset (.tail _ (.head _))) hfresh
      · rcases hba with hba | ⟨_, ⟨⟩, -⟩
        · exact absurd (hba.subset (.tail _ (.head _))) hfresh
        · rfl

/-- Two rows before each other are tied, and one row. -/
theorem eq_of_beforeIn {order : List ρ} (hnodup : order.Nodup) {a b : ρ}
    (hab : BeforeIn at_ order a b) (hba : BeforeIn at_ order b a) : a = b := by
  rcases hab with hlt | ⟨heq, hab⟩
  · rcases hba with hgt | ⟨heq, -⟩
    · exact absurd hlt (not_lt_of_gt hgt)
    · exact absurd heq (ne_of_gt hlt)
  · rcases hba with hgt | ⟨-, hba⟩
    · exact absurd heq (ne_of_gt hgt)
    · exact eq_of_sublist_swap hnodup hab hba

theorem pairwise_beforeIn {answer order : List ρ} (hsub : List.Sublist answer order)
    (h : answer.Pairwise fun a b => at_ a ≤ at_ b) : answer.Pairwise (BeforeIn at_ order) := by
  rw [List.pairwise_iff_forall_sublist] at h ⊢
  intro a b hab
  rcases lt_or_eq_of_le (h hab) with hlt | heq
  · exact .inl hlt
  · exact .inr ⟨heq, hab.trans hsub⟩

theorem sublist_or_swap {order : List ρ} {a b : ρ} (ha : a ∈ order) (hb : b ∈ order) (hne : a ≠ b) :
    List.Sublist [a, b] order ∨ List.Sublist [b, a] order := by
  induction order with
  | nil => cases ha
  | cons x order ih =>
      rcases List.mem_cons.mp ha with rfl | hresta
      · have hrest := (List.mem_cons.mp hb).resolve_left hne.symm
        exact .inl ((List.singleton_sublist.mpr hrest).cons_cons a)
      · rcases List.mem_cons.mp hb with rfl | hrestb
        · exact .inr ((List.singleton_sublist.mpr hresta).cons_cons b)
        · exact (ih hresta hrestb).imp (·.cons x) (·.cons x)

/-- A stable sort leaves tied rows as they were. -/
theorem insertionSort_beforeIn {r : ρ → ρ → Prop} [DecidableRel r]
    (hr : ∀ a b, r a b ↔ at_ a ≤ at_ b) {rows : List ρ} (hnodup : rows.Nodup) :
    (rows.insertionSort r).Pairwise (BeforeIn at_ rows) := by
  have htotal : Std.Total r := ⟨fun a b => by rw [hr, hr]; exact le_total _ _⟩
  have htrans : IsTrans ρ r := ⟨fun a b c hab hbc => by rw [hr] at hab hbc ⊢; exact hab.trans hbc⟩
  have hperm := List.perm_insertionSort r rows
  have hnodup' : (rows.insertionSort r).Nodup := hperm.nodup_iff.mpr hnodup
  rw [List.pairwise_iff_forall_sublist]
  intro a b hab
  have hle : at_ a ≤ at_ b := (hr a b).mp
    (List.pairwise_iff_forall_sublist.mp (List.pairwise_insertionSort r rows) hab)
  rcases lt_or_eq_of_le hle with hlt | heq
  · exact .inl hlt
  · refine .inr ⟨heq, ?_⟩
    have ha : a ∈ rows := hperm.mem_iff.mp (hab.subset (.head _))
    have hb : b ∈ rows := hperm.mem_iff.mp (hab.subset (.tail _ (.head _)))
    have hne : a ≠ b := by
      rintro rfl
      exact absurd (hnodup'.sublist hab) (by simp)
    -- two rows the other way round would have been sorted so
    refine (sublist_or_swap ha hb hne).resolve_right fun hswap => hne ?_
    exact eq_of_sublist_swap hnodup' hab
      (List.pair_sublist_insertionSort ((hr b a).mpr heq.ge) hswap)

end Tied

section Grouping

variable [DecidableEq κ]

/-- `map.get(key)?.push(row)` -/
def pushRow (groups : Fields κ (List ρ)) (key : κ) (row : ρ) : Fields κ (List ρ) :=
  match Fields.get? groups key with
  | some group => Fields.set groups key (group ++ [row])
  | none => groups

theorem get?_pushRow (groups : Fields κ (List ρ)) (key other : κ) (row : ρ) :
    Fields.get? (pushRow groups key row) other =
      (Fields.get? groups other).map fun group => if key = other then group ++ [row] else group := by
  unfold pushRow
  cases hgroup : Fields.get? groups key with
  | none =>
      by_cases hkey : key = other
      · rw [← hkey, hgroup]
        rfl
      · simp [hkey]
  | some group =>
      simp only [Fields.get?_set]
      by_cases hkey : key = other
      · rw [← hkey, hgroup]
        simp
      · simp [hkey, Ne.symm hkey]

/-- Every group that was begun has the rows of its key. -/
theorem get?_pushRows (parent : ρ → κ) (rows : List ρ) (groups : Fields κ (List ρ)) (key : κ) :
    Fields.get? (rows.foldl (fun groups row => pushRow groups (parent row) row) groups) key =
      (Fields.get? groups key).map fun group =>
        group ++ rows.filter fun row => decide (parent row = key) := by
  induction rows generalizing groups with
  | nil => simp
  | cons row rows ih =>
      rw [List.foldl_cons, ih, get?_pushRow, Option.map_map]
      congr 1
      funext group
      rw [Function.comp_apply, List.filter_cons]
      by_cases hkey : parent row = key
      · simp [hkey]
      · simp [hkey]

theorem get?_assign_const {α : Type} (keys : List κ) (value : α) (o : Fields κ α) (key : κ) :
    Fields.get? (Fields.assign o (keys.map fun k => (k, value))) key =
      if key ∈ keys then some value else Fields.get? o key := by
  induction keys generalizing o with
  | nil => rfl
  | cons k keys ih =>
      have hassign : Fields.assign o ((k :: keys).map fun k => (k, value)) =
          Fields.assign (Fields.set o k value) (keys.map fun k => (k, value)) := rfl
      rw [hassign, ih, Fields.get?_set]
      by_cases hkey : key = k
      · simp [hkey]
      · simp [hkey]

/-- The rows of each key, with a group for every key that is asked for. -/
def groupRows (keys : List κ) (rows : List ρ) (parent : ρ → κ) : List (Option (List ρ)) :=
  let groups := rows.foldl (fun groups row => pushRow groups (parent row) row)
    (Fields.assign [] (keys.map fun key => (key, [])))
  keys.map fun key => Fields.get? groups key

theorem groupRows_eq (keys : List κ) (rows : List ρ) (parent : ρ → κ) :
    groupRows keys rows parent =
      keys.map fun key => some (rows.filter fun row => decide (parent row = key)) := by
  unfold groupRows
  refine List.map_congr_left fun key hkey => ?_
  rw [get?_pushRows, get?_assign_const, if_pos hkey, Option.map_some, List.nil_append]

/-- Rows that are counted by a key are all counted. -/
theorem sum_length_filter {keys : List κ} (hkeys : keys.Nodup) {rows : List ρ} {parent : ρ → κ}
    (h : ∀ row ∈ rows, parent row ∈ keys) :
    (keys.map fun key => (rows.filter fun row => decide (parent row = key)).length).sum =
      rows.length := by
  induction keys generalizing rows with
  | nil =>
      have hrows : rows = [] := List.eq_nil_iff_forall_not_mem.mpr fun row hrow =>
        absurd (h row hrow) List.not_mem_nil
      rw [hrows]
      rfl
  | cons key keys ih =>
      obtain ⟨hfresh, hkeys⟩ := List.nodup_cons.mp hkeys
      -- the rows of the other keys are the ones that do not have this one
      have hothers : keys.map (fun k => (rows.filter fun row => decide (parent row = k)).length) =
          keys.map fun k => ((rows.filter fun row => !decide (parent row = key)).filter
            fun row => decide (parent row = k)).length := by
        refine List.map_congr_left fun k hk => congrArg List.length ?_
        rw [List.filter_filter]
        refine List.filter_congr fun row _ => ?_
        by_cases hrow : parent row = k
        · have hne : k ≠ key := fun heq => hfresh (heq ▸ hk)
          simp [hrow, hne]
        · simp [hrow]
      have hrest : ∀ row ∈ rows.filter fun row => !decide (parent row = key), parent row ∈ keys := by
        intro row hrow
        obtain ⟨hmem, hne⟩ := List.mem_filter.mp hrow
        exact (List.mem_cons.mp (h row hmem)).resolve_left (by simpa using hne)
      rw [List.map_cons, List.sum_cons, hothers, ih hkeys hrest]
      exact (List.length_eq_length_filter_add _).symm

end Grouping

end Lib
