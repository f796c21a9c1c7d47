import Mathlib.Data.List.Basic

/-!
Pages of an ordered log. `page position limit start log` is the first `limit`
entries at or after a position. On a log whose positions do not decrease, an
entry that a page leaves out lies at or behind all entries of the page, and
only a full page leaves entries out.
-/

namespace Lib

variable {α : Type} (position : α → Nat)

/-- Positions do not decrease. -/
def Ordered (log : List α) : Prop :=
  log.Pairwise fun first second => position first ≤ position second

def page (limit start : Nat) (log : List α) : List α :=
  (log.filter fun entry => start ≤ position entry).take limit

variable {position} {limit start : Nat} {log : List α} {entry other : α}

theorem mem_log_of_mem_page (h : entry ∈ page position limit start log) :
    entry ∈ log ∧ start ≤ position entry := by
  simpa using List.mem_filter.mp (List.mem_of_mem_take h)

theorem ordered_page (hordered : Ordered position log) :
    Ordered position (page position limit start log) :=
  (hordered.filter _).sublist (List.take_sublist ..)

theorem mem_page_of_not_full (hpage : (page position limit start log).length < limit)
    (hlog : entry ∈ log) (hstart : start ≤ position entry) :
    entry ∈ page position limit start log := by
  unfold page at hpage ⊢
  rw [List.length_take] at hpage
  have hshort : (log.filter fun entry => decide (start ≤ position entry)).length ≤ limit := by
    omega
  rw [List.take_of_length_le hshort]
  exact List.mem_filter.mpr ⟨hlog, by simpa using hstart⟩

/-- What comes before an entry of the page is on the page. -/
theorem mem_page_of_lt (hordered : Ordered position log)
    (hother : other ∈ page position limit start log) (hlog : entry ∈ log)
    (hstart : start ≤ position entry) (hlt : position entry < position other) :
    entry ∈ page position limit start log := by
  unfold page at hother ⊢
  have hmem : entry ∈ log.filter fun entry => decide (start ≤ position entry) :=
    List.mem_filter.mpr ⟨hlog, by simpa using hstart⟩
  have hsplit := List.take_append_drop limit
    (log.filter fun entry => decide (start ≤ position entry))
  rw [← hsplit] at hmem
  rcases List.mem_append.mp hmem with hpage | hrest
  · exact hpage
  · have hpairs := hordered.filter fun entry => decide (start ≤ position entry)
    rw [← hsplit] at hpairs
    have hle := (List.pairwise_append.mp hpairs).2.2 other hother entry hrest
    omega

/-- Every element is on one of the pages of a list. -/
theorem exists_page {found : List α} {x : α} (h : x ∈ found) {limit : Nat} (hlimit : 0 < limit) :
    ∃ page, 1 ≤ page ∧ page ≤ (found.length + limit - 1) / limit ∧
      x ∈ (found.drop ((page - 1) * limit)).take limit := by
  obtain ⟨index, hindex, rfl⟩ := List.mem_iff_getElem.mp h
  have hsplit := Nat.div_add_mod' index limit
  have hrest := Nat.mod_lt index hlimit
  refine ⟨index / limit + 1, Nat.le_add_left .., ?_, ?_⟩
  · rw [Nat.le_div_iff_mul_le hlimit, Nat.add_mul, Nat.one_mul]
    omega
  · rw [Nat.add_sub_cancel, List.mem_take_iff_getElem]
    refine ⟨index % limit, ?_, ?_⟩
    · rw [List.length_drop]
      omega
    · rw [List.getElem_drop]
      congr 1

end Lib
