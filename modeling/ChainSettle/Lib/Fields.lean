import Mathlib.Data.List.Basic
import Mathlib.Data.List.Nodup

/-!
Objects as lists of their fields, in the order in which the keys were first set. `set` is an
assignment, `assign` many of them, `without` is what is left when some keys are taken out,
`restrict` is a selection of keys, and `pick` builds a new object from some keys of another one.

Every operation has one lemma that says what `get?` returns afterwards.
-/

namespace Lib

abbrev Fields (κ α : Type) := List (κ × α)

namespace Fields

variable {κ α : Type} [DecidableEq κ]

def get? (o : Fields κ α) (key : κ) : Option α :=
  (List.find? (fun e => e.1 = key) o).map Prod.snd

def set (o : Fields κ α) (key : κ) (value : α) : Fields κ α :=
  if (o.get? key).isSome then o.map fun e => if e.1 = key then (key, value) else e
  else o ++ [(key, value)]

/-- All the fields of another object on top. -/
def assign (o entries : Fields κ α) : Fields κ α :=
  entries.foldl (fun o e => set o e.1 e.2) o

def without (o : Fields κ α) (keys : List κ) : Fields κ α :=
  o.filter fun e => e.1 ∉ keys

def restrict (o : Fields κ α) (keys : List κ) : Fields κ α :=
  o.filter fun e => e.1 ∈ keys

def pick (o : Fields κ α) (keys : List κ) : Fields κ α :=
  keys.filterMap fun key => (o.get? key).map fun value => (key, value)

@[simp] theorem get?_nil (key : κ) : get? ([] : Fields κ α) key = none := rfl

theorem get?_cons (entry : κ × α) (o : Fields κ α) (key : κ) :
    get? (entry :: o) key = if entry.1 = key then some entry.2 else get? o key := by
  unfold get?
  by_cases hkey : entry.1 = key
  · simp [hkey]
  · simp [hkey]

theorem get?_append (o rest : Fields κ α) (key : κ) :
    get? (o ++ rest) key = (get? o key).or (get? rest key) := by
  unfold get?
  rw [List.find?_append]
  cases List.find? (fun e => decide (e.1 = key)) o <;> rfl

theorem isSome_get?_iff (o : Fields κ α) (key : κ) :
    (get? o key).isSome ↔ key ∈ o.map Prod.fst := by
  unfold get?
  rw [Option.isSome_map, List.find?_isSome]
  simp

theorem mem_of_get? {o : Fields κ α} {key : κ} {value : α} (h : get? o key = some value) :
    (key, value) ∈ o := by
  unfold get? at h
  obtain ⟨entry, hentry, rfl⟩ := Option.map_eq_some_iff.mp h
  have hkey : entry.1 = key := by simpa using List.find?_some hentry
  exact hkey ▸ List.mem_of_find?_eq_some hentry

theorem get?_map_value {f : κ → α → α} (o : Fields κ α) (key : κ) :
    get? (o.map fun e => (e.1, f e.1 e.2)) key = (get? o key).map (f key) := by
  induction o with
  | nil => rfl
  | cons entry rest ih =>
      rw [List.map_cons, get?_cons, get?_cons, ih]
      by_cases hkey : entry.1 = key
      · rw [if_pos hkey, if_pos hkey, hkey]
        rfl
      · rw [if_neg hkey, if_neg hkey]

/-- Fields that are made from distinct values. -/
theorem get?_map_key {ι : Type} [DecidableEq ι] {f : ι → κ} (hf : Function.Injective f) (g : ι → α)
    (keys : List ι) (key : ι) : get? (keys.map fun k => (f k, g k)) (f key) =
      if key ∈ keys then some (g key) else none := by
  induction keys with
  | nil => rfl
  | cons k keys ih =>
      rw [List.map_cons, get?_cons, ih]
      by_cases hkey : k = key
      · simp [hkey]
      · simp [Ne.symm hkey, hf.ne hkey]

theorem get?_set (o : Fields κ α) (key other : κ) (value : α) :
    get? (set o key value) other = if other = key then some value else get? o other := by
  unfold set
  by_cases hset : (get? o key).isSome
  · have hmap : (o.map fun e => if e.1 = key then (key, value) else e) =
        o.map fun e => (e.1, if e.1 = key then value else e.2) := by
      refine List.map_congr_left fun e _ => ?_
      by_cases hkey : e.1 = key
      · rw [if_pos hkey, if_pos hkey, hkey]
      · rw [if_neg hkey, if_neg hkey]
    rw [if_pos hset, hmap, get?_map_value (f := fun k old => if k = key then value else old)]
    by_cases hother : other = key
    · obtain ⟨old, hold⟩ := Option.isSome_iff_exists.mp hset
      rw [if_pos hother, hother, hold, Option.map_some, if_pos rfl]
    · rw [if_neg hother]
      cases get? o other with
      | none => rfl
      | some old => rw [Option.map_some, if_neg hother]
  · have hnone := Option.not_isSome_iff_eq_none.mp hset
    rw [if_neg hset, get?_append, get?_cons, get?_nil]
    by_cases hother : other = key
    · rw [hother, hnone, if_pos rfl, Option.none_or]
    · rw [if_neg (Ne.symm hother), if_neg hother, Option.or_none]

theorem keys_set_nodup {o : Fields κ α} (h : (o.map Prod.fst).Nodup) (key : κ) (value : α) :
    ((set o key value).map Prod.fst).Nodup := by
  unfold set
  split
  · have hkeys : (o.map fun e => if e.1 = key then (key, value) else e).map Prod.fst =
        o.map Prod.fst := by
      rw [List.map_map]
      refine List.map_congr_left fun e _ => ?_
      by_cases hkey : e.1 = key
      · simp [hkey]
      · simp [hkey]
    rw [hkeys]
    exact h
  · have hfresh : key ∉ o.map Prod.fst := (isSome_get?_iff o key).not.mp ‹_›
    rw [List.map_append, List.nodup_append]
    refine ⟨h, List.nodup_singleton key, fun a ha b hb => ?_⟩
    rw [List.mem_singleton.mp hb]
    rintro rfl
    exact hfresh ha

/-- Every key is set once, however often it is assigned. -/
theorem keys_assign_nodup {o : Fields κ α} (h : (o.map Prod.fst).Nodup) (entries : Fields κ α) :
    ((assign o entries).map Prod.fst).Nodup := by
  induction entries generalizing o with
  | nil => exact h
  | cons entry rest ih => exact ih (keys_set_nodup h entry.1 entry.2)

theorem get?_eq_some_iff {o : Fields κ α} (h : (o.map Prod.fst).Nodup) {key : κ} {value : α} :
    get? o key = some value ↔ (key, value) ∈ o := by
  refine ⟨mem_of_get?, fun hmem => ?_⟩
  obtain ⟨other, hother⟩ := Option.isSome_iff_exists.mp
    ((isSome_get?_iff o key).mpr (List.mem_map_of_mem hmem))
  have hsame := List.inj_on_of_nodup_map h (mem_of_get? hother) hmem rfl
  rw [hother, (Prod.mk.inj hsame).2]

theorem get?_assign {entries : Fields κ α} (h : (entries.map Prod.fst).Nodup) (o : Fields κ α)
    (key : κ) : get? (assign o entries) key = (get? entries key).or (get? o key) := by
  induction entries generalizing o with
  | nil => rfl
  | cons entry rest ih =>
      obtain ⟨hfresh, hrest⟩ := List.nodup_cons.mp h
      have hassign : assign o (entry :: rest) = assign (set o entry.1 entry.2) rest := rfl
      rw [hassign, ih hrest, get?_set, get?_cons]
      by_cases hkey : entry.1 = key
      · have hnone : get? rest key = none := by
          rw [← Option.not_isSome_iff_eq_none, isSome_get?_iff, ← hkey]
          exact hfresh
        rw [if_pos hkey, if_pos hkey.symm, hnone]
        rfl
      · rw [if_neg hkey, if_neg (Ne.symm hkey)]

/-- What is kept of an object, key by key. -/
theorem get?_filter (o : Fields κ α) (keeps : κ → Bool) (key : κ) :
    get? (o.filter fun e => keeps e.1) key = if keeps key then get? o key else none := by
  induction o with
  | nil => cases keeps key <;> rfl
  | cons entry rest ih =>
      rw [List.filter_cons, get?_cons]
      by_cases hkey : entry.1 = key
      · rw [hkey, if_pos rfl]
        cases hkeeps : keeps key with
        | true => rw [if_pos rfl, if_pos rfl, get?_cons, if_pos hkey]
        | false =>
            rw [if_neg Bool.false_ne_true, if_neg Bool.false_ne_true, ih, hkeeps]
            rfl
      · rw [if_neg hkey, ← ih]
        cases keeps entry.1 with
        | true => rw [if_pos rfl, get?_cons, if_neg hkey]
        | false => rfl

theorem get?_without (o : Fields κ α) (keys : List κ) (key : κ) :
    get? (without o keys) key = if key ∈ keys then none else get? o key := by
  have hfilter := get?_filter o (fun k => decide (k ∉ keys)) key
  unfold without
  by_cases hkey : key ∈ keys
  · simpa [hkey] using hfilter
  · simpa [hkey] using hfilter

theorem get?_restrict (o : Fields κ α) (keys : List κ) (key : κ) :
    get? (restrict o keys) key = if key ∈ keys then get? o key else none := by
  have hfilter := get?_filter o (fun k => decide (k ∈ keys)) key
  unfold restrict
  by_cases hkey : key ∈ keys
  · simpa [hkey] using hfilter
  · simpa [hkey] using hfilter

theorem get?_pick (o : Fields κ α) (keys : List κ) (key : κ) :
    get? (pick o keys) key = if key ∈ keys then get? o key else none := by
  induction keys with
  | nil => rfl
  | cons first rest ih =>
      unfold pick at ih ⊢
      rw [List.filterMap_cons]
      by_cases hfirst : first = key
      · subst hfirst
        rw [if_pos (List.mem_cons_self ..)]
        cases hfound : get? o first with
        | none =>
            rw [hfound] at ih
            simp [ih]
        | some value => simp [get?_cons]
      · have hmem : key ∈ first :: rest ↔ key ∈ rest := by simp [Ne.symm hfirst]
        simp only [hmem, ← ih]
        cases get? o first with
        | none => rfl
        | some value => simp [get?_cons, hfirst]

/-- Objects that agree on some keys give the same object when these are picked. -/
theorem pick_congr {o o' : Fields κ α} {keys : List κ}
    (h : ∀ key ∈ keys, get? o key = get? o' key) : pick o keys = pick o' keys := by
  unfold pick
  exact List.filterMap_congr fun key hkey => by rw [h key hkey]

section Gather

variable {ι : Type} (keyOf : ι → κ) (add : Option α → ι → α)

/-- What is gathered of some items under their keys, one item after the other. -/
def gather (items : List ι) (o : Fields κ α) : Fields κ α :=
  items.foldl (fun o item => set o (keyOf item) (add (get? o (keyOf item)) item)) o

theorem get?_gather (items : List ι) (o : Fields κ α) (key : κ) :
    get? (gather keyOf add items o) key =
      (items.filter fun item => keyOf item = key).foldl (fun value item => some (add value item))
        (get? o key) := by
  induction items generalizing o with
  | nil => rfl
  | cons item rest ih =>
      have hgather : gather keyOf add (item :: rest) o =
          gather keyOf add rest (set o (keyOf item) (add (get? o (keyOf item)) item)) := rfl
      rw [hgather, ih, get?_set, List.filter_cons]
      by_cases hkey : keyOf item = key
      · simp [hkey]
      · simp [hkey, Ne.symm hkey]

theorem keys_gather_nodup {o : Fields κ α} (h : (o.map Prod.fst).Nodup) (items : List ι) :
    ((gather keyOf add items o).map Prod.fst).Nodup := by
  induction items generalizing o with
  | nil => exact h
  | cons item rest ih => exact ih (keys_set_nodup h _ _)

/-- Something is gathered under the keys of the items. -/
theorem mem_keys_gather (items : List ι) (key : κ) :
    key ∈ (gather keyOf add items []).map Prod.fst ↔ ∃ item ∈ items, keyOf item = key := by
  have hsome (found : List ι) (value : Option α) :
      (found.foldl (fun value item => some (add value item)) value).isSome ↔
        value.isSome ∨ found ≠ [] := by
    induction found generalizing value with
    | nil => simp
    | cons item rest ih =>
        rw [List.foldl_cons, ih]
        simp
  rw [← isSome_get?_iff, get?_gather, hsome]
  simp [List.filter_eq_nil_iff]

end Gather

end Fields

end Lib
