import Mathlib.Logic.Function.Basic

/-!
A store of keys that expire, as Redis keeps them. An entry without an expiry stays
until it is deleted; an entry with one is not found any more from that instant on.
-/

namespace Lib

structure Entry (α : Type) where
  value : α
  expiresAt : Option Nat

def Store (κ α : Type) := κ → Option (Entry α)

namespace Store

variable {κ α : Type}

def empty : Store κ α := fun _ => none

def get (store : Store κ α) (now : Nat) (key : κ) : Option α :=
  match store key with
  | none => none
  | some entry => if entry.expiresAt.all (now < ·) then some entry.value else none

variable [DecidableEq κ] (store : Store κ α)

def set (key : κ) (value : α) (expiresAt : Option Nat) : Store κ α :=
  Function.update store key (some ⟨value, expiresAt⟩)

def del (key : κ) : Store κ α := Function.update store key none

@[simp] theorem set_self (key : κ) (value : α) (expiresAt : Option Nat) :
    store.set key value expiresAt key = some ⟨value, expiresAt⟩ :=
  Function.update_self ..

theorem set_of_ne {key other : κ} (h : other ≠ key) (value : α) (expiresAt : Option Nat) :
    store.set key value expiresAt other = store other :=
  Function.update_of_ne h ..

@[simp] theorem del_self (key : κ) : store.del key key = none :=
  Function.update_self ..

theorem del_of_ne {key other : κ} (h : other ≠ key) : store.del key other = store other :=
  Function.update_of_ne h ..

theorem entry_of_set {store : Store κ α} {key other : κ} {value : α} {expiresAt : Option Nat}
    {entry : Entry α} (h : store.set key value expiresAt other = some entry) :
    (other = key ∧ entry = ⟨value, expiresAt⟩) ∨ store other = some entry := by
  by_cases hself : other = key
  · subst hself
    rw [set_self] at h
    exact .inl ⟨rfl, (Option.some.inj h).symm⟩
  · rw [set_of_ne _ hself] at h
    exact .inr h

theorem entry_of_del {store : Store κ α} {key other : κ} {entry : Entry α}
    (h : store.del key other = some entry) : store other = some entry := by
  by_cases hself : other = key
  · subst hself
    rw [del_self] at h
    cases h
  · rwa [del_of_ne _ hself] at h

omit [DecidableEq κ] in
/-- What is found is stored. -/
theorem entry_of_get {store : Store κ α} {now : Nat} {key : κ} {value : α}
    (h : store.get now key = some value) :
    ∃ entry, store key = some entry ∧ entry.value = value := by
  unfold get at h
  split at h
  · cases h
  · rename_i entry hentry
    split at h
    · cases h
      exact ⟨entry, hentry, rfl⟩
    · cases h

/-- From its expiry on an entry is not found. -/
theorem get_set_expired {now expiresAt : Nat} (h : expiresAt ≤ now) (key : κ) (value : α) :
    (store.set key value (some expiresAt)).get now key = none := by
  rw [get, set_self]
  exact if_neg fun hvalid => absurd (of_decide_eq_true hvalid) (Nat.not_lt.mpr h)

omit [DecidableEq κ] in
theorem get_congr {store store' : Store κ α} {key : κ} (h : store' key = store key) (now : Nat) :
    store'.get now key = store.get now key := by
  rw [get, get, h]

omit [DecidableEq κ] in
/-- What is found later is found now. -/
theorem get_of_later {store : Store κ α} {now later : Nat} (hle : now ≤ later) {key : κ} {value : α}
    (h : store.get later key = some value) : store.get now key = some value := by
  unfold get at h ⊢
  split at h
  · cases h
  · rename_i entry hentry
    split at h
    · rename_i hvalid
      rw [if_pos]
      · exact h
      · cases hat : entry.expiresAt with
        | none => rfl
        | some instant =>
            rw [hat] at hvalid
            exact decide_eq_true (Nat.lt_of_le_of_lt hle (of_decide_eq_true hvalid))
    · cases h

theorem eq_of_get_set {store : Store κ α} {now : Nat} {key : κ} {value found : α}
    {expiresAt : Option Nat} (h : (store.set key value expiresAt).get now key = some found) :
    found = value := by
  obtain ⟨entry, hentry, rfl⟩ := entry_of_get h
  rw [set_self] at hentry
  cases hentry
  rfl

theorem get_of_get_del {store : Store κ α} {now : Nat} {key other : κ} {value : α}
    (h : (store.del key).get now other = some value) :
    other ≠ key ∧ store.get now other = some value := by
  have hne : other ≠ key := by
    rintro rfl
    obtain ⟨entry, hentry, -⟩ := entry_of_get h
    rw [del_self] at hentry
    cases hentry
  exact ⟨hne, (get_congr (del_of_ne _ hne) now).symm.trans h⟩

end Store

end Lib
