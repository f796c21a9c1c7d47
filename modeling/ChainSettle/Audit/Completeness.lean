import ChainSettle.Semantics.AuditLog
import Mathlib.Data.List.Forall2

/-!
When the audit log is complete. The writer stores the actor's id as the user of an entry, and an
entry without an existing user is refused; the readers look for the actor's address among the users.
An entry is therefore kept and found only if the address is the id of a user.
-/

namespace ChainSettle

open Lib

section Found

variable {scan : AuditScan} {w : AuditWorld} {dto : AuditLogDto} {row : AuditLogRow}

/-- The row that one call of `record` has left. -/
def EntryOf (dto : AuditLogDto) (row : AuditLogRow) : Prop :=
  ∃ id createdAt, row = dto.data id createdAt

/-- The entry is among the results for an actor. -/
structure FoundBy (scan : AuditScan) (w : AuditWorld) (actorAddress : String) (row : AuditLogRow) :
    Prop where
  actor : row ∈ w.findByActor scan actorAddress
  all : ∃ page, 1 ≤ page ∧
    page ≤ (w.findAll scan { actorAddress := some actorAddress, page := page }).totalPages ∧
    row ∈ (w.findAll scan { actorAddress := some actorAddress, page := page }).data

/-- Every call has left one entry, and its actor finds it. -/
def AuditComplete (scan : AuditScan) (w : AuditWorld) : Prop :=
  List.Forall₂ (fun dto row => EntryOf dto row ∧ FoundBy scan w dto.actorAddress row) w.calls w.rows

/-- The entries of a user. -/
def AuditWorld.entriesOf (w : AuditWorld) (userId : String) : List AuditLogRow :=
  w.rows.filter fun row => row.userId = userId

theorem newestFirst_perm (scan : AuditScan) (w : AuditWorld) (p : AuditLogRow → Bool) :
    (w.newestFirst scan p).Perm (w.rows.filter p) :=
  (List.perm_insertionSort _ _).trans (scan.perm _)

theorem userId_of_findByActor {actorAddress : String} (h : row ∈ w.findByActor scan actorAddress) :
    row ∈ w.rows ∧ row.userId = actorAddress := by
  have hmem := (newestFirst_perm scan w _).mem_iff.mp (List.mem_of_mem_take h)
  simpa using hmem

theorem mem_findByActor {actorAddress : String} (h : row ∈ w.rows)
    (huser : row.userId = actorAddress) (hfew : (w.entriesOf actorAddress).length ≤ 100) : row ∈ w.findByActor scan actorAddress := by
  have hperm := newestFirst_perm scan w fun row => row.userId = actorAddress
  unfold AuditWorld.findByActor
  rw [List.take_of_length_le (hperm.length_eq.le.trans hfew), hperm.mem_iff]
  simpa using ⟨h, huser⟩

variable (scan) in
/-- An actor finds at most a hundred entries. -/
theorem length_le_of_subset {actorAddress : String} (hnodup : w.rows.Nodup)
    (h : ∀ row ∈ w.entriesOf actorAddress, row ∈ w.findByActor scan actorAddress) :
    (w.entriesOf actorAddress).length ≤ 100 := by
  have hsub := List.subperm_of_subset (hnodup.filter _) h
  exact hsub.length_le.trans (List.length_take_le ..)

theorem exists_findAll {actorAddress : String} (h : row ∈ w.rows)
    (huser : row.userId = actorAddress) :
    ∃ page, 1 ≤ page ∧
      page ≤ (w.findAll scan { actorAddress := some actorAddress, page := page }).totalPages ∧
      row ∈ (w.findAll scan { actorAddress := some actorAddress, page := page }).data := by
  have hperm := newestFirst_perm scan w
    (AuditFilters.selects { actorAddress := some actorAddress })
  have hrow : row ∈ w.newestFirst scan
      (AuditFilters.selects { actorAddress := some actorAddress }) := by
    rw [hperm.mem_iff, List.mem_filter]
    refine ⟨h, ?_⟩
    simp only [AuditFilters.selects, truthyText, Option.filter_some]
    by_cases hempty : actorAddress = ""
    · simp [hempty]
    · simp [hempty, huser]
  obtain ⟨page, hfirst, hlast, hmem⟩ := exists_page hrow (by decide : 0 < 50)
  refine ⟨page, hfirst, ?_, hmem⟩
  rw [hperm.length_eq] at hlast
  exact hlast

end Found

section Kept

/-- Every call has left one entry, with the address of its actor as the user, and no user has more
entries than an actor finds. -/
structure AddressesKept (w : AuditWorld) : Prop where
  entries : List.Forall₂ (fun dto row => EntryOf dto row ∧ row.userId = dto.actorAddress)
    w.calls w.rows
  few : ∀ userId, (w.entriesOf userId).length ≤ 100

theorem auditComplete_iff (scan : AuditScan) {w : AuditWorld} (hnodup : w.rows.Nodup) :
    AuditComplete scan w ↔ AddressesKept w := by
  constructor
  · intro h
    have hentries : List.Forall₂ (fun dto row => EntryOf dto row ∧ row.userId = dto.actorAddress)
        w.calls w.rows :=
      List.Forall₂.imp (fun dto row hrow => ⟨hrow.1, (userId_of_findByActor hrow.2.actor).2⟩) h
    refine ⟨hentries, fun userId => length_le_of_subset scan hnodup fun row hrow => ?_⟩
    obtain ⟨hmem, huser⟩ : row ∈ w.rows ∧ row.userId = userId := by
      simpa [AuditWorld.entriesOf] using hrow
    obtain ⟨index, hindex, rfl⟩ := List.mem_iff_getElem.mp hmem
    obtain ⟨hlength, hboth⟩ := List.forall₂_iff_get.mp h
    have hfound := (hboth index (hlength ▸ hindex) hindex).2.actor
    have hcaller := (userId_of_findByActor hfound).2
    simp only [List.get_eq_getElem] at hfound hcaller
    rw [← huser, hcaller]
    exact hfound
  · rintro ⟨hentries, hfew⟩
    refine List.forall₂_iff_get.mpr ⟨hentries.length_eq, fun index hcalls hrows => ?_⟩
    obtain ⟨hentry, huser⟩ := (List.forall₂_iff_get.mp hentries).2 index hcalls hrows
    have hmem := List.get_mem w.rows ⟨index, hrows⟩
    exact ⟨hentry, mem_findByActor hmem huser (hfew _), exists_findAll hmem huser⟩

end Kept

section Steps

/-- The actor of the call is a user, by the id that is their address, with fewer than a hundred
entries. -/
def Traceable (w : AuditWorld) : AuditAction → Prop
  | .record dto _ => dto.actorId.getD "" ∈ w.userIds ∧ dto.actorId.getD "" = dto.actorAddress ∧
      (w.entriesOf dto.actorAddress).length < 100
  | .users _ => True

/-- Entries are numbered in the order they come. -/
def RowsNumbered (w : AuditWorld) : Prop :=
  w.rows.map AuditLogRow.id = List.range w.rows.length

theorem RowsNumbered.nodup {w : AuditWorld} (h : RowsNumbered w) : w.rows.Nodup :=
  List.Nodup.of_map AuditLogRow.id (h ▸ List.nodup_range)

theorem rowsNumbered_step (w : AuditWorld) (a : AuditAction) (h : RowsNumbered w) :
    RowsNumbered (w.step a) := by
  cases a with
  | record dto now =>
      simp only [AuditWorld.step, AuditWorld.record]
      split
      · unfold RowsNumbered at h ⊢
        simp only [List.map_append, h, List.length_append, List.map_cons, List.map_nil]
        exact List.range_succ.symm
      · exact h
  | users userIds =>
      simp only [AuditWorld.step]
      split
      · exact h
      · exact h

theorem entriesOf_append (w : AuditWorld) (row : AuditLogRow) (calls : List AuditLogDto)
    (userId : String) : AuditWorld.entriesOf { w with rows := w.rows ++ [row], calls := calls } userId =
      w.entriesOf userId ++ if row.userId = userId then [row] else [] := by
  unfold AuditWorld.entriesOf
  rw [List.filter_append, List.filter_singleton]
  by_cases huser : row.userId = userId
  · simp [huser]
  · simp [huser]

theorem forall₂_concat_iff {α β : Type} {r : α → β → Prop} {xs : List α} {ys : List β} {x : α}
    {y : β} : List.Forall₂ r (xs ++ [x]) (ys ++ [y]) ↔ List.Forall₂ r xs ys ∧ r x y := by
  rw [← List.forall₂_reverse_iff, List.reverse_concat, List.reverse_concat, List.forall₂_cons,
    List.forall₂_reverse_iff]
  exact and_comm

theorem addressesKept_step {w : AuditWorld} (a : AuditAction) (h : AddressesKept w) :
    AddressesKept (w.step a) ↔ Traceable w a := by
  cases a with
  | users userIds =>
      refine iff_of_true ?_ trivial
      simp only [AuditWorld.step]
      split
      · exact ⟨h.entries, h.few⟩
      · exact h
  | record dto now =>
      simp only [AuditWorld.step, AuditWorld.record, Traceable]
      constructor
      · intro hkept
        split at hkept
        · rename_i huser
          obtain ⟨-, -, haddress⟩ := forall₂_concat_iff.mp hkept.entries
          have hfew := hkept.few dto.actorAddress
          rw [entriesOf_append, if_pos haddress, List.length_append] at hfew
          exact ⟨huser, haddress, hfew⟩
        · -- the call has no entry
          have hlength := hkept.entries.length_eq
          have hbefore := h.entries.length_eq
          rw [List.length_append, hbefore] at hlength
          exact absurd hlength (Nat.succ_ne_self _)
      · rintro ⟨huser, haddress, hfew⟩
        have hdata : (dto.data w.rows.length now).userId ∈ w.userIds := huser
        rw [if_pos hdata]
        refine ⟨forall₂_concat_iff.mpr ⟨h.entries, ⟨_, _, rfl⟩, haddress⟩, fun userId => ?_⟩
        rw [entriesOf_append, List.length_append]
        by_cases hsame : (dto.data w.rows.length now).userId = userId
        · rw [if_pos hsame, ← hsame]
          change (w.entriesOf (dto.actorId.getD "")).length + 1 ≤ 100
          rw [haddress]
          exact hfew
        · rw [if_neg hsame]
          exact h.few userId

end Steps

/-- In every state of a run each call has left one entry that its actor finds, exactly if each call
is made for a user whose id is given as the address too, and who has fewer than a hundred entries. -/
theorem audit_complete_while_traceable (scan : AuditScan) (userIds : List String)
    (actions : List AuditAction) :
    (∀ pre post, actions = pre ++ post →
        AuditComplete scan (pre.foldl AuditWorld.step (AuditWorld.fresh userIds))) ↔
      Along AuditWorld.step Traceable (AuditWorld.fresh userIds) actions := by
  have hnumbered : RowsNumbered (AuditWorld.fresh userIds) := rfl
  have hcomplete : AuditComplete scan (AuditWorld.fresh userIds) := List.Forall₂.nil
  refine along_iff_property rowsNumbered_step (fun w a hnumbered hgood => ?_) hnumbered hcomplete
    actions
  rw [auditComplete_iff scan hnumbered.nodup] at hgood
  rw [auditComplete_iff scan (rowsNumbered_step w a hnumbered).nodup]
  exact addressesKept_step a hgood

section Examples

def tableOrder : AuditScan := ⟨id, fun _ => .refl _⟩

def stellarActor : String := "GAAZI4TCR3TY5OJHCTJC2A4QSY6CJWJH5IAJTGKIN2ER7LBNVKOCCWN7"

/-- A call of the interceptor for an authenticated user, or for nobody. -/
def shipmentCreated (actorId : Option String) (actorAddress : String) : AuditAction :=
  .record ⟨actorId, actorAddress, "shipment.create", "Shipment", "unknown-id", none, none⟩ 0

/-- A user's entry is kept and not found for their address; without a user there is no entry. -/
theorem audit_entries_lost :
    ¬ (∀ pre post, [shipmentCreated (some "u-1") stellarActor] = pre ++ post →
      AuditComplete tableOrder (pre.foldl AuditWorld.step (AuditWorld.fresh ["u-1"]))) ∧
    ((AuditWorld.fresh ["u-1"]).step (shipmentCreated (some "u-1") stellarActor)).rows.length = 1 ∧
    ((AuditWorld.fresh ["u-1"]).step (shipmentCreated none "SYSTEM")).rows.length = 0 := by
  refine ⟨fun h => ?_, by decide, by decide⟩
  have hcomplete := h [shipmentCreated (some "u-1") stellarActor] [] rfl
  cases hcomplete with
  | cons hentry =>
      have hrow := (userId_of_findByActor hentry.2.actor).2
      exact absurd hrow (by decide)

end Examples

end ChainSettle
