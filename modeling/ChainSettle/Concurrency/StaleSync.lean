import ChainSettle.Concurrency.Steps
import ChainSettle.Mirror.Cancellation

/-!
Can the mirrored columns of a shipment go back? `syncStatusFromChain` reads the
contract, suspends, and then writes what it read without looking at the row. The
contract itself only moves forward, so the row goes back exactly when a reading
is written over a newer one.

The invariant `Mirrors` orders everything there is about one shipment: what the
row shows, then every reading that is still to be written, then the contract.
-/

namespace ChainSettle

open Lib Lib.Eff

/-- A contract record may be followed by another one: the status leaves ACTIVE
at most once and released money stays released. -/
instance : Preorder ContractState where
  le c c' := (c.status = c'.status ∨ c.status = .active) ∧ c.releasedAmount ≤ c'.releasedAmount
  le_refl _ := ⟨.inl rfl, le_refl _⟩
  le_trans a b c hab hbc := by
    refine ⟨?_, hab.2.trans hbc.2⟩
    rcases hab.1 with hstatus | hactive
    · rw [hstatus]
      exact hbc.1
    · exact .inr hactive

instance (c c' : ContractState) : Decidable (c ≤ c') :=
  inferInstanceAs (Decidable ((c.status = c'.status ∨ c.status = .active) ∧
    c.releasedAmount ≤ c'.releasedAmount))

namespace Service

/-- The assumptions about the contract: it moves forward, and a simulation that
answers does so with the record of that instant. -/
def Truthful (s : Service) : ServiceAction → Prop
  | .begin _ _ => True
  | .resume slot env => ∀ id, s.pending slot = some (.syncRead id) →
      env.getShipment id = none ∨ env.getShipment id = some (s.shared.chain id).onChain
  | .external move => s.shared.chain move.shipmentId ≤ move.record

/-- A sync writes only when no other sync of the shipment has an older reading
left to write. -/
def WritesInOrder (s : Service) : ServiceAction → Prop
  | .resume slot _ => ∀ id status releasedAmount,
      s.pending slot = some (.syncWrite id status releasedAmount) →
      ∀ other status' releasedAmount', other ≠ slot →
        s.pending other = some (.syncWrite id status' releasedAmount') →
        (⟨status, releasedAmount⟩ : ContractState) ≤ ⟨status', releasedAmount'⟩
  | _ => True

/-- What the row shows is no newer than any reading still to be written, and
nothing is newer than the contract. -/
structure Mirrors (s : Service) : Prop where
  row : ∀ id a, s.shared.db.shipments.find? id = some a → a.mirrored ≤ s.shared.chain id
  reading : ∀ slot id status releasedAmount,
    s.pending slot = some (.syncWrite id status releasedAmount) →
    (⟨status, releasedAmount⟩ : ContractState) ≤ s.shared.chain id
  fresh : ∀ slot id status releasedAmount a,
    s.pending slot = some (.syncWrite id status releasedAmount) →
    s.shared.db.shipments.find? id = some a →
    a.mirrored ≤ (⟨status, releasedAmount⟩ : ContractState)

/-- Every row of `s` is still there in `t`, and shows the same or a later
contract record. -/
def RowsAdvance (s t : Service) : Prop :=
  ∀ id a, s.shared.db.shipments.find? id = some a →
    ∃ b, t.shared.db.shipments.find? id = some b ∧ a.mirrored ≤ b.mirrored

theorem rowsAdvance_of_shipments_eq {s t : Service}
    (h : t.shared.db.shipments = s.shared.db.shipments) : s.RowsAdvance t := by
  intro id a ha
  exact ⟨a, h ▸ ha, le_refl _⟩

theorem RowsAdvance.trans {s t u : Service} (h : s.RowsAdvance t) (h' : t.RowsAdvance u) :
    s.RowsAdvance u := by
  intro id a ha
  obtain ⟨b, hb, hab⟩ := h id a ha
  obtain ⟨c, hc, hbc⟩ := h' id b hb
  exact ⟨c, hc, hab.trans hbc⟩

end Service

section Steps

variable {env : Env} {w w' : World} {call : Call} {rest : Option Call}

/-- Only the write of a sync touches the shipment rows. -/
theorem shipments_after_resume (h : Resumed env w call w' rest) :
    w'.chain = w.chain ∧ (w'.db.shipments = w.db.shipments ∨
      ∃ id status releasedAmount, call = .syncWrite id status releasedAmount ∧ rest = none ∧
        w'.db = w.db.syncShipment id status releasedAmount) := by
  cases h with
  | ended => exact ⟨rfl, .inl rfl⟩
  | read => exact ⟨rfl, .inl rfl⟩
  | updated => exact ⟨rfl, .inl rfl⟩
  | committed writes follow _ => exact ⟨rfl, .inl (shipments_writeMilestones w.db writes)⟩
  | recorded => exact ⟨rfl, .inl rfl⟩
  | synced id status releasedAmount => exact ⟨rfl, .inr ⟨_, _, _, rfl, rfl, rfl⟩⟩

/-- A reading still to be written was just made. -/
theorem syncWrite_after_resume {id : String} {status : ShipmentStatus} {releasedAmount : Int}
    (h : Resumed env w call w' (some (.syncWrite id status releasedAmount))) :
    call = .syncRead id ∧ ∃ onChain, env.getShipment id = some onChain ∧
      statusMap onChain.status = some status ∧ onChain.releasedAmount = releasedAmount := by
  rcases rest_after_resume h with ⟨_, hreads⟩ | ⟨follow, hfollow⟩
  · cases hreads with
    | syncRead _ hanswer hstatus => exact ⟨rfl, _, hanswer, hstatus, rfl⟩
  · cases follow <;> cases hfollow

/-- The row after a sync shows what the sync read. -/
theorem find?_after_syncShipment (db : Db) (id other : String) (status : ShipmentStatus)
    (releasedAmount : Int) :
    (db.syncShipment id status releasedAmount).shipments.find? other =
      if other = id then (db.shipments.find? id).map (Shipment.sync status releasedAmount)
      else db.shipments.find? other :=
  Table.find?_modify _ _ _ (Shipment.sync_id status releasedAmount) _

end Steps

namespace Service

variable {s t : Service} {a : ServiceAction}

/-- The readings in flight after a call was resumed: one just made, or those of
the other calls. -/
theorem readings_after_resume {slot other : Nat} {env : Env} {call : Call} {w : World}
    {rest : Option Call} {id : String} {status : ShipmentStatus} {releasedAmount : Int}
    (htruthful : s.Truthful (.resume slot env)) (hcall : s.pending slot = some call)
    (hresumed : Resumed env s.shared call w rest)
    (hother : Function.update s.pending slot rest other =
      some (.syncWrite id status releasedAmount)) :
    (⟨status, releasedAmount⟩ : ContractState) = s.shared.chain id ∧ call = .syncRead id ∨
      other ≠ slot ∧ s.pending other = some (.syncWrite id status releasedAmount) := by
  rcases pending_update hother with ⟨_, rfl⟩ | hold
  · left
    obtain ⟨rfl, onChain, hanswer, hstatus, hamount⟩ := syncWrite_after_resume hresumed
    rcases htruthful id hcall with hnone | htrue
    · cases hanswer.symm.trans hnone
    · cases hanswer.symm.trans htrue
      cases (statusMap_onChainName _).symm.trans hstatus
      cases hamount
      exact ⟨rfl, rfl⟩
  · exact .inr hold

/-- A statement that leaves the shipment rows alone. -/
theorem mirrors_of_rows_eq {slot : Nat} {env : Env} {call : Call} {w : World}
    {rest : Option Call} (htruthful : s.Truthful (.resume slot env))
    (hcall : s.pending slot = some call) (hresumed : Resumed env s.shared call w rest)
    (hchain : w.chain = s.shared.chain) (hsame : w.db.shipments = s.shared.db.shipments)
    (h : s.Mirrors) : Mirrors ⟨w, Function.update s.pending slot rest⟩ := by
  refine ⟨?_, ?_, ?_⟩
  · intro id row hrow
    rw [hchain]
    exact h.row id row (hsame ▸ hrow)
  · intro other id status releasedAmount hother
    rw [hchain]
    rcases readings_after_resume htruthful hcall hresumed hother with ⟨hnow, _⟩ | ⟨_, hold⟩
    · exact hnow.le
    · exact h.reading other id status releasedAmount hold
  · intro other id status releasedAmount row hother hrow
    have hbefore : s.shared.db.shipments.find? id = some row := hsame ▸ hrow
    rcases readings_after_resume htruthful hcall hresumed hother with ⟨hnow, _⟩ | ⟨_, hold⟩
    · rw [hnow]
      exact h.row id row hbefore
    · exact h.fresh other id status releasedAmount row hold hbefore

section Write

variable {slot : Nat} {w : World} {id : String} {status : ShipmentStatus} {releasedAmount : Int}
  (hcall : s.pending slot = some (.syncWrite id status releasedAmount))
  (hdb : w.db = s.shared.db.syncShipment id status releasedAmount) (h : s.Mirrors)

include hcall hdb h

/-- The row now shows the reading, and the readings left to write are newer. -/
theorem mirrors_after_syncWrite {env : Env} (horder : s.WritesInOrder (.resume slot env))
    (hchain : w.chain = s.shared.chain) :
    Mirrors ⟨w, Function.update s.pending slot none⟩ := by
  have hleft : ∀ other id' status' releasedAmount', Function.update s.pending slot none other =
      some (.syncWrite id' status' releasedAmount') →
      other ≠ slot ∧ s.pending other = some (.syncWrite id' status' releasedAmount') := by
    intro other id' status' releasedAmount' hother
    rcases pending_update hother with ⟨_, hnone⟩ | hold
    · cases hnone
    · exact hold
  have hrow : ∀ other row, w.db.shipments.find? other = some row →
      other = id ∧ row.mirrored = ⟨status, releasedAmount⟩ ∨
        other ≠ id ∧ s.shared.db.shipments.find? other = some row := by
    intro other row hfind
    rw [hdb, find?_after_syncShipment] at hfind
    split at hfind
    · obtain ⟨before, _, rfl⟩ := Option.map_eq_some_iff.mp hfind
      exact .inl ⟨‹_›, rfl⟩
    · exact .inr ⟨‹_›, hfind⟩
  refine ⟨?_, ?_, ?_⟩
  · intro other row hfind
    rw [hchain]
    rcases hrow other row hfind with ⟨rfl, hshows⟩ | ⟨_, hbefore⟩
    · rw [hshows]
      exact h.reading slot other status releasedAmount hcall
    · exact h.row other row hbefore
  · intro other id' status' releasedAmount' hother
    rw [hchain]
    exact h.reading other id' status' releasedAmount' (hleft _ _ _ _ hother).2
  · intro other id' status' releasedAmount' row hother hfind
    obtain ⟨hslot, hold⟩ := hleft _ _ _ _ hother
    rcases hrow id' row hfind with ⟨rfl, hshows⟩ | ⟨_, hbefore⟩
    · rw [hshows]
      exact horder id' status releasedAmount hcall other status' releasedAmount' hslot hold
    · exact h.fresh other id' status' releasedAmount' row hold hbefore

theorem rowsAdvance_after_syncWrite :
    s.RowsAdvance ⟨w, Function.update s.pending slot none⟩ := by
  intro other row hfind
  have hafter : w.db.shipments.find? other = _ :=
    (congrArg (·.shipments.find? other) hdb).trans (find?_after_syncShipment ..)
  by_cases hid : other = id
  · subst hid
    rw [if_pos rfl, hfind] at hafter
    exact ⟨row.sync status releasedAmount, hafter,
      h.fresh slot other status releasedAmount row hcall hfind⟩
  · rw [if_neg hid, hfind] at hafter
    exact ⟨row, hafter, le_refl _⟩

end Write

/-- One step keeps the order of row, readings and contract, and moves no row
back. -/
theorem mirrors_step (htruthful : s.Truthful a) (horder : s.WritesInOrder a)
    (hstep : service.step s a = some t) (h : s.Mirrors) : t.Mirrors ∧ s.RowsAdvance t := by
  obtain ⟨slot, call, rfl, hstarts, _, rfl⟩ | ⟨slot, env, call, w, rest, rfl, hcall, hresumed, rfl⟩ |
    ⟨move, rfl, rfl⟩ := service_step hstep
  · -- a call never begins with the write of a sync
    have hpending : ∀ other id status releasedAmount,
        Function.update s.pending slot (some call) other =
          some (.syncWrite id status releasedAmount) →
        s.pending other = some (.syncWrite id status releasedAmount) := by
      intro other id status releasedAmount hother
      rcases pending_update hother with ⟨_, hnew⟩ | ⟨_, hold⟩
      · cases hnew
        cases hstarts
      · exact hold
    refine ⟨⟨h.row, ?_, ?_⟩, rowsAdvance_of_shipments_eq rfl⟩
    · intro other id status releasedAmount hother
      exact h.reading other id status releasedAmount (hpending _ _ _ _ hother)
    · intro other id status releasedAmount row hother
      exact h.fresh other id status releasedAmount row (hpending _ _ _ _ hother)
  · obtain ⟨hchain, hsame | ⟨id, status, releasedAmount, rfl, rfl, hdb⟩⟩ :=
      shipments_after_resume hresumed
    · exact ⟨mirrors_of_rows_eq htruthful hcall hresumed hchain hsame h,
        rowsAdvance_of_shipments_eq hsame⟩
    · exact ⟨mirrors_after_syncWrite hcall hdb h horder hchain,
        rowsAdvance_after_syncWrite hcall hdb h⟩
  · have hchain : ∀ id, s.shared.chain id ≤
        Function.update s.shared.chain move.shipmentId move.record id := by
      intro id
      by_cases hid : id = move.shipmentId
      · subst hid
        rw [Function.update_self]
        exact htruthful
      · rw [Function.update_of_ne hid]
    refine ⟨⟨?_, ?_, h.fresh⟩, rowsAdvance_of_shipments_eq rfl⟩
    · intro id row hrow
      exact (h.row id row hrow).trans (hchain id)
    · intro other id status releasedAmount hother
      exact (h.reading other id status releasedAmount hother).trans (hchain id)

theorem mirrors_idle {db : Db} {chain : String → ContractState}
    (hstart : ∀ id a, db.shipments.find? id = some a → a.mirrored ≤ chain id) :
    (idle db chain).Mirrors where
  row := hstart
  reading _ _ _ _ hpending := by cases hpending
  fresh _ _ _ _ _ hpending := by cases hpending

/-- The conditions of a run of the service, together. -/
def SyncsInOrder (s : Service) (a : ServiceAction) : Prop := s.Truthful a ∧ s.WritesInOrder a

theorem rowsAdvance_of_run (h : s.Mirrors) (hrun : StepsAlong service.step SyncsInOrder s t) :
    t.Mirrors ∧ s.RowsAdvance t := by
  have hstep : ∀ (u : Service) a (v : Service), SyncsInOrder u a → service.step u a = some v →
      u.Mirrors ∧ s.RowsAdvance u → v.Mirrors ∧ s.RowsAdvance v := by
    intro u a v hallowed htaken hinv
    obtain ⟨hmirrors, hadvance⟩ := mirrors_step hallowed.1 hallowed.2 htaken hinv.1
    exact ⟨hmirrors, hinv.2.trans hadvance⟩
  exact hrun.invariant hstep ⟨h, rowsAdvance_of_shipments_eq rfl⟩

end Service

/-- In a run where no reading is written while an older one is left to write, a
row never leaves a terminal status and never shows less released money than
before. -/
theorem mirror_never_goes_back {db : Db} {chain : String → ContractState} {s t : Service}
    (hstart : ∀ id a, db.shipments.find? id = some a → a.mirrored ≤ chain id)
    (hbefore : StepsAlong service.step Service.SyncsInOrder (Service.idle db chain) s)
    (hafter : StepsAlong service.step Service.SyncsInOrder s t) (id : String) (a : Shipment)
    (ha : s.shared.db.shipments.find? id = some a) :
    ∃ b, t.shared.db.shipments.find? id = some b ∧
      (a.status ≠ .active → b.status = a.status) ∧ a.releasedAmount ≤ b.releasedAmount := by
  have hmirrors := (Service.rowsAdvance_of_run (Service.mirrors_idle hstart) hbefore).1
  obtain ⟨b, hb, hstatus, hreleased⟩ := (Service.rowsAdvance_of_run hmirrors hafter).2 id a ha
  refine ⟨b, hb, fun hterminal => ?_, hreleased⟩
  rcases hstatus with hsame | hactive
  · exact hsame.symm
  · exact absurd hactive hterminal

/-- A new shipment, and the contract's record of it. -/
def Service.created : Service :=
  .idle (after (shipmentCreate (.calm 1) demoShipment []) Db.blank) fun _ => ⟨.active, 0⟩

def completion : ChainMove := ⟨"SHIP-1", .completed, 1000⟩

/-- A sync of a completed shipment, and another one that begins afterwards. -/
theorem completed_shipment_stays_completed :
    ∃ s t : Service, (∃ a, s.shared.db.shipments.find? "SHIP-1" = some a ∧
        a.mirrored = completion.record) ∧
      t.pending 0 = some (.syncRead "SHIP-1") ∧
      ∃ b, t.shared.db.shipments.find? "SHIP-1" = some b ∧ b.status = .completed ∧
        1000 ≤ b.releasedAmount := by
  have hstart : ∀ id a, Service.created.shared.db.shipments.find? id = some a →
      a.mirrored ≤ Service.created.shared.chain id := by
    intro id a ha
    have hrow : a.mirrored = ⟨.active, 0⟩ := by
      have hmem := List.mem_of_find?_eq_some ha
      cases List.mem_singleton.mp hmem
      rfl
    exact hrow.le
  have hsynced : ∃ s : Service,
      StepsAlong service.step Service.SyncsInOrder Service.created s ∧ s.pending 0 = none ∧
        (s.shared.db.shipments.find? "SHIP-1").map Shipment.mirrored = some completion.record := by
    refine ⟨_, .tail (.tail (.tail (.tail (.refl _)
      (a := .external completion) ⟨⟨.inr rfl, by decide⟩, trivial⟩ rfl)
      (a := .begin 0 (.syncRead "SHIP-1")) ⟨trivial, trivial⟩ rfl)
      (a := .resume 0 (.answering 2 "Completed" 1000)) ⟨?_, ?_⟩ rfl)
      (a := .resume 0 (.calm 3)) ⟨?_, ?_⟩ rfl, rfl, by decide⟩
    · rintro id ⟨⟩
      exact .inr rfl
    · rintro id status releasedAmount ⟨⟩
    · rintro id ⟨⟩
    · rintro id status releasedAmount _ (_ | other) status' releasedAmount' hne hother
      · exact absurd rfl hne
      · cases hother
  obtain ⟨s, hbefore, hfree, hrow⟩ := hsynced
  obtain ⟨a, ha, hmirrored⟩ := Option.map_eq_some_iff.mp hrow
  have hbegin : service.step s (.begin 0 (.syncRead "SHIP-1")) = some
      ⟨s.shared, Function.update s.pending 0 (some (.syncRead "SHIP-1"))⟩ := by
    simp [CallSystem.step, hfree, service, Call.starts]
  have hterminal : a.status = .completed := congrArg ContractState.status hmirrored
  have hamount : a.releasedAmount = 1000 := congrArg ContractState.releasedAmount hmirrored
  obtain ⟨b, hb, hstatus, hreleased⟩ := mirror_never_goes_back hstart hbefore
    (.tail (.refl s) (show Service.SyncsInOrder s (.begin 0 _) from ⟨trivial, trivial⟩) hbegin)
    "SHIP-1" a ha
  rw [hterminal] at hstatus
  exact ⟨s, _, ⟨a, ha, hmirrored⟩, rfl, b, hb, hstatus (by rintro ⟨⟩),
    hamount ▸ hreleased⟩

/-- A sync reads the active shipment and is overtaken by one that reads the
completed shipment; its write reopens the row and takes the money back. -/
theorem overtaken_sync_reverts_row :
    ∃ s t : Service, StepsAlong service.step Service.Truthful Service.created s ∧
      StepsAlong service.step Service.Truthful s t ∧ (∀ slot, t.pending slot = none) ∧
      (s.shared.db.shipments.find? "SHIP-1").map Shipment.mirrored = some ⟨.completed, 1000⟩ ∧
      (t.shared.db.shipments.find? "SHIP-1").map Shipment.mirrored = some ⟨.active, 0⟩ := by
  refine ⟨_, _, .tail (.tail (.tail (.tail (.tail (.tail (.refl _)
      (a := .begin 0 (.syncRead "SHIP-1")) trivial rfl)
      (a := .resume 0 (.answering 2 "Active" 0)) ?_ rfl)
      (a := .external completion) ?_ rfl)
      (a := .begin 1 (.syncRead "SHIP-1")) trivial rfl)
      (a := .resume 1 (.answering 3 "Completed" 1000)) ?_ rfl)
      (a := .resume 1 (.calm 4)) ?_ rfl,
    .tail (.refl _) (a := .resume 0 (.calm 5)) ?_ rfl, ?_, ?_, ?_⟩
  · rintro id ⟨⟩
    exact .inr rfl
  · exact ⟨.inr rfl, by decide⟩
  · rintro id ⟨⟩
    exact .inr rfl
  · rintro id ⟨⟩
  · rintro id ⟨⟩
  · intro slot
    match slot with
    | 0 => rfl
    | 1 => rfl
    | _ + 2 => rfl
  · decide
  · decide

end ChainSettle
