import ChainSettle.Arbiters.Steps
import ChainSettle.Lifecycle.Writes

/-!
The quorum behind a confirmation. `assertQuorum` counts the approvals of the
shipment and does not look at who gave them, so the count stands for current
participants only as long as every approval recorded is by one of them. An
approval is by a participant when it is recorded; the participant can only cease
to be one by being the arbiter that `replaceArbiter` removes.
-/

namespace ChainSettle

open Lib Lib.Eff

/-- Every approval recorded is by a participant, and none is recorded twice. -/
structure Db.ApprovedByParticipants (db : Db) : Prop where
  unique : db.approvals.Nodup
  participants : ∀ approval ∈ db.approvals, ∀ shipment,
    db.shipments.find? approval.shipmentId = some shipment →
      approval.approverAddress ∈ shipment.participants

/-- So many different participants of the shipment have recorded an approval as
it requires. -/
def Db.HasQuorum (db : Db) (shipmentId : String) : Prop :=
  ∀ shipment required, db.shipments.find? shipmentId = some shipment →
    shipment.requiredApprovals = some required →
      ∃ addresses : List String, addresses.Nodup ∧ required ≤ addresses.length ∧
        ∀ address ∈ addresses, address ∈ shipment.participants ∧
          ⟨shipmentId, address⟩ ∈ db.approvals

/-- Where approvals are by participants, the code's count is a quorum. -/
theorem Db.ApprovedByParticipants.hasQuorum {db : Db} (h : db.ApprovedByParticipants)
    {shipmentId : String} (hmet : QuorumMet db shipmentId) : db.HasQuorum shipmentId := by
  intro shipment required hfound hrequired
  have hmine (approval : ShipmentApproval)
      (hmem : approval ∈ db.approvals.filter fun a => a.shipmentId = shipmentId) :
      approval ∈ db.approvals ∧ approval.shipmentId = shipmentId := by
    simpa using hmem
  refine ⟨(db.approvals.filter fun a => a.shipmentId = shipmentId).map
    ShipmentApproval.approverAddress, ?_, ?_, fun address haddress => ?_⟩
  -- two approvals of one shipment by one address are the same row
  · refine (h.unique.filter _).map_on fun a ha b hb haddress => ?_
    obtain ⟨_, hida⟩ := hmine a ha
    obtain ⟨_, hidb⟩ := hmine b hb
    cases a
    cases b
    simp_all
  · rw [List.length_map]
    exact hmet required (by rw [hfound]; exact hrequired)
  · obtain ⟨approval, hmem, rfl⟩ := List.mem_map.mp haddress
    obtain ⟨happroval, rfl⟩ := hmine approval hmem
    exact ⟨h.participants approval happroval shipment hfound, happroval⟩

section Operations

/-- Neither the approvals nor the participants of any shipment change. -/
structure SameApprovers (db next : Db) : Prop where
  approvals : next.approvals = db.approvals
  participants : ∀ id, (next.shipments.find? id).map Shipment.participants =
    (db.shipments.find? id).map Shipment.participants

theorem SameApprovers.refl (db : Db) : SameApprovers db db := ⟨rfl, fun _ => rfl⟩

theorem Db.ApprovedByParticipants.congr {db next : Db} (h : db.ApprovedByParticipants)
    (hsame : SameApprovers db next) : next.ApprovedByParticipants := by
  refine ⟨hsame.approvals ▸ h.unique, fun approval happroval shipment hfound => ?_⟩
  have hmap := hsame.participants approval.shipmentId
  rw [hfound, Option.map_some] at hmap
  obtain ⟨old, hold, heq⟩ := Option.map_eq_some_iff.mp hmap.symm
  rw [← heq]
  exact h.participants approval (hsame.approvals ▸ happroval) old hold

variable (env : Env) (db : Db) (shipmentId : String)

theorem sameApprovers_sync : SameApprovers db (after (syncStatusFromChain env shipmentId) db) := by
  rw [after_sync]
  split
  · exact .refl db
  · refine ⟨rfl, fun id => ?_⟩
    simp only [Db.syncShipment, Table.find?_modify]
    split
    · rename_i hid
      rw [hid, Option.map_map]
      rfl
    · rfl

theorem sameApprovers_writes (writes : List (MilestoneKey × MilestoneWrite)) :
    SameApprovers db
      (after (syncStatusFromChain env shipmentId) (db.writeMilestones writes)) := by
  obtain ⟨hshipments, _, happrovals⟩ := writeMilestones_frame db writes
  obtain ⟨hsame, hparticipants⟩ := sameApprovers_sync env (db.writeMilestones writes) shipmentId
  exact ⟨hsame.trans happrovals, fun id => (hparticipants id).trans (by rw [hshipments])⟩

/-- What a confirming request does: nothing, or with the quorum met it writes
milestones of its shipment. -/
structure Confirming (next : Db) : Prop where
  approvers : SameApprovers db next
  quorum : next.milestones ≠ db.milestones → QuorumMet db shipmentId
  others : ∀ id index, id ≠ shipmentId →
    next.milestones.find? (id, index) = db.milestones.find? (id, index)

theorem Confirming.refl : Confirming db shipmentId db :=
  ⟨.refl db, fun h => absurd rfl h, fun _ _ _ => rfl⟩

theorem confirming_writes {writes : List (MilestoneKey × MilestoneWrite)}
    (hquorum : QuorumMet db shipmentId) (hkeys : ∀ entry ∈ writes, entry.1.1 = shipmentId) :
    Confirming db shipmentId
      (after (syncStatusFromChain env shipmentId) (db.writeMilestones writes)) := by
  refine ⟨sameApprovers_writes env db shipmentId writes, fun _ => hquorum,
    fun id index hid => ?_⟩
  rw [milestones_after_sync]
  refine find?_writeMilestones_of_not_mem fun hmem => ?_
  obtain ⟨entry, hentry, hkey⟩ := List.mem_map.mp hmem
  have hmine := hkeys entry hentry
  rw [hkey] at hmine
  exact hid hmine

theorem confirming_confirmFromApi (milestoneIndex : Int) (callerAddress paymentReleased : String) :
    Confirming db shipmentId
      (after (confirmFromApi env shipmentId milestoneIndex callerAddress paymentReleased) db) := by
  by_cases h : ∃ amount, ConfirmsFromApi env db shipmentId milestoneIndex callerAddress
      paymentReleased amount
  · obtain ⟨amount, hamount⟩ := h
    rw [after_confirmFromApi env db shipmentId milestoneIndex callerAddress paymentReleased
      amount hamount]
    have hkeys : ∀ entry ∈ [((shipmentId, milestoneIndex),
        MilestoneWrite.confirmed amount env.now)], entry.1.1 = shipmentId := by
      intro entry hentry
      rw [List.mem_singleton.mp hentry]
    exact confirming_writes env db shipmentId hamount.quorum hkeys
  · rw [after_confirmFromApi_of_not_confirms env db shipmentId milestoneIndex callerAddress
      paymentReleased fun amount hamount => h ⟨amount, hamount⟩]
    exact .refl db shipmentId

theorem confirming_bulkConfirmFromApi (callerAddress : String) (items : List BulkConfirmItem) :
    Confirming db shipmentId
      (after (bulkConfirmFromApi env shipmentId callerAddress items) db) := by
  by_cases h : ∃ writes, BulkConfirms env db shipmentId callerAddress items writes
  · obtain ⟨writes, hwrites⟩ := h
    rw [after_bulkConfirmFromApi env db shipmentId callerAddress hwrites]
    split
    · exact .refl db shipmentId
    · refine confirming_writes env db shipmentId hwrites.quorum fun entry hentry => ?_
      obtain ⟨_, _, _, _, rfl⟩ := mem_bulkConfirmWrites env shipmentId hwrites.batch entry hentry
      rfl
  · rw [after_bulkConfirmFromApi_of_not_confirms env db shipmentId callerAddress
      fun writes hwrites => h ⟨writes, hwrites⟩]
    exact .refl db shipmentId

/-- An approval that goes through is a new one, by a participant. -/
theorem after_approve_cases (approverAddress : String) :
    after (approve env shipmentId approverAddress) db = db ∨
    ∃ shipment, db.shipments.find? shipmentId = some shipment ∧
      approverAddress ∈ shipment.participants ∧
      ⟨shipmentId, approverAddress⟩ ∉ db.approvals ∧
      after (approve env shipmentId approverAddress) db =
        { db with approvals := db.approvals ++ [⟨shipmentId, approverAddress⟩] } := by
  unfold approve after
  rw [exec_bind, exec_shipmentFindUnique]
  cases env.fails .shipmentRead with
  | true => exact .inl rfl
  | false =>
      simp only [Bool.false_eq_true, if_false]
      cases hfound : db.shipments.find? shipmentId with
      | none => exact .inl rfl
      | some shipment =>
          dsimp only
          by_cases hparticipant : approverAddress ∉ shipment.participants
          · rw [if_pos hparticipant]
            exact .inl rfl
          rw [if_neg hparticipant]
          by_cases hrequired : shipment.requiredApprovals = none
          · rw [if_pos hrequired]
            exact .inl rfl
          rw [if_neg hrequired, exec_bind, exec_prismaCall]
          cases env.fails .approvalRead with
          | true => exact .inl rfl
          | false =>
              simp only [Bool.false_eq_true, if_false, exec_bind, exec_get]
              by_cases hnew : ⟨shipmentId, approverAddress⟩ ∈ db.approvals
              · rw [if_pos hnew]
                exact .inl rfl
              rw [if_neg hnew, exec_bind, exec_prismaCall]
              cases env.fails .approvalWrite with
              | true => exact .inl rfl
              | false => exact .inr ⟨shipment, rfl, not_not.mp hparticipant, hnew, rfl⟩

theorem milestones_after_approve (approverAddress : String) :
    (after (approve env shipmentId approverAddress) db).milestones = db.milestones := by
  obtain hsame | ⟨_, _, _, _, happroved⟩ := after_approve_cases env db shipmentId approverAddress
  · rw [hsame]
  · rw [happroved]

theorem milestones_after_replaceArbiter (text : CaseMapping)
    (buyerAddress arbiterAddress : String) :
    (after (replaceArbiter text env shipmentId buyerAddress arbiterAddress) db).milestones =
      db.milestones := by
  obtain hsame | ⟨_, _, hreplaced⟩ :=
    after_replaceArbiter_cases text env db shipmentId buyerAddress arbiterAddress
  · rw [hsame]
  · rw [hreplaced]
    rfl

end Operations

section Runs

/-- A request that concerns the approvals of a shipment or relies on them. -/
inductive QuorumStep where
  | approve (env : Env) (shipmentId approverAddress : String)
  | replaceArbiter (env : Env) (id buyerAddress arbiterAddress : String)
  | confirm (env : Env) (shipmentId : String) (milestoneIndex : Int)
      (callerAddress paymentReleased : String)
  | bulkConfirm (env : Env) (shipmentId callerAddress : String) (items : List BulkConfirmItem)

variable (text : CaseMapping)

def QuorumStep.apply (db : Db) : QuorumStep → Db
  | .approve env shipmentId approverAddress =>
      after (ChainSettle.approve env shipmentId approverAddress) db
  | .replaceArbiter env id buyerAddress arbiterAddress =>
      after (ChainSettle.replaceArbiter text env id buyerAddress arbiterAddress) db
  | .confirm env shipmentId milestoneIndex callerAddress paymentReleased =>
      after (confirmFromApi env shipmentId milestoneIndex callerAddress paymentReleased) db
  | .bulkConfirm env shipmentId callerAddress items =>
      after (bulkConfirmFromApi env shipmentId callerAddress items) db

/-- The step confirms a milestone of the shipment. -/
def QuorumStep.Confirms (db : Db) (a : QuorumStep) (shipmentId : String) : Prop :=
  ∃ index m m', db.milestones.find? (shipmentId, index) = some m ∧ m.status ≠ .confirmed ∧
    (a.apply text db).milestones.find? (shipmentId, index) = some m' ∧ m'.status = .confirmed

/-- An arbiter is only replaced when he has approved nothing, or stays a
participant. -/
def QuorumStep.KeepsApprovers (db : Db) : QuorumStep → Prop
  | .replaceArbiter env id buyerAddress arbiterAddress =>
      ∀ shipment, Replaces text env db id buyerAddress arbiterAddress shipment →
        ⟨id, shipment.arbiterAddress⟩ ∉ db.approvals ∨
          shipment.arbiterAddress ∈ (shipment.assignArbiter arbiterAddress).participants
  | _ => True

/-- A replacement only takes the old arbiter out. -/
theorem mem_participants_assignArbiter {shipment : Shipment} {arbiterAddress address : String}
    (h : address ∈ shipment.participants)
    (hold : address = shipment.arbiterAddress →
      address ∈ (shipment.assignArbiter arbiterAddress).participants) :
    address ∈ (shipment.assignArbiter arbiterAddress).participants := by
  by_cases harbiter : address = shipment.arbiterAddress
  · exact hold harbiter
  · simp only [Shipment.participants, List.mem_cons, List.not_mem_nil, or_false] at h
    simp only [Shipment.participants, Shipment.assignArbiter, List.mem_cons]
    tauto

variable {db : Db}

theorem Db.ApprovedByParticipants.approve (h : db.ApprovedByParticipants) (env : Env)
    (shipmentId approverAddress : String) :
    (after (ChainSettle.approve env shipmentId approverAddress) db).ApprovedByParticipants := by
  obtain hsame | ⟨shipment, hfound, hparticipant, hnew, hafter⟩ :=
    after_approve_cases env db shipmentId approverAddress
  · rw [hsame]
    exact h
  · rw [hafter]
    refine ⟨?_, fun approval happroval other hother => ?_⟩
    · rw [← List.concat_eq_append]
      exact h.unique.concat hnew
    · rcases List.mem_append.mp happroval with hold | hlast
      · exact h.participants approval hold other hother
      · obtain rfl := List.mem_singleton.mp hlast
        cases hfound.symm.trans hother
        exact hparticipant

theorem Db.ApprovedByParticipants.replaceArbiter {text : CaseMapping}
    (h : db.ApprovedByParticipants) {env : Env} {id buyerAddress arbiterAddress : String}
    (hkeeps : QuorumStep.KeepsApprovers text db
      (.replaceArbiter env id buyerAddress arbiterAddress)) :
    (after (ChainSettle.replaceArbiter text env id buyerAddress arbiterAddress)
      db).ApprovedByParticipants := by
  obtain hsame | ⟨shipment, hreplaces, hafter⟩ :=
    after_replaceArbiter_cases text env db id buyerAddress arbiterAddress
  · rw [hsame]
    exact h
  · rw [hafter]
    refine ⟨h.unique, fun approval happroval other hother => ?_⟩
    rw [find?_assignArbiter] at hother
    split at hother
    · rename_i hid
      obtain ⟨old, hold, rfl⟩ := Option.map_eq_some_iff.mp hother
      cases hreplaces.found.symm.trans hold
      have hbefore := h.participants approval happroval shipment (hid ▸ hreplaces.found)
      refine mem_participants_assignArbiter hbefore fun harbiter => ?_
      rcases hkeeps shipment hreplaces with hnone | hstays
      · refine absurd ?_ hnone
        rw [← hid, ← harbiter]
        exact happroval
      · rw [harbiter]
        exact hstays
    · exact h.participants approval happroval other hother

theorem approvedByParticipants_step {a : QuorumStep} (h : db.ApprovedByParticipants)
    (hkeeps : a.KeepsApprovers text db) : (a.apply text db).ApprovedByParticipants := by
  cases a with
  | approve env shipmentId approverAddress => exact h.approve env shipmentId approverAddress
  | replaceArbiter env id buyerAddress arbiterAddress => exact h.replaceArbiter hkeeps
  | confirm env shipmentId milestoneIndex callerAddress paymentReleased =>
      exact h.congr (confirming_confirmFromApi env db shipmentId milestoneIndex callerAddress
        paymentReleased).approvers
  | bulkConfirm env shipmentId callerAddress items =>
      exact h.congr (confirming_bulkConfirmFromApi env db shipmentId callerAddress items).approvers

theorem QuorumStep.Confirms.changes {text : CaseMapping} {a : QuorumStep} {shipmentId : String}
    (h : a.Confirms text db shipmentId) : (a.apply text db).milestones ≠ db.milestones := by
  obtain ⟨index, m, m', hm, hbefore, hm', hafter⟩ := h
  intro hsame
  rw [hsame, hm] at hm'
  cases hm'
  exact hbefore hafter

/-- A milestone that has become confirmed is one of the request's shipment. -/
theorem Confirming.quorumMet {text : CaseMapping} {a : QuorumStep} {requested shipmentId : String}
    (h : Confirming db requested (a.apply text db)) (hconfirms : a.Confirms text db shipmentId) :
    QuorumMet db shipmentId := by
  have hquorum := h.quorum hconfirms.changes
  obtain ⟨index, m, m', hm, hbefore, hm', hafter⟩ := hconfirms
  by_cases hid : shipmentId = requested
  · rw [hid]
    exact hquorum
  · rw [h.others shipmentId index hid, hm] at hm'
    cases hm'
    exact absurd hafter hbefore

theorem quorumMet_of_confirms {a : QuorumStep} {shipmentId : String}
    (h : a.Confirms text db shipmentId) : QuorumMet db shipmentId := by
  cases a with
  | approve env id approverAddress =>
      exact absurd (milestones_after_approve env db id approverAddress) h.changes
  | replaceArbiter env id buyerAddress arbiterAddress =>
      exact absurd (milestones_after_replaceArbiter env db id text buyerAddress arbiterAddress)
        h.changes
  | confirm env id milestoneIndex callerAddress paymentReleased =>
      exact (confirming_confirmFromApi env db id milestoneIndex callerAddress
        paymentReleased).quorumMet h
  | bulkConfirm env id callerAddress items =>
      exact (confirming_bulkConfirmFromApi env db id callerAddress items).quorumMet h

end Runs

/-- In every run in which no arbiter is replaced whose approval is recorded, a
milestone is confirmed through the API only when as many different participants
as the shipment requires have approved it by then. -/
theorem api_confirmations_have_quorum (text : CaseMapping) {db : Db}
    (hstart : db.ApprovedByParticipants) {steps : List QuorumStep}
    (hkeeps : Along (QuorumStep.apply text) (QuorumStep.KeepsApprovers text) db steps) :
    ∀ pre a post, steps = pre ++ a :: post → ∀ shipmentId,
      a.Confirms text (pre.foldl (QuorumStep.apply text) db) shipmentId →
        (pre.foldl (QuorumStep.apply text) db).HasQuorum shipmentId := by
  intro pre a post hsteps shipmentId hconfirms
  have hstep (db : Db) (a : QuorumStep) (h : db.ApprovedByParticipants)
      (ha : a.KeepsApprovers text db) : (a.apply text db).ApprovedByParticipants :=
    approvedByParticipants_step text h ha
  have happroved := hkeeps.invariant hstep hstart pre (a :: post) hsteps
  exact happroved.hasQuorum (quorumMet_of_confirms text hconfirms)

section Replacements

/-- A shipment that requires two approvals, with a proof to confirm. -/
def multisigDb : Db :=
  { Db.demo .proofSubmitted with
    shipments := (Db.demo .proofSubmitted).shipments.modify "SHIP-1"
      (fun s => { s with requiredApprovals := some 2 }) fun _ => rfl
    users := demoUsers }

def confirmStep : QuorumStep := .confirm (.calm 20) "SHIP-1" 0 "GBUYER" "1000"

/-- Buyer and arbiter approve, and the buyer confirms. -/
def twoApprovals : List QuorumStep :=
  [.approve (.calm 20) "SHIP-1" "GBUYER", .approve (.calm 20) "SHIP-1" "GARBITER", confirmStep]

/-- The confirmation goes through, with the approvals of two participants. -/
theorem quorum_of_two :
    confirmStep.Confirms .ascii
        ((twoApprovals.take 2).foldl (QuorumStep.apply .ascii) multisigDb) "SHIP-1" ∧
      ((twoApprovals.take 2).foldl (QuorumStep.apply .ascii) multisigDb).HasQuorum "SHIP-1" := by
  have hstart : multisigDb.ApprovedByParticipants :=
    ⟨List.nodup_nil, fun _ happroval => (by cases happroval)⟩
  have hconfirms : confirmStep.Confirms .ascii
      ((twoApprovals.take 2).foldl (QuorumStep.apply .ascii) multisigDb) "SHIP-1" :=
    ⟨0, _, _, rfl, by decide, rfl, rfl⟩
  have hkeeps : Along (QuorumStep.apply .ascii) (QuorumStep.KeepsApprovers .ascii) multisigDb
      twoApprovals := ⟨trivial, trivial, trivial, trivial⟩
  exact ⟨hconfirms, api_confirmations_have_quorum .ascii hstart hkeeps (twoApprovals.take 2) _ []
    rfl "SHIP-1" hconfirms⟩

/-- Each of two arbiters approves while he is the arbiter. -/
def replacedRun : List QuorumStep :=
  [.approve (.calm 20) "SHIP-1" "GARBITER",
    .replaceArbiter (.calm 20) "SHIP-1" "GBUYER" "GOTHER",
    .approve (.calm 20) "SHIP-1" "GOTHER"]

/-- The milestone is confirmed on two approvals, of which only one is by a
participant. -/
theorem replaced_arbiter_counts :
    confirmStep.Confirms .ascii (replacedRun.foldl (QuorumStep.apply .ascii) multisigDb) "SHIP-1" ∧
      ¬ (replacedRun.foldl (QuorumStep.apply .ascii) multisigDb).HasQuorum "SHIP-1" := by
  refine ⟨⟨0, _, _, rfl, by decide, rfl, rfl⟩, fun h => ?_⟩
  obtain ⟨addresses, hnodup, hlength, hall⟩ := h _ 2 rfl rfl
  have honly : addresses ⊆ ["GOTHER"] := by
    intro address haddress
    obtain ⟨hparticipant, happroved⟩ := hall address haddress
    have happrover : address ∈ ["GARBITER", "GOTHER"] := by
      change (⟨"SHIP-1", address⟩ : ShipmentApproval) ∈
        [⟨"SHIP-1", "GARBITER"⟩, ⟨"SHIP-1", "GOTHER"⟩] at happroved
      simpa using happroved
    change address ∈ ["GBUYER", "GSUPPLIER", "GLOGISTICS", "GOTHER"] at hparticipant
    rcases List.mem_cons.mp happrover with rfl | hother
    · exact absurd hparticipant (by decide)
    · exact hother
  have hone : addresses.length ≤ 1 := (List.subperm_of_subset hnodup honly).length_le
  omega

end Replacements

end ChainSettle
