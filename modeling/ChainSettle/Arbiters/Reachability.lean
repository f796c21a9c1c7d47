import Mathlib.Data.List.Dedup
import ChainSettle.Archive.Immutable
import ChainSettle.Arbiters.Quorum

/-!
Can the quorum that a request asks for be met at all? Only participants approve, and each
address once, so the approvals of a shipment are at most as many as it has different
participants; and all of these can be had. `create` takes any positive count.
-/

namespace ChainSettle

open Lib Lib.Eff

section Requests

variable (services : Services) (env : Env) (db : Db) (dto : CreateShipmentDto)

/-- The template that a request names. -/
def CreateShipmentDto.template : Option ShipmentTemplate :=
  (truthyText dto.templateId).bind fun templateId =>
    (db.templates.find? templateId).filter fun t => t.deletedAt = none

/-- Who takes the four roles. -/
def CreateShipmentDto.participants : List String :=
  let merged := dto.merge (dto.template db) 0
  dto.buyerAddress ::
    [merged.supplierAddress, merged.logisticsAddress, merged.arbiterAddress].filterMap truthyText

theorem readOnly_template :
    ReadOnly (findTemplate env dto) db fun template => template = dto.template db := by
  unfold findTemplate CreateShipmentDto.template
  cases truthyText dto.templateId with
  | none => exact readOnly_pure rfl
  | some templateId =>
      refine readOnly_read env db .templateRead fun _ => ?_
      rw [Option.bind_some]
      cases (db.templates.find? templateId).filter fun t => t.deletedAt = none with
      | none => exact readOnly_throw _ _ _
      | some template => exact readOnly_pure rfl

theorem readOnly_parties (buyerAddress : String) (merged : MergedFields) :
    ReadOnly (requiredFields services buyerAddress merged) db fun fields =>
      [merged.supplierAddress, merged.logisticsAddress, merged.arbiterAddress].filterMap
          truthyText = [fields.supplierAddress, fields.logisticsAddress, fields.arbiterAddress] ∧
        merged.milestones = some fields.milestones := by
  unfold requiredFields
  refine readOnly_guard fun _ => ?_
  split
  · rename_i hsupplier hlogistics harbiter _ hmilestones
    refine readOnly_pure ⟨?_, hmilestones⟩
    simp [hsupplier, hlogistics, harbiter]
  · exact readOnly_throw _ _ _

theorem readOnly_count (requiredApprovals : Option Int) (totalAmount : Int) :
    ReadOnly (resolveRequiredApprovals services requiredApprovals totalAmount) db fun count =>
      count = requiredApprovals.map Int.toNat ∧ ∀ requested ∈ requiredApprovals, 1 ≤ requested := by
  unfold resolveRequiredApprovals
  cases requiredApprovals with
  | none => exact readOnly_pure ⟨rfl, nofun⟩
  | some requested =>
      refine readOnly_guard fun _ => readOnly_guard fun hpositive => readOnly_pure ⟨rfl, ?_⟩
      rintro _ ⟨⟩
      exact not_lt.mp hpositive

/-- A row that has the roles and the count of the request. -/
structure Requested (new : NewShipment) : Prop where
  id : new.id = dto.shipmentId
  participants : new.participants = dto.participants db
  count : new.requiredApprovals = dto.requiredApprovals.map Int.toNat
  positive : ∀ requested ∈ dto.requiredApprovals, 1 ≤ requested

theorem readOnly_requested :
    ReadOnly (createChecks services env dto) db fun checked => Requested db dto checked.1 ∧
      (dto.merge (dto.template db) env.now).milestones = some checked.2 := by
  unfold createChecks
  refine readOnly_bind (readOnly_checkUnused env db dto) fun _ _ => ?_
  refine readOnly_bind (readOnly_template env db dto) fun template htemplate => ?_
  subst htemplate
  refine readOnly_bind (readOnly_parties services db dto.buyerAddress _) fun fields hfields => ?_
  refine readOnly_bind (readOnly_checkPercentages db fields.milestones) fun _ _ => ?_
  split
  · exact readOnly_throw _ _ _
  · refine readOnly_bind (readOnly_kycGate services env db _ _ _) fun _ _ => ?_
    refine readOnly_bind (readOnly_tokenGate services db fields.tokenAddress _) fun token _ => ?_
    refine readOnly_bind (readOnly_count services db _ _) fun count hcount => ?_
    refine readOnly_pure ⟨⟨rfl, ?_, hcount.1, hcount.2⟩, hfields.2⟩
    exact congrArg (dto.buyerAddress :: ·) hfields.1.symm

theorem requested_of_create {created : Db}
    (h : exec (ShipmentsService.create services env dto) db = (.ok (), created)) :
    ∃ new milestones, Requested db dto new ∧ db.shipments.find? new.id = none ∧
      created = db.withShipment new milestones := by
  unfold ShipmentsService.create at h
  rw [exec_bind] at h
  obtain ⟨err, herr⟩ | ⟨⟨new, milestones⟩, hok, hrequested, -⟩ :=
    readOnly_requested services env db dto
  · rw [herr] at h
    cases h
  · rw [hok] at h
    obtain ⟨hinserts, hinserted⟩ | ⟨-, err, herr⟩ := exec_shipmentInsert env db new milestones
    · cases hinserted.symm.trans h
      exact ⟨new, milestones, hrequested, hinserts.2.2, rfl⟩
    · cases herr.symm.trans h

end Requests

section Approvals

variable {db : Db} {shipmentId : String} {shipment : Shipment}

/-- Who has approved, the first first. -/
def approversOf (db : Db) (shipmentId : String) : List String :=
  (db.approvals.filter fun a => a.shipmentId = shipmentId).map ShipmentApproval.approverAddress

/-- Calls of `approve` for a shipment, each with its own inputs. -/
def approveAll (shipmentId : String) (calls : List (Env × String)) (db : Db) : Db :=
  calls.foldl (fun db call => after (approve call.1 shipmentId call.2) db) db

/-- Every approval is of a shipment that exists, as the foreign key has it. -/
def Db.ApprovalsOwned (db : Db) : Prop :=
  ∀ approval ∈ db.approvals, (db.shipments.find? approval.shipmentId).isSome

instance (db : Db) : Decidable db.ApprovalsOwned :=
  inferInstanceAs (Decidable (∀ _ ∈ _, _))

/-- The approvals of a shipment are by different participants of it. -/
structure ApprovedBy (shipmentId : String) (shipment : Shipment) (db : Db) : Prop where
  found : db.shipments.find? shipmentId = some shipment
  unique : (approversOf db shipmentId).Nodup
  participants : ∀ address ∈ approversOf db shipmentId, address ∈ shipment.participants

theorem mem_approversOf_iff (db : Db) (shipmentId address : String) :
    address ∈ approversOf db shipmentId ↔ ⟨shipmentId, address⟩ ∈ db.approvals := by
  unfold approversOf
  rw [List.mem_map]
  constructor
  · rintro ⟨⟨id, approver⟩, hmem, rfl⟩
    obtain ⟨happroval, hid⟩ := List.mem_filter.mp hmem
    obtain rfl : id = shipmentId := of_decide_eq_true hid
    exact happroval
  · intro happroval
    exact ⟨_, List.mem_filter.mpr ⟨happroval, decide_eq_true rfl⟩, rfl⟩

theorem approversOf_append (db : Db) (shipmentId address : String) :
    approversOf { db with approvals := db.approvals ++ [⟨shipmentId, address⟩] } shipmentId =
      approversOf db shipmentId ++ [address] := by
  simp [approversOf, List.filter_append]

theorem ApprovedBy.approve (h : ApprovedBy shipmentId shipment db) (env : Env)
    (approverAddress : String) :
    ApprovedBy shipmentId shipment (after (approve env shipmentId approverAddress) db) := by
  obtain hsame | ⟨found, hfound, hparticipant, hnew, hafter⟩ :=
    after_approve_cases env db shipmentId approverAddress
  · rw [hsame]
    exact h
  · cases h.found.symm.trans hfound
    rw [hafter]
    refine ⟨h.found, ?_, ?_⟩
    · rw [approversOf_append, ← List.concat_eq_append]
      exact h.unique.concat fun hmem => hnew ((mem_approversOf_iff db _ _).mp hmem)
    · rw [approversOf_append]
      exact List.forall_mem_append.mpr ⟨h.participants, List.forall_mem_singleton.mpr hparticipant⟩

theorem ApprovedBy.approveAll (h : ApprovedBy shipmentId shipment db)
    (calls : List (Env × String)) :
    ApprovedBy shipmentId shipment (approveAll shipmentId calls db) :=
  List.foldlRecOn calls _ h fun _ hdb call _ => hdb.approve call.1 call.2

theorem ApprovedBy.length_le (h : ApprovedBy shipmentId shipment db) :
    (approversOf db shipmentId).length ≤ shipment.participants.dedup.length :=
  (List.subperm_of_subset h.unique fun address haddress =>
    List.mem_dedup.mpr (h.participants address haddress)).length_le

theorem quorumMet_iff (hfound : db.shipments.find? shipmentId = some shipment) :
    QuorumMet db shipmentId ↔
      ∀ required ∈ shipment.requiredApprovals, required ≤ (approversOf db shipmentId).length := by
  unfold QuorumMet approversOf
  rw [hfound, Option.bind_some, List.length_map]
  rfl

/-- A participant who has not approved yet can. -/
theorem after_approve (now : Nat) {address : String}
    (hfound : db.shipments.find? shipmentId = some shipment)
    (hrequired : shipment.requiredApprovals ≠ none) (hparticipant : address ∈ shipment.participants)
    (hnew : address ∉ approversOf db shipmentId) :
    after (approve (.calm now) shipmentId address) db =
      { db with approvals := db.approvals ++ [⟨shipmentId, address⟩] } := by
  rw [mem_approversOf_iff] at hnew
  unfold approve after
  have hreads (call : DbCall) : (Env.calm now).fails call = false := rfl
  simp only [exec_bind, exec_shipmentFindUnique, hreads, hfound, hparticipant, not_true_eq_false,
    hrequired, exec_prismaCall, exec_get, hnew, if_false, Bool.false_eq_true]
  rfl

/-- One after the other. -/
theorem approversOf_approveAll (now : Nat) {addresses : List String}
    (h : ApprovedBy shipmentId shipment db) (hrequired : shipment.requiredApprovals ≠ none)
    (hnodup : (approversOf db shipmentId ++ addresses).Nodup)
    (hparticipants : ∀ address ∈ addresses, address ∈ shipment.participants) :
    approversOf (approveAll shipmentId (addresses.map fun address => (.calm now, address)) db)
      shipmentId = approversOf db shipmentId ++ addresses := by
  induction addresses generalizing db with
  | nil => exact (List.append_nil _).symm
  | cons address rest ih =>
      obtain ⟨hparticipant, hrest⟩ := List.forall_mem_cons.mp hparticipants
      have hnew : address ∉ approversOf db shipmentId := fun hmem =>
        (List.disjoint_of_nodup_append hnodup) hmem (.head _)
      have hafter := after_approve now h.found hrequired hparticipant hnew
      have hnext := approversOf_append db shipmentId address
      rw [← hafter] at hnext
      have hall := ih (h.approve (.calm now) address)
        (by rw [hnext, List.append_assoc]; exact hnodup) hrest
      rw [hnext, List.append_assoc] at hall
      exact hall

end Approvals

section Created

variable {services : Services} {env : Env} {db created : Db} {dto : CreateShipmentDto}

/-- A shipment starts with nobody's approval. -/
theorem approvedBy_created (howned : db.ApprovalsOwned)
    (h : exec (ShipmentsService.create services env dto) db = (.ok (), created)) :
    ∃ shipment, ApprovedBy dto.shipmentId shipment created ∧
      approversOf created dto.shipmentId = [] ∧
      shipment.participants = dto.participants db ∧
      shipment.requiredApprovals = dto.requiredApprovals.map Int.toNat ∧
      ∀ requested ∈ dto.requiredApprovals, 1 ≤ requested := by
  obtain ⟨new, milestones, hrequested, hfree, rfl⟩ := requested_of_create services env db dto h
  have hid : new.row.id = dto.shipmentId := hrequested.id
  have hfound : (db.withShipment new milestones).shipments.find? dto.shipmentId = some new.row := by
    refine (Table.find?_insert db.shipments new.row dto.shipmentId).trans ?_
    rw [if_pos hid.symm, ← hrequested.id, hfree]
    rfl
  have hnone : approversOf (db.withShipment new milestones) dto.shipmentId = [] := by
    refine List.eq_nil_iff_forall_not_mem.mpr fun address haddress => ?_
    have howner := howned _ ((mem_approversOf_iff _ _ _).mp haddress)
    rw [← hrequested.id, hfree] at howner
    cases howner
  refine ⟨new.row, ⟨hfound, ?_, ?_⟩, hnone, hrequested.participants, hrequested.count,
    hrequested.positive⟩
  · rw [hnone]
    exact List.nodup_nil
  · rw [hnone]
    exact List.forall_mem_nil _

/-- No approvals meet a quorum above the number of different participants. -/
theorem not_succeeds_quorum (howned : db.ApprovalsOwned)
    (h : exec (ShipmentsService.create services env dto) db = (.ok (), created))
    {requested : Int} (hrequested : requested ∈ dto.requiredApprovals)
    (hmany : ((dto.participants db).dedup.length : Int) < requested)
    (calls : List (Env × String)) (check : Env) :
    ¬ Succeeds (assertQuorum check dto.shipmentId) (approveAll dto.shipmentId calls created) := by
  obtain ⟨shipment, happroved, -, hparticipants, hcount, -⟩ := approvedBy_created howned h
  have hafter := happroved.approveAll calls
  rintro ⟨value, hvalue⟩
  have hsame : after (assertQuorum check dto.shipmentId)
      (approveAll dto.shipmentId calls created) = approveAll dto.shipmentId calls created :=
    after_assertQuorum ..
  have hmet := (quorum_of_assertQuorum check _ dto.shipmentId (Prod.ext hvalue hsame)).2
  rw [quorumMet_iff hafter.found, hcount] at hmet
  have hle := hmet requested.toNat (Option.mem_map_of_mem Int.toNat hrequested)
  have hbound := hafter.length_le
  rw [hparticipants] at hbound
  omega

/-- Some participants can approve a new shipment until its quorum is met, exactly when the
count that was asked for is at most the number of different participants. -/
theorem quorum_reachable_iff (howned : db.ApprovalsOwned)
    (h : exec (ShipmentsService.create services env dto) db = (.ok (), created)) :
    (∃ calls check, (∀ call ∈ calls, call.2 ∈ dto.participants db) ∧
        Succeeds (assertQuorum check dto.shipmentId) (approveAll dto.shipmentId calls created)) ↔
      ∀ requested ∈ dto.requiredApprovals,
        requested ≤ ((dto.participants db).dedup.length : Int) := by
  constructor
  · rintro ⟨calls, check, -, hsucceeds⟩ requested hrequested
    by_contra hmany
    exact not_succeeds_quorum howned h hrequested (not_le.mp hmany) calls check hsucceeds
  · intro hfew
    obtain ⟨shipment, happroved, hnone, hparticipants, hcount, -⟩ := approvedBy_created howned h
    let calls := (dto.participants db).dedup.map fun address => (Env.calm 0, address)
    have hcalls : ∀ call ∈ calls, call.2 ∈ dto.participants db := by
      intro call hcall
      obtain ⟨address, haddress, rfl⟩ := List.mem_map.mp hcall
      exact List.mem_dedup.mp haddress
    have hmet : QuorumMet (approveAll dto.shipmentId calls created) dto.shipmentId := by
      rw [quorumMet_iff (happroved.approveAll calls).found]
      intro required hrequired
      have hsome : shipment.requiredApprovals ≠ none := by
        rw [Option.mem_def.mp hrequired]
        exact nofun
      rw [approversOf_approveAll 0 happroved hsome (by rw [hnone]; exact List.nodup_dedup _)
        fun address haddress => hparticipants ▸ List.mem_dedup.mp haddress]
      rw [hcount] at hrequired
      obtain ⟨requested, hrequested, rfl⟩ := Option.mem_map.mp hrequired
      have hle := hfew requested hrequested
      rw [hnone, List.nil_append]
      omega
    exact ⟨calls, .calm 0, hcalls, (), congrArg Prod.fst (exec_assertQuorum_of_met _ _ _ rfl hmet)⟩

/-- Approvals may be asked for from an amount of 500 on. -/
def multisigServices : Services := { openServices with multisigThreshold := 500 }

/-- A shipment of four parties, and a count. -/
def countedRequest (count : Int) : CreateShipmentDto :=
  { requestFor "SHIP-2" with requiredApprovals := some count }

theorem four_of_four :
    ∃ created, exec (ShipmentsService.create multisigServices (.calm 20) (countedRequest 4))
        registeredDb.hot = (.ok (), created) ∧
      ∃ calls check, (∀ call ∈ calls, call.2 ∈ (countedRequest 4).participants registeredDb.hot) ∧
        Succeeds (assertQuorum check "SHIP-2") (approveAll "SHIP-2" calls created) := by
  have hcreated : ∃ created, exec (ShipmentsService.create multisigServices (.calm 20)
      (countedRequest 4)) registeredDb.hot = (.ok (), created) := ⟨_, rfl⟩
  obtain ⟨created, hcreated⟩ := hcreated
  refine ⟨created, hcreated, (quorum_reachable_iff (by decide) hcreated).mpr fun requested h => ?_⟩
  cases h
  decide

/-- Five approvals are asked for and accepted. -/
theorem five_of_four :
    ∃ created, exec (ShipmentsService.create multisigServices (.calm 20) (countedRequest 5))
        registeredDb.hot = (.ok (), created) ∧
      ¬ ∃ calls check, Succeeds (assertQuorum check "SHIP-2")
        (approveAll "SHIP-2" calls created) := by
  have hcreated : ∃ created, exec (ShipmentsService.create multisigServices (.calm 20)
      (countedRequest 5)) registeredDb.hot = (.ok (), created) := ⟨_, rfl⟩
  obtain ⟨created, hcreated⟩ := hcreated
  refine ⟨created, hcreated, ?_⟩
  rintro ⟨calls, check, hsucceeds⟩
  exact not_succeeds_quorum (by decide) hcreated rfl (by decide) calls check hsucceeds

end Created

end ChainSettle
