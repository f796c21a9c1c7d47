import ChainSettle.Concurrency.Plan
import ChainSettle.Concurrency.ProofPointer
import ChainSettle.Semantics.Settlements

/-!
Is a settlement proposal answered once, by the right party, and is the arbiter
told about an agreement exactly once? The answer is a compare-and-set on the
proposal, and only the request whose update found it pending goes on to notify.
Who may answer is decided on an earlier read, of columns that do not change.

`SettlementRan` says everything a statement can do. `Settled` is the invariant of
one milestone's proposals: what a request in flight has read still holds, and the
notifications sent and about to be sent are one for each accepted proposal.
-/

namespace ChainSettle

open Lib Lib.Eff

/-- A statement that writes nothing takes a request to its next suspension. -/
inductive SettlementReads (db : Db) : SettlementCall → SettlementCall → Prop where
  | createContext (shipmentId : String) (index : Option Int) (address : String)
      (dto : ProposalDto) {milestone : Milestone} {shipment : Shipment}
      (hmilestone : db.rowAt shipmentId index = some milestone)
      (hshipment : db.shipments.find? shipmentId = some shipment)
      (hdisputed : milestone.status = .disputed)
      (hparty : address = shipment.buyerAddress ∨ address = shipment.supplierAddress) :
      SettlementReads db (.createContext shipmentId index address dto)
        (.createPending milestone address dto)
  | createPending (milestone : Milestone) (address : String) (dto : ProposalDto) :
      SettlementReads db (.createPending milestone address dto)
        (.createInsert milestone address dto)
  | respondContext (shipmentId : String) (index : Option Int) (id action address : String)
      (response : Response) {milestone : Milestone} {shipment : Shipment}
      (hmilestone : db.rowAt shipmentId index = some milestone)
      (hshipment : db.shipments.find? shipmentId = some shipment)
      (hdisputed : milestone.status = .disputed) :
      SettlementReads db (.respondContext shipmentId index id action address)
        (.respondFind milestone shipment id response address)
  | respondFind (milestone : Milestone) (shipment : Shipment) (id : String) (response : Response)
      (address : String) {proposal : SettlementProposal}
      (hproposal : db.settlementProposals.find? id = some proposal)
      (hmilestone : proposal.milestoneId = milestone.id) (hpending : proposal.isPending = true)
      (hproposer : response = .withdraw → address = proposal.proposedBy)
      (hcounterparty : response ≠ .withdraw → address = counterparty shipment proposal) :
      SettlementReads db (.respondFind milestone shipment id response address)
        (.respondUpdate milestone shipment proposal response address)

/-- The proposal about which the arbiter is told next. -/
def SettlementCall.tells : SettlementCall → Option String
  | .respondNotify notice => some notice.proposalId
  | _ => none

/-- What follows an answer that went through. -/
def afterResponse (milestone : Milestone) (shipment : Shipment) (proposal : SettlementProposal) :
    Response → Option SettlementCall
  | .accept => some (.respondNotify (agreement milestone shipment proposal))
  | .reject | .withdraw => none

/-- How a statement can end, and the database after it. -/
inductive SettlementRan (env : Env) (db : Db) :
    SettlementCall → Except Exn (Option SettlementCall) → Db → Prop where
  | failed (call : SettlementCall) (err : Exn) (h : call.tells = none) :
      SettlementRan env db call (.error err) db
  | read {call next : SettlementCall} (h : SettlementReads db call next) :
      SettlementRan env db call (.ok (some next)) db
  | created (milestone : Milestone) (address : String) (dto : ProposalDto)
      {proposals : Register SettlementProposal.id SettlementProposal.milestoneId
        SettlementProposal.isPending}
      (hinsert : db.settlementProposals.insert? ⟨dto.id, milestone.id, address,
        dto.supplierPercent, dto.message, .pending, none⟩ = some proposals) :
      SettlementRan env db (.createInsert milestone address dto) (.ok none)
        { db with settlementProposals := proposals }
  | responded (milestone : Milestone) (shipment : Shipment) (proposal : SettlementProposal)
      (response : Response) (address : String) {found : SettlementProposal}
      (hfound : db.settlementProposals.find? proposal.id = some found)
      (hpending : found.isPending = true) {rest : Option SettlementCall}
      (hrest : rest = afterResponse milestone shipment proposal response) :
      SettlementRan env db (.respondUpdate milestone shipment proposal response address)
        (.ok rest) (db.respond proposal.id response env.now)
  | notified (notice : Agreement) : SettlementRan env db (.respondNotify notice) (.ok none) db

section Statements

variable (env : Env) (db : Db)

theorem settlementRan_of_readOnly {call : SettlementCall}
    (h : ReadOnly (call.statement env) db
      fun rest => ∃ next, rest = some next ∧ SettlementReads db call next)
    (htells : call.tells = none) :
    SettlementRan env db call (exec (call.statement env) db).1 (exec (call.statement env) db).2 := by
  rcases h with ⟨err, herr⟩ | ⟨rest, hrest, next, rfl, hreads⟩
  · rw [herr]
    exact .failed call err htells
  · rw [hrest]
    exact .read hreads

theorem readOnly_settlementContext (shipmentId : String) (index : Option Int) :
    ReadOnly (settlementContext env shipmentId index) db fun found =>
      db.rowAt shipmentId index = some found.1 ∧ db.shipments.find? shipmentId = some found.2 ∧
        found.1.status = .disputed := by
  unfold settlementContext
  refine readOnly_bind (readOnly_milestoneFindUnique env db shipmentId index) fun found hfound => ?_
  cases found with
  | none => exact readOnly_throw _ _ _
  | some milestone =>
      refine readOnly_bind (readOnly_get db) fun _ hdb => ?_
      subst hdb
      dsimp only
      split
      · exact readOnly_throw _ _ _
      · rename_i shipment hshipment
        exact readOnly_guard fun hdisputed =>
          readOnly_pure ⟨hfound.symm, hshipment, not_not.mp hdisputed⟩

theorem settlementRan_createInsert (milestone : Milestone) (address : String)
    (dto : ProposalDto) :
    SettlementRan env db (.createInsert milestone address dto)
      (exec ((SettlementCall.createInsert milestone address dto).statement env) db).1
      (exec ((SettlementCall.createInsert milestone address dto).statement env) db).2 := by
  unfold SettlementCall.statement
  rw [exec_bind, exec_prismaCall]
  cases env.fails .proposalCreate with
  | true => exact .failed _ _ rfl
  | false =>
      simp only [Bool.false_eq_true, ↓reduceIte, exec_bind, exec_get]
      split
      · exact .failed _ _ rfl
      · rename_i proposals hinsert
        exact .created milestone address dto hinsert

/-- An update that comes too late leaves the proposals as they are. -/
theorem respond_of_answered {id : String} (response : Response) (at_ : Nat)
    (h : (db.settlementProposals.find? id).any SettlementProposal.isPending = false) :
    db.respond id response at_ = db := by
  unfold Db.respond
  rw [Register.close_of_closed _ _ _ h]

theorem settlementRan_respondUpdate (milestone : Milestone) (shipment : Shipment)
    (proposal : SettlementProposal) (response : Response) (address : String) :
    SettlementRan env db (.respondUpdate milestone shipment proposal response address)
      (exec ((SettlementCall.respondUpdate milestone shipment proposal response address).statement
        env) db).1
      (exec ((SettlementCall.respondUpdate milestone shipment proposal response address).statement
        env) db).2 := by
  unfold SettlementCall.statement
  rw [exec_bind, exec_prismaCall]
  cases env.fails .respondWrite with
  | true => exact .failed _ _ rfl
  | false =>
      simp only [Bool.false_eq_true, ↓reduceIte, exec_bind, exec_get, exec_modify]
      cases hpending : (db.settlementProposals.find? proposal.id).any
          SettlementProposal.isPending with
      | false =>
          rw [respond_of_answered db response env.now hpending]
          exact .failed _ _ rfl
      | true =>
          obtain ⟨found, hfound, hopen⟩ := (Option.any_eq_true _ _).mp hpending
          have hran (rest : Option SettlementCall)
              (hrest : rest = afterResponse milestone shipment proposal response) :
              SettlementRan env db (.respondUpdate milestone shipment proposal response address)
                (.ok rest) (db.respond proposal.id response env.now) :=
            .responded milestone shipment proposal response address hfound hopen hrest
          cases response with
          | accept => exact hran _ rfl
          | reject | withdraw => exact hran _ rfl

/-- Everything a statement can do. -/
theorem settlementRan (call : SettlementCall) :
    SettlementRan env db call (exec (call.statement env) db).1
      (exec (call.statement env) db).2 := by
  cases call with
  | createInsert milestone address dto => exact settlementRan_createInsert env db milestone address dto
  | respondUpdate milestone shipment proposal response address =>
      exact settlementRan_respondUpdate env db milestone shipment proposal response address
  | respondNotify notice => exact .notified notice
  | createContext shipmentId index address dto =>
      refine settlementRan_of_readOnly env db ?_ rfl
      refine readOnly_bind (readOnly_settlementContext env db shipmentId index)
        fun ⟨milestone, shipment⟩ ⟨hmilestone, hshipment, hdisputed⟩ => ?_
      refine readOnly_guard fun hparty => readOnly_pure ⟨_, rfl, ?_⟩
      refine .createContext shipmentId index address dto hmilestone hshipment hdisputed ?_
      simpa only [ne_eq, not_and_or, not_not] using hparty
  | createPending milestone address dto =>
      refine settlementRan_of_readOnly env db ?_ rfl
      refine readOnly_read env db _ fun _ => ?_
      exact readOnly_guard fun _ =>
        readOnly_pure ⟨_, rfl, .createPending milestone address dto⟩
  | respondContext shipmentId index id action address =>
      refine settlementRan_of_readOnly env db ?_ rfl
      simp only [SettlementCall.statement]
      cases Response.ofString action with
      | none => exact readOnly_throw _ _ _
      | some response =>
          refine readOnly_bind (readOnly_settlementContext env db shipmentId index)
            fun ⟨milestone, shipment⟩ ⟨hmilestone, hshipment, hdisputed⟩ => ?_
          exact readOnly_pure ⟨_, rfl, .respondContext shipmentId index id action address response
            hmilestone hshipment hdisputed⟩
  | respondFind milestone shipment id response address =>
      refine settlementRan_of_readOnly env db ?_ rfl
      refine readOnly_read env db _ fun _ => ?_
      split
      · exact readOnly_throw _ _ _
      · rename_i proposal hfound
        obtain ⟨hproposal, hfits⟩ := Option.filter_eq_some_iff.mp hfound
        refine readOnly_guard fun hproposer => readOnly_guard fun hcounterparty => ?_
        refine readOnly_pure ⟨_, rfl, .respondFind milestone shipment id response address hproposal
          (of_decide_eq_true hfits).1 (of_decide_eq_true hfits).2 ?_ ?_⟩
        · exact fun h => not_not.mp fun hne => hproposer ⟨h, hne⟩
        · exact fun h => not_not.mp fun hne => hcounterparty ⟨h, hne⟩

end Statements

section Proposals

variable {db : Db}

theorem find?_respond (id : String) (response : Response) (at_ : Nat) (other : String) :
    (db.respond id response at_).settlementProposals.find? other =
      if other = id then (db.settlementProposals.find? id).map
        (Register.answered SettlementProposal.isPending (SettlementProposal.respond response at_))
      else db.settlementProposals.find? other :=
  db.settlementProposals.find?_close id (SettlementProposal.respond_id response at_)
    (SettlementProposal.respond_isPending response at_) other

/-- Every proposal is still there with its proposer, and unchanged if it had been
answered. -/
def Db.KeepsProposals (db next : Db) : Prop :=
  ∀ id p, db.settlementProposals.find? id = some p →
    ∃ q, next.settlementProposals.find? id = some q ∧ q.milestoneId = p.milestoneId ∧
      q.proposedBy = p.proposedBy ∧ (p.isPending = false → q = p)

theorem keepsProposals_ran {env : Env} {next : Db} {call : SettlementCall}
    {outcome : Except Exn (Option SettlementCall)} (h : SettlementRan env db call outcome next) :
    db.KeepsProposals next := by
  intro id p hp
  cases h with
  | failed | read | notified => exact ⟨p, hp, rfl, rfl, fun _ => rfl⟩
  | created milestone address dto hinsert =>
      refine ⟨p, ?_, rfl, rfl, fun _ => rfl⟩
      rw [Register.find?_insert? hinsert, hp]
      rfl
  | responded milestone shipment proposal response address hfound hpending hrest =>
      rw [find?_respond]
      by_cases hid : id = proposal.id
      · subst hid
        rw [if_pos rfl, hp]
        refine ⟨_, rfl, ?_, ?_, fun hclosed => Register.answered_closed hclosed⟩
        all_goals
          unfold Register.answered
          split <;> rfl
      · rw [if_neg hid]
        exact ⟨p, hp, rfl, rfl, fun _ => rfl⟩

end Proposals

/-- Who has answered a proposal between the parties of a shipment: nobody while it
is pending, then one of them, and not the proposer unless he has withdrawn it. -/
structure Answered (shipment : Shipment) (responses : List Responded) (p : SettlementProposal) :
    Prop where
  proposer : p.proposedBy = shipment.buyerAddress ∨ p.proposedBy = shipment.supplierAddress
  once : (responses.filter fun r => r.proposalId = p.id).map (fun r => r.response.status) =
    if p.isPending then [] else [p.status]
  by_counterparty : ∀ r ∈ responses, r.proposalId = p.id → r.response ≠ .withdraw →
    (r.address = shipment.buyerAddress ∨ r.address = shipment.supplierAddress) ∧
      r.address ≠ p.proposedBy
  by_proposer : ∀ r ∈ responses, r.proposalId = p.id → r.response = .withdraw →
    r.address = p.proposedBy

namespace Settlements

/-- A request in flight is about to tell the arbiter about this proposal. -/
def Telling (s : Settlements) (id : String) (slot : Nat) : Prop :=
  (s.pending slot).bind SettlementCall.tells = some id

/-- How often the arbiter has been told. -/
def told (s : Settlements) (id : String) : Nat :=
  (s.shared.agreements.filter fun a => a.proposalId = id).length

/-- Told once, or about to be told by one request. -/
def ToldOnce (s : Settlements) (id : String) : Prop :=
  s.told id = 1 ∧ (∀ slot, ¬ s.Telling id slot) ∨
    s.told id = 0 ∧ ∃ slot, s.Telling id slot ∧ ∀ other, other ≠ slot → ¬ s.Telling id other

/-- Not told, and nobody is about to. -/
def NotTold (s : Settlements) (id : String) : Prop :=
  s.told id = 0 ∧ ∀ slot, ¬ s.Telling id slot

/-- The arbiter of the shipment is told about an agreement, and about nothing
else. -/
structure Told (s : Settlements) (shipment : Shipment) (p : SettlementProposal) : Prop where
  addressed : ∀ a ∈ s.shared.agreements, a.proposalId = p.id →
    a.arbiterAddress = shipment.arbiterAddress
  accepted : p.status = .accepted → s.ToldOnce p.id
  otherwise : p.status ≠ .accepted → s.NotTold p.id

end Settlements

/-- What a request in flight has read about a milestone and its shipment. -/
def SettlementCall.Informed (milestoneId : String) (shipment : Shipment) (db : Db) :
    SettlementCall → Prop
  | .createContext _ _ _ _ | .respondContext _ _ _ _ _ => True
  | .createPending milestone address _ | .createInsert milestone address _ =>
      milestone.id = milestoneId →
        address = shipment.buyerAddress ∨ address = shipment.supplierAddress
  | .respondFind milestone read _ _ _ => milestone.id = milestoneId → read = shipment
  | .respondUpdate _ read proposal response address =>
      (∃ p, db.settlementProposals.find? proposal.id = some p ∧
        p.milestoneId = proposal.milestoneId ∧ p.proposedBy = proposal.proposedBy) ∧
      (response = .withdraw → address = proposal.proposedBy) ∧
      (proposal.milestoneId = milestoneId →
        read = shipment ∧ (response ≠ .withdraw → address = counterparty shipment proposal))
  | .respondNotify notice =>
      ∃ p, db.settlementProposals.find? notice.proposalId = some p ∧
        (p.milestoneId = milestoneId → notice.arbiterAddress = shipment.arbiterAddress)

/-- The milestone with this id is one of the shipment. -/
def Db.Belongs (db : Db) (milestoneId : String) (shipment : Shipment) : Prop :=
  ∀ row ∈ db.milestones.rows, row.id = milestoneId →
    db.shipments.find? row.shipmentId = some shipment

section Informed

variable {milestoneId : String} {shipment : Shipment} {db next : Db}

theorem SettlementCall.Informed.kept {call : SettlementCall} (hkeeps : db.KeepsProposals next)
    (h : call.Informed milestoneId shipment db) : call.Informed milestoneId shipment next := by
  cases call with
  | createContext | respondContext => trivial
  | createPending | createInsert | respondFind => exact h
  | respondUpdate milestone read proposal response address =>
      obtain ⟨⟨p, hp, hmilestone, hproposer⟩, hrest⟩ := h
      obtain ⟨q, hq, hmilestone', hproposer', _⟩ := hkeeps _ p hp
      exact ⟨⟨q, hq, hmilestone'.trans hmilestone, hproposer'.trans hproposer⟩, hrest⟩
  | respondNotify notice =>
      obtain ⟨p, hp, haddress⟩ := h
      obtain ⟨q, hq, hmilestone, _, _⟩ := hkeeps _ p hp
      exact ⟨q, hq, fun hid => haddress (hmilestone ▸ hid)⟩

/-- The context query reads the shipment the milestone belongs to. -/
theorem Db.Belongs.read (h : db.Belongs milestoneId shipment) {shipmentId : String}
    {index : Option Int} {milestone : Milestone} {read : Shipment}
    (hmilestone : db.rowAt shipmentId index = some milestone)
    (hread : db.shipments.find? shipmentId = some read) (hid : milestone.id = milestoneId) :
    read = shipment := by
  obtain ⟨i, _, hfind⟩ := Option.bind_eq_some_iff.mp hmilestone
  have hkey : milestone.key = (shipmentId, i) := Table.key_of_find? hfind
  have hshipment : milestone.shipmentId = shipmentId := congrArg Prod.fst hkey
  have hmine := h milestone (Table.mem_of_find? hfind) hid
  rw [hshipment, hread] at hmine
  exact Option.some.inj hmine

theorem informed_reads {call rest : SettlementCall} (hreads : SettlementReads db call rest)
    (hbelongs : db.Belongs milestoneId shipment) (h : call.Informed milestoneId shipment db) :
    rest.Informed milestoneId shipment db := by
  cases hreads with
  | createContext shipmentId index address dto hmilestone hshipment _ hparty =>
      intro hid
      rw [← hbelongs.read hmilestone hshipment hid]
      exact hparty
  | createPending milestone address dto => exact h
  | respondContext shipmentId index id action address response hmilestone hshipment _ =>
      exact fun hid => hbelongs.read hmilestone hshipment hid
  | respondFind milestone read id response address hproposal hmilestone _ hproposer hcounterparty =>
      have hid := Table.key_of_find? hproposal
      refine ⟨⟨_, hid ▸ hproposal, rfl, rfl⟩, hproposer, fun hmine => ?_⟩
      obtain rfl : read = shipment := h (hmilestone ▸ hmine)
      exact ⟨rfl, hcounterparty⟩

end Informed

section Answers

variable {shipment : Shipment} {responses : List Responded} {p : SettlementProposal}

/-- Nobody has answered a new proposal. -/
theorem answered_new (hpending : p.isPending = true)
    (hproposer : p.proposedBy = shipment.buyerAddress ∨ p.proposedBy = shipment.supplierAddress)
    (hnone : ∀ r ∈ responses, r.proposalId ≠ p.id) : Answered shipment responses p where
  proposer := hproposer
  once := by
    have hfilter : (responses.filter fun r => r.proposalId = p.id) = [] := by
      simpa [List.filter_eq_nil_iff] using hnone
    rw [hfilter, hpending]
    rfl
  by_counterparty r hr hid := absurd hid (hnone r hr)
  by_proposer r hr hid := absurd hid (hnone r hr)

/-- An answer to another proposal does not count. -/
theorem Answered.other (h : Answered shipment responses p) {r : Responded}
    (hother : r.proposalId ≠ p.id) : Answered shipment (responses ++ [r]) p where
  proposer := h.proposer
  once := by
    rw [List.filter_append, List.filter_cons_of_neg (by simpa using hother), List.filter_nil,
      List.append_nil]
    exact h.once
  by_counterparty r' hr' hid := by
    rcases List.mem_append.mp hr' with hold | hnew
    · exact h.by_counterparty r' hold hid
    · exact absurd (List.mem_singleton.mp hnew ▸ hid) hother
  by_proposer r' hr' hid := by
    rcases List.mem_append.mp hr' with hold | hnew
    · exact h.by_proposer r' hold hid
    · exact absurd (List.mem_singleton.mp hnew ▸ hid) hother

/-- The counterparty is the other party. -/
theorem counterparty_ne (hparties : shipment.buyerAddress ≠ shipment.supplierAddress)
    {proposal : SettlementProposal} (hproposer : proposal.proposedBy = shipment.buyerAddress ∨
      proposal.proposedBy = shipment.supplierAddress) :
    (counterparty shipment proposal = shipment.buyerAddress ∨
      counterparty shipment proposal = shipment.supplierAddress) ∧
      counterparty shipment proposal ≠ proposal.proposedBy := by
  unfold counterparty
  rcases hproposer with hbuyer | hsupplier
  · rw [if_pos hbuyer, hbuyer]
    exact ⟨.inr rfl, hparties.symm⟩
  · rw [hsupplier, if_neg hparties.symm]
    exact ⟨.inl rfl, hparties⟩

/-- The first answer to a proposal. -/
theorem Answered.responded (h : Answered shipment responses p) (hpending : p.isPending = true)
    (response : Response) (at_ : Nat) {address : String}
    (hcounterparty : response ≠ .withdraw →
      (address = shipment.buyerAddress ∨ address = shipment.supplierAddress) ∧
        address ≠ p.proposedBy)
    (hproposer : response = .withdraw → address = p.proposedBy) :
    Answered shipment (responses ++ [⟨p.id, response, address⟩]) (p.respond response at_) := by
  have hnone := h.once
  rw [hpending, if_pos rfl, List.map_eq_nil_iff] at hnone
  have hnew (r : Responded) (hr : r ∈ responses ++ [⟨p.id, response, address⟩])
      (hid : r.proposalId = p.id) : r = ⟨p.id, response, address⟩ := by
    rcases List.mem_append.mp hr with hold | hlast
    · exact absurd hid (by simpa using List.filter_eq_nil_iff.mp hnone r hold)
    · exact List.mem_singleton.mp hlast
  refine ⟨h.proposer, ?_, fun r hr hid hresponse => ?_, fun r hr hid hresponse => ?_⟩
  · rw [SettlementProposal.respond_isPending, List.filter_append]
    change ((responses.filter fun r => r.proposalId = p.id) ++ _).map _ = _
    rw [hnone]
    simp [SettlementProposal.respond]
  · obtain rfl := hnew r hr hid
    exact hcounterparty hresponse
  · obtain rfl := hnew r hr hid
    exact hproposer hresponse

end Answers

namespace Settlements

section Telling

variable {s t : Settlements} {slot : Nat} {rest : Option SettlementCall} {id : String}

theorem telling_update (hpending : t.pending = Function.update s.pending slot rest) (other : Nat) :
    t.Telling id other ↔
      if other = slot then rest.bind SettlementCall.tells = some id else s.Telling id other := by
  unfold Telling
  rw [hpending, Function.update_apply]
  split <;> exact Iff.rfl

/-- The request that moved was not about to tell about this proposal, and is not
now. -/
theorem telling_quiet (hpending : t.pending = Function.update s.pending slot rest)
    (hbefore : ¬ s.Telling id slot) (hafter : rest.bind SettlementCall.tells ≠ some id)
    (other : Nat) : t.Telling id other ↔ s.Telling id other := by
  rw [telling_update hpending]
  split
  · rename_i hslot
    subst hslot
    exact ⟨fun h => absurd h hafter, fun h => absurd h hbefore⟩
  · exact Iff.rfl

/-- What is told about a proposal depends on who is about to tell and on the
notifications about it. -/
theorem Told.same {shipment : Shipment} {p : SettlementProposal} (h : s.Told shipment p)
    (htelling : ∀ other, t.Telling p.id other ↔ s.Telling p.id other)
    (hagreements : (t.shared.agreements.filter fun a => a.proposalId = p.id) =
      s.shared.agreements.filter fun a => a.proposalId = p.id) : t.Told shipment p := by
  have htold : t.told p.id = s.told p.id := congrArg List.length hagreements
  refine ⟨fun a ha hid => ?_, fun hstatus => ?_, fun hstatus => ?_⟩
  · have hmem : a ∈ t.shared.agreements.filter fun a => a.proposalId = p.id :=
      List.mem_filter.mpr ⟨ha, decide_eq_true hid⟩
    rw [hagreements] at hmem
    exact h.addressed a (List.mem_filter.mp hmem).1 hid
  · simpa only [ToldOnce, htold, htelling] using h.accepted hstatus
  · simpa only [NotTold, htold, htelling] using h.otherwise hstatus

/-- Nobody has been told about a new proposal. -/
theorem told_new {shipment : Shipment} {p : SettlementProposal} (hpending : p.isPending = true)
    (hunknown : ∀ a ∈ t.shared.agreements, a.proposalId ≠ p.id)
    (hnobody : ∀ other, ¬ t.Telling p.id other) : t.Told shipment p := by
  have hstatus : p.status = .pending := of_decide_eq_true hpending
  refine ⟨fun a ha hid => absurd hid (hunknown a ha), fun haccepted => ?_, fun _ => ⟨?_, hnobody⟩⟩
  · rw [hstatus] at haccepted
    cases haccepted
  · simpa [Settlements.told, List.filter_eq_nil_iff] using hunknown

/-- The request whose answer went through is the only one to tell about it, and
only if it accepts. -/
theorem Told.responded {shipment read : Shipment} {milestone : Milestone}
    {found proposal : SettlementProposal} {response : Response} (h : s.Told shipment found)
    (hopen : found.isPending = true) (hid : found.id = proposal.id)
    (hagreements : t.shared.agreements = s.shared.agreements)
    (hpending : t.pending =
      Function.update s.pending slot (afterResponse milestone read proposal response)) (at_ : Nat) :
    t.Told shipment (found.respond response at_) := by
  have hstatus : found.status ≠ .accepted := by
    rw [of_decide_eq_true hopen]
    nofun
  obtain ⟨htold, hnobody⟩ := h.otherwise hstatus
  have htold' : t.told found.id = 0 := by
    rw [Settlements.told, hagreements]
    exact htold
  refine ⟨fun a ha => h.addressed a (hagreements ▸ ha),
    fun haccepted => .inr ⟨htold', slot, ?_, fun other hother => ?_⟩,
    fun hnot => ⟨htold', fun other => ?_⟩⟩
  · cases response with
    | accept =>
        rw [telling_update hpending, if_pos rfl]
        exact congrArg some hid.symm
    | reject | withdraw => cases haccepted
  · rw [telling_update hpending, if_neg hother]
    exact hnobody other
  · rw [telling_update hpending]
    cases response with
    | accept => exact absurd rfl hnot
    | reject | withdraw =>
        split
        · nofun
        · exact hnobody other

end Telling

/-- The proposals of one milestone, whose shipment is this one. -/
structure Settled (milestoneId : String) (shipment : Shipment) (s : Settlements) : Prop where
  belongs : s.shared.db.Belongs milestoneId shipment
  informed : ∀ slot call, s.pending slot = some call →
    call.Informed milestoneId shipment s.shared.db
  responses_known : ∀ r ∈ s.shared.responses,
    (s.shared.db.settlementProposals.find? r.proposalId).isSome
  agreements_known : ∀ a ∈ s.shared.agreements,
    (s.shared.db.settlementProposals.find? a.proposalId).isSome
  answered : ∀ id p, s.shared.db.settlementProposals.find? id = some p →
    p.milestoneId = milestoneId → Answered shipment s.shared.responses p
  told : ∀ id p, s.shared.db.settlementProposals.find? id = some p →
    p.milestoneId = milestoneId → s.Told shipment p

section Steps

variable {milestoneId : String} {shipment : Shipment} {s t : Settlements} {slot : Nat}

theorem telling_iff {id : String} :
    s.Telling id slot ↔ ∃ call, s.pending slot = some call ∧ call.tells = some id :=
  Option.bind_eq_some_iff

/-- A request tells only about proposals that exist. -/
theorem Settled.telling_known (h : s.Settled milestoneId shipment) {id : String}
    (htelling : s.Telling id slot) : (s.shared.db.settlementProposals.find? id).isSome := by
  obtain ⟨call, hcall, htells⟩ := telling_iff.mp htelling
  cases call with
  | respondNotify notice =>
      cases htells
      obtain ⟨p, hp, _⟩ := h.informed slot _ hcall
      exact Option.isSome_of_mem hp
  | _ => cases htells

theorem not_telling {call : SettlementCall} (hcall : s.pending slot = some call)
    (htells : call.tells = none) (id : String) : ¬ s.Telling id slot := by
  intro h
  obtain ⟨call', hcall', htells'⟩ := telling_iff.mp h
  obtain rfl := Option.some.inj (hcall.symm.trans hcall')
  rw [htells] at htells'
  cases htells'

theorem tells_of_reads {db : Db} {call rest : SettlementCall} (h : SettlementReads db call rest) :
    call.tells = none ∧ rest.tells = none := by
  cases h <;> exact ⟨rfl, rfl⟩

/-- A request moves and leaves the world as it is. -/
theorem Settled.moved (h : s.Settled milestoneId shipment) (hquiet : ∀ id, ¬ s.Telling id slot)
    {rest : Option SettlementCall} (hrest : rest.bind SettlementCall.tells = none)
    (hinformed : ∀ call, rest = some call → call.Informed milestoneId shipment s.shared.db) :
    Settled milestoneId shipment { s with pending := Function.update s.pending slot rest } := by
  refine ⟨h.belongs, fun other call hcall => ?_, h.responses_known, h.agreements_known,
    h.answered, fun id p hp hmine => ?_⟩
  · rcases pending_update hcall with ⟨_, hnew⟩ | ⟨_, hold⟩
    · exact hinformed call hnew
    · exact h.informed other call hold
  · refine (h.told id p hp hmine).same (fun other => ?_) rfl
    exact telling_quiet rfl (hquiet p.id) (by simp [hrest]) other

theorem Settled.begin {call : SettlementCall} (h : s.Settled milestoneId shipment)
    (hstarts : call.starts = true) (hfree : s.pending slot = none) :
    Settled milestoneId shipment
      { s with pending := Function.update s.pending slot (some call) } := by
  have hquiet (id : String) : ¬ s.Telling id slot := by
    unfold Telling
    rw [hfree]
    nofun
  refine h.moved hquiet ?_ fun call' hcall' => ?_
  · cases call with
    | respondNotify => cases hstarts
    | _ => rfl
  · obtain rfl := Option.some.inj hcall'
    cases call with
    | createContext | respondContext => trivial
    | _ => cases hstarts

/-- Meanwhile a milestone of the service moves. -/
theorem Settled.external (h : s.Settled milestoneId shipment) (move : MilestoneMove) :
    Settled milestoneId shipment
      { s with shared := settlements.external move s.shared } := by
  refine ⟨fun row hrow hid => ?_, h.informed, h.responses_known, h.agreements_known, h.answered,
    fun id p hp hmine => (h.told id p hp hmine).same (fun _ => Iff.rfl) rfl⟩
  obtain ⟨old, hold, rfl⟩ := List.mem_map.mp hrow
  dsimp only at hid ⊢
  split at hid
  · rename_i hkey
    rw [if_pos hkey]
    rw [MilestoneWrite.apply_id] at hid
    have hshipment : (move.write.apply old).shipmentId = old.shipmentId :=
      congrArg Prod.fst (move.write.apply_key old)
    rw [hshipment]
    exact h.belongs old hold hid
  · rename_i hkey
    rw [if_neg hkey]
    exact h.belongs old hold hid

/-- A statement neither moves a milestone nor a shipment. -/
theorem belongs_ran {env : Env} {db next : Db} {call : SettlementCall}
    {outcome : Except Exn (Option SettlementCall)} (hran : SettlementRan env db call outcome next)
    (h : db.Belongs milestoneId shipment) : next.Belongs milestoneId shipment := by
  cases hran with
  | failed | read | created | responded | notified => exact h

theorem informed_ran {env : Env} {db next : Db} {call rest : SettlementCall}
    (hran : SettlementRan env db call (.ok (some rest)) next)
    (hbelongs : db.Belongs milestoneId shipment) (h : call.Informed milestoneId shipment db) :
    rest.Informed milestoneId shipment next := by
  cases hran with
  | read hreads => exact informed_reads hreads hbelongs h
  | responded milestone read proposal response address hfound hpending hrest =>
      cases response with
      | accept =>
          cases hrest
          obtain ⟨⟨p, hp, hmilestone, hproposer⟩, _, hread⟩ := h
          obtain rfl := Option.some.inj (hfound.symm.trans hp)
          refine ⟨_, by rw [agreement, find?_respond, if_pos rfl, hp, Option.map_some], fun hid => ?_⟩
          rw [Register.answered_open hpending] at hid
          exact congrArg Shipment.arbiterAddress (hread (hmilestone ▸ hid)).1
      | reject | withdraw => cases hrest

/-- What does not depend on which statement ran. -/
theorem Settled.frame {env : Env} {call : SettlementCall} {rest : Option SettlementCall} {db : Db}
    (h : s.Settled milestoneId shipment) (hcall : s.pending slot = some call)
    (hran : SettlementRan env s.shared.db call (.ok rest) db) :
    db.Belongs milestoneId shipment ∧
      (∀ other call', Function.update s.pending slot rest other = some call' →
        call'.Informed milestoneId shipment db) := by
  refine ⟨belongs_ran hran h.belongs, fun other call' hcall' => ?_⟩
  rcases pending_update hcall' with ⟨_, rfl⟩ | ⟨_, hold⟩
  · exact informed_ran hran h.belongs (h.informed slot call hcall)
  · exact (h.informed other call' hold).kept (keepsProposals_ran hran)

theorem isSome_kept {db next : Db} (h : db.KeepsProposals next) {id : String}
    (hid : (db.settlementProposals.find? id).isSome) :
    (next.settlementProposals.find? id).isSome := by
  obtain ⟨p, hp⟩ := Option.isSome_iff_exists.mp hid
  obtain ⟨q, hq, _⟩ := h id p hp
  exact Option.isSome_of_mem hq

/-- A new proposal, about which nothing is known yet. -/
theorem Settled.created (env : Env) {milestone : Milestone} {address : String} {dto : ProposalDto}
    (h : s.Settled milestoneId shipment)
    (hcall : s.pending slot = some (.createInsert milestone address dto))
    {proposals : Register SettlementProposal.id SettlementProposal.milestoneId
      SettlementProposal.isPending}
    (hinsert : s.shared.db.settlementProposals.insert? ⟨dto.id, milestone.id, address,
      dto.supplierPercent, dto.message, .pending, none⟩ = some proposals) :
    Settled milestoneId shipment
      { shared := { s.shared with db := { s.shared.db with settlementProposals := proposals } }
        pending := Function.update s.pending slot none } := by
  have hran : SettlementRan env s.shared.db (.createInsert milestone address dto) (.ok none) _ :=
    .created milestone address dto hinsert
  obtain ⟨hbelongs, hinformed⟩ := h.frame hcall hran
  have hkeeps := keepsProposals_ran hran
  have hquiet := not_telling hcall rfl
  refine ⟨hbelongs, hinformed, fun r hr => isSome_kept hkeeps (h.responses_known r hr),
    fun a ha => isSome_kept hkeeps (h.agreements_known a ha), fun id p hp hmine => ?_,
    fun id p hp hmine => ?_⟩
  all_goals
    rw [Register.find?_insert? hinsert] at hp
    rcases Option.or_eq_some_iff.mp hp with hold | ⟨hnone, hnew⟩
  · exact h.answered id p hold hmine
  · split at hnew
    · rename_i hid
      subst hid
      cases hnew
      refine answered_new rfl (h.informed slot _ hcall hmine) fun r hr hid => ?_
      have hknown := h.responses_known r hr
      rw [hid, hnone] at hknown
      cases hknown
    · cases hnew
  · exact (h.told id p hold hmine).same (telling_quiet rfl (hquiet p.id) nofun) rfl
  · split at hnew
    · rename_i hid
      subst hid
      cases hnew
      have hunknown (a : Agreement) (ha : a ∈ s.shared.agreements) : a.proposalId ≠ dto.id := by
        intro hid
        have hknown := h.agreements_known a ha
        rw [hid, hnone] at hknown
        cases hknown
      refine told_new rfl hunknown fun other hother => ?_
      have hknown := h.telling_known
        ((telling_quiet (t := ⟨_, Function.update s.pending slot none⟩) rfl (hquiet dto.id) nofun
          other).mp hother)
      rw [hnone] at hknown
      cases hknown
    · cases hnew

/-- The answer that decides a proposal. -/
theorem Settled.responded (env : Env) {milestone : Milestone} {read : Shipment}
    {proposal : SettlementProposal} {response : Response} {address : String}
    (hparties : shipment.buyerAddress ≠ shipment.supplierAddress)
    (h : s.Settled milestoneId shipment)
    (hcall : s.pending slot = some (.respondUpdate milestone read proposal response address))
    {found : SettlementProposal}
    (hfound : s.shared.db.settlementProposals.find? proposal.id = some found)
    (hpending : found.isPending = true) :
    Settled milestoneId shipment
      { shared := ⟨s.shared.db.respond proposal.id response env.now, s.shared.agreements,
          s.shared.responses ++ [⟨proposal.id, response, address⟩]⟩
        pending := Function.update s.pending slot
          (afterResponse milestone read proposal response) } := by
  have hran : SettlementRan env s.shared.db _ (.ok (afterResponse milestone read proposal response)) _ :=
    .responded milestone read proposal response address hfound hpending rfl
  obtain ⟨hbelongs, hinformed⟩ := h.frame hcall hran
  have hkeeps := keepsProposals_ran hran
  have hquiet := not_telling hcall rfl
  have hid : found.id = proposal.id := Table.key_of_find? hfound
  refine ⟨hbelongs, hinformed, fun r hr => ?_,
    fun a ha => isSome_kept hkeeps (h.agreements_known a ha), fun id p hp hmine => ?_,
    fun id p hp hmine => ?_⟩
  · apply isSome_kept hkeeps
    rcases List.mem_append.mp hr with hold | hnew
    · exact h.responses_known r hold
    · rw [List.mem_singleton.mp hnew]
      exact Option.isSome_of_mem hfound
  all_goals
    have hkey : p.id = id := Table.key_of_find? hp
    rw [find?_respond] at hp
    by_cases hsame : id = proposal.id
  · rw [if_pos hsame, hfound, Option.map_some, Register.answered_open hpending] at hp
    cases hp
    obtain ⟨⟨q, hq, hmilestone, hproposer⟩, hwithdraws, hanswers⟩ := h.informed slot _ hcall
    obtain rfl := Option.some.inj (hfound.symm.trans hq)
    have hbefore := h.answered _ found hfound hmine
    rw [← hid]
    refine hbefore.responded hpending response env.now (fun hresponse => ?_) fun hresponse => ?_
    · rw [(hanswers (hmilestone ▸ hmine)).2 hresponse, hproposer]
      exact counterparty_ne hparties (hproposer ▸ hbefore.proposer)
    · rw [hwithdraws hresponse, hproposer]
  · rw [if_neg hsame] at hp
    exact (h.answered id p hp hmine).other fun heq => hsame (hkey.symm.trans heq.symm)
  · rw [if_pos hsame, hfound, Option.map_some, Register.answered_open hpending] at hp
    cases hp
    apply (h.told _ found hfound hmine).responded hpending hid
    · rfl
    · rfl
  · rw [if_neg hsame] at hp
    refine (h.told id p hp hmine).same (telling_quiet rfl (hquiet p.id) ?_) rfl
    cases response with
    | accept => exact fun heq => hsame (hkey.symm.trans (Option.some.inj heq).symm)
    | reject | withdraw => nofun

/-- The request whose answer went through tells the arbiter. -/
theorem Settled.notified (env : Env) {notice : Agreement} (h : s.Settled milestoneId shipment)
    (hcall : s.pending slot = some (.respondNotify notice)) :
    Settled milestoneId shipment
      { shared := { s.shared with agreements := s.shared.agreements ++ [notice] }
        pending := Function.update s.pending slot none } := by
  have hran : SettlementRan env s.shared.db (.respondNotify notice) (.ok none) _ := .notified notice
  obtain ⟨hbelongs, hinformed⟩ := h.frame hcall hran
  have htelling : s.Telling notice.proposalId slot := telling_iff.mpr ⟨_, hcall, rfl⟩
  refine ⟨hbelongs, hinformed, h.responses_known, fun a ha => ?_, h.answered,
    fun id p hp hmine => ?_⟩
  · rcases List.mem_append.mp ha with hold | hnew
    · exact h.agreements_known a hold
    · rw [List.mem_singleton.mp hnew]
      exact h.telling_known htelling
  · have hbefore := h.told id p hp hmine
    have hkey : p.id = id := Table.key_of_find? hp
    by_cases hsame : notice.proposalId = p.id
    · rw [hsame] at htelling
      have haccepted : p.status = .accepted := by
        by_contra hnot
        exact (hbefore.otherwise hnot).2 slot htelling
      obtain ⟨htold, honly⟩ : s.told p.id = 0 ∧ ∀ other, other ≠ slot → ¬ s.Telling p.id other := by
        rcases hbefore.accepted haccepted with ⟨_, hnobody⟩ | ⟨htold, teller, _, honly⟩
        · exact absurd htelling (hnobody slot)
        · obtain rfl : slot = teller := by
            by_contra hne
            exact honly slot hne htelling
          exact ⟨htold, honly⟩
      refine ⟨fun a ha hid => ?_, fun _ => .inl ⟨?_, fun other => ?_⟩, fun hnot => absurd haccepted hnot⟩
      · rcases List.mem_append.mp ha with hold | hnew
        · exact hbefore.addressed a hold hid
        · obtain ⟨q, hq, haddress⟩ := h.informed slot _ hcall
          rw [hsame, hkey, hp] at hq
          cases hq
          rw [List.mem_singleton.mp hnew]
          exact haddress hmine
      · unfold Settlements.told at htold ⊢
        rw [List.filter_append, List.length_append, htold]
        simp [hsame]
      · rw [telling_update rfl]
        split
        · nofun
        · rename_i hother
          exact honly other hother
    · refine hbefore.same (telling_quiet rfl (fun hmine' => hsame ?_) nofun) ?_
      · exact Option.some.inj (htelling.symm.trans hmine')
      · rw [List.filter_append, List.filter_cons_of_neg (by simpa using hsame), List.filter_nil,
          List.append_nil]

theorem Settled.resume (hparties : shipment.buyerAddress ≠ shipment.supplierAddress)
    (h : s.Settled milestoneId shipment) {call : SettlementCall}
    (hcall : s.pending slot = some call) (env : Env) :
    Settled milestoneId shipment
      { shared := (call.resume env s.shared).1
        pending := Function.update s.pending slot (call.resume env s.shared).2 } := by
  have hran := settlementRan env s.shared.db call
  unfold SettlementCall.resume
  generalize exec (call.statement env) s.shared.db = result at hran
  obtain ⟨outcome, db⟩ := result
  cases hran with
  | failed call err htells =>
      exact h.moved (not_telling hcall htells) rfl fun _ hnext => by cases hnext
  | @read call next hreads =>
      obtain ⟨hquiet, hrest⟩ := tells_of_reads hreads
      have hnotell : (some next).bind SettlementCall.tells = none := hrest
      have hinformed := informed_reads hreads h.belongs (h.informed slot call hcall)
      have hmoved := h.moved (not_telling hcall hquiet) hnotell fun _ hnext =>
        Option.some.inj hnext ▸ hinformed
      cases hreads <;> simpa only [SettlementCall.notifies, SettlementCall.responds,
        List.append_nil] using hmoved
  | created milestone address dto hinsert =>
      simpa only [SettlementCall.notifies, SettlementCall.responds, List.append_nil] using
        h.created env hcall hinsert
  | responded milestone read proposal response address hfound hpending hrest =>
      subst hrest
      simp only [SettlementCall.notifies, SettlementCall.responds, List.append_nil]
      exact h.responded env hparties hcall hfound hpending
  | notified notice =>
      simpa only [SettlementCall.notifies, SettlementCall.responds, List.append_nil] using
        h.notified env hcall

theorem Settled.step {a : SettlementStep}
    (hparties : shipment.buyerAddress ≠ shipment.supplierAddress)
    (hstep : settlements.step s a = some t) (h : s.Settled milestoneId shipment) :
    t.Settled milestoneId shipment := by
  obtain ⟨slot, call, rfl, hstarts, hfree, rfl⟩ | ⟨slot, env, call, rfl, hcall, rfl⟩ |
    ⟨move, rfl, rfl⟩ := settlements.step_cases hstep
  · exact h.begin hstarts hfree
  · exact h.resume hparties hcall env
  · exact h.external move

/-- A step leaves an answered proposal as it is. -/
theorem answered_step {a : SettlementStep} (hstep : settlements.step s a = some t)
    {p : SettlementProposal} (hclosed : p.isPending = false)
    (hp : s.shared.db.settlementProposals.find? p.id = some p) :
    t.shared.db.settlementProposals.find? p.id = some p := by
  obtain ⟨_, _, rfl, _, _, rfl⟩ | ⟨slot, env, call, rfl, _, rfl⟩ | ⟨move, rfl, rfl⟩ :=
    settlements.step_cases hstep
  · exact hp
  · have hran := settlementRan env s.shared.db call
    have hdb : (settlements.resume env s.shared call).1.db =
        (exec (call.statement env) s.shared.db).2 := by
      change (call.resume env s.shared).1.db = _
      unfold SettlementCall.resume
      split <;> simp [*]
    obtain ⟨q, hq, _, _, hsame⟩ := keepsProposals_ran hran p.id p hp
    rw [hdb, hq, hsame hclosed]
  · exact hp

end Steps

end Settlements

/-- The proposals of a milestone with a buyer and a supplier, from a database
without proposals of it, in any states `s` and later `t` of a run of requests. -/
theorem settlement_proposals {db : Db} (hids : (db.milestones.rows.map Milestone.id).Nodup)
    {m : Milestone} (hm : m ∈ db.milestones.rows) {shipment : Shipment}
    (hshipment : db.shipments.find? m.shipmentId = some shipment)
    (hparties : shipment.buyerAddress ≠ shipment.supplierAddress)
    (hnone : ∀ p ∈ db.settlementProposals.rows, p.milestoneId ≠ m.id) {s t : Settlements}
    (hrun : StepsAlong settlements.step (fun _ _ => True) (Settlements.idle db) s)
    (hlater : StepsAlong settlements.step (fun _ _ => True) s t) :
    (∀ p ∈ t.shared.db.settlementProposals.rows, ∀ q ∈ t.shared.db.settlementProposals.rows,
      p.milestoneId = m.id → q.milestoneId = m.id → p.isPending = true → q.isPending = true →
        p = q) ∧
    (∀ p ∈ s.shared.db.settlementProposals.rows, p.milestoneId = m.id → p.isPending = false →
      p ∈ t.shared.db.settlementProposals.rows) ∧
    ∀ p ∈ t.shared.db.settlementProposals.rows, p.milestoneId = m.id →
      Answered shipment t.shared.responses p ∧ t.Told shipment p := by
  have hstart : (Settlements.idle db).Settled m.id shipment := by
    have hnot (id : String) (p : SettlementProposal)
        (hp : db.settlementProposals.find? id = some p) : p.milestoneId ≠ m.id :=
      hnone p (Table.mem_of_find? hp)
    refine ⟨fun row hrow hid => ?_, fun _ _ hcall => (by cases hcall), fun _ hr => (by cases hr),
      fun _ ha => (by cases ha), fun id p hp hmine => absurd hmine (hnot id p hp),
      fun id p hp hmine => absurd hmine (hnot id p hp)⟩
    rw [List.inj_on_of_nodup_map hids hrow hm hid]
    exact hshipment
  have hstep (u : Settlements) (a : SettlementStep) (v : Settlements) (_ : True)
      (htaken : settlements.step u a = some v) (h : u.Settled m.id shipment) :
      v.Settled m.id shipment := h.step hparties htaken
  have hsettled := (hrun.trans hlater).invariant hstep hstart
  refine ⟨fun p hp q hq hmine hmine' hopen hopen' => ?_, fun p hp _ hclosed => ?_,
    fun p hp hmine => ?_⟩
  · exact Register.eq_of_open hp hq hopen hopen' (hmine.trans hmine'.symm)
  · have hkept (u : Settlements) (a : SettlementStep) (v : Settlements) (_ : True)
        (htaken : settlements.step u a = some v)
        (h : u.shared.db.settlementProposals.find? p.id = some p) :
        v.shared.db.settlementProposals.find? p.id = some p :=
      Settlements.answered_step htaken hclosed h
    exact Table.mem_of_find? (hlater.invariant hkept (Table.find?_of_mem hp))
  · have hfind : t.shared.db.settlementProposals.find? p.id = some p := Table.find?_of_mem hp
    exact ⟨hsettled.answered p.id p hfind hmine, hsettled.told p.id p hfind hmine⟩

def evenSplit (id : String) : ProposalDto := ⟨id, 50, none, by decide, by decide⟩

/-- The buyer proposes an even split in this slot. -/
def proposeEvenSplit (slot : Nat) (id : String) : List SettlementStep :=
  .begin slot (.createContext "SHIP-1" (some 0) "GBUYER" (evenSplit id)) ::
    List.replicate 3 (.resume slot (.calm 10))

/-- A party answers the proposal in this slot, up to the update. -/
def respondIn (slot : Nat) (action address : String) : List SettlementStep :=
  .begin slot (.respondContext "SHIP-1" (some 0) "set-1" action address) ::
    List.replicate 2 (.resume slot (.calm 20))

/-- The supplier accepts while the buyer withdraws. -/
def acceptedWhileWithdrawn : List SettlementStep :=
  respondIn 0 "accept" "GSUPPLIER" ++ respondIn 1 "withdraw" "GBUYER" ++
    [.resume 0 (.calm 21), .resume 1 (.calm 22), .resume 0 (.calm 23)]

theorem settlement_accepted_once :
    ∃ t : Settlements, ∃ p ∈ t.shared.db.settlementProposals.rows, ∃ shipment,
      p.status = .accepted ∧ t.shared.agreements.map Agreement.arbiterAddress = ["GARBITER"] ∧
        Answered shipment t.shared.responses p ∧ t.Told shipment p := by
  have hproposed : ((proposeEvenSplit 0 "set-1").foldlM settlements.step
      (Settlements.idle (Db.demo .disputed))).isSome := by rfl
  obtain ⟨s, hs⟩ := Option.isSome_iff_exists.mp hproposed
  have hends : ((proposeEvenSplit 0 "set-1" ++ acceptedWhileWithdrawn).foldlM settlements.step
      (Settlements.idle (Db.demo .disputed))).map (fun t =>
        (t.shared.db.settlementProposals.rows, t.shared.agreements.map Agreement.arbiterAddress)) =
      some ([⟨"set-1", "m-1", "GBUYER", 50, none, .accepted, some 21⟩], ["GARBITER"]) := by rfl
  rw [List.foldlM_append, hs, Option.bind_eq_bind, Option.bind_some] at hends
  obtain ⟨t, ht, hends⟩ := Option.map_eq_some_iff.mp hends
  obtain ⟨hrows, hnotices⟩ := Prod.mk.inj hends
  have hproposals := (settlement_proposals (by decide) (List.mem_singleton.mpr rfl) rfl (by decide)
    (fun p hp => by cases hp) (.of_foldlM (fun _ _ _ => trivial) hs)
    (.of_foldlM (fun _ _ _ => trivial) ht)).2.2
  refine ⟨t, ⟨"set-1", "m-1", "GBUYER", 50, none, .accepted, some 21⟩, ?_, _, rfl, hnotices,
    hproposals _ ?_ rfl⟩
  all_goals
    rw [hrows]
    exact List.mem_singleton.mpr rfl

end ChainSettle
