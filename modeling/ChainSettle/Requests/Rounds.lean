import ChainSettle.Requests.Settlements

/-!
Does an accepted settlement belong to the open dispute? A proposal refers to a
milestone and not to a dispute on it, and its status does not change when the
dispute is resolved. If the resolution sends the milestone back to `PENDING`, a
second dispute finds the proposal of the first one still pending.

Events and requests run one after the other. As history variables
`DisputeHistory` counts the resolutions of every milestone's dispute and notes
the count at which each proposal was created and accepted.
-/

namespace ChainSettle

open Lib Lib.Eff

/-- A request to its end: none has more than four statements. -/
def SettlementCall.finish (env : Env) (call : SettlementCall) (db : Db) : Db :=
  complete (SettlementCall.statement env) 4 call db

inductive DisputeOperation where
  | disputeRaised (env : Env) (payload : Json)
  | disputeResolved (env : Env) (payload : Json)
  | proofSubmitted (env : Env) (payload : Json)
  | submitProof (env : Env) (shipmentId : String) (milestoneIndex : Int) (callerAddress : String)
      (file : ProofFile)
  | create (env : Env) (shipmentId : String) (index : Option Int) (address : String)
      (dto : ProposalDto)
  | respond (env : Env) (shipmentId : String) (index : Option Int) (id action address : String)

namespace DisputeOperation

def run (db : Db) : DisputeOperation → Db
  | .disputeRaised env payload => after (handleDisputeRaised env payload) db
  | .disputeResolved env payload => after (handleDisputeResolved env payload) db
  | .proofSubmitted env payload => after (handleProofSubmitted env payload) db
  | .submitProof env shipmentId milestoneIndex callerAddress file =>
      after (ChainSettle.submitProof env shipmentId milestoneIndex callerAddress file) db
  | .create env shipmentId index address dto =>
      (SettlementCall.createContext shipmentId index address dto).finish env db
  | .respond env shipmentId index id action address =>
      (SettlementCall.respondContext shipmentId index id action address).finish env db

/-- The milestone whose dispute the operation resolves. -/
def resolved (db : Db) : DisputeOperation → Option String
  | .disputeResolved env payload =>
      if Resolves env db payload then (db.payloadRow payload).map Milestone.id else none
  | _ => none

end DisputeOperation

structure DisputeHistory where
  db : Db
  /-- how often the dispute on a milestone has been resolved -/
  resolutions : String → Nat
  /-- the count when a proposal was created -/
  createdIn : String → Nat
  /-- and when it was accepted -/
  acceptedIn : String → Nat

/-- The round of a proposal that has just appeared. -/
def noteRound (before after : Option SettlementProposal) (round : String → Nat) (noted : Nat) : Nat :=
  match before, after with
  | none, some p => round p.milestoneId
  | _, _ => noted

def SettlementProposal.isAccepted (p : SettlementProposal) : Bool := p.status = .accepted

namespace DisputeHistory

def start (db : Db) : DisputeHistory := ⟨db, fun _ => 0, fun _ => 0, fun _ => 0⟩

def advance (h : DisputeHistory) (next : Db) (resolved : Option String) : DisputeHistory where
  db := next
  resolutions id := if resolved = some id then h.resolutions id + 1 else h.resolutions id
  createdIn id := noteRound (h.db.settlementProposals.find? id) (next.settlementProposals.find? id)
    h.resolutions (h.createdIn id)
  acceptedIn id := noteRound
    ((h.db.settlementProposals.find? id).filter SettlementProposal.isAccepted)
    ((next.settlementProposals.find? id).filter SettlementProposal.isAccepted)
    h.resolutions (h.acceptedIn id)

def step (h : DisputeHistory) (op : DisputeOperation) : DisputeHistory :=
  h.advance (op.run h.db) (op.resolved h.db)

/-- Proposals were accepted in the round they were created in, and a pending
proposal on an open dispute belongs to it. -/
structure Current (h : DisputeHistory) : Prop where
  accepted : ∀ id p, h.db.settlementProposals.find? id = some p → p.status = .accepted →
    h.createdIn id = h.acceptedIn id
  pending : ∀ id p, h.db.settlementProposals.find? id = some p → p.status = .pending →
    ∀ m ∈ h.db.milestones.rows, m.id = p.milestoneId → m.status = .disputed →
      h.createdIn id = h.resolutions m.id

end DisputeHistory

/-- A dispute is raised on a milestone without a pending proposal of an earlier
round. -/
def DisputeOperation.FindsNoLeftover (h : DisputeHistory) : DisputeOperation → Prop
  | .disputeRaised env payload =>
      MarkedPayload env h.db (.disputed env.now) payload →
        ∀ m ∈ h.db.payloadRow payload, ∀ id p, h.db.settlementProposals.find? id = some p →
          p.status = .pending → p.milestoneId = m.id → h.createdIn id = h.resolutions m.id
  | _ => True

section Requests

/-- A milestone with an open dispute. -/
def Db.Disputes (db : Db) (m : Milestone) : Prop :=
  m ∈ db.milestones.rows ∧ m.status = .disputed

/-- A pending proposal on it. -/
def Db.Proposes (db : Db) (m : Milestone) (p : SettlementProposal) : Prop :=
  db.settlementProposals.find? p.id = some p ∧ p.isPending = true ∧ p.milestoneId = m.id

/-- What a request leaves behind: nothing, a new proposal or an answer to a pending
proposal on an open dispute. -/
inductive SettlementEnded (env : Env) (db : Db) : Db → Prop where
  | nothing : SettlementEnded env db db
  | created {p : SettlementProposal} (hpending : p.status = .pending)
      {proposals : Register SettlementProposal.id SettlementProposal.milestoneId
        SettlementProposal.isPending}
      (hinsert : db.settlementProposals.insert? p = some proposals) :
      SettlementEnded env db { db with settlementProposals := proposals }
  | answered {m : Milestone} (hm : db.Disputes m) {p : SettlementProposal} (hp : db.Proposes m p)
      (response : Response) {next : Db} (hnext : next = db.respond p.id response env.now) :
      SettlementEnded env db next

/-- How far a request has come that runs with nothing in between. -/
def SettlementCall.Reached (env : Env) (db next : Db) : SettlementCall → Prop
  | .createContext _ _ _ _ | .createPending _ _ _ | .createInsert _ _ _
  | .respondContext _ _ _ _ _ => next = db
  | .respondFind m _ _ _ _ => next = db ∧ db.Disputes m
  | .respondUpdate m _ p _ _ => next = db ∧ db.Disputes m ∧ db.Proposes m p
  | .respondNotify _ => SettlementEnded env db next

variable {env : Env} {db : Db}

theorem SettlementCall.Reached.ended {next : Db} {call : SettlementCall}
    (h : call.Reached env db next) : SettlementEnded env db next := by
  cases call with
  | respondNotify notice => exact h
  | createContext | createPending | createInsert | respondContext =>
      cases h
      exact .nothing
  | respondFind | respondUpdate =>
      cases h.1
      exact .nothing

theorem settlementRan_of_resume {next : Db} {call : SettlementCall} {rest : Option SettlementCall}
    (h : resume (call.statement env) db = (next, rest)) :
    SettlementRan env db call (.ok rest) next ∨
      ∃ err, SettlementRan env db call (.error err) next ∧ rest = none := by
  have hran := settlementRan env db call
  cases hexec : exec (call.statement env) db with
  | mk outcome after =>
      rw [hexec] at hran
      cases outcome with
      | ok value =>
          cases (resume_ok hexec).symm.trans h
          exact .inl hran
      | error err =>
          cases (resume_error hexec).symm.trans h
          exact .inr ⟨err, hran, rfl⟩

theorem disputes_of_rowAt {shipmentId : String} {index : Option Int} {m : Milestone}
    (h : db.rowAt shipmentId index = some m) (hdisputed : m.status = .disputed) :
    db.Disputes m := by
  obtain ⟨_, _, hfind⟩ := Option.bind_eq_some_iff.mp h
  exact ⟨Table.mem_of_find? hfind, hdisputed⟩

/-- A read takes a request further. -/
theorem reached_reads {s : Db} {call rest : SettlementCall} (hreads : SettlementReads s call rest)
    (h : call.Reached env db s) : rest.Reached env db s := by
  cases hreads with
  | createContext | createPending => exact h
  | respondContext shipmentId index id action address response hmilestone _ hdisputed =>
      obtain rfl := h
      exact ⟨rfl, disputes_of_rowAt hmilestone hdisputed⟩
  | respondFind m shipment id response address hproposal hmilestone hpending =>
      obtain ⟨rfl, hm⟩ := h
      have hkey := Table.key_of_find? hproposal
      exact ⟨rfl, hm, hkey ▸ hproposal, hpending, hmilestone⟩

/-- The update of an answer. -/
theorem ended_responded {s : Db} {m : Milestone} {shipment : Shipment} {p : SettlementProposal}
    {response : Response} {address : String}
    (h : (SettlementCall.respondUpdate m shipment p response address).Reached env db s) :
    SettlementEnded env db (s.respond p.id response env.now) := by
  obtain ⟨rfl, hm, hp⟩ := h
  exact .answered hm hp response rfl

theorem ended_of_resume {s next : Db} {call : SettlementCall} (h : call.Reached env db s)
    (hresume : resume (call.statement env) s = (next, none)) : SettlementEnded env db next := by
  rcases settlementRan_of_resume hresume with hran | ⟨err, hran, _⟩
  · cases hran with
    | created m address dto hinsert =>
        obtain rfl := h
        exact .created rfl hinsert
    | responded m shipment p response address hfound hpending hrest => exact ended_responded h
    | notified notice => exact h
  · cases hran with
    | failed call err htells => exact h.ended

theorem reached_of_resume {s next : Db} {call rest : SettlementCall} (h : call.Reached env db s)
    (hresume : resume (call.statement env) s = (next, some rest)) : rest.Reached env db next := by
  rcases settlementRan_of_resume hresume with hran | ⟨err, _, hnone⟩
  · cases hran with
    | read hreads => exact reached_reads hreads h
    | responded m shipment p response address hfound hpending hrest =>
        cases response with
        | accept =>
            cases hrest
            exact ended_responded h
        | reject | withdraw => cases hrest
  · cases hnone

theorem finish_ended {call : SettlementCall} (h : call.Reached env db db) :
    SettlementEnded env db (call.finish env db) :=
  complete_rule (P := fun call s => call.Reached env db s) (fun _ _ hreached => hreached.ended)
    (fun _ _ _ => ended_of_resume) (fun _ _ _ _ => reached_of_resume) 4 h

end Requests

section Rows

variable {db : Db}

theorem ids_writeMilestone (key : MilestoneKey) (write : MilestoneWrite) :
    (db.writeMilestone key write).milestones.rows.map Milestone.id =
      db.milestones.rows.map Milestone.id :=
  Table.map_modify db.milestones key write.apply write.apply_key write.apply_id

/-- The rows after one of them has been written. -/
theorem mem_writeMilestone {m : Milestone} (hm : m ∈ db.milestones.rows) (write : MilestoneWrite)
    (row : Milestone) :
    row ∈ (db.writeMilestone m.key write).milestones.rows ↔
      row = write.apply m ∨ row ∈ db.milestones.rows ∧ row.key ≠ m.key := by
  simp only [Db.writeMilestone, Table.modify, List.mem_map]
  constructor
  · rintro ⟨old, hold, rfl⟩
    split
    · rename_i hkey
      exact .inl (congrArg write.apply (List.inj_on_of_nodup_map db.milestones.nodup hold hm hkey))
    · rename_i hkey
      exact .inr ⟨hold, hkey⟩
  · rintro (rfl | ⟨hrow, hkey⟩)
    · exact ⟨m, hm, if_pos rfl⟩
    · exact ⟨row, hrow, if_neg hkey⟩

/-- The write of an event addresses the row its payload names. -/
theorem writePayload_eq (payload : Json) {m : Milestone} (hm : db.payloadRow payload = some m)
    (write : MilestoneWrite) :
    m ∈ db.milestones.rows ∧ db.writePayload payload write = db.writeMilestone m.key write := by
  obtain ⟨i, hi, hfind⟩ := Option.bind_eq_some_iff.mp hm
  refine ⟨Table.mem_of_find? hfind, ?_⟩
  unfold Db.writePayload
  rw [hi, Table.key_of_find? hfind]
  rfl

end Rows

namespace DisputeHistory

/-- Milestones have different ids. -/
def Keyed (h : DisputeHistory) : Prop := (h.db.milestones.rows.map Milestone.id).Nodup

theorem noteRound_self (p : Option SettlementProposal) (round : String → Nat) (noted : Nat) :
    noteRound p p round noted = noted := by
  cases p <;> rfl

section Steps

variable {h : DisputeHistory}

/-- The proposals are the same, and every dispute that is open now was open
before and has not been resolved. -/
theorem Current.same (hcurrent : h.Current) {next : Db} {resolved : Option String}
    (hproposals : next.settlementProposals = h.db.settlementProposals)
    (hrows : ∀ row, next.Disputes row → resolved ≠ some row.id ∧
      ∃ old, h.db.Disputes old ∧ old.id = row.id) : (h.advance next resolved).Current := by
  refine ⟨fun id p hp haccepted => ?_, fun id p hp hpending row hrow hid hdisputed => ?_⟩
  all_goals
    simp only [advance, hproposals, noteRound_self] at hp ⊢
  · exact hcurrent.accepted id p hp haccepted
  · obtain ⟨hopen, old, hold, hsame⟩ := hrows row ⟨hrow, hdisputed⟩
    rw [if_neg hopen, ← hsame]
    exact hcurrent.pending id p hp hpending old hold.1 (hsame.trans hid) hold.2

/-- A write that leaves the milestone without an open dispute, perhaps because it
resolves it. -/
theorem Current.written (hcurrent : h.Current) (hkeyed : h.Keyed) {m : Milestone}
    (hm : m ∈ h.db.milestones.rows) (write : MilestoneWrite)
    (hstatus : (write.apply m).status ≠ .disputed) {next : Db} {resolved : Option String}
    (hmilestones : next.milestones = (h.db.writeMilestone m.key write).milestones)
    (hproposals : next.settlementProposals = h.db.settlementProposals)
    (hresolved : resolved = none ∨ resolved = some m.id) : (h.advance next resolved).Current := by
  refine hcurrent.same hproposals fun row hrow => ?_
  obtain ⟨hmem, hdisputed⟩ := hrow
  rw [hmilestones] at hmem
  rcases (mem_writeMilestone hm write row).mp hmem with rfl | ⟨hold, hkey⟩
  · exact absurd hdisputed hstatus
  · have hid : row.id ≠ m.id := fun hid =>
      hkey (congrArg Milestone.key (List.inj_on_of_nodup_map hkeyed hold hm hid))
    refine ⟨fun hopen => ?_, row, ⟨hold, hdisputed⟩, rfl⟩
    rcases hresolved with hnone | hmine
    · rw [hnone] at hopen
      cases hopen
    · rw [hmine] at hopen
      exact hid (Option.some.inj hopen).symm

/-- A dispute is raised: its milestone's pending proposals are current exactly if
none is left over. -/
theorem current_raised_iff (hcurrent : h.Current) {m : Milestone}
    (hm : m ∈ h.db.milestones.rows) (at_ : Nat) :
    (h.advance (h.db.writeMilestone m.key (.disputed at_)) none).Current ↔
      ∀ id p, h.db.settlementProposals.find? id = some p → p.status = .pending →
        p.milestoneId = m.id → h.createdIn id = h.resolutions m.id := by
  have hproposals : (h.db.writeMilestone m.key (.disputed at_)).settlementProposals =
      h.db.settlementProposals := rfl
  constructor
  · intro hnext id p hp hpending hid
    have hrow := (mem_writeMilestone hm (.disputed at_) _).mpr (.inl rfl)
    have hround := hnext.pending id p hp hpending _ hrow hid.symm rfl
    rw [MilestoneWrite.apply_id] at hround
    simpa only [advance, hproposals, noteRound_self, reduceCtorEq, ↓reduceIte] using hround
  · intro hfresh
    refine ⟨fun id p hp haccepted => ?_, fun id p hp hpending row hrow hid hdisputed => ?_⟩
    all_goals
      simp only [advance, hproposals, noteRound_self, reduceCtorEq, ↓reduceIte] at hp ⊢
    · exact hcurrent.accepted id p hp haccepted
    · rcases (mem_writeMilestone hm (.disputed at_) row).mp hrow with rfl | ⟨hold, _⟩
      · exact hfresh id p hp hpending hid.symm
      · exact hcurrent.pending id p hp hpending row hold hid hdisputed

/-- A new proposal belongs to the round it is created in. -/
theorem Current.created (hcurrent : h.Current) {p : SettlementProposal}
    (hpending : p.status = .pending)
    {proposals : Register SettlementProposal.id SettlementProposal.milestoneId
      SettlementProposal.isPending}
    (hinsert : h.db.settlementProposals.insert? p = some proposals) :
    (h.advance { h.db with settlementProposals := proposals } none).Current := by
  have hfind := Register.find?_insert? hinsert
  refine ⟨fun id q hq haccepted => ?_, fun id q hq hopen row hrow hid hdisputed => ?_⟩
  all_goals
    simp only [advance, reduceCtorEq, ↓reduceIte] at hq ⊢
    have hq' := hq
    rw [hfind] at hq'
    rcases Option.or_eq_some_iff.mp hq' with hold | ⟨hnone, hnew⟩
  · rw [hq, hold, noteRound_self, noteRound_self]
    exact hcurrent.accepted id q hold haccepted
  · split at hnew
    · cases hnew
      rw [hpending] at haccepted
      cases haccepted
    · cases hnew
  · rw [hq, hold, noteRound_self]
    exact hcurrent.pending id q hold hopen row hrow hid hdisputed
  · split at hnew
    · cases hnew
      rw [hq, hnone, hid]
      rfl
    · cases hnew

/-- An answer is given in the round of its proposal. -/
theorem Current.answered (hcurrent : h.Current) {m : Milestone} (hm : h.db.Disputes m)
    {p : SettlementProposal} (hp : h.db.Proposes m p) (response : Response) (at_ : Nat) :
    (h.advance (h.db.respond p.id response at_) none).Current := by
  obtain ⟨hfound, hpending, hmilestone⟩ := hp
  have hstatus : p.status = .pending := of_decide_eq_true hpending
  have hround := hcurrent.pending p.id p hfound hstatus m hm.1 hmilestone.symm hm.2
  refine ⟨fun id q hq haccepted => ?_, fun id q hq hopen row hrow hid hdisputed => ?_⟩
  all_goals
    simp only [advance, find?_respond, reduceCtorEq, ↓reduceIte] at hq ⊢
    by_cases hsame : id = p.id
  · subst hsame
    simp only [↓reduceIte, hfound, Option.map_some, Register.answered_open hpending,
      Option.some.injEq] at hq ⊢
    subst hq
    have hbefore : Option.filter SettlementProposal.isAccepted (some p) = none := by
      simp [SettlementProposal.isAccepted, hstatus]
    have hafter : Option.filter SettlementProposal.isAccepted (some (p.respond response at_)) =
        some (p.respond response at_) := by
      simp [SettlementProposal.isAccepted, haccepted]
    rw [hbefore, hafter]
    exact hround.trans (congrArg h.resolutions hmilestone.symm)
  · rw [if_neg hsame] at hq
    simp only [if_neg hsame, noteRound_self]
    exact hcurrent.accepted id q hq haccepted
  · subst hsame
    simp only [↓reduceIte, hfound, Option.map_some, Register.answered_open hpending,
      Option.some.injEq] at hq
    subst hq
    have hclosed : (p.respond response at_).isPending = false := p.respond_isPending response at_
    simp [SettlementProposal.isPending, hopen] at hclosed
  · rw [if_neg hsame] at hq
    simp only [if_neg hsame, noteRound_self]
    exact hcurrent.pending id q hq hopen row hrow hid hdisputed

theorem Current.ended {env : Env} (hcurrent : h.Current) {next : Db}
    (hended : SettlementEnded env h.db next) : (h.advance next none).Current := by
  cases hended with
  | nothing => exact hcurrent.same rfl fun row hrow => ⟨nofun, row, hrow, rfl⟩
  | created hpending hinsert => exact hcurrent.created hpending hinsert
  | answered hm hp response hnext =>
      subst hnext
      exact hcurrent.answered hm hp response env.now

theorem Current.idle (hcurrent : h.Current) : (h.advance h.db none).Current :=
  hcurrent.same rfl fun row hrow => ⟨nofun, row, hrow, rfl⟩

theorem current_disputeRaised_iff (hcurrent : h.Current) (env : Env) (payload : Json) :
    (h.step (.disputeRaised env payload)).Current ↔
      (DisputeOperation.disputeRaised env payload).FindsNoLeftover h := by
  unfold step DisputeOperation.run DisputeOperation.resolved DisputeOperation.FindsNoLeftover
  simp only [after_handleDisputeRaised]
  split
  · rename_i hmarked
    obtain ⟨m, hm⟩ := Option.isSome_iff_exists.mp hmarked.2.2.2.2
    obtain ⟨hmem, hwrite⟩ := writePayload_eq payload hm (.disputed env.now)
    rw [hwrite, current_raised_iff hcurrent hmem]
    refine ⟨fun hfresh _ m' hm' => ?_, fun hfresh => hfresh hmarked m hm⟩
    obtain rfl := Option.some.inj (hm.symm.trans hm')
    exact hfresh
  · rename_i hmarked
    exact iff_of_true hcurrent.idle fun hmarked' => absurd hmarked' hmarked

theorem current_disputeResolved (hcurrent : h.Current) (hkeyed : h.Keyed) (env : Env)
    (payload : Json) : (h.step (.disputeResolved env payload)).Current := by
  unfold step DisputeOperation.run DisputeOperation.resolved
  simp only [after_handleDisputeResolved]
  split
  · rename_i hresolves
    obtain ⟨m, hm⟩ := Option.isSome_iff_exists.mp hresolves.2.2.2
    obtain ⟨hmem, hwrite⟩ := writePayload_eq payload hm
      (.resolved (payloadApproved payload) none env.now)
    rw [hwrite]
    refine hcurrent.written hkeyed hmem _ ?_ rfl rfl (.inr ?_)
    · rw [apply_resolved]
      cases payloadApproved payload <;> exact fun hstatus => by cases hstatus
    · rw [show h.db.payloadRow payload = some m from hm]
      rfl
  · exact hcurrent.idle

theorem current_proofSubmitted (hcurrent : h.Current) (hkeyed : h.Keyed) (env : Env)
    (payload : Json) : (h.step (.proofSubmitted env payload)).Current := by
  unfold step DisputeOperation.run DisputeOperation.resolved
  simp only [after_handleProofSubmitted]
  split
  · rename_i hmarked
    obtain ⟨m, hm⟩ := Option.isSome_iff_exists.mp hmarked.2.2.2.2
    obtain ⟨hmem, hwrite⟩ := writePayload_eq payload hm (.proofSubmitted "")
    rw [hwrite]
    exact hcurrent.written hkeyed hmem (.proofSubmitted "") nofun rfl rfl (.inl rfl)
  · exact hcurrent.idle

theorem current_submitProof (hcurrent : h.Current) (hkeyed : h.Keyed) (env : Env)
    (shipmentId : String) (milestoneIndex : Int) (callerAddress : String) (file : ProofFile) :
    (h.step (.submitProof env shipmentId milestoneIndex callerAddress file)).Current := by
  unfold step DisputeOperation.run DisputeOperation.resolved
  dsimp only
  by_cases hsubmits : ∃ cid, Submits env h.db shipmentId milestoneIndex callerAddress cid
  · obtain ⟨cid, hsubmits⟩ := hsubmits
    obtain ⟨m, hm⟩ := Option.isSome_iff_exists.mp hsubmits.milestone
    have hfind := find?_of_liveMilestone h.db shipmentId milestoneIndex hm
    obtain ⟨_, hafter⟩ := after_submitProof env h.db shipmentId milestoneIndex callerAddress file
      cid hsubmits
    rw [hafter, ← Table.key_of_find? hfind]
    exact hcurrent.written hkeyed (Table.mem_of_find? hfind) (.proofSubmitted cid) nofun rfl rfl
      (.inl rfl)
  · rw [after_submitProof_of_not_submits env h.db shipmentId milestoneIndex callerAddress file
      (not_exists.mp hsubmits)]
    exact hcurrent.idle

/-- No operation adds a milestone or renames one. -/
theorem ids_run (db : Db) (op : DisputeOperation) :
    (op.run db).milestones.rows.map Milestone.id = db.milestones.rows.map Milestone.id := by
  have hpayload (payload : Json) (write : MilestoneWrite) :
      (db.writePayload payload write).milestones.rows.map Milestone.id =
        db.milestones.rows.map Milestone.id := by
    unfold Db.writePayload Db.writeAt
    split
    · rfl
    · exact ids_writeMilestone _ write
  have hfinish {env : Env} {next : Db} (hended : SettlementEnded env db next) :
      next.milestones.rows.map Milestone.id = db.milestones.rows.map Milestone.id := by
    cases hended with
    | nothing | created => rfl
    | answered _ _ response hnext =>
        rw [hnext]
        rfl
  cases op with
  | disputeRaised env payload =>
      simp only [DisputeOperation.run, after_handleDisputeRaised]
      split
      · exact hpayload payload _
      · rfl
  | disputeResolved env payload =>
      simp only [DisputeOperation.run, after_handleDisputeResolved]
      split
      · exact hpayload payload _
      · rfl
  | proofSubmitted env payload =>
      simp only [DisputeOperation.run, after_handleProofSubmitted]
      split
      · exact hpayload payload _
      · rfl
  | submitProof env shipmentId milestoneIndex callerAddress file =>
      simp only [DisputeOperation.run]
      by_cases hsubmits : ∃ cid, Submits env db shipmentId milestoneIndex callerAddress cid
      · obtain ⟨cid, hsubmits⟩ := hsubmits
        rw [milestones_after_submitProof env db shipmentId milestoneIndex callerAddress file cid
          hsubmits]
        exact ids_writeMilestone _ _
      · rw [after_submitProof_of_not_submits env db shipmentId milestoneIndex callerAddress file
          (not_exists.mp hsubmits)]
  | create env shipmentId index address dto => exact hfinish (finish_ended rfl)
  | respond env shipmentId index id action address => exact hfinish (finish_ended rfl)

theorem current_step_iff (hkeyed : h.Keyed) (hcurrent : h.Current) (op : DisputeOperation) :
    (h.step op).Current ↔ op.FindsNoLeftover h := by
  cases op with
  | disputeRaised env payload => exact current_disputeRaised_iff hcurrent env payload
  | disputeResolved env payload =>
      exact iff_of_true (current_disputeResolved hcurrent hkeyed env payload) trivial
  | proofSubmitted env payload =>
      exact iff_of_true (current_proofSubmitted hcurrent hkeyed env payload) trivial
  | submitProof env shipmentId milestoneIndex callerAddress file =>
      exact iff_of_true (current_submitProof hcurrent hkeyed env shipmentId milestoneIndex
        callerAddress file) trivial
  | create env shipmentId index address dto =>
      exact iff_of_true (hcurrent.ended (finish_ended rfl)) trivial
  | respond env shipmentId index id action address =>
      exact iff_of_true (hcurrent.ended (finish_ended rfl)) trivial

end Steps

end DisputeHistory

/-- From a database without proposals, in every state of a run, exactly when no
dispute is raised on a milestone with a pending proposal of an earlier round. -/
theorem settlements_current_iff_none_left_over {db : Db}
    (hids : (db.milestones.rows.map Milestone.id).Nodup) (hnone : db.settlementProposals.rows = [])
    (ops : List DisputeOperation) :
    (∀ pre post, ops = pre ++ post →
        (pre.foldl DisputeHistory.step (.start db)).Current) ↔
      Along DisputeHistory.step (fun h op => op.FindsNoLeftover h) (.start db) ops := by
  have hempty (id : String) : db.settlementProposals.find? id = none := by
    rw [Register.find?, Table.find?, hnone]
    rfl
  have hstart : (DisputeHistory.start db).Current := by
    refine ⟨fun id p hp _ => ?_, fun id p hp _ => ?_⟩ <;>
    · rw [DisputeHistory.start, hempty id] at hp
      cases hp
  have hkeyed (h : DisputeHistory) (op : DisputeOperation) (hk : h.Keyed) : (h.step op).Keyed := by
    unfold DisputeHistory.Keyed
    rw [show (h.step op).db = op.run h.db from rfl, DisputeHistory.ids_run]
    exact hk
  have hstep (h : DisputeHistory) (op : DisputeOperation) (hk : h.Keyed) (hcurrent : h.Current) :
      (h.step op).Current ↔ op.FindsNoLeftover h := DisputeHistory.current_step_iff hk hcurrent op
  have hkeys : (DisputeHistory.start db).Keyed := hids
  exact along_iff_property hkeyed hstep hkeys hstart ops

/-- A dispute is raised on the milestone and the buyer proposes an even split. -/
def disputedAndProposed : List DisputeOperation :=
  [.disputeRaised (.calm 1) (.arr [.str "SHIP-1", .num 0]),
    .create (.calm 2) "SHIP-1" (some 0) "GBUYER" (evenSplit "set-1")]

/-- The supplier accepts in the same round. -/
def settledInRound : List DisputeOperation :=
  disputedAndProposed ++ [.respond (.calm 3) "SHIP-1" (some 0) "set-1" "accept" "GSUPPLIER"]

theorem settled_in_round :
    (settledInRound.foldl DisputeHistory.step (.start (Db.demo .proofSubmitted))).Current ∧
      (settledInRound.foldl DisputeHistory.step
        (.start (Db.demo .proofSubmitted))).db.settlementProposals.rows.map
          SettlementProposal.status = [.accepted] := by
  refine ⟨(settlements_current_iff_none_left_over (by decide) rfl settledInRound).mpr
    ⟨fun _ m _ id p hp => ?_, trivial, trivial, trivial⟩ settledInRound []
    (List.append_nil _).symm, rfl⟩
  cases hp

/-- The dispute is rejected and raised again before the supplier answers. -/
def settledAfterResolution : List DisputeOperation :=
  disputedAndProposed ++
    [.disputeResolved (.calm 3) (.arr [.str "SHIP-1", .num 0, .bool false]),
      .disputeRaised (.calm 4) (.arr [.str "SHIP-1", .num 0]),
      .respond (.calm 5) "SHIP-1" (some 0) "set-1" "accept" "GSUPPLIER"]

/-- The proposal of the first dispute is accepted in the second one. -/
theorem leftover_proposal_accepted :
    ¬ (settledAfterResolution.foldl DisputeHistory.step
      (.start (Db.demo .proofSubmitted))).Current := by
  intro h
  have hends : ((settledAfterResolution.foldl DisputeHistory.step
      (.start (Db.demo .proofSubmitted))).db.settlementProposals.find? "set-1").map
        SettlementProposal.status = some .accepted := by rfl
  obtain ⟨p, hp, hstatus⟩ := Option.map_eq_some_iff.mp hends
  have hround := h.accepted "set-1" p hp hstatus
  have hrounds : ((settledAfterResolution.foldl DisputeHistory.step
      (.start (Db.demo .proofSubmitted))).createdIn "set-1", (settledAfterResolution.foldl
        DisputeHistory.step (.start (Db.demo .proofSubmitted))).acceptedIn "set-1") = (0, 1) := by
    rfl
  obtain ⟨hcreated, haccepted⟩ := Prod.mk.inj hrounds
  rw [hcreated, haccepted] at hround
  cases hround

end ChainSettle
