import ChainSettle.Concurrency.Steps
import ChainSettle.Lifecycle.Writes

/-!
Are confirmations and rejections guarded at the write? Both look at the status
of the milestone in one statement and write in a later one that does not look
again. A call `Holds` a milestone from its check to its write. The write finds
the checked status when no other call moves the milestone on while it is held,
and then the verdicts on one submission agree.
-/

namespace ChainSettle

open Lib Lib.Eff

/-- The update records a submission. -/
def MilestoneWrite.IsProof : MilestoneWrite → Prop
  | .proofSubmitted _ => True
  | _ => False

instance : DecidablePred MilestoneWrite.IsProof
  | .proofSubmitted _ => isTrue trivial
  | .confirmed _ _ | .disputed _ | .resolved _ _ _ | .proofRejected => isFalse id

theorem MilestoneWrite.status_of_isProof {write : MilestoneWrite} (h : write.IsProof)
    (m : Milestone) : (write.apply m).status = .proofSubmitted := by
  cases write with
  | proofSubmitted => rfl
  | _ => exact h.elim

theorem MilestoneWrite.status_of_not_isProof {write : MilestoneWrite} (h : ¬ write.IsProof)
    (m : Milestone) : (write.apply m).status ≠ .proofSubmitted := by
  cases write with
  | proofSubmitted => exact absurd trivial h
  | resolved approved amount at_ =>
      unfold MilestoneWrite.apply
      cases approved with
      | false => nofun
      | true =>
          cases amount with
          | none => nofun
          | some amount => by_cases hzero : amount = 0 <;> simp [hzero]
  | _ => nofun

/-- The milestone is in PROOF_SUBMITTED. -/
def Db.Submitted (db : Db) (key : MilestoneKey) : Prop :=
  ∃ m, db.milestones.find? key = some m ∧ m.status = .proofSubmitted

/-- The call has seen the milestone in PROOF_SUBMITTED and is going to confirm
or reject it. -/
def Call.Holds : Call → MilestoneKey → Prop
  | .markGuard .api shipmentId index (.confirmed _) _, key =>
      some key.2 = index ∧ key.1 = shipmentId
  | .update .api shipmentId index (.confirmed _ _) _, key => some key.2 = index ∧ key.1 = shipmentId
  | .update _ shipmentId index .proofRejected _, key => some key.2 = index ∧ key.1 = shipmentId
  | .bulkConfirmQuorum shipmentId toConfirm, key =>
      ∃ item ∈ toConfirm, key = (shipmentId, item.milestoneIndex)
  | .transaction writes _, key => key ∈ writes.map Prod.fst
  | _, _ => False

namespace Committed

/-- The update sets CONFIRMED through the API. -/
def Confirms (e : Committed) : Prop :=
  e.origin = .api ∧ ∃ paymentReleased confirmedAt, e.write = .confirmed paymentReleased confirmedAt

/-- The update sets PENDING through a rejection. -/
def Rejects (e : Committed) : Prop := e.write = .proofRejected

end Committed

/-- The updates of a milestone since its last submission. -/
def verdicts (key : MilestoneKey) (history : List Committed) : List Committed :=
  history.foldl (fun acc e =>
    if e.key ≠ key then acc else if e.write.IsProof then [] else acc ++ [e]) []

/-- Every confirmation and rejection found the milestone in PROOF_SUBMITTED, and
no submission was both confirmed and rejected. -/
structure World.Guarded (w : World) : Prop where
  found : ∀ e ∈ w.history, e.Confirms ∨ e.Rejects → e.found = .proofSubmitted
  agree : ∀ key, ¬ ((∃ e ∈ verdicts key w.history, e.Confirms) ∧
    ∃ e ∈ verdicts key w.history, e.Rejects)

/-- A call moves a milestone on only when no other call in flight holds it. -/
def Service.MovesAlone (s : Service) : ServiceAction → Prop
  | .resume slot _ => ∀ call entry, s.pending slot = some call → entry ∈ call.writes →
      ¬ entry.2.IsProof → ∀ other call', other ≠ slot → s.pending other = some call' →
        ¬ call'.Holds entry.1
  | _ => True

/-- A transaction only confirms or only rejects. -/
def OneKind (writes : List (MilestoneKey × MilestoneWrite)) : Prop :=
  (∀ entry ∈ writes, ∃ paymentReleased confirmedAt,
      entry.2 = .confirmed paymentReleased confirmedAt) ∨
    ∀ entry ∈ writes, entry.2 = .proofRejected

/-- What keeps the writes guarded: the milestones that are held are still as
their calls found them, and one that has a verdict is not in PROOF_SUBMITTED. -/
structure Service.Checked (s : Service) : Prop where
  guarded : s.shared.Guarded
  held : ∀ slot call key, s.pending slot = some call → call.Holds key → s.shared.db.Submitted key
  oneKind : ∀ slot writes follow, s.pending slot = some (.transaction writes follow) →
    OneKind writes
  settled : ∀ key, s.shared.db.Submitted key → verdicts key s.shared.history = []

section Verdicts

variable {key : MilestoneKey} {history : List Committed}

theorem verdicts_append_proof {e : Committed} (hproof : e.write.IsProof) :
    verdicts key (history ++ [e]) = if e.key = key then [] else verdicts key history := by
  unfold verdicts
  rw [List.foldl_append]
  by_cases hkey : e.key = key
  · simp [hkey, hproof]
  · simp [hkey]

/-- Updates that submit nothing are all verdicts. -/
theorem verdicts_append {batch : List Committed} (hbatch : ∀ e ∈ batch, ¬ e.write.IsProof) :
    verdicts key (history ++ batch) =
      verdicts key history ++ batch.filter fun e => e.key = key := by
  induction batch generalizing history with
  | nil => simp
  | cons e rest ih =>
      have hrest := @ih (history ++ [e]) fun p hp => hbatch p (.tail _ hp)
      have he : ¬ e.write.IsProof := hbatch e (.head _)
      rw [show history ++ e :: rest = history ++ [e] ++ rest by simp, hrest]
      have hone : verdicts key (history ++ [e]) =
          if e.key = key then verdicts key history ++ [e] else verdicts key history := by
        unfold verdicts
        rw [List.foldl_append]
        by_cases hkey : e.key = key <;> simp [hkey, he]
      rw [hone]
      by_cases hkey : e.key = key <;> simp [hkey]

end Verdicts

section Rows

variable {db : Db} {writes : List (MilestoneKey × MilestoneWrite)}

/-- A milestone that a batch of other updates left in PROOF_SUBMITTED is not
one of theirs. -/
theorem not_mem_of_submitted (hwrites : ∀ entry ∈ writes, ¬ entry.2.IsProof)
    {key : MilestoneKey} (h : (db.writeMilestones writes).Submitted key) :
    key ∉ writes.map Prod.fst := by
  induction writes generalizing db with
  | nil => exact List.not_mem_nil
  | cons entry rest ih =>
      have hrest : key ∉ rest.map Prod.fst :=
        @ih (db.writeMilestone entry.1 entry.2) (fun e he => hwrites e (.tail _ he)) h
      rw [List.map_cons, List.mem_cons, not_or]
      refine ⟨fun hkey => ?_, hrest⟩
      obtain ⟨m', hm', hstatus⟩ := h
      have hfirst : (db.writeMilestone entry.1 entry.2).milestones.find? key = some m' :=
        (find?_writeMilestones_of_not_mem hrest).symm.trans hm'
      unfold Db.writeMilestone at hfirst
      rw [hkey, Table.find?_modify_self] at hfirst
      obtain ⟨m, _, rfl⟩ := Option.map_eq_some_iff.mp hfirst
      exact MilestoneWrite.status_of_not_isProof (hwrites entry (.head _)) m hstatus

theorem submitted_writeMilestones_iff {key : MilestoneKey} (hkey : key ∉ writes.map Prod.fst) :
    (db.writeMilestones writes).Submitted key ↔ db.Submitted key := by
  unfold Db.Submitted
  rw [find?_writeMilestones_of_not_mem hkey]

end Rows

section Holders

variable {env : Env} {db : Db} {call next : Call} {key : MilestoneKey}

theorem not_holds_of_starts (h : call.starts = true) : ¬ call.Holds key := by
  cases call with
  | markGuard origin shipmentId index mark follow =>
      cases origin with
      | api => cases h
      | event => exact id
  | update => cases h
  | transaction => cases h
  | bulkConfirmQuorum => cases h
  | _ => exact id

theorem not_holds_of_follow {follow : Follow} (h : follow.rest = some call) :
    ¬ call.Holds key := by
  cases follow <;> cases h <;> exact id

/-- A call that holds a milestone after a read held it before, or has just seen
it in PROOF_SUBMITTED. -/
theorem holds_after_read (h : Reads env db call next) (hholds : next.Holds key) :
    call.Holds key ∨ db.Submitted key := by
  cases h with
  | confirmMilestone call amount hm hstatus =>
      have hkey : key = (call.shipmentId, call.milestoneIndex) :=
        Prod.ext hholds.2 (Option.some.inj hholds.1)
      exact .inr ⟨_, hkey ▸ find?_of_liveMilestone _ _ _ hm, hstatus⟩
  | rejectMilestone shipmentId milestoneIndex hm hstatus =>
      have hkey : key = (shipmentId, milestoneIndex) :=
        Prod.ext hholds.2 (Option.some.inj hholds.1)
      exact .inr ⟨_, hkey ▸ find?_of_liveMilestone _ _ _ hm, hstatus⟩
  | bulkConfirmShipment shipmentId callerAddress items =>
      obtain ⟨item, hitem, rfl⟩ := hholds
      have hnone := (List.mem_filter.mp hitem).2
      exact .inr (submitted_of_bulkRefusal_none db shipmentId item.milestoneIndex "confirm"
        (Option.isNone_iff_eq_none.mp hnone))
  | bulkConfirmQuorum shipmentId items hwrites =>
      obtain ⟨entry, hentry, rfl⟩ := List.mem_map.mp hholds
      obtain ⟨item, hitem, _, _, rfl⟩ := mem_bulkConfirmWrites env shipmentId hwrites entry hentry
      exact .inl ⟨item, hitem, rfl⟩
  | bulkRejectShipment shipmentId buyerAddress indices =>
      obtain ⟨entry, hentry, rfl⟩ := List.mem_map.mp hholds
      exact .inr (bulkRejectWrites_submitted db shipmentId indices entry hentry)
  | markGuard origin shipmentId index mark follow =>
      cases mark with
      | confirmed amount =>
          cases origin with
          | api => exact .inl hholds
          | event => exact hholds.elim
      | _ => cases origin <;> exact hholds.elim
  | _ => exact hholds.elim

theorem oneKind_after_read {writes : List (MilestoneKey × MilestoneWrite)} {follow : Follow}
    (h : Reads env db call (.transaction writes follow)) : OneKind writes := by
  cases h with
  | bulkConfirmQuorum shipmentId items hwrites =>
      refine .inl fun entry hentry => ?_
      obtain ⟨_, _, amount, _, rfl⟩ := mem_bulkConfirmWrites env shipmentId hwrites entry hentry
      exact ⟨amount, env.now, rfl⟩
  | bulkRejectShipment shipmentId buyerAddress indices =>
      refine .inr fun entry hentry => ?_
      obtain ⟨_, _, rfl⟩ := List.mem_map.mp hentry
      rfl

/-- A confirmation by the API and a rejection are made by a call that holds the
milestone. -/
theorem holds_of_commits {e : Committed} (he : e ∈ call.commits db)
    (hkind : e.Confirms ∨ e.Rejects) : call.Holds e.key := by
  obtain ⟨⟨key, write⟩, hmem, hentry⟩ := List.mem_filterMap.mp he
  obtain ⟨m, hm, rfl⟩ := Option.map_eq_some_iff.mp hentry
  cases call with
  | update origin shipmentId index write' follow =>
      cases index with
      | none => cases hmem
      | some i =>
          cases List.mem_singleton.mp hmem
          rcases hkind with ⟨horigin, amount, at_, hwrite⟩ | hwrite
          · cases horigin
            cases hwrite
            exact ⟨rfl, rfl⟩
          · cases hwrite
            cases origin <;> exact ⟨rfl, rfl⟩
  | transaction writes follow => exact List.mem_map_of_mem hmem
  | _ => cases hmem

end Holders

section Batches

variable {env : Env} {db : Db} {call : Call} {key : MilestoneKey} {history : List Committed}

theorem not_isProof_of_oneKind {writes : List (MilestoneKey × MilestoneWrite)}
    (h : OneKind writes) : ∀ entry ∈ writes, ¬ entry.2.IsProof := by
  intro entry hmem
  rcases h with hconfirm | hreject
  · obtain ⟨_, _, hentry⟩ := hconfirm entry hmem
    rw [hentry]
    exact id
  · rw [hreject entry hmem]
    exact id

/-- One statement does not both confirm and reject. -/
theorem commits_agree (hkind : ∀ writes follow, call = .transaction writes follow → OneKind writes)
    {e e' : Committed} (he : e ∈ call.commits db) (he' : e' ∈ call.commits db)
    (hconfirms : e.Confirms) : ¬ e'.Rejects := by
  intro hrejects
  obtain ⟨_, amount, at_, hwrite⟩ := hconfirms
  have hmem := (mem_commits he).1
  have hmem' := (mem_commits he').1
  rw [hwrite] at hmem
  rw [show e'.write = .proofRejected from hrejects] at hmem'
  cases call with
  | update origin shipmentId index write follow =>
      cases index with
      | none => cases hmem
      | some i =>
          have hfirst := congrArg Prod.snd (List.mem_singleton.mp hmem)
          have hsecond := congrArg Prod.snd (List.mem_singleton.mp hmem')
          cases hfirst.trans hsecond.symm
  | transaction writes follow =>
      rcases hkind writes follow rfl with hconfirm | hreject
      · obtain ⟨_, _, hentry⟩ := hconfirm _ hmem'
        cases hentry
      · cases hreject _ hmem
  | _ => cases hmem

/-- Either one submission is recorded, or nothing is submitted. -/
theorem writes_cases (hkind : ∀ writes follow, call = .transaction writes follow → OneKind writes) :
    (∃ entry, call.writes = [entry] ∧ entry.2.IsProof) ∨
      ∀ entry ∈ call.writes, ¬ entry.2.IsProof := by
  cases call with
  | update origin shipmentId index write follow =>
      cases index with
      | none => exact .inr fun _ hmem => by cases hmem
      | some i =>
          by_cases hproof : write.IsProof
          · exact .inl ⟨_, rfl, hproof⟩
          · refine .inr fun entry hmem => ?_
            cases List.mem_singleton.mp hmem
            exact hproof
  | transaction writes follow => exact .inr (not_isProof_of_oneKind (hkind writes follow rfl))
  | _ => exact .inr fun _ hmem => by cases hmem

end Batches

namespace Service

variable {s t : Service} {a : ServiceAction}

theorem kind_of_pending (h : s.Checked) {slot : Nat} {call : Call}
    (hcall : s.pending slot = some call) :
    ∀ writes follow, call = .transaction writes follow → OneKind writes := by
  rintro writes follow rfl
  exact h.oneKind slot writes follow hcall

/-- Who holds a milestone after a call was resumed: the call itself, if it had
the right to, and whoever held it before. -/
theorem holds_after_resume {slot other : Nat} {env : Env} {call call' : Call} {w : World}
    {rest : Option Call} {key : MilestoneKey} (h : s.Checked) (hcall : s.pending slot = some call)
    (hresumed : Resumed env s.shared call w rest)
    (hother : Function.update s.pending slot rest other = some call') (hholds : call'.Holds key) :
    s.shared.db.Submitted key ∧
      (w = s.shared ∨ other ≠ slot ∧ s.pending other = some call') := by
  rcases pending_update hother with ⟨_, rfl⟩ | ⟨hne, hold⟩
  · rcases rest_after_resume hresumed with ⟨rfl, hreads⟩ | ⟨follow, hfollow⟩
    · rcases holds_after_read hreads hholds with hheld | hsubmitted
      · exact ⟨h.held slot call key hcall hheld, .inl rfl⟩
      · exact ⟨hsubmitted, .inl rfl⟩
    · exact absurd hholds (not_holds_of_follow hfollow)
  · exact ⟨h.held other call' key hold hholds, .inr ⟨hne, hold⟩⟩

theorem oneKind_after_resume {slot other : Nat} {env : Env} {call : Call} {w : World}
    {rest : Option Call} (h : s.Checked) (hresumed : Resumed env s.shared call w rest)
    {writes : List (MilestoneKey × MilestoneWrite)} {follow : Follow}
    (hother : Function.update s.pending slot rest other = some (.transaction writes follow)) :
    OneKind writes := by
  rcases pending_update hother with ⟨_, rfl⟩ | ⟨_, hold⟩
  · rcases rest_after_resume hresumed with ⟨_, hreads⟩ | ⟨follow', hfollow⟩
    · exact oneKind_after_read hreads
    · cases follow' <;> cases hfollow
  · exact h.oneKind other writes follow hold

section Commit

variable {slot : Nat} {env : Env} {call : Call} {w : World}
  (hdb : w.db = s.shared.db.writeMilestones call.writes)
  (hhistory : w.history = s.shared.history ++ call.commits s.shared.db)

include hdb hhistory

/-- A submission opens the milestone for a new verdict. -/
theorem guarded_after_proof (h : s.Checked) {entry : MilestoneKey × MilestoneWrite}
    (hwrites : call.writes = [entry]) (hproof : entry.2.IsProof)
    (hrow : (s.shared.db.milestones.find? entry.1).isSome) :
    w.Guarded ∧ (∀ key, w.db.Submitted key ↔ key = entry.1 ∨ s.shared.db.Submitted key) ∧
      ∀ key, w.db.Submitted key → verdicts key w.history = [] := by
  obtain ⟨m, hm⟩ := Option.isSome_iff_exists.mp hrow
  have hsubmitted : ∀ key, w.db.Submitted key ↔ key = entry.1 ∨ s.shared.db.Submitted key := by
    intro key
    rw [hdb, hwrites]
    by_cases hkey : key = entry.1
    · refine iff_of_true ⟨entry.2.apply m, ?_, MilestoneWrite.status_of_isProof hproof m⟩ (.inl hkey)
      change (s.shared.db.milestones.modify entry.1 entry.2.apply entry.2.apply_key).find? key = _
      rw [hkey, Table.find?_modify_self, hm]
      rfl
    · rw [submitted_writeMilestones_iff (by simpa using hkey)]
      exact ⟨.inr, fun h => h.resolve_left hkey⟩
  have hcommits : call.commits s.shared.db = [⟨call.origin, entry.1, m.status, entry.2⟩] := by
    simp [Call.commits, hwrites, hm]
  have hverdicts : ∀ key, verdicts key w.history =
      if entry.1 = key then [] else verdicts key s.shared.history := by
    intro key
    rw [hhistory, hcommits]
    exact verdicts_append_proof hproof
  refine ⟨⟨?_, ?_⟩, hsubmitted, ?_⟩
  · intro e he hkind
    rw [hhistory, hcommits, List.mem_append, List.mem_singleton] at he
    rcases he with hold | rfl
    · exact h.guarded.found e hold hkind
    · obtain ⟨key, write⟩ := entry
      rcases hkind with ⟨_, _, _, rfl⟩ | rfl <;> exact hproof.elim
  · intro key
    rw [hverdicts]
    split
    · rintro ⟨⟨e, he, _⟩, _⟩
      cases he
    · exact h.guarded.agree key
  · intro key hafter
    rw [hverdicts]
    split
    · rfl
    · rename_i hkey
      exact h.settled key (((hsubmitted key).mp hafter).resolve_left (Ne.symm hkey))

/-- Updates that submit nothing. -/
theorem guarded_after_verdict (h : s.Checked) (hcall : s.pending slot = some call)
    (hwrites : ∀ entry ∈ call.writes, ¬ entry.2.IsProof) :
    w.Guarded ∧ ∀ key, w.db.Submitted key → verdicts key w.history = [] := by
  have hverdicts : ∀ key, verdicts key w.history = verdicts key s.shared.history ++
      (call.commits s.shared.db).filter fun e => e.key = key := by
    intro key
    rw [hhistory]
    exact verdicts_append fun e he => hwrites _ (mem_commits he).1
  -- whoever gives a verdict holds the milestone, so it is open and has none yet
  have hopen : ∀ e ∈ call.commits s.shared.db, e.Confirms ∨ e.Rejects →
      s.shared.db.Submitted e.key :=
    fun e he hkind => h.held slot call e.key hcall (holds_of_commits he hkind)
  refine ⟨⟨?_, ?_⟩, ?_⟩
  · intro e he hkind
    rw [hhistory, List.mem_append] at he
    rcases he with hold | hnew
    · exact h.guarded.found e hold hkind
    · obtain ⟨m, hm, hstatus⟩ := hopen e hnew hkind
      obtain ⟨m', hm', hfound⟩ := (mem_commits hnew).2
      cases hm.symm.trans hm'
      rw [hfound, hstatus]
  · rintro key ⟨⟨e, he, hconfirms⟩, e', he', hrejects⟩
    rw [hverdicts, List.mem_append] at he he'
    have hfirst : ∀ p ∈ (call.commits s.shared.db).filter (fun e => e.key = key),
        p.Confirms ∨ p.Rejects → verdicts key s.shared.history = [] := by
      intro p hp hkind
      obtain ⟨hmem, hkey⟩ := List.mem_filter.mp hp
      have hsubmitted := hopen p hmem hkind
      rw [of_decide_eq_true hkey] at hsubmitted
      exact h.settled key hsubmitted
    rcases he with hold | hnew
    · rcases he' with hold' | hnew'
      · exact h.guarded.agree key ⟨⟨e, hold, hconfirms⟩, e', hold', hrejects⟩
      · rw [hfirst e' hnew' (.inr hrejects)] at hold
        cases hold
    · rcases he' with hold' | hnew'
      · rw [hfirst e hnew (.inl hconfirms)] at hold'
        cases hold'
      · exact commits_agree (kind_of_pending h hcall) (List.mem_filter.mp hnew).1
          (List.mem_filter.mp hnew').1 hconfirms hrejects
  · intro key hsubmitted
    rw [hdb] at hsubmitted
    have hkey := not_mem_of_submitted hwrites hsubmitted
    rw [hverdicts, h.settled key ((submitted_writeMilestones_iff hkey).mp hsubmitted),
      List.nil_append, List.filter_eq_nil_iff]
    intro e he heq
    refine hkey (List.mem_map.mpr ⟨_, (mem_commits he).1, ?_⟩)
    simpa using heq

end Commit

theorem checked_resume {slot : Nat} {env : Env} {call : Call} {w : World} {rest : Option Call}
    (halone : s.MovesAlone (.resume slot env)) (hcall : s.pending slot = some call)
    (hresumed : Resumed env s.shared call w rest) (h : s.Checked) :
    Checked ⟨w, Function.update s.pending slot rest⟩ := by
  have hheld {other call' key} (hother : Function.update s.pending slot rest other = some call')
      (hholds : call'.Holds key) := holds_after_resume h hcall hresumed hother hholds
  have hkind {other writes follow} (hother : Function.update s.pending slot rest other =
      some (.transaction writes follow)) := oneKind_after_resume h hresumed hother
  rcases milestones_after_resume hresumed with ⟨hsame, hhistory⟩ | ⟨hdb, hhistory, hrows⟩
  · have hsubmitted : ∀ key, w.db.Submitted key ↔ s.shared.db.Submitted key := by
      intro key
      unfold Db.Submitted
      rw [hsame]
    refine ⟨⟨hhistory ▸ h.guarded.found, hhistory ▸ h.guarded.agree⟩, ?_, fun _ _ _ => hkind, ?_⟩
    · intro other call' key hother hholds
      exact (hsubmitted key).mpr (hheld hother hholds).1
    · intro key hafter
      rw [hhistory]
      exact h.settled key ((hsubmitted key).mp hafter)
  · rcases writes_cases (kind_of_pending h hcall) with ⟨entry, hwrites, hproof⟩ | hverdict
    · have hrow := hrows entry (by rw [hwrites]; exact .head _)
      obtain ⟨hguarded, hsubmitted, hsettled⟩ :=
        guarded_after_proof hdb hhistory h hwrites hproof hrow
      refine ⟨hguarded, ?_, fun _ _ _ => hkind, hsettled⟩
      intro other call' key hother hholds
      exact (hsubmitted key).mpr (.inr (hheld hother hholds).1)
    · obtain ⟨hguarded, hsettled⟩ := guarded_after_verdict hdb hhistory h hcall hverdict
      refine ⟨hguarded, ?_, fun _ _ _ => hkind, hsettled⟩
      intro other call' key hother hholds
      obtain ⟨hbefore, rfl | ⟨hne, hold⟩⟩ := hheld hother hholds
      · exact hbefore
      · -- the other call is still waiting, so the milestone is not one of those written
        have hkey : key ∉ call.writes.map Prod.fst := by
          intro hmem
          obtain ⟨entry, hentry, rfl⟩ := List.mem_map.mp hmem
          exact halone call entry hcall hentry (hverdict entry hentry) other call' hne hold hholds
        change w.db.Submitted key
        rw [hdb]
        exact (submitted_writeMilestones_iff hkey).mpr hbefore

theorem checked_step (halone : s.MovesAlone a) (hstep : service.step s a = some t)
    (h : s.Checked) : t.Checked := by
  obtain ⟨slot, call, rfl, hstarts, _, rfl⟩ |
    ⟨slot, env, call, w, rest, rfl, hcall, hresumed, rfl⟩ | ⟨move, rfl, rfl⟩ := service_step hstep
  · refine ⟨h.guarded, ?_, ?_, h.settled⟩
    · intro other call' key hother hholds
      rcases pending_update hother with ⟨_, hnew⟩ | ⟨_, hold⟩
      · cases hnew
        exact absurd hholds (not_holds_of_starts hstarts)
      · exact h.held other call' key hold hholds
    · intro other writes follow hother
      rcases pending_update hother with ⟨_, hnew⟩ | ⟨_, hold⟩
      · cases hnew
        cases hstarts
      · exact h.oneKind other writes follow hold
  · exact checked_resume halone hcall hresumed h
  · exact ⟨⟨h.guarded.found, h.guarded.agree⟩, h.held, h.oneKind, h.settled⟩

theorem checked_idle (db : Db) (chain : String → ContractState) : (idle db chain).Checked where
  guarded :=
    { found := fun _ he => by cases he
      agree := by
        rintro key ⟨⟨_, he, _⟩, _⟩
        cases he }
  held _ _ _ hpending := by cases hpending
  oneKind _ _ _ hpending := by cases hpending
  settled _ _ := rfl

end Service

/-- In a run where no call moves a milestone on that another one has checked,
every confirmation through the API and every rejection finds the milestone in
PROOF_SUBMITTED, and no submission is both confirmed and rejected. -/
theorem verdicts_guarded_at_write (db : Db) (chain : String → ContractState) {s : Service}
    (hrun : StepsAlong service.step Service.MovesAlone (Service.idle db chain) s) :
    s.shared.Guarded := by
  have hstep : ∀ (u : Service) a (v : Service), u.MovesAlone a → service.step u a = some v →
      u.Checked → v.Checked :=
    fun u a v halone htaken h => Service.checked_step halone htaken h
  exact (hrun.invariant hstep (Service.checked_idle db chain)).guarded

/-- A call that is alone in flight. -/
theorem Service.movesAlone_of_alone {s : Service} {slot : Nat} {env : Env}
    (h : ∀ other, other ≠ slot → s.pending other = none) : s.MovesAlone (.resume slot env) := by
  intro call entry _ _ _ other call' hne hother
  rw [h other hne] at hother
  cases hother

/-- The buyer rejects a proof. -/
theorem rejection_guarded :
    ∃ s : Service, StepsAlong service.step Service.MovesAlone
        (Service.idle (Db.demo .proofSubmitted) fun _ => ⟨.active, 0⟩) s ∧
      s.shared.history = [⟨.api, ("SHIP-1", 0), .proofSubmitted, .proofRejected⟩] ∧
      s.shared.Guarded := by
  have hrun : ∃ s : Service, StepsAlong service.step Service.MovesAlone
      (Service.idle (Db.demo .proofSubmitted) fun _ => ⟨.active, 0⟩) s ∧
      s.shared.history = [⟨.api, ("SHIP-1", 0), .proofSubmitted, .proofRejected⟩] := by
    refine ⟨_, .tail (.tail (.tail (.tail (.refl _)
      (a := .begin 0 (.rejectShipment "SHIP-1" 0 "GBUYER")) trivial rfl)
      (a := .resume 0 (.calm 1)) ?_ rfl)
      (a := .resume 0 (.calm 2)) ?_ rfl)
      (a := .resume 0 (.calm 3)) ?_ rfl, by decide⟩
    all_goals
      apply Service.movesAlone_of_alone
      rintro (_ | other) hne
      · exact absurd rfl hne
      · rfl
  obtain ⟨s, hs, hhistory⟩ := hrun
  exact ⟨s, hs, hhistory, verdicts_guarded_at_write _ _ hs⟩

/-- The buyer confirms in one request and rejects in another; both have seen the
submitted proof before either writes. -/
def crossedVerdicts : List ServiceAction :=
  [.begin 0 (.confirmShipment ⟨"SHIP-1", 0, "GBUYER", "1000"⟩),
    .begin 1 (.rejectShipment "SHIP-1" 0 "GBUYER"),
    .resume 0 (.calm 1), .resume 0 (.calm 1), .resume 0 (.calm 1), .resume 0 (.calm 1),
    .resume 1 (.calm 2), .resume 1 (.calm 2), .resume 0 (.calm 3), .resume 1 (.calm 4)]

/-- The proof is paid for and rejected. -/
theorem crossed_verdicts_not_guarded :
    ∃ s : Service, StepsAlong service.step (fun _ _ => True)
        (Service.idle (Db.demo .proofSubmitted) fun _ => ⟨.active, 0⟩) s ∧
      s.shared.history = [⟨.api, ("SHIP-1", 0), .proofSubmitted, .confirmed 1000 1⟩,
        ⟨.api, ("SHIP-1", 0), .confirmed, .proofRejected⟩] ∧ ¬ s.shared.Guarded := by
  have hends : (crossedVerdicts.foldlM service.step
      (Service.idle (Db.demo .proofSubmitted) fun _ => ⟨.active, 0⟩)).map (·.shared.history) =
      some [⟨.api, ("SHIP-1", 0), .proofSubmitted, .confirmed 1000 1⟩,
        ⟨.api, ("SHIP-1", 0), .confirmed, .proofRejected⟩] := by decide
  obtain ⟨s, hs, hhistory⟩ := Option.map_eq_some_iff.mp hends
  refine ⟨s, .of_foldlM (fun _ _ _ => trivial) hs, hhistory, fun h => ?_⟩
  have hfound := h.found ⟨.api, ("SHIP-1", 0), .confirmed, .proofRejected⟩
    (hhistory ▸ .tail _ (.head _)) (.inr rfl)
  cases hfound

end ChainSettle
