import ChainSettle.Concurrency.GuardedWrites

/-!
Does `proofHash` point to the newest submission? `submitProof` writes the CID to
the milestone and inserts the audit row in a later statement; the handler of
`proof_submitted` writes the empty string to the same column and inserts
nothing. Between two submissions the pointer may be ahead of the audit trail,
but then the call that is about to insert the row is still in flight. So the
invariant is that a submitted milestone shows the newest row or a row that is
about to be inserted.
-/

namespace ChainSettle

open Lib Lib.Eff

/-- The audit rows of a milestone, oldest first. -/
def Db.submissions (db : Db) (milestoneId : String) : List ProofSubmission :=
  db.proofSubmissions.filter fun row => row.milestoneId = milestoneId

/-- The milestone shows the CID of its newest audit row, if it has one. -/
def Db.ShowsLast (db : Db) (m : Milestone) : Prop :=
  ∀ row, (db.submissions m.id).getLast? = some row → m.proofHash = some row.ipfsCid

def Db.ProofsShown (db : Db) : Prop :=
  ∀ key m, db.milestones.find? key = some m → m.status = .proofSubmitted → db.ShowsLast m

/-- The call writes this CID, and the audit row it inserts then is one of the
milestone with this CID. -/
def Follow.Records (follow : Follow) (db : Db) (shipmentId : String) (index : Option Int)
    (cid : String) : Prop :=
  ∃ row, follow = .record row ∧ row.ipfsCid = cid ∧
    (db.rowAt shipmentId index).map Milestone.id = some row.milestoneId

/-- The locals of a call are those of the milestone it is about. -/
def Call.Linked (db : Db) : Call → Prop
  | .submitUpload call milestoneId =>
      (db.rowAt call.shipmentId (some call.milestoneIndex)).map Milestone.id = some milestoneId
  | .markGuard .api shipmentId index (.proofSubmitted cid) follow =>
      follow.Records db shipmentId index cid
  | .update .api shipmentId index (.proofSubmitted cid) follow =>
      follow.Records db shipmentId index cid
  | .transaction writes _ => ∀ entry ∈ writes, ¬ entry.2.IsProof
  | _ => True

namespace Service

/-- The call in the slot is about to record the proof that the milestone shows. -/
def Recording (s : Service) (slot : Nat) (m : Milestone) : Prop :=
  ∃ row, s.pending slot = some (.record row) ∧ row.milestoneId = m.id ∧
    m.proofHash = some row.ipfsCid

/-- A `proof_submitted` handler updates only milestones without audit rows, and
the audit row that a call inserts is the one the milestone shows, or another call
is about to insert that one. A rejected insert is not the one shown. -/
def ProofsInOrder (s : Service) : ServiceAction → Prop
  | .resume slot env =>
      (∀ shipmentId index proofHash follow m,
        s.pending slot = some (.update .event shipmentId (some index) (.proofSubmitted proofHash)
          follow) →
        s.shared.db.milestones.find? (shipmentId, index) = some m →
        s.shared.db.submissions m.id = []) ∧
      ∀ row key m, s.pending slot = some (.record row) →
        s.shared.db.milestones.find? key = some m → m.id = row.milestoneId →
        m.status = .proofSubmitted →
        (∃ other, other ≠ slot ∧ s.Recording other m) ∨
          if env.fails .proofCreate then
            m.proofHash ≠ some row.ipfsCid ∨ s.shared.db.submissions m.id = []
          else m.proofHash = some row.ipfsCid
  | _ => True

/-- A submitted milestone shows its newest audit row or one that is about to be
inserted. -/
structure Points (s : Service) : Prop where
  shown : ∀ key m, s.shared.db.milestones.find? key = some m → m.status = .proofSubmitted →
    (∃ slot, s.Recording slot m) ∨ s.shared.db.ShowsLast m
  linked : ∀ slot call, s.pending slot = some call → call.Linked s.shared.db

end Service

section Ids

variable {env : Env} {db db' : Db} {w w' : World} {call next : Call} {rest : Option Call}

theorem MilestoneWrite.apply_id (write : MilestoneWrite) (m : Milestone) :
    (write.apply m).id = m.id := by
  cases write with
  | resolved approved amount at_ =>
      simp only [MilestoneWrite.apply]
      split
      · split <;> rfl
      · rfl
  | _ => rfl

/-- No update changes an id. -/
theorem id_writeMilestones (writes : List (MilestoneKey × MilestoneWrite)) (key : MilestoneKey) :
    ((db.writeMilestones writes).milestones.find? key).map Milestone.id =
      (db.milestones.find? key).map Milestone.id := by
  induction writes generalizing db with
  | nil => rfl
  | cons entry rest ih =>
      have hfirst : ((db.writeMilestone entry.1 entry.2).milestones.find? key).map Milestone.id =
          (db.milestones.find? key).map Milestone.id := by
        unfold Db.writeMilestone
        rw [Table.find?_modify]
        split
        · rename_i hkey
          subst hkey
          rw [Option.map_map]
          exact congrArg (Option.map · _) (funext (MilestoneWrite.apply_id entry.2))
        · rfl
      exact ih.trans hfirst

theorem id_after_resume (h : Resumed env w call w' rest) (key : MilestoneKey) :
    (w'.db.milestones.find? key).map Milestone.id =
      (w.db.milestones.find? key).map Milestone.id := by
  rcases milestones_after_resume h with ⟨hsame, _⟩ | ⟨hdb, _⟩
  · rw [hsame]
  · rw [hdb, id_writeMilestones]

theorem Call.Linked.of_ids
    (hids : ∀ key, (db'.milestones.find? key).map Milestone.id =
      (db.milestones.find? key).map Milestone.id)
    (h : call.Linked db) : call.Linked db' := by
  have hrow : ∀ shipmentId index, (db'.rowAt shipmentId index).map Milestone.id =
      (db.rowAt shipmentId index).map Milestone.id := by
    intro shipmentId index
    cases index with
    | none => rfl
    | some i => exact hids (shipmentId, i)
  unfold Call.Linked at h ⊢
  unfold Follow.Records at h ⊢
  simp only [hrow]
  exact h

end Ids

section Linked

variable {env : Env} {w w' : World} {call next : Call}

theorem linked_of_starts (db : Db) (h : call.starts = true) : call.Linked db := by
  cases call with
  | markGuard origin shipmentId index mark follow =>
      cases origin with
      | api => cases h
      | event => trivial
  | update => cases h
  | transaction => cases h
  | submitUpload => cases h
  | _ => trivial

theorem linked_of_follow (db : Db) {follow : Follow} (h : follow.rest = some call) :
    call.Linked db := by
  cases follow <;> cases h <;> trivial

theorem linked_after_read (h : Reads env w.db call next) (hcall : call.Linked w.db) :
    next.Linked w.db := by
  have hkind : ∀ writes follow, next = .transaction writes follow → OneKind writes := by
    rintro writes follow rfl
    exact oneKind_after_read h
  cases h with
  | submitMilestone call hm =>
      have hrow := find?_of_liveMilestone _ _ _ hm
      exact congrArg (Option.map Milestone.id) hrow
  | submitUpload call milestoneId cid => exact ⟨_, rfl, rfl, hcall⟩
  | markGuard origin shipmentId index mark follow =>
      cases origin with
      | event => trivial
      | api =>
          cases mark with
          | proofSubmitted cid => exact hcall
          | _ => trivial
  | bulkConfirmQuorum => exact not_isProof_of_oneKind (hkind _ _ rfl)
  | bulkRejectShipment => exact not_isProof_of_oneKind (hkind _ _ rfl)
  | _ => trivial

end Linked

namespace Service

variable {s t : Service} {a : ServiceAction} {slot : Nat} {env : Env} {call : Call} {w : World}
  {rest : Option Call}

theorem linked_after_resume (h : s.Points) (hcall : s.pending slot = some call)
    (hresumed : Resumed env s.shared call w rest) :
    ∀ other call', Function.update s.pending slot rest other = some call' →
      call'.Linked w.db := by
  intro other call' hother
  refine Call.Linked.of_ids (id_after_resume hresumed) ?_
  rcases pending_update hother with ⟨_, rfl⟩ | ⟨_, hold⟩
  · rcases rest_after_resume hresumed with ⟨_, hreads⟩ | ⟨follow, hfollow⟩
    · exact linked_after_read hreads (h.linked slot call hcall)
    · exact linked_of_follow _ hfollow
  · exact h.linked other call' hold

/-- A milestone that the resumed call is not about to record. -/
theorem shown_of_frame {m : Milestone} (hslot : ¬ s.Recording slot m)
    (hproofs : w.db.submissions m.id = s.shared.db.submissions m.id)
    (h : (∃ other, s.Recording other m) ∨ s.shared.db.ShowsLast m) :
    (∃ other, Recording ⟨w, Function.update s.pending slot rest⟩ other m) ∨ w.db.ShowsLast m := by
  rcases h with ⟨other, row, hpending, hrow⟩ | hlast
  · have hne : other ≠ slot := by
      rintro rfl
      exact hslot ⟨row, hpending, hrow⟩
    exact .inl ⟨other, row, (Function.update_of_ne hne ..).trans hpending, hrow⟩
  · right
    unfold Db.ShowsLast at hlast ⊢
    rw [hproofs]
    exact hlast

theorem not_recording (hcall : s.pending slot = some call) (hrecord : ∀ row, call ≠ .record row)
    (m : Milestone) : ¬ s.Recording slot m := by
  rintro ⟨row, hpending, _⟩
  exact hrecord row (Option.some.inj (hcall.symm.trans hpending))

/-- What a milestone shows after an update: its own write, if it was that one. -/
theorem shown_after_update {origin : Origin} {shipmentId : String} {index : Int}
    {write : MilestoneWrite} {follow : Follow} {history : List Committed}
    (horder : s.ProofsInOrder (.resume slot env)) (h : s.Points)
    (hcall : s.pending slot = some (.update origin shipmentId (some index) write follow))
    {key : MilestoneKey} {m : Milestone}
    (hm : (s.shared.db.writeMilestone (shipmentId, index) write).milestones.find? key = some m)
    (hstatus : m.status = .proofSubmitted) :
    (∃ other, Recording ⟨{ s.shared with
        db := s.shared.db.writeMilestone (shipmentId, index) write, history := history },
        Function.update s.pending slot follow.rest⟩ other m) ∨
      (s.shared.db.writeMilestone (shipmentId, index) write).ShowsLast m := by
  obtain ⟨before, hbefore, rfl | ⟨rfl, rfl⟩⟩ := row_writeMilestone hm
  · exact shown_of_frame (not_recording hcall (fun _ hrecord => by cases hrecord) m) rfl
      (h.shown key m hbefore hstatus)
  · cases write with
    | proofSubmitted cid =>
        cases origin with
        | event =>
            right
            intro row hlast
            have hnone := horder.1 shipmentId index cid follow before hcall hbefore
            change (s.shared.db.submissions before.id).getLast? = some row at hlast
            rw [hnone] at hlast
            cases hlast
        | api =>
            obtain ⟨row, rfl, rfl, hid⟩ := h.linked slot _ hcall
            rw [Db.rowAt, Option.bind_some, hbefore] at hid
            exact .inl ⟨slot, row, Function.update_self .., (Option.some.inj hid).symm, rfl⟩
    | _ =>
        exact absurd hstatus (MilestoneWrite.status_of_not_isProof id before)

/-- The audit row that is inserted is the one shown, or that one is still to
come. -/
theorem shown_after_record {row : ProofSubmission} (horder : s.ProofsInOrder (.resume slot env))
    (h : s.Points) (hcall : s.pending slot = some (.record row))
    (hinserted : env.fails .proofCreate = false)
    (hproofs : w.db.proofSubmissions = s.shared.db.proofSubmissions ++ [row])
    {key : MilestoneKey} {m : Milestone} (hm : s.shared.db.milestones.find? key = some m)
    (hstatus : m.status = .proofSubmitted) :
    (∃ other, Recording ⟨w, Function.update s.pending slot none⟩ other m) ∨ w.db.ShowsLast m := by
  by_cases hid : m.id = row.milestoneId
  · rcases horder.2 row key m hcall hm hid hstatus with ⟨other, hne, row', hpending, hrow'⟩ | hshown
    · exact .inl ⟨other, row', (Function.update_of_ne hne ..).trans hpending, hrow'⟩
    · right
      intro last hlast
      rw [if_neg (by rw [hinserted]; exact Bool.false_ne_true)] at hshown
      unfold Db.submissions at hlast
      rw [hproofs, List.filter_append] at hlast
      simp only [hid, decide_true, List.filter_cons_of_pos, List.filter_nil,
        List.getLast?_append, List.getLast?_singleton, Option.some_or, Option.some.injEq] at hlast
      rw [hshown, hlast]
  · have hslot : ¬ s.Recording slot m := by
      rintro ⟨row', hpending, hmilestone, _⟩
      cases hcall.symm.trans hpending
      exact hid hmilestone.symm
    refine shown_of_frame hslot ?_ (h.shown key m hm hstatus)
    unfold Db.submissions
    rw [hproofs, List.filter_append]
    simp [Ne.symm hid]

/-- A rejected insert was not the one shown. -/
theorem shown_after_rejection {row : ProofSubmission}
    (horder : s.ProofsInOrder (.resume slot env)) (h : s.Points)
    (hcall : s.pending slot = some (.record row)) (hrejected : env.fails .proofCreate = true)
    {key : MilestoneKey} {m : Milestone} (hm : s.shared.db.milestones.find? key = some m)
    (hstatus : m.status = .proofSubmitted) :
    (∃ other, Recording ⟨s.shared, Function.update s.pending slot none⟩ other m) ∨
      s.shared.db.ShowsLast m := by
  by_cases hslot : s.Recording slot m
  · obtain ⟨row', hpending, hmilestone, hhash⟩ := hslot
    cases hcall.symm.trans hpending
    rcases horder.2 row key m hcall hm hmilestone.symm hstatus with
      ⟨other, hne, row', hother, hrow'⟩ | hshown
    · exact .inl ⟨other, row', (Function.update_of_ne hne ..).trans hother, hrow'⟩
    · rw [if_pos hrejected] at hshown
      rcases hshown with hdiffers | hnone
      · exact absurd hhash hdiffers
      · right
        intro last hlast
        rw [hnone] at hlast
        cases hlast
  · exact shown_of_frame hslot rfl (h.shown key m hm hstatus)

theorem points_resume (horder : s.ProofsInOrder (.resume slot env))
    (hcall : s.pending slot = some call) (hresumed : Resumed env s.shared call w rest)
    (h : s.Points) : Points ⟨w, Function.update s.pending slot rest⟩ := by
  refine ⟨?_, linked_after_resume h hcall hresumed⟩
  intro key m hm hstatus
  cases hresumed with
  | ended _ hrejected =>
      by_cases hrecord : ∃ row, call = .record row
      · obtain ⟨row, rfl⟩ := hrecord
        exact shown_after_rejection horder h hcall (hrejected row rfl) hm hstatus
      · exact shown_of_frame (not_recording hcall (not_exists.mp hrecord) m) rfl
          (h.shown key m hm hstatus)
  | read hreads =>
      have hrecord : ∀ row, call ≠ .record row := by
        rintro row rfl
        cases hreads
      exact shown_of_frame (not_recording hcall hrecord m) rfl (h.shown key m hm hstatus)
  | updated origin write follow _ => exact shown_after_update horder h hcall hm hstatus
  | committed writes follow _ =>
      -- a batch leaves no other milestone in PROOF_SUBMITTED than it found there
      have huntouched := not_mem_of_submitted (h.linked slot _ hcall) ⟨m, hm, hstatus⟩
      have hbefore := (find?_writeMilestones_of_not_mem huntouched).symm.trans hm
      refine shown_of_frame (not_recording hcall (fun _ hrecord => by cases hrecord) m) ?_
        (h.shown key m hbefore hstatus)
      unfold Db.submissions
      rw [proofSubmissions_writeMilestones]
  | recorded row hinserted => exact shown_after_record horder h hcall hinserted rfl hm hstatus
  | synced id status releasedAmount =>
      exact shown_of_frame (not_recording hcall (fun _ hrecord => by cases hrecord) m) rfl
        (h.shown key m hm hstatus)

theorem points_step (horder : s.ProofsInOrder a) (hstep : service.step s a = some t)
    (h : s.Points) : t.Points := by
  obtain ⟨slot, call, rfl, hstarts, hfree, rfl⟩ |
    ⟨slot, env, call, w, rest, rfl, hcall, hresumed, rfl⟩ | ⟨move, rfl, rfl⟩ := service_step hstep
  · refine ⟨fun key m hm hstatus => ?_, fun other call' hother => ?_⟩
    · have hslot : ¬ s.Recording slot m := by
        rintro ⟨row, hpending, _⟩
        rw [hfree] at hpending
        cases hpending
      exact shown_of_frame hslot rfl (h.shown key m hm hstatus)
    · rcases pending_update hother with ⟨_, hnew⟩ | ⟨_, hold⟩
      · cases hnew
        exact linked_of_starts _ hstarts
      · exact h.linked other call' hold
  · exact points_resume horder hcall hresumed h
  · exact ⟨h.shown, h.linked⟩

theorem points_idle {db : Db} (chain : String → ContractState) (hstart : db.ProofsShown) :
    (idle db chain).Points where
  shown key m hm hstatus := .inr (hstart key m hm hstatus)
  linked _ _ hpending := by cases hpending

end Service

/-- In a run whose submissions are recorded in the order in which they are
written, and whose `proof_submitted` events find no audit rows, every quiescent
state shows the newest proof of each submitted milestone. -/
theorem proof_pointer_of_quiescent {db : Db} (chain : String → ContractState) {s : Service}
    (hstart : db.ProofsShown)
    (hrun : StepsAlong service.step Service.ProofsInOrder (Service.idle db chain) s)
    (hquiescent : ∀ slot, s.pending slot = none) : s.shared.db.ProofsShown := by
  have hstep : ∀ (u : Service) a (v : Service), u.ProofsInOrder a → service.step u a = some v →
      u.Points → v.Points :=
    fun u a v horder htaken h => Service.points_step horder htaken h
  have hpoints := hrun.invariant hstep (Service.points_idle chain hstart)
  intro key m hm hstatus
  rcases hpoints.shown key m hm hstatus with ⟨slot, row, hpending, _⟩ | hlast
  · rw [hquiescent slot] at hpending
    cases hpending
  · exact hlast

/-- A supplier's submission, from its first statement to its audit row. -/
def submission : List ServiceAction :=
  .begin 0 (.submitShipment ⟨"SHIP-1", 0, "GSUPPLIER", ⟨"aa", 10⟩⟩) ::
    List.replicate 6 (.resume 0 (.calm 1))

/-- The event that the submission's transaction emits. -/
def submissionEvent : List ServiceAction :=
  .begin 0 (.markGuard .event "SHIP-1" (some 0) (.proofSubmitted "") .done) ::
    List.replicate 2 (.resume 0 (.calm 2))

theorem proofsShown_demo : (Db.demo .pending).ProofsShown := by
  intro key m hm hstatus
  obtain rfl := List.mem_singleton.mp (Table.mem_of_find? hm)
  cases hstatus

/-- A submission on its own leaves the pointer at its audit row. -/
theorem submission_shown :
    ∃ s : Service, s.shared.db.proofSubmissions = [⟨"m-1", "QmProof", "GSUPPLIER", "aa", 10⟩] ∧
      s.shared.db.ProofsShown := by
  have hrun : ∃ s : Service, StepsAlong service.step Service.ProofsInOrder
        (Service.idle (Db.demo .pending) fun _ => ⟨.active, 0⟩) s ∧
      (∀ slot, s.pending slot = none) ∧
      s.shared.db.proofSubmissions = [⟨"m-1", "QmProof", "GSUPPLIER", "aa", 10⟩] := by
    refine ⟨_, .tail (.tail (.tail (.tail (.tail (.tail (.tail (.refl _)
      (a := .begin 0 (.submitShipment ⟨"SHIP-1", 0, "GSUPPLIER", ⟨"aa", 10⟩⟩)) trivial rfl)
      (a := .resume 0 (.calm 1)) ⟨?_, ?_⟩ rfl) (a := .resume 0 (.calm 1)) ⟨?_, ?_⟩ rfl)
      (a := .resume 0 (.calm 1)) ⟨?_, ?_⟩ rfl) (a := .resume 0 (.calm 1)) ⟨?_, ?_⟩ rfl)
      (a := .resume 0 (.calm 1)) ⟨?_, ?_⟩ rfl) (a := .resume 0 (.calm 1)) ⟨?_, ?_⟩ rfl,
      ?_, by decide⟩
    case refine_13 => rintro (_ | slot) <;> rfl
    case refine_12 =>
      rintro row key m ⟨⟩ hm _ _
      obtain rfl := List.mem_singleton.mp (Table.mem_of_find? hm)
      exact .inr rfl
    case refine_1 | refine_3 | refine_5 | refine_7 | refine_9 | refine_11 =>
      rintro shipmentId index proofHash follow m ⟨⟩
    all_goals rintro row key m ⟨⟩
  obtain ⟨s, hs, hquiescent, hproofs⟩ := hrun
  exact ⟨s, hproofs, proof_pointer_of_quiescent _ proofsShown_demo hs hquiescent⟩

/-- The event takes the pointer away that the submission has written. -/
theorem event_clears_pointer :
    ∃ s : Service, StepsAlong service.step (fun _ _ => True)
        (Service.idle (Db.demo .pending) fun _ => ⟨.active, 0⟩) s ∧
      (∀ slot, s.pending slot = none) ∧ ¬ s.shared.db.ProofsShown := by
  have hends : ((submission ++ submissionEvent).foldlM service.step
      (Service.idle (Db.demo .pending) fun _ => ⟨.active, 0⟩)).map
        (fun s => (s.shared.db.milestones.find? ("SHIP-1", 0), s.shared.db.proofSubmissions)) =
      some (some { demoMilestone .proofSubmitted with proofHash := some "" },
        [⟨"m-1", "QmProof", "GSUPPLIER", "aa", 10⟩]) := by decide
  have hquiet : ∀ slot, ((submission ++ submissionEvent).foldlM service.step
      (Service.idle (Db.demo .pending) fun _ => ⟨.active, 0⟩)).map (·.pending slot) =
      some none := by
    rintro (_ | slot) <;> rfl
  obtain ⟨s, hs, hrow⟩ := Option.map_eq_some_iff.mp hends
  obtain ⟨hmilestone, hproofs⟩ := Prod.mk.inj hrow
  refine ⟨s, .of_foldlM (fun _ _ _ => trivial) hs, fun slot => ?_, fun h => ?_⟩
  · have hslot := hquiet slot
    rw [hs] at hslot
    exact Option.some.inj hslot
  · have hshown := h ("SHIP-1", 0) _ hmilestone rfl ⟨"m-1", "QmProof", "GSUPPLIER", "aa", 10⟩
    unfold Db.submissions at hshown
    rw [hproofs] at hshown
    exact absurd (Option.some.inj (hshown (by decide))) (by decide)

end ChainSettle
