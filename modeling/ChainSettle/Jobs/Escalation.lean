import ChainSettle.Concurrency.ProofPointer
import ChainSettle.Requests.Extensions
import ChainSettle.Semantics.Jobs

/-!
Is every long dispute escalated? The job takes the age of a dispute from
`updatedAt`, which an approved extension moves as well, and does not look at a
milestone again that it has flagged once, although the flag is of an earlier
dispute or nobody was there to be alerted.

Events, extension requests and runs of the job come one after the other.
`EscalationHistory` notes since when a milestone is disputed and how many runs
have alerted somebody about the dispute that is open now.
-/

namespace ChainSettle

open Lib Lib.Eff

inductive EscalationOperation where
  | disputeRaised (payload : Json)
  | disputeResolved (payload : Json)
  /-- an extension request is created, approved or denied -/
  | extension (call : ExtensionCall)
  /-- meanwhile users register and change their roles -/
  | users (users : Table User.stellarAddress)
  | checkAndEscalateDisputes

/-- What happens, with the clock and the failures it meets. -/
abbrev EscalationAction := Env × EscalationOperation

/-- A request to its end: none has more than four statements. -/
def ExtensionCall.finish (env : Env) (call : ExtensionCall) (db : Db) : Db :=
  complete (ExtensionCall.statement env) 4 call db

/-- The milestone of the request that has just been approved; the approval updates
both in one transaction. -/
def Db.extendedMilestone (db next : Db) : Option MilestoneKey :=
  (next.extensionRequests.rows.find? fun r => r.status = .approved ∧ db.awaits r.id).bind
    fun r => (db.milestoneById r.milestoneId).map Milestone.key

def Db.isDisputed (db : Db) (key : MilestoneKey) : Bool :=
  (db.milestones.find? key).any fun m => m.status = .disputed

structure EscalationHistory where
  db : Db
  updatedAt : MilestoneKey → Nat
  /-- since when a disputed milestone is disputed -/
  since : MilestoneKey → Nat
  /-- how many runs have alerted somebody about that dispute -/
  alerted : MilestoneKey → Nat

namespace EscalationHistory

def start (db : Db) (updatedAt since : MilestoneKey → Nat) : EscalationHistory :=
  ⟨db, updatedAt, since, fun _ => 0⟩

/-- An operation that leaves `next` and has updated the milestone `touched`. -/
def advance (h : EscalationHistory) (env : Env) (next : Db) (touched : Option MilestoneKey) :
    EscalationHistory where
  db := next
  updatedAt key := if touched = some key then env.now else h.updatedAt key
  since key := if next.isDisputed key ∧ ¬ h.db.isDisputed key then env.now else h.since key
  alerted key := if next.isDisputed key ∧ ¬ h.db.isDisputed key then 0 else h.alerted key

/-- A run of the job. -/
def checked (days : Nat) (h : EscalationHistory) (env : Env) : EscalationHistory :=
  let run := checkAndEscalateDisputes env days ⟨h.db, h.updatedAt, []⟩
  { h with
    db := run.db
    updatedAt := run.updatedAt
    alerted := fun key =>
      if ∃ alert ∈ run.sent, alert.key = key then h.alerted key + 1 else h.alerted key }

def step (days : Nat) (h : EscalationHistory) : EscalationAction → EscalationHistory
  | (env, .disputeRaised payload) =>
      h.advance env (after (handleDisputeRaised env payload) h.db)
        (if MarkedPayload env h.db (.disputed env.now) payload then
          (h.db.payloadRow payload).map Milestone.key else none)
  | (env, .disputeResolved payload) =>
      h.advance env (after (handleDisputeResolved env payload) h.db)
        (if Resolves env h.db payload then (h.db.payloadRow payload).map Milestone.key else none)
  | (env, .extension call) =>
      h.advance env (call.finish env h.db) (h.db.extendedMilestone (call.finish env h.db))
  | (env, .users users) => h.advance env { h.db with users := users } none
  | (env, .checkAndEscalateDisputes) => h.checked days env

/-- Somebody has been alerted about every dispute that is older than the
threshold. -/
def Escalated (days : Nat) (at_ : Nat) (h : EscalationHistory) : Prop :=
  ∀ m ∈ h.db.milestones.rows, m.status = .disputed →
    h.since m.key + days * dayLength < at_ → 1 ≤ h.alerted m.key

/-- No dispute is alerted about in two runs. -/
def AlertedOnce (h : EscalationHistory) : Prop := ∀ key, h.alerted key ≤ 1

/-- A run finds every long dispute that nobody knows of old by `updatedAt` too and
without a flag, and somebody to alert. -/
def FindsLong (days : Nat) (h : EscalationHistory) : EscalationAction → Prop
  | (env, .checkAndEscalateDisputes) =>
      ∀ m ∈ h.db.milestones.rows, m.status = .disputed →
        h.since m.key + days * dayLength < env.now → h.alerted m.key = 0 →
          h.updatedAt m.key + days * dayLength < env.now ∧ m.disputeEscalatedAt = none ∧
            h.db.admins ≠ []
  | _ => True

end EscalationHistory

/-- A run of the job completes without a database error. -/
def EscalationAction.Completes : EscalationAction → Prop
  | (env, .checkAndEscalateDisputes) =>
      env.fails .jobRead = false ∧ env.fails .adminRead = false ∧ env.fails .flagWrite = false
  | _ => True

section Flags

/-- What the escalation of a milestone depends on besides its dispute. -/
def Milestone.flag (m : Milestone) : String × MilestoneKey × Option Nat :=
  (m.id, m.key, m.disputeEscalatedAt)

/-- The same milestones with the same flags. -/
def Db.SameFlags (db next : Db) : Prop :=
  next.milestones.rows.map Milestone.flag = db.milestones.rows.map Milestone.flag

variable {db next : Db}

theorem MilestoneWrite.apply_flag (write : MilestoneWrite) (m : Milestone) :
    (write.apply m).flag = m.flag := by
  cases write with
  | resolved approved amount at_ =>
      simp only [MilestoneWrite.apply]
      split
      · split <;> rfl
      · rfl
  | _ => rfl

theorem sameFlags_writePayload (payload : Json) (write : MilestoneWrite) :
    db.SameFlags (db.writePayload payload write) := by
  unfold Db.writePayload Db.writeAt
  split
  · rfl
  · exact Table.map_modify db.milestones _ write.apply write.apply_key write.apply_flag

/-- No statement on an extension request touches a flag. -/
theorem sameFlags_extensionRan {env : Env} {call : ExtensionCall}
    {outcome : Except Exn (Option ExtensionCall)} (h : ExtensionRan env db call outcome next) :
    db.SameFlags next := by
  cases h with
  | read | created => rfl
  | decided milestone request decision callerAddress hfound houtcome hnext =>
      subst hnext
      unfold Db.decided
      split
      · rfl
      · split
        · rfl
        · exact Table.map_modify db.milestones _ (Milestone.extend request.proposedDueAt)
            (Milestone.extend_key request.proposedDueAt) fun _ => rfl

theorem sameFlags_finish (env : Env) (call : ExtensionCall) :
    db.SameFlags (call.finish env db) :=
  complete_keeps (P := fun s => db.SameFlags s)
    (fun call s h => (sameFlags_extensionRan (extensionRan env s call)).trans h) 4 call rfl

end Flags

section Run

variable (env : Env) (admins : List User)

/-- The flag of a row whose key a run has selected. -/
def Milestone.flagIn (keys : List MilestoneKey) (at_ : Nat) (m : Milestone) : Milestone :=
  if m.key ∈ keys then m.escalated at_ else m

theorem flagIn_cons (key : MilestoneKey) (keys : List MilestoneKey) (at_ : Nat) (m : Milestone) :
    m.flagIn (key :: keys) at_ =
      (if m.key = key then m.escalated at_ else m).flagIn keys at_ := by
  unfold Milestone.flagIn
  by_cases hkey : m.key = key
  · rw [if_pos hkey, if_pos (by simp [hkey])]
    split <;> rfl
  · simp [hkey]

/-- A run over rows it has read flags exactly these. -/
theorem rows_foldl_escalate (hwrite : env.fails .flagWrite = false) (read : List Milestone)
    (run : EscalationRun) (hids : (run.db.milestones.rows.map Milestone.id).Nodup)
    (hread : ∀ m ∈ read, ∃ row ∈ run.db.milestones.rows, row.id = m.id ∧ row.key = m.key) :
    (read.foldl (escalate env admins) run).db.milestones.rows =
      run.db.milestones.rows.map (Milestone.flagIn (read.map Milestone.key) env.now) := by
  induction read generalizing run with
  | nil =>
      symm
      apply List.map_id''
      intro row
      simp [Milestone.flagIn]
  | cons m rest ih =>
      obtain ⟨row, hrow, hid, hkey⟩ := hread m (.head _)
      have hnext : (escalate env admins run m).db = run.db.flagEscalated m.key env.now := by
        simp only [escalate, hwrite, Bool.false_eq_true, ↓reduceIte,
          milestoneById_read hids hrow hid, hkey]
      have hmodified : (run.db.flagEscalated m.key env.now).milestones.rows =
          run.db.milestones.rows.map fun row =>
            if row.key = m.key then row.escalated env.now else row := rfl
      have hsameid (row : Milestone) :
          (if row.key = m.key then row.escalated env.now else row).id = row.id := by
        split <;> rfl
      have hsamekey (row : Milestone) :
          (if row.key = m.key then row.escalated env.now else row).key = row.key := by
        split <;> rfl
      rw [List.foldl_cons, ih (escalate env admins run m), hnext, hmodified, List.map_map,
        List.map_cons]
      · apply List.map_congr_left
        intro row _
        exact (flagIn_cons m.key (rest.map Milestone.key) env.now row).symm
      · rw [hnext, hmodified, List.map_map]
        simpa only [Function.comp_def, hsameid] using hids
      · intro m' hm'
        obtain ⟨row', hrow', hid', hkey'⟩ := hread m' (.tail _ hm')
        rw [hnext, hmodified]
        exact ⟨_, List.mem_map_of_mem hrow', (hsameid row').trans hid',
          (hsamekey row').trans hkey'⟩

/-- About which milestones a run alerts. -/
theorem sent_foldl_escalate (read : List Milestone) (run : EscalationRun) (key : MilestoneKey) :
    (∃ alert ∈ (read.foldl (escalate env admins) run).sent, alert.key = key) ↔
      (∃ alert ∈ run.sent, alert.key = key) ∨ admins ≠ [] ∧ key ∈ read.map Milestone.key := by
  induction read generalizing run with
  | nil => simp
  | cons m rest ih =>
      have hsent : (escalate env admins run m).sent =
          run.sent ++ admins.map (escalationAlert env run.db m) := by
        unfold escalate
        dsimp only
        split
        · rfl
        · split <;> rfl
      have halert : (∃ alert ∈ admins.map (escalationAlert env run.db m), alert.key = key) ↔
          admins ≠ [] ∧ key = m.key := by
        cases admins with
        | nil => simp
        | cons admin others =>
            simp [escalationAlert, EscalationAlert.key, Milestone.key, eq_comm]
      rw [List.foldl_cons, ih, hsent]
      simp only [List.mem_append, or_and_right, exists_or, halert, List.map_cons, List.mem_cons,
        or_assoc, ← and_or_left]

end Run

namespace EscalationHistory

variable {h : EscalationHistory} (days : Nat)

/-- Milestones have different ids, no dispute has been alerted about twice, and
one that has been is flagged. -/
structure Flagged (h : EscalationHistory) : Prop where
  ids : (h.db.milestones.rows.map Milestone.id).Nodup
  once : h.AlertedOnce
  flagged : ∀ m ∈ h.db.milestones.rows, 1 ≤ h.alerted m.key → m.disputeEscalatedAt ≠ none

/-- What is sent and flagged by a run without database errors. -/
theorem checked_completes (hflagged : h.Flagged) {env : Env}
    (hcompletes : EscalationAction.Completes (env, .checkAndEscalateDisputes)) :
    ∃ keys : List MilestoneKey,
      (∀ m ∈ h.db.milestones.rows, m.key ∈ keys ↔
        m.status = .disputed ∧ h.updatedAt m.key + days * dayLength < env.now ∧
          m.disputeEscalatedAt = none) ∧
      (∀ key ∈ keys, ∃ m ∈ h.db.milestones.rows, m.key = key) ∧
      (h.checked days env).db.milestones.rows =
        h.db.milestones.rows.map (Milestone.flagIn keys env.now) ∧
      ∀ key, (h.checked days env).alerted key =
        if h.db.admins ≠ [] ∧ key ∈ keys then h.alerted key + 1 else h.alerted key := by
  obtain ⟨hread, hadmins, hwrite⟩ := hcompletes
  let run : EscalationRun := ⟨h.db, h.updatedAt, []⟩
  let overdue := h.db.milestones.rows.filter fun m => run.Overdue env days m
  have hrun : checkAndEscalateDisputes env days run =
      overdue.foldl (escalate env h.db.admins) run := by
    unfold checkAndEscalateDisputes
    rw [if_neg (by simp [hread])]
    dsimp only
    split
    · rename_i hnone
      rw [show overdue = [] from hnone]
      rfl
    · rw [if_neg (by simp [hadmins])]
  have hmem (m : Milestone) (hm : m ∈ overdue) : m ∈ h.db.milestones.rows :=
    (List.mem_filter.mp hm).1
  refine ⟨overdue.map Milestone.key, fun m hm => ?_, fun key hkey => ?_, ?_, fun key => ?_⟩
  · constructor
    · intro hkey
      obtain ⟨other, hother, hsame⟩ := List.mem_map.mp hkey
      rw [List.inj_on_of_nodup_map h.db.milestones.nodup (hmem other hother) hm hsame] at hother
      exact of_decide_eq_true (List.mem_filter.mp hother).2
    · intro hoverdue
      exact List.mem_map_of_mem (List.mem_filter.mpr ⟨hm, decide_eq_true hoverdue⟩)
  · obtain ⟨m, hm, hsame⟩ := List.mem_map.mp hkey
    exact ⟨m, hmem m hm, hsame⟩
  · change (checkAndEscalateDisputes env days run).db.milestones.rows = _
    rw [hrun]
    exact rows_foldl_escalate env h.db.admins hwrite overdue run hflagged.ids
      fun m hm => ⟨m, hmem m hm, rfl, rfl⟩
  · change (if ∃ alert ∈ (checkAndEscalateDisputes env days run).sent, alert.key = key
      then _ else _) = _
    rw [hrun]
    simp only [sent_foldl_escalate]
    simp [run]

theorem flagIn_status (keys : List MilestoneKey) (at_ : Nat) (m : Milestone) :
    (m.flagIn keys at_).status = m.status := by
  unfold Milestone.flagIn
  split <;> rfl

theorem flagIn_key (keys : List MilestoneKey) (at_ : Nat) (m : Milestone) :
    (m.flagIn keys at_).key = m.key := by
  unfold Milestone.flagIn
  split <;> rfl

theorem flagIn_id (keys : List MilestoneKey) (at_ : Nat) (m : Milestone) :
    (m.flagIn keys at_).id = m.id := by
  unfold Milestone.flagIn
  split <;> rfl

/-- After a run all long disputes are escalated exactly when it finds them. -/
theorem escalated_checked_iff (hflagged : h.Flagged) {env : Env}
    (hcompletes : EscalationAction.Completes (env, .checkAndEscalateDisputes)) :
    (h.checked days env).Escalated days env.now ↔
      h.FindsLong days (env, .checkAndEscalateDisputes) := by
  obtain ⟨keys, hselected, _, hrows, halerted⟩ := checked_completes days hflagged hcompletes
  unfold Escalated FindsLong
  rw [hrows]
  simp only [List.forall_mem_map, flagIn_status, flagIn_key, halerted]
  refine forall₂_congr fun m hm => imp_congr_right fun hdisputed => imp_congr_right fun _ => ?_
  have hselected := hselected m hm
  by_cases hnew : h.alerted m.key = 0
  · rw [hnew]
    by_cases hadmins : h.db.admins ≠ []
    · by_cases hkey : m.key ∈ keys
      · simp [hadmins, hkey, (hselected.mp hkey).2.1, (hselected.mp hkey).2.2]
      · rw [if_neg fun h => hkey h.2]
        refine iff_of_false (by omega) fun hfinds => ?_
        obtain ⟨hold, hunflagged, _⟩ := hfinds rfl
        exact hkey (hselected.mpr ⟨hdisputed, hold, hunflagged⟩)
    · simp [hadmins]
  · simp only [hnew, IsEmpty.forall_iff, iff_true]
    split <;> omega

theorem Flagged.checked (hflagged : h.Flagged) {env : Env}
    (hcompletes : EscalationAction.Completes (env, .checkAndEscalateDisputes)) :
    (h.checked days env).Flagged := by
  obtain ⟨keys, hselected, hkeys, hrows, halerted⟩ := checked_completes days hflagged hcompletes
  have hfresh (m : Milestone) (hm : m ∈ h.db.milestones.rows) (hkey : m.key ∈ keys) :
      h.alerted m.key = 0 := by
    by_contra hold
    exact hflagged.flagged m hm (Nat.one_le_iff_ne_zero.mpr hold) ((hselected m hm).mp hkey).2.2
  refine ⟨?_, fun key => ?_, ?_⟩
  · rw [hrows, List.map_map]
    simpa only [Function.comp_def, flagIn_id] using hflagged.ids
  · rw [halerted]
    split
    · rename_i hsent
      obtain ⟨m, hm, rfl⟩ := hkeys key hsent.2
      rw [hfresh m hm hsent.2]
    · exact hflagged.once key
  · rw [hrows]
    simp only [List.forall_mem_map, flagIn_key, halerted]
    intro m hm halert
    by_cases hkey : m.key ∈ keys
    · rw [Milestone.flagIn, if_pos hkey]
      nofun
    · rw [Milestone.flagIn, if_neg hkey]
      rw [if_neg fun h => hkey h.2] at halert
      exact hflagged.flagged m hm halert

/-- The other operations keep the flags, and a new dispute has not been alerted
about. -/
theorem Flagged.advance (hflagged : h.Flagged) (env : Env) {next : Db}
    (hsame : h.db.SameFlags next) (touched : Option MilestoneKey) :
    (h.advance env next touched).Flagged := by
  have hless (key : MilestoneKey) : (h.advance env next touched).alerted key ≤ h.alerted key := by
    unfold EscalationHistory.advance
    dsimp only
    split
    · exact Nat.zero_le _
    · exact Nat.le_refl _
  refine ⟨?_, fun key => (hless key).trans (hflagged.once key), fun m hm halert => ?_⟩
  · have hids := congrArg (List.map Prod.fst) hsame
    rw [List.map_map, List.map_map] at hids
    have hnext : next.milestones.rows.map Milestone.id =
        h.db.milestones.rows.map Milestone.id := hids
    exact hnext ▸ hflagged.ids
  · have hmem : m.flag ∈ h.db.milestones.rows.map Milestone.flag := by
      rw [← hsame]
      exact List.mem_map_of_mem hm
    obtain ⟨old, hold, heq⟩ := List.mem_map.mp hmem
    obtain ⟨_, hrest⟩ := Prod.mk.inj heq
    obtain ⟨hkey, hflag⟩ := Prod.mk.inj hrest
    rw [← hflag]
    exact hflagged.flagged old hold (hkey ▸ halert.trans (hless m.key))

theorem Flagged.step (hflagged : h.Flagged) {a : EscalationAction} (hcompletes : a.Completes) :
    (h.step days a).Flagged := by
  obtain ⟨env, op⟩ := a
  cases op with
  | checkAndEscalateDisputes => exact hflagged.checked days hcompletes
  | users users =>
      have hsame : h.db.SameFlags { h.db with users := users } := rfl
      exact hflagged.advance env hsame none
  | extension call => exact hflagged.advance env (sameFlags_finish env call) _
  | disputeRaised payload =>
      refine hflagged.advance env ?_ _
      rw [after_handleDisputeRaised]
      split
      · exact sameFlags_writePayload payload _
      · rfl
  | disputeResolved payload =>
      refine hflagged.advance env ?_ _
      rw [after_handleDisputeResolved]
      split
      · exact sameFlags_writePayload payload _
      · rfl

end EscalationHistory

/-- Nobody has been alerted at the start. Then no dispute is ever alerted about
twice, and after every run all long disputes are escalated exactly when the runs
find them. -/
theorem long_disputes_escalated_iff_found (days : Nat) {db : Db}
    (hids : (db.milestones.rows.map Milestone.id).Nodup) (updatedAt since : MilestoneKey → Nat)
    (actions : List EscalationAction) (hcompletes : ∀ a ∈ actions, a.Completes) :
    ((∀ pre env post, actions = pre ++ (env, .checkAndEscalateDisputes) :: post →
        (((pre.foldl (EscalationHistory.step days) (.start db updatedAt since)).checked days
          env).Escalated days env.now)) ∧
      ∀ pre post, actions = pre ++ post →
        (pre.foldl (EscalationHistory.step days) (.start db updatedAt since)).AlertedOnce) ↔
      Along (EscalationHistory.step days) (EscalationHistory.FindsLong days)
        (.start db updatedAt since) actions := by
  have hstart : (EscalationHistory.start db updatedAt since).Flagged :=
    ⟨hids, fun _ => Nat.zero_le 1, fun _ _ halert => absurd halert (Nat.not_succ_le_zero 0)⟩
  have hallowed : Along (EscalationHistory.step days) (fun _ a => a.Completes)
      (.start db updatedAt since) actions := by
    refine along_iff_forall.mpr fun pre a post hsplit => hcompletes a ?_
    rw [hsplit]
    exact List.mem_append_right _ (.head _)
  have hstep (h : EscalationHistory) (a : EscalationAction) (hflagged : h.Flagged)
      (hcompletes : a.Completes) : (h.step days a).Flagged := hflagged.step days hcompletes
  have hreached := hallowed.invariant hstep hstart
  rw [along_iff_forall]
  constructor
  · rintro ⟨hescalated, _⟩ pre ⟨env, op⟩ post hsplit
    cases op with
    | checkAndEscalateDisputes =>
        have hmem : (env, EscalationOperation.checkAndEscalateDisputes) ∈ actions := by
          rw [hsplit]
          exact List.mem_append_right _ (.head _)
        exact (EscalationHistory.escalated_checked_iff days (hreached pre _ hsplit)
          (hcompletes _ hmem)).mp (hescalated pre env post hsplit)
    | _ => trivial
  · intro hfinds
    refine ⟨fun pre env post hsplit => ?_, fun pre post hsplit => (hreached pre post hsplit).once⟩
    have hmem : (env, EscalationOperation.checkAndEscalateDisputes) ∈ actions := by
      rw [hsplit]
      exact List.mem_append_right _ (.head _)
    exact (EscalationHistory.escalated_checked_iff days (hreached pre _ hsplit)
      (hcompletes _ hmem)).mpr (hfinds pre _ post hsplit)

/-- One milestone with a deadline, and an administrator. -/
def escalationDb : Db :=
  { Db.demo .proofSubmitted with
    users := ⟨[⟨"GADMIN", .admin, .unverified, none, none⟩], by simp⟩ }

def onDay (day : Nat) (op : EscalationOperation) : EscalationAction :=
  (.calm (day * dayLength), op)

def raisedOn (day : Nat) : EscalationAction :=
  onDay day (.disputeRaised (.arr [.str "SHIP-1", .num 0]))

/-- A dispute of day 1 is escalated on day 9. -/
def longDispute : List EscalationAction := [raisedOn 1, onDay 9 .checkAndEscalateDisputes]

theorem long_dispute_escalated :
    (longDispute.foldl (EscalationHistory.step 7)
      (.start escalationDb (fun _ => 0) fun _ => 0)).Escalated 7 (9 * dayLength) := by
  have hfinds : Along (EscalationHistory.step 7) (EscalationHistory.FindsLong 7)
      (.start escalationDb (fun _ => 0) fun _ => 0) longDispute := by
    refine ⟨trivial, fun m hm _ _ _ => ?_, trivial⟩
    obtain rfl := List.mem_singleton.mp hm
    exact ⟨by decide, rfl, by decide⟩
  have hcompletes (a : EscalationAction) (ha : a ∈ longDispute) : a.Completes := by
    rcases List.mem_cons.mp ha with rfl | hlast
    · trivial
    · obtain rfl := List.mem_singleton.mp hlast
      exact ⟨rfl, rfl, rfl⟩
  exact ((long_disputes_escalated_iff_found 7 (by decide) (fun _ => 0) (fun _ => 0) longDispute
    hcompletes).mpr hfinds).1 [raisedOn 1] (.calm (9 * dayLength)) [] rfl

/-- While the dispute is open the supplier asks for a later deadline, and on day 6
the buyer agrees. -/
def extendedDispute : List EscalationAction :=
  [raisedOn 1,
    onDay 5 (.extension (.createShipment "SHIP-1" 0 ⟨"ext-1", 30 * dayLength, "Port closed"⟩
      "GSUPPLIER")),
    onDay 6 (.extension (.decideShipment "SHIP-1" 0 "ext-1" .approved "GBUYER")),
    onDay 9 .checkAndEscalateDisputes]

/-- A dispute that was escalated is rejected, and the milestone is disputed
again. -/
def disputedTwice : List EscalationAction :=
  longDispute ++
    [onDay 10 (.disputeResolved (.arr [.str "SHIP-1", .num 0, .bool false])), raisedOn 11,
      onDay 19 .checkAndEscalateDisputes]

theorem not_escalated {days at_ : Nat} {h : EscalationHistory} (key : MilestoneKey)
    (hrow : h.db.milestones.rows.map (fun m => (m.key, m.status)) = [(key, .disputed)])
    (hsince : h.since key + days * dayLength < at_) (halerted : h.alerted key = 0) :
    ¬ h.Escalated days at_ := by
  intro hescalated
  obtain ⟨m, hm, hpair⟩ := List.mem_map.mp (hrow ▸ List.mem_singleton.mpr rfl)
  obtain ⟨hkey, hdisputed⟩ := Prod.mk.inj hpair
  have hone := hescalated m hm hdisputed
  rw [hkey] at hone
  exact absurd (hone hsince) (by omega)

/-- The run of day 9 takes the extended dispute for three days old; the run of day
19 finds the flag of the first dispute. -/
theorem long_disputes_missed :
    ¬ (extendedDispute.foldl (EscalationHistory.step 7)
      (.start escalationDb (fun _ => 0) fun _ => 0)).Escalated 7 (9 * dayLength) ∧
    ¬ (disputedTwice.foldl (EscalationHistory.step 7)
      (.start escalationDb (fun _ => 0) fun _ => 0)).Escalated 7 (19 * dayLength) :=
  ⟨not_escalated ("SHIP-1", 0) rfl (by decide) (by decide),
    not_escalated ("SHIP-1", 0) rfl (by decide) (by decide)⟩

end ChainSettle
