import ChainSettle.Arbiters.Steps

/-!
An acceptance belongs to the arbiter who gave it. All three operations check
address and status on an earlier read and update the row by its id alone, so an
answer that has been checked may land on another arbiter, and a replacement that
has been checked may remove an arbiter who has accepted. Where no replacement and
no answer to the same shipment cross in this way, a stored answer is always one
that the stored arbiter gave after he was assigned, and no arbiter who has
accepted is replaced.
-/

namespace ChainSettle

open Lib Lib.Eff

section Statements

variable (text : CaseMapping) (env : Env) (w : ArbiterWorld)

theorem resume_replaceRead_cases (id buyerAddress arbiterAddress : String) :
    (ArbiterCall.replaceRead id buyerAddress arbiterAddress).resume text env w = (w, none) ∨
    ∃ shipment, w.db.shipments.find? id = some shipment ∧
      Replaceable text buyerAddress arbiterAddress shipment ∧
      (ArbiterCall.replaceRead id buyerAddress arbiterAddress).resume text env w =
        (w, some (.replaceUpdate id arbiterAddress)) := by
  unfold ArbiterCall.resume ArbiterCall.statement
  rw [exec_bind]
  obtain ⟨err, herr⟩ | ⟨_, hok, _, shipment, hfound, hallowed⟩ :=
    readOnly_replaceChecks text env w.db id buyerAddress arbiterAddress
  · rw [herr]
    exact .inl rfl
  · rw [hok]
    exact .inr ⟨shipment, hfound, hallowed, rfl⟩

/-- The assignment takes the place of the old one, whose answers are forgotten. -/
def ArbiterWorld.reassign (w : ArbiterWorld) (id arbiterAddress : String) (shipment : Shipment) :
    ArbiterWorld where
  db := w.db.assignArbiter id arbiterAddress
  answers := Function.update w.answers id []
  replaced := w.replaced ++ [shipment.arbiterStatus]

theorem resume_replaceUpdate_cases (id arbiterAddress : String) :
    (ArbiterCall.replaceUpdate id arbiterAddress).resume text env w = (w, none) ∨
    Reassigns env w.db id arbiterAddress ∧ ∃ shipment, w.db.shipments.find? id = some shipment ∧
      (ArbiterCall.replaceUpdate id arbiterAddress).resume text env w =
        (w.reassign id arbiterAddress shipment, none) := by
  unfold ArbiterCall.resume ArbiterCall.statement
  rw [exec_bind]
  obtain ⟨err, herr⟩ | ⟨hreassigns, hok⟩ := exec_replaceUpdate_cases env w.db id arbiterAddress
  · rw [herr]
    exact .inl rfl
  · obtain ⟨shipment, hfound⟩ := Option.isSome_iff_exists.mp hreassigns.2.1
    rw [hok]
    refine .inr ⟨hreassigns, shipment, hfound, ?_⟩
    simp only [exec_pure, ArbiterCall.record, hfound]
    rfl

def ArbiterWorld.answer (w : ArbiterWorld) (answer : ArbiterAnswer) (id callerAddress : String) :
    ArbiterWorld :=
  { w with answers := Function.update w.answers id ((answer, callerAddress) :: w.answers id) }

theorem resume_answerRead_cases (answer : ArbiterAnswer) (id callerAddress : String) :
    (ArbiterCall.answerRead answer id callerAddress).resume text env w = (w, none) ∨
    ∃ shipment, w.db.shipments.find? id = some shipment ∧
      shipment.arbiterAddress = callerAddress ∧
      (ArbiterCall.answerRead answer id callerAddress).resume text env w =
        (w.answer answer id callerAddress, some (.answerUpdate answer id callerAddress)) := by
  unfold ArbiterCall.resume ArbiterCall.statement
  rw [exec_bind]
  obtain ⟨err, herr⟩ | ⟨_, hok, shipment, hfound, hcaller, _⟩ :=
    readOnly_answerChecks env w.db answer id callerAddress
  · rw [herr]
    exact .inl rfl
  · rw [hok]
    exact .inr ⟨shipment, hfound, hcaller, rfl⟩

theorem resume_answerUpdate_cases (answer : ArbiterAnswer) (id callerAddress : String) :
    (ArbiterCall.answerUpdate answer id callerAddress).resume text env w = (w, none) ∨
    env.fails .arbiterWrite = false ∧
      (ArbiterCall.answerUpdate answer id callerAddress).resume text env w =
        ({ w with db := w.db.setArbiterStatus id answer.status }, none) := by
  unfold ArbiterCall.resume ArbiterCall.statement
  rw [exec_bind]
  obtain ⟨err, herr⟩ | ⟨hwrites, hok⟩ := exec_answerUpdate_cases env w.db answer id
  · rw [herr]
    exact .inl rfl
  · rw [hok]
    exact .inr ⟨hwrites, rfl⟩

end Statements

/-- An answered assignment was answered by the arbiter himself, since it was
made. -/
def ArbiterWorld.Answered (w : ArbiterWorld) : Prop :=
  ∀ id shipment, w.db.shipments.find? id = some shipment →
    ∀ answer : ArbiterAnswer, shipment.arbiterStatus = answer.status →
      (answer, shipment.arbiterAddress) ∈ w.answers id

/-- What a call that is past its checks relies on is still so. -/
def ArbiterWorld.Backs (w : ArbiterWorld) : ArbiterCall → Prop
  | .replaceUpdate id _ =>
      ∀ shipment, w.db.shipments.find? id = some shipment → shipment.arbiterStatus ≠ .accepted
  | .answerUpdate answer id callerAddress =>
      (answer, callerAddress) ∈ w.answers id ∧
        ∀ shipment, w.db.shipments.find? id = some shipment →
          shipment.arbiterAddress = callerAddress
  | .replaceRead _ _ _ | .answerRead _ _ _ => True

def ArbiterCall.replaces (id : String) : ArbiterCall → Prop
  | .replaceUpdate other _ => other = id
  | _ => False

def ArbiterCall.answers (id : String) : ArbiterCall → Prop
  | .answerUpdate _ other _ => other = id
  | _ => False

namespace Assignments

/-- A replacement is written while no answer to the shipment is past its checks,
and an acceptance while no replacement is. -/
def Clear (s : Assignments) (env : Env) : ArbiterCall → Prop
  | .replaceUpdate id arbiterAddress => Reassigns env s.shared.db id arbiterAddress →
      ∀ other call, s.pending other = some call → ¬ call.answers id
  | .answerUpdate .accept id _ => env.fails .arbiterWrite = false →
      ∀ other call, s.pending other = some call → ¬ call.replaces id
  | _ => True

def Uncrossed (s : Assignments) : AssignmentStep → Prop
  | .resume slot env => ∀ call, s.pending slot = some call → s.Clear env call
  | .begin _ _ | .external _ => True

structure Sound (s : Assignments) : Prop where
  backed : ∀ slot call, s.pending slot = some call → s.shared.Backs call
  answered : s.shared.Answered
  kept : ∀ status ∈ s.shared.replaced, status ≠ .accepted

/-- The state after a statement of the call in the slot. -/
def resumed (s : Assignments) (slot : Nat) (text : CaseMapping) (env : Env) (call : ArbiterCall) :
    Assignments :=
  ⟨(call.resume text env s.shared).1,
    Function.update s.pending slot (call.resume text env s.shared).2⟩

variable {s : Assignments} {slot : Nat}

/-- After a step of one call: what the others and the rest of it rely on. -/
theorem sound_update {w : ArbiterWorld} {rest : Option ArbiterCall}
    (hothers : ∀ other call, s.pending other = some call → w.Backs call)
    (hrest : ∀ call, rest = some call → w.Backs call) (hanswered : w.Answered)
    (hkept : ∀ status ∈ w.replaced, status ≠ .accepted) :
    Sound ⟨w, Function.update s.pending slot rest⟩ := by
  refine ⟨fun other call hcall => ?_, hanswered, hkept⟩
  rcases pending_update hcall with ⟨_, hmine⟩ | ⟨_, hold⟩
  · exact hrest call hmine
  · exact hothers other call hold

/-- The statement has thrown. -/
theorem Sound.stopped (h : s.Sound) : Sound ⟨s.shared, Function.update s.pending slot none⟩ :=
  sound_update h.backed (fun _ hcall => by cases hcall) h.answered h.kept

theorem Sound.replaceRead (h : s.Sound) (text : CaseMapping) (env : Env)
    (id buyerAddress arbiterAddress : String) :
    (s.resumed slot text env (.replaceRead id buyerAddress arbiterAddress)).Sound := by
  unfold resumed
  obtain hstop | ⟨shipment, hfound, hallowed, hnext⟩ :=
    resume_replaceRead_cases text env s.shared id buyerAddress arbiterAddress
  · rw [hstop]
    exact h.stopped
  · rw [hnext]
    refine sound_update h.backed (fun call hcall => ?_) h.answered h.kept
    cases hcall
    intro other hother
    cases hfound.symm.trans hother
    exact hallowed.open_

theorem Sound.answerRead (h : s.Sound) (text : CaseMapping) (env : Env) (answer : ArbiterAnswer)
    (id callerAddress : String) :
    (s.resumed slot text env (.answerRead answer id callerAddress)).Sound := by
  unfold resumed
  obtain hstop | ⟨shipment, hfound, hcaller, hnext⟩ :=
    resume_answerRead_cases text env s.shared answer id callerAddress
  · rw [hstop]
    exact h.stopped
  · rw [hnext]
    have hmore (other : String) (entry : ArbiterAnswer × String)
        (hentry : entry ∈ s.shared.answers other) :
        entry ∈ (s.shared.answer answer id callerAddress).answers other := by
      by_cases hother : other = id
      · subst hother
        simp only [ArbiterWorld.answer, Function.update_self]
        exact .tail _ hentry
      · simpa only [ArbiterWorld.answer, Function.update_of_ne hother] using hentry
    refine sound_update (fun other call hcall => ?_) (fun call hcall => ?_) ?_ h.kept
    · have hbacked := h.backed other call hcall
      cases call with
      | answerUpdate => exact ⟨hmore _ _ hbacked.1, hbacked.2⟩
      | _ => exact hbacked
    · cases hcall
      refine ⟨by simp [ArbiterWorld.answer], fun other hother => ?_⟩
      cases hfound.symm.trans hother
      exact hcaller
    · intro other row hrow given hgiven
      exact hmore _ _ (h.answered other row hrow given hgiven)

theorem Sound.replaceUpdate (h : s.Sound) (text : CaseMapping) {env : Env}
    {id arbiterAddress : String} (hcall : s.pending slot = some (.replaceUpdate id arbiterAddress))
    (hclear : s.Clear env (.replaceUpdate id arbiterAddress)) :
    (s.resumed slot text env (.replaceUpdate id arbiterAddress)).Sound := by
  unfold resumed
  obtain hstop | ⟨hreassigns, shipment, hfound, hnext⟩ :=
    resume_replaceUpdate_cases text env s.shared id arbiterAddress
  · rw [hstop]
    exact h.stopped
  · rw [hnext]
    have hopen : shipment.arbiterStatus ≠ .accepted := h.backed slot _ hcall shipment hfound
    refine sound_update (fun other call hother => ?_) (fun _ hnone => by cases hnone) ?_ ?_
    · have hbacked := h.backed other call hother
      cases call with
      | replaceUpdate id' arbiterAddress' =>
          -- another replacement finds the assignment open again
          intro row hrow
          simp only [ArbiterWorld.reassign, find?_assignArbiter] at hrow
          split at hrow
          · obtain ⟨_, _, rfl⟩ := Option.map_eq_some_iff.mp hrow
            exact fun hstatus => by cases hstatus
          · exact hbacked row hrow
      | answerUpdate answer id' callerAddress =>
          -- an answer past its checks would land on the new arbiter
          have hid : id' ≠ id := hclear hreassigns other _ hother
          simp only [ArbiterWorld.Backs, ArbiterWorld.reassign, find?_assignArbiter, if_neg hid,
            Function.update_of_ne hid]
          exact hbacked
      | _ => trivial
    · intro id' row hrow answer hanswer
      simp only [ArbiterWorld.reassign, find?_assignArbiter] at hrow
      split at hrow
      · obtain ⟨_, _, rfl⟩ := Option.map_eq_some_iff.mp hrow
        cases answer <;> cases hanswer
      · rename_i hid
        simp only [ArbiterWorld.reassign, Function.update_of_ne hid]
        exact h.answered id' row hrow answer hanswer
    · intro status hstatus
      rcases List.mem_append.mp hstatus with hold | hlast
      · exact h.kept status hold
      · rw [List.mem_singleton.mp hlast]
        exact hopen

theorem Sound.answerUpdate (h : s.Sound) (text : CaseMapping) {env : Env} {answer : ArbiterAnswer}
    {id callerAddress : String}
    (hcall : s.pending slot = some (.answerUpdate answer id callerAddress))
    (hclear : s.Clear env (.answerUpdate answer id callerAddress)) :
    (s.resumed slot text env (.answerUpdate answer id callerAddress)).Sound := by
  unfold resumed
  obtain hstop | ⟨hwrites, hnext⟩ :=
    resume_answerUpdate_cases text env s.shared answer id callerAddress
  · rw [hstop]
    exact h.stopped
  · rw [hnext]
    obtain ⟨hgiven, hcaller⟩ := h.backed slot _ hcall
    refine sound_update (fun other call hother => ?_) (fun _ hnone => by cases hnone) ?_ h.kept
    · have hbacked := h.backed other call hother
      cases call with
      | replaceUpdate id' arbiterAddress =>
          intro row hrow
          simp only [find?_setArbiterStatus] at hrow
          split at hrow
          · rename_i hid
            obtain ⟨_, _, rfl⟩ := Option.map_eq_some_iff.mp hrow
            -- a declined arbiter may be replaced, only an acceptance is in the way
            cases answer with
            | accept => exact absurd hid (hclear hwrites other _ hother)
            | decline => exact fun hstatus => by cases hstatus
          · exact hbacked row hrow
      | answerUpdate answer' id' callerAddress' =>
          refine ⟨hbacked.1, fun row hrow => ?_⟩
          simp only [find?_setArbiterStatus] at hrow
          split at hrow
          · rename_i hid
            obtain ⟨old, hold, rfl⟩ := Option.map_eq_some_iff.mp hrow
            exact hbacked.2 old (hid ▸ hold)
          · exact hbacked.2 row hrow
      | _ => trivial
    · intro id' row hrow answer' hanswer
      simp only [find?_setArbiterStatus] at hrow
      split at hrow
      · rename_i hid
        obtain ⟨old, hold, rfl⟩ := Option.map_eq_some_iff.mp hrow
        have hsame : answer' = answer := by
          cases answer <;> cases answer' <;> first | rfl | cases hanswer
        subst hsame hid
        rw [show (old.setArbiterStatus answer'.status).arbiterAddress = callerAddress
          from hcaller old hold]
        exact hgiven
      · exact h.answered id' row hrow answer' hanswer

theorem Sound.step {text : CaseMapping} {t : Assignments} {a : AssignmentStep}
    (huncrossed : s.Uncrossed a) (hstep : (assignments text).step s a = some t) (h : s.Sound) :
    t.Sound := by
  obtain ⟨slot, call, rfl, hstarts, _, rfl⟩ | ⟨slot, env, call, rfl, hcall, rfl⟩ | ⟨event, _⟩ :=
    (assignments text).step_cases hstep
  · refine sound_update h.backed (fun other hother => ?_) h.answered h.kept
    cases hother
    cases call with
    | replaceUpdate | answerUpdate => cases hstarts
    | _ => trivial
  · have hclear := huncrossed call hcall
    cases call with
    | replaceRead id buyerAddress arbiterAddress =>
        exact h.replaceRead text env id buyerAddress arbiterAddress
    | replaceUpdate id arbiterAddress => exact h.replaceUpdate text hcall hclear
    | answerRead answer id callerAddress => exact h.answerRead text env answer id callerAddress
    | answerUpdate answer id callerAddress => exact h.answerUpdate text hcall hclear
  · cases event

end Assignments

/-- In every run in which a replacement is only written while no answer to the
shipment is past its checks, and an acceptance only while no replacement is: a
stored answer was given by the stored arbiter after he was assigned, and no
arbiter who has accepted has been replaced. -/
theorem acceptance_belongs_to_arbiter (text : CaseMapping) {db : Db}
    (hstart : ∀ s ∈ db.shipments.rows, s.arbiterStatus = .pendingAcceptance) {s : Assignments}
    (hrun : StepsAlong (assignments text).step Assignments.Uncrossed (Assignments.idle db) s) :
    (∀ shipment ∈ s.shared.db.shipments.rows,
      (shipment.arbiterStatus = .accepted →
        (.accept, shipment.arbiterAddress) ∈ s.shared.answers shipment.id) ∧
      (shipment.arbiterStatus = .declined →
        (.decline, shipment.arbiterAddress) ∈ s.shared.answers shipment.id)) ∧
    ∀ status ∈ s.shared.replaced, status ≠ .accepted := by
  have hsound : (Assignments.idle db).Sound := by
    refine ⟨fun _ _ hcall => (by cases hcall), fun id shipment hfound answer hanswer => ?_,
      fun _ hstatus => (by cases hstatus)⟩
    rw [hstart shipment (Table.mem_of_find? hfound)] at hanswer
    cases answer <;> cases hanswer
  have hstep (u : Assignments) (a : AssignmentStep) (v : Assignments) (huncrossed : u.Uncrossed a)
      (htaken : (assignments text).step u a = some v) (h : u.Sound) : v.Sound :=
    h.step huncrossed htaken
  have hend := hrun.invariant hstep hsound
  refine ⟨fun shipment hshipment => ?_, hend.kept⟩
  have hanswered := hend.answered shipment.id shipment (Table.find?_of_mem hshipment)
  exact ⟨hanswered .accept, hanswered .decline⟩

section Crossings

/-- A shipment whose arbiter has not answered yet. -/
def assignedDb : Db := { Db.demo .pending with users := demoUsers }

/-- The status of the shipment, its arbiter and who has answered since he was
assigned. -/
def Assignments.observe (s : Assignments) :
    List (ArbiterStatus × String × List (ArbiterAnswer × String)) :=
  s.shared.db.shipments.rows.map fun shipment =>
    (shipment.arbiterStatus, shipment.arbiterAddress, s.shared.answers shipment.id)

/-- The arbiter accepts, with nothing in between. -/
theorem accepted_by_arbiter :
    ∃ s : Assignments, s.observe = [(.accepted, "GARBITER", [(.accept, "GARBITER")])] ∧
      (∀ shipment ∈ s.shared.db.shipments.rows,
        (shipment.arbiterStatus = .accepted →
          (.accept, shipment.arbiterAddress) ∈ s.shared.answers shipment.id) ∧
        (shipment.arbiterStatus = .declined →
          (.decline, shipment.arbiterAddress) ∈ s.shared.answers shipment.id)) ∧
      ∀ status ∈ s.shared.replaced, status ≠ .accepted := by
  have hbegun : StepsAlong (assignments .ascii).step Assignments.Uncrossed
      (Assignments.idle assignedDb)
      ⟨⟨assignedDb, fun _ => [], []⟩,
        Function.update (fun _ => none) 0 (some (.answerRead .accept "SHIP-1" "GARBITER"))⟩ :=
    .tail (a := .begin 0 (.answerRead .accept "SHIP-1" "GARBITER")) (.refl _) trivial rfl
  refine ⟨_, ?_, acceptance_belongs_to_arbiter .ascii (by decide)
    (.tail (a := .resume 0 (.calm 0))
      (.tail (a := .resume 0 (.calm 0)) hbegun (fun call hcall => ?_) rfl)
      (fun call hcall => ?_) rfl)⟩
  · rfl
  · cases hcall
    trivial
  · cases hcall
    intro _ other call hcall
    rcases pending_update hcall with ⟨_, hmine⟩ | ⟨_, hold⟩
    · cases hmine
      exact id
    · dsimp only at hold
      rcases pending_update hold with ⟨_, hmine⟩ | ⟨_, hnone⟩
      · cases hmine
        exact id
      · cases hnone

/-- An acceptance is past its checks when the buyer names another arbiter, and
lands on that one. -/
def acceptanceAfterReplacement : List AssignmentStep :=
  [.begin 0 (.answerRead .accept "SHIP-1" "GARBITER"), .resume 0 (.calm 0),
    .begin 1 (.replaceRead "SHIP-1" "GBUYER" "GOTHER"), .resume 1 (.calm 0), .resume 1 (.calm 0),
    .resume 0 (.calm 0)]

/-- A replacement is past its checks when the arbiter accepts. -/
def replacementAfterAcceptance : List AssignmentStep :=
  [.begin 0 (.replaceRead "SHIP-1" "GBUYER" "GOTHER"), .resume 0 (.calm 0),
    .begin 1 (.answerRead .accept "SHIP-1" "GARBITER"), .resume 1 (.calm 0), .resume 1 (.calm 0),
    .resume 0 (.calm 0)]

/-- In the first the new arbiter counts as having accepted without having called,
in the second one who has accepted is replaced. -/
theorem acceptance_crosses_replacement :
    (∃ s : Assignments, StepsAlong (assignments .ascii).step (fun _ _ => True)
        (Assignments.idle assignedDb) s ∧ s.observe = [(.accepted, "GOTHER", [])]) ∧
      ∃ s : Assignments, StepsAlong (assignments .ascii).step (fun _ _ => True)
        (Assignments.idle assignedDb) s ∧ s.shared.replaced = [.accepted] := by
  have hlands : (acceptanceAfterReplacement.foldlM (assignments .ascii).step
      (Assignments.idle assignedDb)).map Assignments.observe =
      some [(.accepted, "GOTHER", [])] := by rfl
  have hreplaces : (replacementAfterAcceptance.foldlM (assignments .ascii).step
      (Assignments.idle assignedDb)).map (fun s => s.shared.replaced) = some [.accepted] := by rfl
  obtain ⟨s, hs, hobserved⟩ := Option.map_eq_some_iff.mp hlands
  obtain ⟨t, ht, hreplaced⟩ := Option.map_eq_some_iff.mp hreplaces
  exact ⟨⟨s, .of_foldlM (fun _ _ _ => trivial) hs, hobserved⟩,
    t, .of_foldlM (fun _ _ _ => trivial) ht, hreplaced⟩

end Crossings

end ChainSettle
