import ChainSettle.Organizations.Members

/-!
No escalation. The users whose rank in an organization is at most a given one, and
those who are not in it, cannot touch the memberships above that rank, however many
of them act together: whoever adds or promotes somebody has at least the rank that is
given, and what a call has read of a membership below stays below, since those above
do not change.
-/

namespace ChainSettle

open Lib

section Ranks

/-- The memberships of an organization above a rank. -/
def Members.above (members : Members) (orgId : Uuid) (rank : Nat) : List OrganizationMember :=
  members.rows.filter fun m => m.orgId = orgId ∧ rank < m.role.rank

/-- The organization and the caller of a call that changes members. -/
def OrgStatement.issuer : OrgStatement → Option (Uuid × String)
  | .addMember orgId callerId _ _ => some (orgId, callerId)
  | .changeRole orgId callerId _ _ => some (orgId, callerId)
  | .removeMember orgId callerId _ => some (orgId, callerId)
  | _ => none

/-- The user has a membership of the rank at most, or none. -/
def Members.atMost (members : Members) (orgId : Uuid) (rank : Nat) (userId : String) : Prop :=
  ∀ m ∈ members.getMembership orgId userId, m.role.rank ≤ rank

instance (members : Members) (orgId : Uuid) (rank : Nat) (userId : String) :
    Decidable (members.atMost orgId rank userId) :=
  inferInstanceAs (Decidable (∀ m ∈ members.getMembership orgId userId, m.role.rank ≤ rank))

/-- The user has none of the memberships `high`. -/
def Below (high : List OrganizationMember) (userId : String) : Prop :=
  ∀ m ∈ high, m.userId ≠ userId

/-- The role that a write gives is of the rank at most. -/
def MemberWrite.grantsAtMost (rank : Nat) : MemberWrite → Prop
  | .changeRole role => role.rank ≤ rank
  | .delete => True

/-- What the calls on an organization have established, where `high` are the
memberships above the rank. -/
def Unprivileged (orgId : Uuid) (rank : Nat) (high : List OrganizationMember)
    (members : Members) : OrgStatement → Prop
  | .addMember org callerId _ _ | .changeRole org callerId _ _ | .removeMember org callerId _ =>
      org = orgId → Below high callerId
  | .findUser org _ role | .findExisting org _ role | .createMember org _ role =>
      org = orgId → role.rank ≤ rank
  | .findMember org callerRole _ _ => org = orgId → callerRole.rank ≤ rank
  | .requireRemover callerId member =>
      ReadFrom members member ∧ (member.orgId = orgId →
        Below high callerId ∧ ∀ m ∈ high, m.id = member.id → rank < member.role.rank)
  | .assertNotLastOwner member change | .write member change =>
      ReadFrom members member ∧ (member.orgId = orgId →
        (∀ m ∈ high, m.id ≠ member.id) ∧ change.grantsAtMost rank)
  | .create .. => False
  | .findOrganization _ => True

variable {orgId : Uuid} {rank : Nat} {high : List OrganizationMember} {members members' : Members}

theorem mem_above {m : OrganizationMember} :
    m ∈ members.above orgId rank ↔ m ∈ members.rows ∧ m.orgId = orgId ∧ rank < m.role.rank := by
  simp [Members.above]

/-- A caller's role, where he has none of the memberships above the rank. -/
theorem rank_le_of_below (habove : members.above orgId rank = high) {callerId : String}
    (hbelow : Below high callerId) {m : OrganizationMember}
    (hm : members.getMembership orgId callerId = some m) : m.role.rank ≤ rank := by
  obtain ⟨hmem, horg, huser⟩ := mem_of_getMembership hm
  by_contra hhigh
  have habove' : m ∈ high := habove ▸ mem_above.mpr ⟨hmem, horg, Nat.lt_of_not_le hhigh⟩
  exact hbelow m habove' huser

/-- A membership above the rank is known by its id. -/
theorem rank_lt_of_id (habove : members.above orgId rank = high) {member : OrganizationMember}
    (hmember : member ∈ members.rows) : ∀ m ∈ high, m.id = member.id → rank < member.role.rank := by
  intro m hm hid
  obtain ⟨hmem, -, hrank⟩ := mem_above.mp (habove ▸ hm : m ∈ members.above orgId rank)
  rwa [← List.inj_on_of_nodup_map members.nodup hmem hmember hid]

theorem below_of_atMost {start : Members} {callerId : String}
    (h : start.atMost orgId rank callerId) : Below (start.above orgId rank) callerId := by
  rintro m hm rfl
  obtain ⟨hmem, horg, hrank⟩ := mem_above.mp hm
  have hsome : (start.getMembership orgId m.userId).isSome := by
    refine List.find?_isSome.mpr ⟨m, hmem, ?_⟩
    simp [OrganizationMember.place, horg]
  obtain ⟨other, hother⟩ := Option.isSome_iff_exists.mp hsome
  obtain ⟨hothermem, hotherorg, hotheruser⟩ := mem_of_getMembership hother
  have hplace : other.place = m.place := by
    simp [OrganizationMember.place, hotherorg, hotheruser, horg]
  have hsame : other = m := List.inj_on_of_nodup_map start.unique hothermem hmem hplace
  have hlow := h other hother
  rw [hsame] at hlow
  exact Nat.not_lt.mpr hlow hrank

/-- The writes leave the memberships above the rank as they are. -/
theorem above_create {org : Uuid} {userId : String} {role : OrganizationRole}
    (h : members.create org userId role = some members') (hrole : org = orgId → role.rank ≤ rank) :
    members'.above orgId rank = members.above orgId rank := by
  refine Members.filter_create h (decide_eq_false ?_)
  rintro ⟨horg, hrank⟩
  exact Nat.not_lt.mpr (hrole horg) hrank

/-- The row that a write addresses is not above the rank. -/
theorem not_above_of_id (habove : members.above orgId rank = high) {member : OrganizationMember}
    (hread : ReadFrom members member)
    (hlow : member.orgId = orgId → ∀ m ∈ high, m.id ≠ member.id) :
    ∀ m ∈ members.rows, m.id = member.id → ¬ (m.orgId = orgId ∧ rank < m.role.rank) := by
  rintro m hmem hid ⟨horg, hrank⟩
  have hplace : m.orgId = member.orgId := congrArg Prod.fst (hread.place m hmem hid)
  have hhigh : m ∈ high := habove ▸ mem_above.mpr ⟨hmem, horg, hrank⟩
  exact hlow (hplace.symm.trans horg) m hhigh hid

theorem above_updateRole (habove : members.above orgId rank = high) {member : OrganizationMember}
    (hread : ReadFrom members member)
    (hlow : member.orgId = orgId → ∀ m ∈ high, m.id ≠ member.id) {role : OrganizationRole}
    (hrole : member.orgId = orgId → role.rank ≤ rank)
    (h : members.updateRole member.id role = some members') :
    members'.above orgId rank = high := by
  refine (Members.filter_updateRole h (fun m hmem hid => ?_) fun m hmem hid => ?_).trans habove
  · exact decide_eq_false (not_above_of_id habove hread hlow m hmem hid)
  · refine decide_eq_false ?_
    rintro ⟨horg, hrank⟩
    have hplace : m.orgId = member.orgId := congrArg Prod.fst (hread.place m hmem hid)
    exact Nat.not_lt.mpr (hrole (hplace.symm.trans horg)) hrank

theorem above_delete (habove : members.above orgId rank = high) {member : OrganizationMember}
    (hread : ReadFrom members member)
    (hlow : member.orgId = orgId → ∀ m ∈ high, m.id ≠ member.id)
    (h : members.delete member.id = some members') : members'.above orgId rank = high :=
  (Members.filter_delete h fun m hmem hid =>
    decide_eq_false (not_above_of_id habove hread hlow m hmem hid)).trans habove

end Ranks

section Steps

variable {orgId : Uuid} {rank : Nat} {high : List OrganizationMember} {w : OrgWorld}

/-- What a step of an unprivileged call keeps and establishes. -/
structure Harmless (orgId : Uuid) (rank : Nat) (high : List OrganizationMember) (w : OrgWorld)
    (r : OrgWorld × List OrgStatement) : Prop where
  above : r.1.members.above orgId rank = high
  calls : ∀ next ∈ r.2, Unprivileged orgId rank high r.1.members next
  readFrom : ∀ member, ReadFrom w.members member → ReadFrom r.1.members member

/-- A step that reads. -/
theorem Harmless.read (habove : w.members.above orgId rank = high) {calls : List OrgStatement}
    (hcalls : ∀ next ∈ calls, Unprivileged orgId rank high w.members next) :
    Harmless orgId rank high w (w, calls) :=
  ⟨habove, hcalls, fun _ h => h⟩

theorem Harmless.refuse (habove : w.members.above orgId rank = high) (status : Nat)
    (message : String) : Harmless orgId rank high w (w.refuse status message) :=
  ⟨habove, List.forall_mem_nil _, fun _ h => h⟩

theorem harmless_requireRole (habove : w.members.above orgId rank = high) {org : Uuid}
    {callerId : String} {minRole : OrganizationRole}
    {next : OrganizationRole → OrgWorld × List OrgStatement}
    (hnext : ∀ m, w.members.getMembership org callerId = some m →
      Harmless orgId rank high w (next m.role)) :
    Harmless orgId rank high w (w.requireRole org callerId minRole next) := by
  unfold OrgWorld.requireRole
  split
  · exact .read habove (List.forall_mem_singleton.mpr trivial)
  · rename_i membership hmembership
    split
    · exact .refuse habove _ _
    · exact hnext membership hmembership

theorem harmless_assertCanAssign (habove : w.members.above orgId rank = high)
    {callerRole role : OrganizationRole} {next : OrgWorld × List OrgStatement}
    (hnext : role.rank ≤ callerRole.rank → Harmless orgId rank high w next) :
    Harmless orgId rank high w (w.assertCanAssign callerRole role next) := by
  unfold OrgWorld.assertCanAssign
  split
  · exact .refuse habove _ _
  · rename_i hassign
    exact hnext (Nat.le_of_not_lt hassign)

theorem unprivileged_next {members : Members} {member : OrganizationMember} {change : MemberWrite}
    (hread : ReadFrom members member)
    (hlow : member.orgId = orgId → (∀ m ∈ high, m.id ≠ member.id) ∧ change.grantsAtMost rank) :
    Unprivileged orgId rank high members (change.next member) := by
  unfold MemberWrite.next
  split
  · exact ⟨hread, hlow⟩
  · exact ⟨hread, hlow⟩

theorem harmless_exec (input : OrgInput) (habove : w.members.above orgId rank = high)
    {call : OrgStatement} (hcall : Unprivileged orgId rank high w.members call) :
    Harmless orgId rank high w (call.exec input w) := by
  cases call with
  | create userId name => exact hcall.elim
  | addMember org callerId target role =>
      simp only [OrgStatement.exec]
      refine harmless_requireRole habove fun m hm => ?_
      refine harmless_assertCanAssign habove fun hassign => ?_
      refine .read habove (List.forall_mem_singleton.mpr ?_)
      rintro rfl
      exact hassign.trans (rank_le_of_below habove (hcall rfl) hm)
  | findUser org target role =>
      simp only [OrgStatement.exec]
      split
      · exact .refuse habove _ _
      · exact .read habove (List.forall_mem_singleton.mpr hcall)
  | findExisting org userId role =>
      simp only [OrgStatement.exec]
      split
      · exact .refuse habove _ _
      · exact .read habove (List.forall_mem_singleton.mpr hcall)
  | createMember org userId role =>
      simp only [OrgStatement.exec]
      split
      · exact .refuse habove _ _
      · rename_i members hcreate
        exact ⟨(above_create hcreate hcall).trans habove, List.forall_mem_nil _,
          fun _ h => h.create hcreate⟩
  | changeRole org callerId userId role =>
      simp only [OrgStatement.exec]
      refine harmless_requireRole habove fun m hm => ?_
      refine .read habove (List.forall_mem_singleton.mpr ?_)
      rintro rfl
      exact rank_le_of_below habove (hcall rfl) hm
  | findMember org callerRole userId role =>
      simp only [OrgStatement.exec]
      split
      · exact .refuse habove _ _
      · rename_i member hmember
        obtain ⟨hmem, horg, -⟩ := mem_of_getMembership hmember
        refine harmless_assertCanAssign habove fun hcurrent => ?_
        refine harmless_assertCanAssign habove fun hassign => ?_
        refine .read habove (List.forall_mem_singleton.mpr ?_)
        refine unprivileged_next (ReadFrom.of_mem hmem) fun hsame => ?_
        have hcaller : callerRole.rank ≤ rank := hcall (horg.symm.trans hsame)
        refine ⟨fun m hm hid => ?_, hassign.trans hcaller⟩
        exact Nat.not_lt.mpr (hcurrent.trans hcaller) (rank_lt_of_id habove hmem m hm hid)
  | removeMember org callerId userId =>
      simp only [OrgStatement.exec]
      split
      · exact .refuse habove _ _
      · rename_i member hmember
        obtain ⟨hmem, horg, huser⟩ := mem_of_getMembership hmember
        have hids := rank_lt_of_id habove hmem
        split
        · refine .read habove (List.forall_mem_singleton.mpr ⟨ReadFrom.of_mem hmem, fun hsame => ?_⟩)
          exact ⟨hcall (horg.symm.trans hsame), hids⟩
        · rename_i hself
          refine .read habove (List.forall_mem_singleton.mpr ?_)
          refine unprivileged_next (ReadFrom.of_mem hmem) fun hsame => ⟨fun m hm hid => ?_, trivial⟩
          -- the caller leaves, and is not above the rank himself
          obtain ⟨hmem', -, -⟩ := mem_above.mp (habove ▸ hm : m ∈ w.members.above orgId rank)
          have hboth : m = member := List.inj_on_of_nodup_map w.members.nodup hmem' hmem hid
          refine hcall (horg.symm.trans hsame) m hm ?_
          rw [hboth, huser]
          exact not_not.mp hself
  | requireRemover callerId member =>
      obtain ⟨hread, hlow⟩ := hcall
      simp only [OrgStatement.exec]
      refine harmless_requireRole habove fun m hm => ?_
      refine harmless_assertCanAssign habove fun hassign => ?_
      refine .read habove (List.forall_mem_singleton.mpr ?_)
      refine unprivileged_next hread fun hsame => ⟨fun other hother hid => ?_, trivial⟩
      obtain ⟨hbelow, hids⟩ := hlow hsame
      have hcaller : m.role.rank ≤ rank := rank_le_of_below habove hbelow (hsame ▸ hm)
      exact Nat.not_lt.mpr (hassign.trans hcaller) (hids other hother hid)
  | findOrganization org =>
      simp only [OrgStatement.exec]
      split
      · exact .refuse habove _ _
      · exact .refuse habove _ _
  | assertNotLastOwner member change =>
      simp only [OrgStatement.exec]
      split
      · exact .refuse habove _ _
      · exact .read habove (List.forall_mem_singleton.mpr hcall)
  | write member change =>
      obtain ⟨hread, hlow⟩ := hcall
      cases change with
      | changeRole role =>
          simp only [OrgStatement.exec]
          split
          · exact .refuse habove _ _
          · rename_i members hupdate
            exact ⟨above_updateRole habove hread (fun h => (hlow h).1) (fun h => (hlow h).2) hupdate,
              List.forall_mem_nil _, fun _ h => h.updateRole hupdate⟩
      | delete =>
          simp only [OrgStatement.exec]
          split
          · exact .refuse habove _ _
          · rename_i members hdelete
            exact ⟨above_delete habove hread (fun h => (hlow h).1) hdelete,
              List.forall_mem_nil _, fun _ h => h.delete hdelete⟩

theorem harmless_resume (input : OrgInput) (habove : w.members.above orgId rank = high)
    {call : OrgStatement} (hcall : Unprivileged orgId rank high w.members call) :
    Harmless orgId rank high w (call.resume input w) := by
  unfold OrgStatement.resume
  split
  · exact .read habove (List.forall_mem_nil _)
  · exact harmless_exec input habove hcall

/-- The other calls go on with what they have established. -/
theorem Unprivileged.readFrom {members members' : Members} {call : OrgStatement}
    (h : Unprivileged orgId rank high members call)
    (hread : ∀ member, ReadFrom members member → ReadFrom members' member) :
    Unprivileged orgId rank high members' call := by
  cases call with
  | requireRemover callerId member => exact ⟨hread member h.1, h.2⟩
  | assertNotLastOwner member change => exact ⟨hread member h.1, h.2⟩
  | write member change => exact ⟨hread member h.1, h.2⟩
  | _ => exact h

end Steps

section Runs

variable {orgId : Uuid} {rank : Nat} {high : List OrganizationMember}

structure RanksKept (orgId : Uuid) (rank : Nat) (high : List OrganizationMember) (s : OrgPool) :
    Prop where
  above : s.shared.members.above orgId rank = high
  calls : ∀ call ∈ s.inflight, Unprivileged orgId rank high s.shared.members call

/-- The call is issued by a user who has none of the memberships `high`. -/
def IssuedBelow (orgId : Uuid) (high : List OrganizationMember) (call : OrgStatement) : Prop :=
  ∃ issuer, call.issuer = some issuer ∧ (issuer.1 = orgId → Below high issuer.2)

theorem unprivileged_of_issued {members : Members} {call : OrgStatement}
    (h : IssuedBelow orgId high call) : Unprivileged orgId rank high members call := by
  obtain ⟨issuer, hissuer, hbelow⟩ := h
  cases call with
  | addMember org callerId target role => cases hissuer; exact hbelow
  | changeRole org callerId userId role => cases hissuer; exact hbelow
  | removeMember org callerId userId => cases hissuer; exact hbelow
  | _ => cases hissuer

theorem ranksKept_step {s : OrgPool} (h : RanksKept orgId rank high s) (a : OrgAction)
    (hissued : ∀ call, a = .begin call → IssuedBelow orgId high call) :
    RanksKept orgId rank high (orgs.step s a) := by
  have hkeeps := orgs.keeps_step (Q := fun w => w.members.above orgId rank = high)
    (P := fun w => Unprivileged orgId rank high w.members) a h.above h.calls
    (fun call hbegin _ => unprivileged_of_issued (hissued call hbegin))
    (fun index input call _ hcall => by
      have hharmless := harmless_resume input h.above (h.calls call (List.mem_of_getElem? hcall))
      refine ⟨hharmless.above, hharmless.calls, fun other hmem => ?_⟩
      exact (h.calls other (List.mem_of_mem_eraseIdx hmem)).readFrom hharmless.readFrom)
    (fun event => event.elim)
  exact ⟨hkeeps.1, hkeeps.2⟩

/-- Along every run of `addMember`, `changeRole` and `removeMember` calls in which those
on an organization are issued by users of a rank at most, the memberships above that
rank stay as they were. -/
theorem roles_not_escalated (orgId : Uuid) (rank : Nat) (start : OrgWorld)
    (actions : List OrgAction)
    (h : ∀ call, .begin call ∈ actions → ∃ issuer, call.issuer = some issuer ∧
      (issuer.1 = orgId → start.members.atMost orgId rank issuer.2)) :
    ∀ pre post, actions = pre ++ post →
      (orgs.run pre ⟨start, []⟩).shared.members.above orgId rank =
        start.members.above orgId rank := by
  rintro pre post rfl
  have hrun : RanksKept orgId rank (start.members.above orgId rank) (orgs.run pre ⟨start, []⟩) := by
    refine List.foldlRecOn (motive := RanksKept orgId rank (start.members.above orgId rank)) pre
      orgs.step ⟨rfl, List.forall_mem_nil _⟩ ?_
    intro s hs a ha
    refine ranksKept_step hs a ?_
    rintro call rfl
    obtain ⟨issuer, hissuer, hlow⟩ := h call (List.mem_append_left _ ha)
    exact ⟨issuer, hissuer, fun horg => below_of_atMost (hlow horg)⟩
  exact hrun.above

/-- An OWNER and an ADMIN of one organization, and a user who is in none. -/
def tradingHouse : OrgWorld where
  organizations := Table.empty.insert ⟨0, "Trading house", "olga"⟩
  members := {
    rows := [⟨1, 0, "olga", .owner⟩, ⟨2, 0, "ada", .admin⟩]
    nodup := by decide
    unique := by decide
    drawn := 3
    fresh := by decide }
  users := [⟨"sam", "GSAM"⟩]
  responses := []

/-- The ADMIN adds the user as an ADMIN, and both go for the OWNER. -/
def jointAttempt : List OrgAction :=
  let next : OrgInput := ⟨⟨id, List.Perm.refl⟩, false⟩
  [.begin (.addMember 0 "ada" ⟨some "sam", none⟩ .admin), .resume 0 next, .resume 0 next,
    .resume 0 next, .resume 0 next, .begin (.removeMember 0 "sam" "olga"),
    .begin (.changeRole 0 "ada" "sam" .owner), .resume 0 next, .resume 0 next, .resume 0 next,
    .resume 0 next]

theorem owner_stays_above :
    (orgs.run jointAttempt ⟨tradingHouse, []⟩).shared.members.above 0 2 =
        [⟨1, 0, "olga", .owner⟩] ∧
      (orgs.run jointAttempt ⟨tradingHouse, []⟩).shared.members.rows.length = 3 := by
  refine ⟨roles_not_escalated 0 2 tradingHouse jointAttempt ?_ jointAttempt [] rfl, by decide⟩
  intro call hcall
  have hbegun : call = .addMember 0 "ada" ⟨some "sam", none⟩ .admin ∨
      call = .removeMember 0 "sam" "olga" ∨ call = .changeRole 0 "ada" "sam" .owner := by
    simpa [jointAttempt] using hcall
  rcases hbegun with rfl | rfl | rfl
  · exact ⟨_, rfl, fun _ => by decide⟩
  · exact ⟨_, rfl, fun _ => by decide⟩
  · exact ⟨_, rfl, fun _ => by decide⟩

end Runs

end ChainSettle
