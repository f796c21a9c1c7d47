import ChainSettle.Organizations.Members

/-!
The last owner. An OWNER who steps down, or is removed, is counted among the OWNERs in
one statement and gives way in the next, and whoever was no OWNER when his membership
was read is not counted at all. An organization keeps an OWNER as long as each count,
and each write without one, leaves an OWNER that no other call is about to take away.
-/

namespace ChainSettle

open Lib

section Spare

/-- Every organization has an OWNER. -/
def OwnersRemain (w : OrgWorld) : Prop :=
  ∀ o ∈ w.organizations.rows, ∃ m ∈ w.members.rows, m.orgId = o.id ∧ m.role = .owner

instance (w : OrgWorld) : Decidable (OwnersRemain w) :=
  inferInstanceAs (Decidable (∀ o ∈ w.organizations.rows,
    ∃ m ∈ w.members.rows, m.orgId = o.id ∧ m.role = .owner))

/-- The OWNER that a call takes away, once it has been counted. -/
def OrgStatement.takes : OrgStatement → Option Uuid
  | .write member change => if change.stepsDown member then some member.id else none
  | _ => none

/-- The member that a call has read. -/
def OrgStatement.target : OrgStatement → Option OrganizationMember
  | .requireRemover _ member | .assertNotLastOwner member _ | .write member _ => some member
  | _ => none

/-- An organization has an OWNER that none of the calls takes away. -/
def SpareOwner (w : OrgWorld) (calls : List OrgStatement) (orgId : Uuid) : Prop :=
  ∃ m ∈ w.members.owners orgId, ∀ call ∈ calls, call.takes ≠ some m.id

/-- The member's organization has another OWNER that none of the calls takes away. -/
def OtherOwner (w : OrgWorld) (calls : List OrgStatement) (member : OrganizationMember) : Prop :=
  ∃ m ∈ w.members.owners member.orgId, m.id ≠ member.id ∧
    ∀ call ∈ calls, call.takes ≠ some m.id

/-- A count that passes, and a write without one that takes an OWNER away, leave
another OWNER. -/
def OrgStatement.LeavesOwner (w : OrgWorld) (others : List OrgStatement) : OrgStatement → Prop
  | .assertNotLastOwner member _ =>
      1 < (w.members.owners member.orgId).length → OtherOwner w others member
  | .write member change =>
      change.stepsDown member = false → change ≠ .changeRole .owner →
        (∃ m ∈ w.members.owners member.orgId, m.id = member.id) → OtherOwner w others member
  | _ => True

def OwnersApart (s : OrgPool) : OrgAction → Prop
  | .resume index input =>
      ∀ call ∈ s.inflight[index]?, input.thrown = false →
        call.LeavesOwner s.shared (s.inflight.eraseIdx index)
  | _ => True

instance (w : OrgWorld) (calls : List OrgStatement) (member : OrganizationMember) :
    Decidable (OtherOwner w calls member) :=
  inferInstanceAs (Decidable (∃ m ∈ w.members.owners member.orgId, m.id ≠ member.id ∧
    ∀ call ∈ calls, call.takes ≠ some m.id))

instance (w : OrgWorld) (others : List OrgStatement) :
    (call : OrgStatement) → Decidable (call.LeavesOwner w others)
  | .assertNotLastOwner member _ =>
      inferInstanceAs (Decidable (1 < (w.members.owners member.orgId).length → _))
  | .write member change =>
      inferInstanceAs (Decidable (change.stepsDown member = false →
        change ≠ .changeRole .owner → _ → OtherOwner w others member))
  | .create .. | .addMember .. | .findUser .. | .findExisting .. | .createMember ..
  | .changeRole .. | .findMember .. | .removeMember .. | .requireRemover ..
  | .findOrganization .. => inferInstanceAs (Decidable True)

instance (s : OrgPool) : (a : OrgAction) → Decidable (OwnersApart s a)
  | .resume index input =>
      inferInstanceAs (Decidable (∀ call ∈ s.inflight[index]?, input.thrown = false → _))
  | .begin _ | .crash _ | .external _ => inferInstanceAs (Decidable True)

variable {w : OrgWorld} {calls : List OrgStatement} {orgId : Uuid}

theorem mem_owners {members : Members} {m : OrganizationMember} :
    m ∈ members.owners orgId ↔ m ∈ members.rows ∧ m.orgId = orgId ∧ m.role = .owner := by
  simp [Members.owners]

theorem SpareOwner.remains (h : SpareOwner w calls orgId) :
    ∃ m ∈ w.members.rows, m.orgId = orgId ∧ m.role = .owner := by
  obtain ⟨m, hm, -⟩ := h
  exact ⟨m, mem_owners.mp hm⟩

theorem SpareOwner.subset (h : SpareOwner w calls orgId) {fewer : List OrgStatement}
    (hfewer : ∀ call ∈ fewer, call ∈ calls) : SpareOwner w fewer orgId := by
  obtain ⟨m, hm, hspare⟩ := h
  exact ⟨m, hm, fun call hcall => hspare call (hfewer call hcall)⟩

theorem id_of_takes {member : OrganizationMember} {change : MemberWrite} {id : Uuid}
    (h : (OrgStatement.write member change).takes = some id) :
    change.stepsDown member ∧ member.id = id := by
  unfold OrgStatement.takes at h
  simpa using h

theorem takes_next (member : OrganizationMember) (change : MemberWrite) :
    (change.next member).takes = none := by
  unfold MemberWrite.next
  split
  · rfl
  · rename_i hstays
    exact if_neg hstays

theorem target_next (member : OrganizationMember) (change : MemberWrite) :
    (change.next member).target = some member := by
  unfold MemberWrite.next
  split <;> rfl

/-- An OWNER that is not the row of a write stays one. -/
theorem owners_updateRole {members members' : Members} {id : Uuid} {role : OrganizationRole}
    (h : members.updateRole id role = some members') {m : OrganizationMember}
    (hm : m ∈ members.owners orgId) (hkept : m.id ≠ id ∨ role = .owner) :
    ∃ m' ∈ members'.owners orgId, m'.id = m.id := by
  obtain ⟨hmem, horg, hrole⟩ := mem_owners.mp hm
  refine ⟨if m.id = id then m.withRole role else m, mem_owners.mpr ⟨?_, ?_, ?_⟩, ?_⟩
  · rw [(Members.rows_updateRole h).1]
    exact List.mem_map_of_mem hmem
  · split
    · exact horg
    · exact horg
  · split
    · rename_i hid
      exact hkept.resolve_left (not_not.mpr hid)
    · exact hrole
  · split
    · rfl
    · rfl

theorem owners_delete {members members' : Members} {id : Uuid}
    (h : members.delete id = some members') {m : OrganizationMember}
    (hm : m ∈ members.owners orgId) (hkept : m.id ≠ id) : m ∈ members'.owners orgId := by
  obtain ⟨hmem, hkind⟩ := mem_owners.mp hm
  refine mem_owners.mpr ⟨?_, hkind⟩
  rw [(Members.rows_delete h).1]
  exact List.mem_filter.mpr ⟨hmem, decide_eq_true hkept⟩

theorem owners_create {members members' : Members} {org : Uuid} {userId : String}
    {role : OrganizationRole} (h : members.create org userId role = some members')
    {m : OrganizationMember} (hm : m ∈ members.owners orgId) : m ∈ members'.owners orgId := by
  obtain ⟨hmem, hkind⟩ := mem_owners.mp hm
  refine mem_owners.mpr ⟨?_, hkind⟩
  rw [(Members.rows_create h).1]
  exact List.mem_append_left _ hmem

end Spare

section Steps

variable {w : OrgWorld} {others : List OrgStatement}

def OrgWorld.Spared (w : OrgWorld) (calls : List OrgStatement) : Prop :=
  ∀ o ∈ w.organizations.rows, SpareOwner w calls o.id

/-- What a step keeps and establishes, where `others` are the other calls in flight. -/
structure OwnerKept (w : OrgWorld) (others : List OrgStatement)
    (r : OrgWorld × List OrgStatement) : Prop where
  spared : r.1.Spared (r.2 ++ others)
  targets : ∀ next ∈ r.2, ∀ member ∈ next.target, ReadFrom r.1.members member
  readFrom : ∀ member, ReadFrom w.members member → ReadFrom r.1.members member

/-- A step that reads, and goes on with a call that takes no OWNER away. -/
theorem OwnerKept.read (hspared : w.Spared others) {next : OrgStatement}
    (htakes : next.takes = none) (htarget : ∀ member ∈ next.target, ReadFrom w.members member) :
    OwnerKept w others (w, [next]) := by
  refine ⟨fun o ho => ?_, List.forall_mem_singleton.mpr htarget, fun _ h => h⟩
  obtain ⟨m, hm, hspare⟩ := hspared o ho
  refine ⟨m, hm, List.forall_mem_cons.mpr ⟨?_, hspare⟩⟩
  rw [htakes]
  nofun

theorem OwnerKept.refuse (hspared : w.Spared others) (status : Nat) (message : String) :
    OwnerKept w others (w.refuse status message) :=
  ⟨hspared, List.forall_mem_nil _, fun _ h => h⟩

theorem ownerKept_requireRole (hspared : w.Spared others) {orgId : Uuid} {callerId : String}
    {minRole : OrganizationRole} {next : OrganizationRole → OrgWorld × List OrgStatement}
    (hnext : ∀ callerRole, OwnerKept w others (next callerRole)) :
    OwnerKept w others (w.requireRole orgId callerId minRole next) := by
  unfold OrgWorld.requireRole
  split
  · exact .read hspared rfl nofun
  · split
    · exact .refuse hspared _ _
    · exact hnext _

theorem ownerKept_assertCanAssign (hspared : w.Spared others) {callerRole role : OrganizationRole}
    {next : OrgWorld × List OrgStatement} (hnext : OwnerKept w others next) :
    OwnerKept w others (w.assertCanAssign callerRole role next) := by
  unfold OrgWorld.assertCanAssign
  split
  · exact .refuse hspared _ _
  · exact hnext

theorem ownerKept_next (hspared : w.Spared others) {member : OrganizationMember}
    (hread : ReadFrom w.members member) (change : MemberWrite) :
    OwnerKept w others (w, [change.next member]) := by
  refine .read hspared (takes_next member change) ?_
  rw [target_next]
  rintro _ ⟨⟩
  exact hread

/-- A call that has been counted takes an OWNER away only where another one is left. -/
theorem ownerKept_assertNotLastOwner (hspared : w.Spared others) {member : OrganizationMember}
    (hread : ReadFrom w.members member) (change : MemberWrite)
    (hother : OtherOwner w others member) : OwnerKept w others (w, [.write member change]) := by
  have htarget : ∀ read ∈ (OrgStatement.write member change).target, ReadFrom w.members read := by
    rintro _ ⟨⟩
    exact hread
  refine ⟨fun o ho => ?_, List.forall_mem_singleton.mpr htarget, fun _ h => h⟩
  have hfree (m : OrganizationMember) (hid : m.id ≠ member.id) :
      (OrgStatement.write member change).takes ≠ some m.id :=
    fun htakes => hid (id_of_takes htakes).2.symm
  by_cases horg : o.id = member.orgId
  · obtain ⟨m, hm, hid, hspare⟩ := hother
    exact ⟨m, horg ▸ hm, List.forall_mem_cons.mpr ⟨hfree m hid, hspare⟩⟩
  · -- an OWNER of another organization is another member
    obtain ⟨m, hm, hspare⟩ := hspared o ho
    obtain ⟨hmem, hmorg, -⟩ := mem_owners.mp hm
    refine ⟨m, hm, List.forall_mem_cons.mpr ⟨hfree m fun hid => horg ?_, hspare⟩⟩
    exact hmorg.symm.trans (congrArg Prod.fst (hread.place m hmem hid))

/-- The OWNERs that a write leaves: those of other organizations, the one that its call
was counted against, or the one that the condition names. -/
theorem spare_of_write {member : OrganizationMember} {change : MemberWrite}
    (hspared : w.Spared (.write member change :: others)) (hread : ReadFrom w.members member)
    (hleaves : (OrgStatement.write member change).LeavesOwner w others)
    (hchange : change ≠ .changeRole .owner) {o : Organization} (ho : o ∈ w.organizations.rows) :
    ∃ m ∈ w.members.owners o.id, m.id ≠ member.id ∧ ∀ call ∈ others, call.takes ≠ some m.id := by
  obtain ⟨m, hm, hspare⟩ := hspared o ho
  obtain ⟨hself, hothers⟩ := List.forall_mem_cons.mp hspare
  by_cases hid : m.id = member.id
  · obtain ⟨hmem, hmorg, hrole⟩ := mem_owners.mp hm
    have horg : o.id = member.orgId :=
      hmorg.symm.trans (congrArg Prod.fst (hread.place m hmem hid))
    have hstays : change.stepsDown member = false := by
      by_contra hdown
      rw [Bool.not_eq_false] at hdown
      refine hself ?_
      rw [OrgStatement.takes, if_pos hdown, hid]
    exact horg ▸ hleaves hstays hchange ⟨m, horg ▸ hm, hid⟩
  · exact ⟨m, hm, hid, hothers⟩

theorem ownerKept_changeRole {member : OrganizationMember} {role : OrganizationRole}
    (hspared : w.Spared (.write member (.changeRole role) :: others))
    (hread : ReadFrom w.members member)
    (hleaves : (OrgStatement.write member (.changeRole role)).LeavesOwner w others)
    {members : Members} (hupdate : w.members.updateRole member.id role = some members)
    (response : Except HttpError OrgReply) :
    OwnerKept w others (({ w with members := members }.respond response), []) := by
  refine ⟨fun o ho => ?_, List.forall_mem_nil _, fun _ h => h.updateRole hupdate⟩
  by_cases howner : role = .owner
  · obtain ⟨m, hm, hspare⟩ := hspared o ho
    obtain ⟨m', hm', hid⟩ := owners_updateRole hupdate hm (.inr howner)
    exact ⟨m', hm', hid ▸ fun call hcall => hspare call (List.mem_cons_of_mem _ hcall)⟩
  · have hchange : MemberWrite.changeRole role ≠ .changeRole .owner :=
      fun hsame => howner (MemberWrite.changeRole.inj hsame)
    obtain ⟨m, hm, hid, hspare⟩ := spare_of_write hspared hread hleaves hchange ho
    obtain ⟨m', hm', hsame⟩ := owners_updateRole hupdate hm (.inl hid)
    exact ⟨m', hm', hsame ▸ hspare⟩

theorem ownerKept_delete {member : OrganizationMember}
    (hspared : w.Spared (.write member .delete :: others)) (hread : ReadFrom w.members member)
    (hleaves : (OrgStatement.write member .delete).LeavesOwner w others) {members : Members}
    (hdelete : w.members.delete member.id = some members) (response : Except HttpError OrgReply) :
    OwnerKept w others (({ w with members := members }.respond response), []) := by
  refine ⟨fun o ho => ?_, List.forall_mem_nil _, fun _ h => h.delete hdelete⟩
  obtain ⟨m, hm, hid, hspare⟩ := spare_of_write hspared hread hleaves nofun ho
  exact ⟨m, owners_delete hdelete hm hid, hspare⟩

/-- The creator is an OWNER, whose id no call knows yet. -/
theorem ownerKept_create (hspared : w.Spared others)
    (hread : ∀ call ∈ others, ∀ member ∈ call.target, ReadFrom w.members member)
    {userId name : String} {drawn members : Members}
    (hcreate : drawn.create w.members.drawn userId .owner = some members)
    (hrows : drawn.rows = w.members.rows) (hdrawn : drawn.drawn = w.members.drawn + 1)
    (response : Except HttpError OrgReply) :
    OwnerKept w others ({ w with
      organizations := w.organizations.insert ⟨w.members.drawn, name, userId⟩
      members := members }.respond response, []) := by
  have hkept (member : OrganizationMember) (h : ReadFrom w.members member) :
      ReadFrom drawn member :=
    ⟨hdrawn ▸ Nat.lt_succ_of_lt h.drawn, hrows ▸ h.place⟩
  refine ⟨fun o ho => ?_, List.forall_mem_nil _, fun member h => (hkept member h).create hcreate⟩
  rcases Table.mem_insert ho with hold | rfl
  · obtain ⟨m, hm, hspare⟩ := hspared o hold
    have hsame : m ∈ drawn.owners o.id := by
      rwa [Members.owners, hrows]
    exact ⟨m, owners_create hcreate hsame, hspare⟩
  · have hnew : ⟨drawn.drawn, w.members.drawn, userId, .owner⟩ ∈ members.rows := by
      rw [(Members.rows_create hcreate).1]
      exact List.mem_append_right _ (List.mem_singleton.mpr rfl)
    refine ⟨_, mem_owners.mpr ⟨hnew, rfl, rfl⟩, fun call hcall htakes => ?_⟩
    cases call with
    | write member change =>
        have hlt := (hread _ hcall member rfl).drawn
        rw [(id_of_takes htakes).2, hdrawn] at hlt
        exact Nat.not_succ_lt_self hlt
    | _ => cases htakes

theorem ownerKept_exec (input : OrgInput) {call : OrgStatement}
    (hspared : w.Spared (call :: others))
    (hread : ∀ other ∈ call :: others, ∀ member ∈ other.target, ReadFrom w.members member)
    (hleaves : call.LeavesOwner w others) : OwnerKept w others (call.exec input w) := by
  obtain ⟨hself, hothers⟩ := List.forall_mem_cons.mp hread
  have hspared' : w.Spared others :=
    fun o ho => (hspared o ho).subset fun _ => List.mem_cons_of_mem _
  cases call with
  | create userId name =>
      simp only [OrgStatement.exec]
      split
      · exact .refuse hspared' _ _
      · split
        · exact .refuse hspared' _ _
        · rename_i members hcreate
          exact ownerKept_create hspared' hothers hcreate rfl rfl _
  | addMember org callerId target role =>
      simp only [OrgStatement.exec]
      refine ownerKept_requireRole hspared' fun callerRole => ?_
      exact ownerKept_assertCanAssign hspared' (.read hspared' rfl (by rintro _ ⟨⟩))
  | findUser org target role =>
      simp only [OrgStatement.exec]
      split
      · exact .refuse hspared' _ _
      · exact .read hspared' rfl (by rintro _ ⟨⟩)
  | findExisting org userId role =>
      simp only [OrgStatement.exec]
      split
      · exact .refuse hspared' _ _
      · exact .read hspared' rfl (by rintro _ ⟨⟩)
  | createMember org userId role =>
      simp only [OrgStatement.exec]
      split
      · exact .refuse hspared' _ _
      · rename_i members hcreate
        refine ⟨fun o ho => ?_, List.forall_mem_nil _, fun _ h => h.create hcreate⟩
        obtain ⟨m, hm, hspare⟩ := hspared' o ho
        exact ⟨m, owners_create hcreate hm, hspare⟩
  | changeRole org callerId userId role =>
      simp only [OrgStatement.exec]
      exact ownerKept_requireRole hspared' fun callerRole => .read hspared' rfl (by rintro _ ⟨⟩)
  | findMember org callerRole userId role =>
      simp only [OrgStatement.exec]
      split
      · exact .refuse hspared' _ _
      · rename_i member hmember
        have hmem := ReadFrom.of_mem (mem_of_getMembership hmember).1
        refine ownerKept_assertCanAssign hspared' ?_
        exact ownerKept_assertCanAssign hspared' (ownerKept_next hspared' hmem _)
  | removeMember org callerId userId =>
      simp only [OrgStatement.exec]
      split
      · exact .refuse hspared' _ _
      · rename_i member hmember
        have hmem := ReadFrom.of_mem (mem_of_getMembership hmember).1
        split
        · refine .read hspared' rfl ?_
          rintro _ ⟨⟩
          exact hmem
        · exact ownerKept_next hspared' hmem _
  | requireRemover callerId member =>
      simp only [OrgStatement.exec]
      refine ownerKept_requireRole hspared' fun callerRole => ?_
      exact ownerKept_assertCanAssign hspared' (ownerKept_next hspared' (hself member rfl) _)
  | findOrganization org =>
      simp only [OrgStatement.exec]
      split
      · exact .refuse hspared' _ _
      · exact .refuse hspared' _ _
  | assertNotLastOwner member change =>
      simp only [OrgStatement.exec]
      split
      · exact .refuse hspared' _ _
      · rename_i hcount
        exact ownerKept_assertNotLastOwner hspared' (hself member rfl) change
          (hleaves (Nat.lt_of_not_le hcount))
  | write member change =>
      cases change with
      | changeRole role =>
          simp only [OrgStatement.exec]
          split
          · exact .refuse hspared' _ _
          · rename_i members hupdate
            exact ownerKept_changeRole hspared (hself member rfl) hleaves hupdate _
      | delete =>
          simp only [OrgStatement.exec]
          split
          · exact .refuse hspared' _ _
          · rename_i members hdelete
            exact ownerKept_delete hspared (hself member rfl) hleaves hdelete _

theorem ownerKept_resume (input : OrgInput) {call : OrgStatement}
    (hspared : w.Spared (call :: others))
    (hread : ∀ other ∈ call :: others, ∀ member ∈ other.target, ReadFrom w.members member)
    (hleaves : input.thrown = false → call.LeavesOwner w others) :
    OwnerKept w others (call.resume input w) := by
  unfold OrgStatement.resume
  split
  · refine ⟨fun o ho => ?_, List.forall_mem_nil _, fun _ h => h⟩
    exact (hspared o ho).subset fun _ => List.mem_cons_of_mem _
  · rename_i hthrown
    exact ownerKept_exec input hspared hread (hleaves (Bool.not_eq_true _ ▸ hthrown))

end Steps

section Runs

structure OwnersKept (s : OrgPool) : Prop where
  spared : s.shared.Spared s.inflight
  targets : ∀ call ∈ s.inflight, ∀ member ∈ call.target, ReadFrom s.shared.members member

theorem ownersKept_step (s : OrgPool) (a : OrgAction) (h : OwnersKept s) (hapart : OwnersApart s a) :
    OwnersKept (orgs.step s a) := by
  rcases orgs.step_cases s a with ⟨call, -, hstart, hnext⟩ |
    ⟨index, input, call, pre, post, rfl, hcall, hsplit, herase, hnext⟩ |
    ⟨index, call, pre, post, -, -, -, herase, hnext⟩ | ⟨event, -, -⟩ | ⟨hnext, -⟩
  · have hfresh : call.takes = none ∧ call.target = none := by
      cases call <;> first | exact ⟨rfl, rfl⟩ | cases hstart
    rw [hnext]
    refine ⟨fun o ho => ?_, List.forall_mem_append.mpr ⟨h.targets, ?_⟩⟩
    · obtain ⟨m, hm, hspare⟩ := h.spared o ho
      refine ⟨m, hm, List.forall_mem_append.mpr ⟨hspare, List.forall_mem_singleton.mpr ?_⟩⟩
      rw [hfresh.1]
      nofun
    · refine List.forall_mem_singleton.mpr ?_
      rw [hfresh.2]
      nofun
  · have hleaves := hapart call hcall
    rw [herase] at hleaves
    have hmem (other : OrgStatement) :
        other ∈ call :: (pre ++ post) ↔ other ∈ s.inflight := by
      rw [hsplit]
      exact List.perm_middle.symm.mem_iff
    have hkept : OwnerKept s.shared (pre ++ post) (call.resume input s.shared) := by
      refine ownerKept_resume input (fun o ho => ?_) (fun other hother => ?_) hleaves
      · exact (h.spared o ho).subset fun other hother => (hmem other).mp hother
      · exact h.targets other ((hmem other).mp hother)
    have hothers : ∀ other ∈ pre ++ post, ∀ member ∈ other.target,
        ReadFrom (call.resume input s.shared).1.members member :=
      fun other hother member hmember => hkept.readFrom member
        (h.targets other ((hmem other).mp (List.mem_cons_of_mem _ hother)) member hmember)
    rw [hnext]
    refine ⟨fun o ho => (hkept.spared o ho).subset fun other hother => ?_, ?_⟩
    · simp only [List.mem_append] at hother ⊢
      tauto
    · obtain ⟨hpre, hpost⟩ := List.forall_mem_append.mp hothers
      exact List.forall_mem_append.mpr ⟨hpre, List.forall_mem_append.mpr ⟨hkept.targets, hpost⟩⟩
  · have hfewer (other : OrgStatement) (hother : other ∈ pre ++ post) : other ∈ s.inflight :=
      List.mem_of_mem_eraseIdx (herase ▸ hother)
    rw [hnext]
    refine ⟨fun o ho => (h.spared o ho).subset hfewer, fun other hother => ?_⟩
    exact h.targets other (hfewer other hother)
  · exact event.elim
  · rw [hnext]
    exact h

def noOrganizations (users : List OrgUser) : OrgPool where
  shared := ⟨Table.empty, Members.empty, users, []⟩
  inflight := []

/-- Along every run in which the counts and the uncounted writes leave an OWNER that
no other call is about to take away, every organization has one. -/
theorem owner_remains_while_apart (users : List OrgUser) (actions : List OrgAction)
    (h : Along orgs.step OwnersApart (noOrganizations users) actions) :
    ∀ pre post, actions = pre ++ post →
      OwnersRemain (orgs.run pre (noOrganizations users)).shared := by
  intro pre post hsplit
  have hempty : OwnersKept (noOrganizations users) := ⟨nofun, nofun⟩
  have hkept := h.invariant ownersKept_step hempty pre post hsplit
  exact fun o ho => (hkept.spared o ho).remains

/-- The creator of an organization makes somebody else an OWNER, and leaves. -/
def successorNamed : List OrgAction :=
  let next : OrgInput := ⟨⟨id, List.Perm.refl⟩, false⟩
  [.begin (.create "olga" "Trading house"), .resume 0 next,
    .begin (.addMember 0 "olga" ⟨none, some "GSAM"⟩ .owner), .resume 0 next, .resume 0 next,
    .resume 0 next, .resume 0 next, .begin (.removeMember 0 "olga" "olga"), .resume 0 next,
    .resume 0 next, .resume 0 next]

theorem owner_remains_with_successor :
    OwnersRemain (orgs.run successorNamed (noOrganizations [⟨"sam", "GSAM"⟩])).shared ∧
      (orgs.run successorNamed (noOrganizations [⟨"sam", "GSAM"⟩])).shared.members.rows =
        [⟨2, 0, "sam", .owner⟩] :=
  ⟨owner_remains_while_apart [⟨"sam", "GSAM"⟩] successorNamed (by decide) successorNamed [] rfl,
    by decide⟩

/-- Both OWNERs leave, and each of them is counted before the other one is gone. -/
def bothLeave : List OrgAction :=
  let next : OrgInput := ⟨⟨id, List.Perm.refl⟩, false⟩
  [.begin (.create "olga" "Trading house"), .resume 0 next,
    .begin (.addMember 0 "olga" ⟨none, some "GSAM"⟩ .owner), .resume 0 next, .resume 0 next,
    .resume 0 next, .resume 0 next, .begin (.removeMember 0 "olga" "olga"),
    .begin (.removeMember 0 "sam" "sam"), .resume 0 next, .resume 0 next, .resume 1 next,
    .resume 1 next, .resume 0 next, .resume 0 next]

theorem no_owner_after_bothLeave :
    ¬ OwnersRemain (orgs.run bothLeave (noOrganizations [⟨"sam", "GSAM"⟩])).shared ∧
      (orgs.run bothLeave (noOrganizations [⟨"sam", "GSAM"⟩])).shared.organizations.rows =
        [⟨0, "Trading house", "olga"⟩] := by
  decide

end Runs

end ChainSettle
