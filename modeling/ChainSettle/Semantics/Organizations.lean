import ChainSettle.Lib.Pool
import ChainSettle.Semantics.Database

/-!
Organizations and their members. `addMember`, `changeRole` and `removeMember` read the
caller's membership, the target's and, where an OWNER steps down, the number of
OWNERs, each in a statement of its own, and write in a last one; a call is cut before
each of its statements.

The rows' ids are generated and never repeat: they are numbers drawn in order.
-/

namespace ChainSettle

open Lib

section Rows

inductive OrganizationRole where
  | viewer | member | admin | owner
deriving DecidableEq

namespace OrganizationRole

/-- `ROLE_RANK`; a higher number has more privileges. -/
def rank : OrganizationRole → Nat
  | viewer => 0
  | member => 1
  | admin => 2
  | owner => 3

def name : OrganizationRole → String
  | viewer => "VIEWER"
  | member => "MEMBER"
  | admin => "ADMIN"
  | owner => "OWNER"

end OrganizationRole

abbrev Uuid := Nat

structure Organization where
  id : Uuid
  name : String
  createdBy : String
deriving DecidableEq

structure OrganizationMember where
  id : Uuid
  orgId : Uuid
  userId : String
  role : OrganizationRole
deriving DecidableEq

def OrganizationMember.place (m : OrganizationMember) : Uuid × String := (m.orgId, m.userId)

def OrganizationMember.withRole (role : OrganizationRole) (m : OrganizationMember) :
    OrganizationMember :=
  { m with role := role }

structure OrgUser where
  id : String
  stellarAddress : String
deriving DecidableEq

/-- The members, with the unique index on organization and user. -/
structure Members extends Table OrganizationMember.id where
  unique : (rows.map OrganizationMember.place).Nodup
  /-- the next id -/
  drawn : Uuid
  fresh : ∀ m ∈ rows, m.id < drawn

namespace Members

variable (members : Members)

def empty : Members := ⟨Table.empty, List.nodup_nil, 0, nofun⟩

/-- `getMembership`. -/
def getMembership (orgId : Uuid) (userId : String) : Option OrganizationMember :=
  members.rows.find? fun m => m.place = (orgId, userId)

def owners (orgId : Uuid) : List OrganizationMember :=
  members.rows.filter fun m => m.orgId = orgId ∧ m.role = .owner

/-- An `INSERT`; it throws where the user is a member already. -/
def create (orgId : Uuid) (userId : String) (role : OrganizationRole) : Option Members :=
  if h : (orgId, userId) ∉ members.rows.map OrganizationMember.place then
    some {
      rows := members.rows ++ [⟨members.drawn, orgId, userId, role⟩]
      nodup := by
        rw [List.map_append, List.map_singleton, ← List.concat_eq_append]
        refine List.Nodup.concat (fun hmem => ?_) members.nodup
        obtain ⟨m, hm, hid⟩ := List.mem_map.mp hmem
        exact Nat.lt_irrefl _ (hid ▸ members.fresh m hm)
      unique := by
        rw [List.map_append, List.map_singleton, ← List.concat_eq_append]
        exact List.Nodup.concat h members.unique
      drawn := members.drawn + 1
      fresh := by
        intro m hmem
        rcases List.mem_append.mp hmem with hold | hnew
        · exact Nat.lt_succ_of_lt (members.fresh m hold)
        · cases List.mem_singleton.mp hnew
          exact Nat.lt_succ_self _ }
  else none

/-- An `UPDATE` by id; it throws where there is no such row. -/
def updateRole (id : Uuid) (role : OrganizationRole) : Option Members :=
  if (members.find? id).isSome then
    some {
      toTable := members.modify id (OrganizationMember.withRole role) fun _ => rfl
      unique := by
        have hplaces := Table.map_modify members.toTable id (OrganizationMember.withRole role)
          (g := OrganizationMember.place) (fun _ => rfl) fun _ => rfl
        rw [hplaces]
        exact members.unique
      drawn := members.drawn
      fresh := by
        intro m hmem
        obtain ⟨old, hold, rfl⟩ := List.mem_map.mp hmem
        split
        · exact members.fresh old hold
        · exact members.fresh old hold }
  else none

/-- A `DELETE` by id; it throws where there is no such row. -/
def delete (id : Uuid) : Option Members :=
  if (members.find? id).isSome then
    some {
      toTable := members.filter fun m => m.id ≠ id
      unique := members.unique.sublist (List.filter_sublist.map _)
      drawn := members.drawn
      fresh := fun m hmem => members.fresh m (List.mem_of_mem_filter hmem) }
  else none

end Members

end Rows

section Calls

/-- The user to add, by id or by address. -/
structure MemberTarget where
  userId : Option String
  stellarAddress : Option String
deriving DecidableEq

/-- The last statement of `changeRole`, or of `removeMember`. -/
inductive MemberWrite where
  | changeRole (role : OrganizationRole)
  | delete
deriving DecidableEq

inductive OrgStatement where
  | create (userId name : String)
  | addMember (orgId : Uuid) (callerId : String) (target : MemberTarget) (role : OrganizationRole)
  | findUser (orgId : Uuid) (target : MemberTarget) (role : OrganizationRole)
  | findExisting (orgId : Uuid) (userId : String) (role : OrganizationRole)
  | createMember (orgId : Uuid) (userId : String) (role : OrganizationRole)
  | changeRole (orgId : Uuid) (callerId userId : String) (role : OrganizationRole)
  | findMember (orgId : Uuid) (callerRole : OrganizationRole) (userId : String)
      (role : OrganizationRole)
  | removeMember (orgId : Uuid) (callerId userId : String)
  | requireRemover (callerId : String) (member : OrganizationMember)
  /-- `requireRole` has found no membership -/
  | findOrganization (orgId : Uuid)
  | assertNotLastOwner (member : OrganizationMember) (change : MemberWrite)
  | write (member : OrganizationMember) (change : MemberWrite)

inductive OrgReply where
  | created (id : Uuid)
  | added (id : Uuid)
  | changed (id : Uuid) (role : OrganizationRole)
  | removed
deriving DecidableEq

structure OrgWorld where
  organizations : Table Organization.id
  members : Members
  users : List OrgUser
  responses : List (Except HttpError OrgReply)

/-- The inputs of a step: the order of the users, and whether the statement throws. -/
structure OrgInput where
  scan : Scan OrgUser
  thrown : Bool

namespace OrgWorld

variable (w : OrgWorld)

def respond (response : Except HttpError OrgReply) : OrgWorld :=
  { w with responses := response :: w.responses }

def refuse (status : Nat) (message : String) : OrgWorld × List OrgStatement :=
  (w.respond (.error ⟨status, message⟩), [])

/-- Goes on with the caller's role. -/
def requireRole (orgId : Uuid) (userId : String) (minRole : OrganizationRole)
    (next : OrganizationRole → OrgWorld × List OrgStatement) : OrgWorld × List OrgStatement :=
  match w.members.getMembership orgId userId with
  | none => (w, [.findOrganization orgId])
  | some membership =>
      if membership.role.rank < minRole.rank then
        w.refuse 403 ("Requires organization role " ++ minRole.name)
      else next membership.role

def assertCanAssign (callerRole role : OrganizationRole)
    (next : OrgWorld × List OrgStatement) : OrgWorld × List OrgStatement :=
  if callerRole.rank < role.rank then
    w.refuse 403 ("A " ++ callerRole.name ++ " cannot manage " ++ role.name ++ " members")
  else next

end OrgWorld

/-- `findFirst`; a field that is not given is not asked for. -/
def MemberTarget.finds (target : MemberTarget) (user : OrgUser) : Bool :=
  match truthyText target.userId with
  | some userId => user.id = userId
  | none => target.stellarAddress.all fun address => user.stellarAddress = address

/-- An OWNER who steps down, or is removed, must not be the last one. -/
def MemberWrite.stepsDown (member : OrganizationMember) : MemberWrite → Bool
  | .changeRole role => member.role = .owner ∧ role ≠ .owner
  | .delete => member.role = .owner

/-- The statement that follows the checks of the two roles. -/
def MemberWrite.next (member : OrganizationMember) (change : MemberWrite) : OrgStatement :=
  if change.stepsDown member then .assertNotLastOwner member change else .write member change

def OrgStatement.exec (input : OrgInput) (w : OrgWorld) :
    OrgStatement → OrgWorld × List OrgStatement
  | .create userId name =>
      let trimmed := String.ofList (jsTrim name.toList)
      if trimmed = "" then w.refuse 400 "name is required"
      else
        let id := w.members.drawn
        let members := { w.members with
          drawn := id + 1
          fresh := fun m hmem => Nat.lt_succ_of_lt (w.members.fresh m hmem) }
        match members.create id userId .owner with
        | none => w.refuse 500 "Internal server error"
        | some members =>
            ({ w with
              organizations := w.organizations.insert ⟨id, trimmed, userId⟩
              members := members }.respond (.ok (.created id)), [])
  | .addMember orgId callerId target role =>
      w.requireRole orgId callerId .admin fun callerRole =>
        w.assertCanAssign callerRole role (w, [.findUser orgId target role])
  | .findUser orgId target role =>
      match input.scan.findFirst w.users target.finds with
      | none => w.refuse 404 "User not found"
      | some user => (w, [.findExisting orgId user.id role])
  | .findExisting orgId userId role =>
      match w.members.getMembership orgId userId with
      | some _ => w.refuse 409 "User is already a member"
      | none => (w, [.createMember orgId userId role])
  | .createMember orgId userId role =>
      match w.members.create orgId userId role with
      | none => w.refuse 500 "Internal server error"
      | some members =>
          ({ w with members := members }.respond (.ok (.added w.members.drawn)), [])
  | .changeRole orgId callerId userId role =>
      w.requireRole orgId callerId .admin fun callerRole =>
        (w, [.findMember orgId callerRole userId role])
  | .findMember orgId callerRole userId role =>
      match w.members.getMembership orgId userId with
      | none => w.refuse 404 "Member not found"
      | some member =>
          w.assertCanAssign callerRole member.role <|
            w.assertCanAssign callerRole role (w, [(MemberWrite.changeRole role).next member])
  | .removeMember orgId callerId userId =>
      match w.members.getMembership orgId userId with
      | none => w.refuse 404 "Member not found"
      | some member =>
          -- anyone may leave
          if userId ≠ callerId then (w, [.requireRemover callerId member])
          else (w, [MemberWrite.delete.next member])
  | .requireRemover callerId member =>
      w.requireRole member.orgId callerId .admin fun callerRole =>
        w.assertCanAssign callerRole member.role (w, [MemberWrite.delete.next member])
  | .findOrganization orgId =>
      match w.organizations.find? orgId with
      | none => w.refuse 404 ("Organization " ++ toString orgId ++ " not found")
      | some _ => w.refuse 403 "Not a member of this organization"
  | .assertNotLastOwner member change =>
      if (w.members.owners member.orgId).length ≤ 1 then
        w.refuse 400 "An organization must keep at least one OWNER"
      else (w, [.write member change])
  | .write member (.changeRole role) =>
      match w.members.updateRole member.id role with
      | none => w.refuse 500 "Internal server error"
      | some members => ({ w with members := members }.respond (.ok (.changed member.id role)), [])
  | .write member .delete =>
      match w.members.delete member.id with
      | none => w.refuse 500 "Internal server error"
      | some members => ({ w with members := members }.respond (.ok .removed), [])

/-- A statement that throws ends its call. -/
def OrgStatement.resume (input : OrgInput) (w : OrgWorld) (next : OrgStatement) :
    OrgWorld × List OrgStatement :=
  if input.thrown then (w, []) else next.exec input w

def OrgStatement.starts : OrgStatement → Bool
  | .create .. | .addMember .. | .changeRole .. | .removeMember .. => true
  | _ => false

def orgs : PoolSystem OrgWorld OrgStatement OrgInput Empty where
  starts := OrgStatement.starts
  resume input w next := next.resume input w
  external event _ := event.elim

abbrev OrgPool := Pool OrgWorld OrgStatement

abbrev OrgAction := PoolAction OrgStatement OrgInput Empty

end Calls

end ChainSettle
