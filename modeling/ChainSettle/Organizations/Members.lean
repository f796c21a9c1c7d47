import ChainSettle.Semantics.Organizations

/-!
What the statements do to the rows of the members: one lemma for each kind of write,
and the rows of a kind that a write leaves as they are. A row that a call has read
keeps its place for as long as its id is in the table.
-/

namespace ChainSettle

open Lib

section Lists

variable {α : Type} {p : α → Bool}

/-- The elements of a kind, where others are replaced by others. -/
theorem filter_map_eq_filter {l : List α} {f : α → α} (hkind : ∀ x ∈ l, p (f x) = p x)
    (hsame : ∀ x ∈ l, p x → f x = x) : (l.map f).filter p = l.filter p := by
  induction l with
  | nil => rfl
  | cons x rest ih =>
      have hrest := ih (fun y hy => hkind y (List.mem_cons_of_mem _ hy))
        fun y hy => hsame y (List.mem_cons_of_mem _ hy)
      have hx := hkind x (List.mem_cons_self ..)
      rw [List.map_cons, List.filter_cons, List.filter_cons, hx, hrest]
      split
      · rename_i hpx
        rw [hsame x (List.mem_cons_self ..) hpx]
      · rfl

end Lists

section Writes

variable {members members' : Members}

theorem mem_of_getMembership {orgId : Uuid} {userId : String} {m : OrganizationMember}
    (h : members.getMembership orgId userId = some m) :
    m ∈ members.rows ∧ m.orgId = orgId ∧ m.userId = userId := by
  have hplace : m.place = (orgId, userId) := by simpa using List.find?_some h
  exact ⟨List.mem_of_find?_eq_some h, congrArg Prod.fst hplace, congrArg Prod.snd hplace⟩

theorem Members.rows_create {orgId : Uuid} {userId : String} {role : OrganizationRole}
    (h : members.create orgId userId role = some members') :
    members'.rows = members.rows ++ [⟨members.drawn, orgId, userId, role⟩] ∧
      members'.drawn = members.drawn + 1 := by
  unfold Members.create at h
  split at h
  · cases h
    exact ⟨rfl, rfl⟩
  · cases h

theorem Members.rows_updateRole {id : Uuid} {role : OrganizationRole}
    (h : members.updateRole id role = some members') :
    members'.rows = members.rows.map (fun m => if m.id = id then m.withRole role else m) ∧
      members'.drawn = members.drawn := by
  unfold Members.updateRole at h
  split at h
  · cases h
    exact ⟨rfl, rfl⟩
  · cases h

theorem Members.rows_delete {id : Uuid} (h : members.delete id = some members') :
    members'.rows = members.rows.filter (fun m => m.id ≠ id) ∧
      members'.drawn = members.drawn := by
  unfold Members.delete at h
  split at h
  · cases h
    exact ⟨rfl, rfl⟩
  · cases h

/-- The member was read from a row, which keeps its place. -/
structure ReadFrom (members : Members) (member : OrganizationMember) : Prop where
  drawn : member.id < members.drawn
  place : ∀ m ∈ members.rows, m.id = member.id → m.place = member.place

theorem ReadFrom.of_mem {member : OrganizationMember} (h : member ∈ members.rows) :
    ReadFrom members member := by
  refine ⟨members.fresh member h, fun m hmem hid => ?_⟩
  rw [List.inj_on_of_nodup_map members.nodup hmem h hid]

theorem ReadFrom.create {member : OrganizationMember} (h : ReadFrom members member) {orgId : Uuid}
    {userId : String} {role : OrganizationRole}
    (hcreate : members.create orgId userId role = some members') : ReadFrom members' member := by
  obtain ⟨hrows, hdrawn⟩ := Members.rows_create hcreate
  refine ⟨hdrawn ▸ Nat.lt_succ_of_lt h.drawn, fun m hmem hid => ?_⟩
  rw [hrows] at hmem
  rcases List.mem_append.mp hmem with hold | hnew
  · exact h.place m hold hid
  · cases List.mem_singleton.mp hnew
    exact absurd hid (Nat.ne_of_gt h.drawn)

theorem ReadFrom.updateRole {member : OrganizationMember} (h : ReadFrom members member) {id : Uuid}
    {role : OrganizationRole} (hupdate : members.updateRole id role = some members') :
    ReadFrom members' member := by
  obtain ⟨hrows, hdrawn⟩ := Members.rows_updateRole hupdate
  refine ⟨hdrawn ▸ h.drawn, fun m hmem hid => ?_⟩
  rw [hrows] at hmem
  obtain ⟨old, hold, rfl⟩ := List.mem_map.mp hmem
  by_cases hself : old.id = id
  · rw [if_pos hself] at hid ⊢
    exact h.place old hold hid
  · rw [if_neg hself] at hid ⊢
    exact h.place old hold hid

theorem ReadFrom.delete {member : OrganizationMember} (h : ReadFrom members member) {id : Uuid}
    (hdelete : members.delete id = some members') : ReadFrom members' member := by
  obtain ⟨hrows, hdrawn⟩ := Members.rows_delete hdelete
  refine ⟨hdrawn ▸ h.drawn, fun m hmem hid => ?_⟩
  rw [hrows] at hmem
  exact h.place m (List.mem_of_mem_filter hmem) hid

variable {p : OrganizationMember → Bool}

theorem Members.filter_create {orgId : Uuid} {userId : String} {role : OrganizationRole}
    (h : members.create orgId userId role = some members')
    (hp : p ⟨members.drawn, orgId, userId, role⟩ = false) :
    members'.rows.filter p = members.rows.filter p := by
  rw [(Members.rows_create h).1, List.filter_append, List.filter_cons_of_neg (by simp [hp]),
    List.filter_nil, List.append_nil]

/-- A row of another kind stays one. -/
theorem Members.filter_updateRole {id : Uuid} {role : OrganizationRole}
    (h : members.updateRole id role = some members')
    (hbefore : ∀ m ∈ members.rows, m.id = id → p m = false)
    (hafter : ∀ m ∈ members.rows, m.id = id → p (m.withRole role) = false) :
    members'.rows.filter p = members.rows.filter p := by
  rw [(Members.rows_updateRole h).1]
  refine filter_map_eq_filter (fun m hmem => ?_) fun m hmem hkind => ?_
  · split
    · rename_i hid
      rw [hbefore m hmem hid, hafter m hmem hid]
    · rfl
  · split
    · rename_i hid
      rw [hbefore m hmem hid] at hkind
      cases hkind
    · rfl

theorem Members.filter_delete {id : Uuid} (h : members.delete id = some members')
    (hbefore : ∀ m ∈ members.rows, m.id = id → p m = false) :
    members'.rows.filter p = members.rows.filter p := by
  rw [(Members.rows_delete h).1, List.filter_filter]
  refine List.filter_congr fun m hmem => ?_
  by_cases hid : m.id = id
  · rw [hbefore m hmem hid, Bool.false_and]
  · simp [hid]

end Writes

end ChainSettle
