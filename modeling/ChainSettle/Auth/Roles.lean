import ChainSettle.Auth.Nonces

/-!
The last administrator. `updateUserRole` refuses to demote its own caller, and takes
the caller's authority from the role claim of his token. That claim outlives the
role: two administrators can demote each other, one after the other.
-/

namespace ChainSettle

open Lib

section Roles

def HasAdmin (w : AuthWorld) : Prop := ∃ account ∈ w.accounts.rows, account.role = .admin

instance (w : AuthWorld) : Decidable (HasAdmin w) :=
  inferInstanceAs (Decidable (∃ account ∈ w.accounts.rows, _))

/-- Every account has the role it had. -/
def RolesKept (w w' : AuthWorld) : Prop :=
  ∀ account ∈ w.accounts.rows, ∃ later ∈ w'.accounts.rows,
    later.id = account.id ∧ later.role = account.role

variable {w w' : AuthWorld}

theorem HasAdmin.kept (h : HasAdmin w) (hkept : RolesKept w w') : HasAdmin w' := by
  obtain ⟨account, hmem, hadmin⟩ := h
  obtain ⟨later, hlater, -, hrole⟩ := hkept account hmem
  exact ⟨later, hlater, hrole.trans hadmin⟩

theorem rolesKept_of_accounts (h : w'.accounts = w.accounts) : RolesKept w w' :=
  fun account hmem => ⟨account, h ▸ hmem, rfl, rfl⟩

theorem rolesKept_update {id : String} {f : Account → Account}
    (hrows : w'.accounts.rows =
      w.accounts.rows.map fun account => if account.id = id then f account else account)
    (hid : ∀ account, (f account).id = account.id)
    (hrole : ∀ account, (f account).role = account.role) : RolesKept w w' := by
  intro account hmem
  refine ⟨if account.id = id then f account else account, ?_, ?_, ?_⟩
  · rw [hrows]
    exact List.mem_map.mpr ⟨account, hmem, rfl⟩
  · split
    · exact hid account
    · rfl
  · split
    · exact hrole account
    · rfl

variable (config : AuthConfig) (crypto : Crypto) (input : AuthInput)

theorem rolesKept_upsertUser (w : AuthWorld) (dto : LoginDto) (nonce : String) :
    RolesKept w ((LoginStatement.upsertUser dto nonce).exec config input w).1 := by
  simp only [LoginStatement.exec]
  split
  · exact rolesKept_of_accounts rfl
  · split
    · exact rolesKept_of_accounts rfl
    · rename_i hfree
      -- the new row is appended
      intro account hmem
      refine ⟨account, ?_, rfl, rfl⟩
      have hid : (newAccount input.id dto.stellarAddress).id ∉ w.accounts.rows.map Account.id := by
        refine Table.find?_eq_none_iff.mp ?_
        simpa [newAccount] using hfree
      exact Table.rows_insert hid ▸ List.mem_append_left _ hmem

/-- Roles are written by `updateUserRole` alone. -/
theorem rolesKept_resume (w : AuthWorld) {call : AuthStatement}
    (h : ∀ callerId id newRole, call ≠ .account (.updateRole callerId id newRole)) :
    RolesKept w (call.resume config crypto input w).1 := by
  have hthrown {result : AuthWorld × List AuthStatement} (h : RolesKept w result.1) :
      RolesKept w (if input.thrown then (w, []) else result).1 :=
    thrown_or (P := fun r => RolesKept w r.1) (rolesKept_of_accounts rfl) fun _ => h
  cases hwrites : call.writesAccount with
  | false => exact rolesKept_of_accounts (accounts_resume input w hwrites)
  | true =>
      unfold AuthStatement.writesAccount at hwrites
      split at hwrites
      · exact hthrown (rolesKept_upsertUser config input w _ _)
      · exact hthrown (rolesKept_update rfl (fun _ => rfl) fun _ => rfl)
      · exact hthrown (rolesKept_update rfl (fun _ => rfl) fun _ => rfl)
      · exact absurd rfl (h _ _ _)
      · exact hthrown (rolesKept_update rfl (fun _ => rfl) fun _ => rfl)
      · refine hthrown ?_
        simp only [EmailStatement.exec]
        split
        · exact rolesKept_of_accounts rfl
        · exact rolesKept_update rfl (fun _ => rfl) fun _ => rfl
      · refine hthrown ?_
        simp only [PhoneStatement.exec]
        split
        · exact rolesKept_of_accounts rfl
        · exact rolesKept_update rfl (fun _ => rfl) fun _ => rfl
      · cases hwrites

end Roles

section Demotions

/-- A demotion is written while its caller still is an administrator. -/
def AccountStatement.CallerStaysAdmin (w : AuthWorld) : AccountStatement → Prop
  | .updateRole callerId _ newRole =>
      newRole ≠ .admin → (w.accounts.find? callerId).any fun caller => caller.role = .admin
  | _ => True

instance (w : AuthWorld) (next : AccountStatement) : Decidable (next.CallerStaysAdmin w) :=
  match next with
  | .updateRole .. => inferInstanceAs (Decidable (_ → _))
  | .impersonateUser .. | .deactivateUser _ | .countActive _ | .deactivateUpdate ..
  | .adminSetActive .. | .setActiveUpdate .. | .updateUserRole .. | .readUser .. =>
      inferInstanceAs (Decidable True)

def AuthStatement.CallerStaysAdmin (w : AuthWorld) : AuthStatement → Prop
  | .account next => next.CallerStaysAdmin w
  | _ => True

instance (w : AuthWorld) (call : AuthStatement) : Decidable (call.CallerStaysAdmin w) :=
  match call with
  | .account next => inferInstanceAs (Decidable (next.CallerStaysAdmin w))
  | .login _ | .apiKey _ | .logout _ | .email _ | .phone _ => inferInstanceAs (Decidable True)

def CallerStaysAdmin (s : AuthPool) : AuthAction → Prop
  | .resume index input =>
      input.thrown ∨ ∀ call ∈ s.inflight[index]?, call.CallerStaysAdmin s.shared
  | _ => True

instance (s : AuthPool) (a : AuthAction) : Decidable (CallerStaysAdmin s a) :=
  match a with
  | .resume .. => inferInstanceAs (Decidable (_ ∨ _))
  | .begin _ | .crash _ | .external _ => inferInstanceAs (Decidable True)

/-- No caller is about to demote himself. -/
def AuthStatement.DemotesOther : AuthStatement → Prop
  | .account (.updateRole callerId id newRole) => id ≠ callerId ∨ newRole = .admin
  | _ => True

variable (config : AuthConfig) (crypto : Crypto)

theorem demotesOther_account (input : AuthInput) (w : AuthWorld) (next : AccountStatement) :
    ∀ later ∈ (next.exec config input w).2, (AuthStatement.account later).DemotesOther := by
  cases next with
  | impersonateUser targetUserId adminId adminAddress =>
      simp only [AccountStatement.exec]
      split
      · exact List.forall_mem_nil _
      · split
        · exact List.forall_mem_nil _
        · split
          · exact List.forall_mem_nil _
          · split <;> exact List.forall_mem_nil _
  | deactivateUser userId =>
      simp only [AccountStatement.exec]
      split
      · exact List.forall_mem_nil _
      · split
        · exact List.forall_mem_nil _
        · exact List.forall_mem_singleton.mpr trivial
  | countActive userId =>
      simp only [AccountStatement.exec]
      split
      · exact List.forall_mem_nil _
      · exact List.forall_mem_singleton.mpr trivial
  | adminSetActive id active adminId =>
      simp only [AccountStatement.exec]
      split
      · exact List.forall_mem_nil _
      · split
        · exact List.forall_mem_nil _
        · split
          · exact List.forall_mem_nil _
          · exact List.forall_mem_singleton.mpr trivial
  | updateUserRole token id newRole =>
      simp only [AccountStatement.exec]
      split
      · exact List.forall_mem_nil _
      · split
        · exact List.forall_mem_singleton.mpr trivial
        · exact List.forall_mem_nil _
  | readUser callerId id newRole =>
      simp only [AccountStatement.exec]
      split
      · exact List.forall_mem_nil _
      · split
        · exact List.forall_mem_nil _
        · rename_i hself
          refine List.forall_mem_singleton.mpr ?_
          -- "Admins cannot demote themselves"
          rcases not_and_or.mp hself with hother | hadmin
          · exact .inl hother
          · exact .inr (not_not.mp hadmin)
  | _ => exact List.forall_mem_nil _

theorem demotesOther_resume (input : AuthInput) (w : AuthWorld) (call : AuthStatement) :
    ∀ next ∈ (call.resume config crypto input w).2, next.DemotesOther := by
  intro next hnext
  cases call with
  | account statement =>
      simp only [AuthStatement.resume] at hnext
      split at hnext
      · cases hnext
      · obtain ⟨later, hlater, rfl⟩ := List.mem_map.mp hnext
        exact demotesOther_account config input w statement later hlater
  | _ =>
      have hgroup := group_resume input w hnext
      cases next with
      | account later => cases hgroup
      | _ => trivial

theorem hasAdmin_updateRole (input : AuthInput) {w : AuthWorld} (h : HasAdmin w)
    {callerId id : String} {newRole : UserRole} (hother : id ≠ callerId ∨ newRole = .admin)
    (hcaller : newRole ≠ .admin →
      (w.accounts.find? callerId).any fun caller => caller.role = .admin) :
    HasAdmin ((AccountStatement.updateRole callerId id newRole).exec config input w).1 := by
  let f : Account → Account := fun account =>
    if account.id = id then { account with role := newRole } else account
  suffices hafter : ∃ account ∈ w.accounts.rows, (f account).role = .admin by
    obtain ⟨account, hmem, hadmin⟩ := hafter
    exact ⟨f account, List.mem_map.mpr ⟨account, hmem, rfl⟩, hadmin⟩
  by_cases hnew : newRole = .admin
  · obtain ⟨account, hmem, hadmin⟩ := h
    refine ⟨account, hmem, ?_⟩
    dsimp only [f]
    split
    · exact hnew
    · exact hadmin
  · -- the caller is another account
    obtain ⟨caller, hfind, hadmin⟩ := (Option.any_eq_true _ _).mp (hcaller hnew)
    have hid : caller.id = callerId := Table.key_of_find? hfind
    refine ⟨caller, Table.mem_of_find? hfind, ?_⟩
    dsimp only [f]
    rw [if_neg (hid.trans_ne (Ne.symm (hother.resolve_right hnew)))]
    exact of_decide_eq_true hadmin

theorem hasAdmin_resume (input : AuthInput) {w : AuthWorld} {call : AuthStatement} (h : HasAdmin w)
    (hother : call.DemotesOther) (hallowed : input.thrown ∨ call.CallerStaysAdmin w) :
    HasAdmin (call.resume config crypto input w).1 := by
  by_cases hwrites : ∃ callerId id newRole, call = .account (.updateRole callerId id newRole)
  · obtain ⟨callerId, id, newRole, rfl⟩ := hwrites
    simp only [AuthStatement.resume]
    split
    · exact h
    · rename_i hthrown
      exact hasAdmin_updateRole config input h hother (hallowed.resolve_left hthrown)
  · exact h.kept (rolesKept_resume config crypto input w fun callerId id newRole hcall =>
      hwrites ⟨callerId, id, newRole, hcall⟩)

structure AdminInvariant (s : AuthPool) : Prop where
  admin : HasAdmin s.shared
  others : ∀ call ∈ s.inflight, call.DemotesOther

theorem adminInvariant_step (s : AuthPool) (a : AuthAction) (h : AdminInvariant s)
    (hallowed : CallerStaysAdmin s a) : AdminInvariant ((auth config crypto).step s a) := by
  have hkeeps := (auth config crypto).keeps_step (Q := HasAdmin)
    (P := fun _ call => call.DemotesOther) a h.admin h.others
    (fun call _ hstart => by
      cases call with
      | account next =>
          cases next with
          | updateRole callerId id newRole => cases hstart
          | _ => trivial
      | _ => trivial)
    (fun index input call haction hcall => by
      subst haction
      have hallowed := hallowed.imp_right fun hall => hall call hcall
      exact ⟨hasAdmin_resume config crypto input h.admin
        (h.others call (List.mem_of_getElem? hcall)) hallowed,
        demotesOther_resume config crypto input s.shared call,
        fun other hmem => h.others other (List.mem_of_mem_eraseIdx hmem)⟩)
    (fun _ => ⟨h.admin, h.others⟩)
  exact ⟨hkeeps.1, hkeeps.2⟩

/-- Along a run in which every demotion is written while its caller still is an
administrator, there always is one. -/
theorem admin_remains_while_callers_are (s : AuthPool) (hidle : s.inflight = [])
    (hadmin : HasAdmin s.shared) (actions : List AuthAction)
    (hrun : Along (auth config crypto).step CallerStaysAdmin s actions) :
    ∀ pre post, actions = pre ++ post → HasAdmin ((auth config crypto).run pre s).shared := by
  have hstart : AdminInvariant s := by
    refine ⟨hadmin, ?_⟩
    rw [hidle]
    exact List.forall_mem_nil _
  intro pre post hsplit
  exact (hrun.invariant (adminInvariant_step config crypto) hstart pre post hsplit).admin

/-- The tokens that the two administrators get at the start. -/
def adminToken (id stellarAddress jti : String) : Jwt :=
  ⟨id, some stellarAddress, some .admin, some jti, none, none, 0, 604800⟩

def nonceAndLogin (stellarAddress jti : String) : List AuthAction :=
  [.begin (.login (.generateNonce stellarAddress)), .resume 0 calmly] ++
    logIn ⟨stellarAddress, "", stellarAddress ++ " signs chainsettle:" ++ stellarAddress ++ ":0:x"⟩
      jti

def bothLogIn : List AuthAction := nonceAndLogin "GADMIN" "s-1" ++ nonceAndLogin "GOTHER" "s-2"

/-- A role change that is alone in flight. -/
def changeRole (token : Jwt) (id : String) (newRole : UserRole) : List AuthAction :=
  .begin (.account (.updateUserRole token id newRole)) :: List.replicate 3 (.resume 0 calmly)

def oneDemotion : List AuthAction :=
  bothLogIn ++ changeRole (adminToken "a-1" "GADMIN" "s-1") "a-2" .buyer

theorem one_admin_left :
    ((auth demoAuthConfig demoAuthCrypto).run oneDemotion demoAuthPool).shared.accounts.rows.map
        Account.role = [.buyer, .admin, .buyer] ∧
      HasAdmin ((auth demoAuthConfig demoAuthCrypto).run oneDemotion demoAuthPool).shared := by
  have hrun : Along (auth demoAuthConfig demoAuthCrypto).step CallerStaysAdmin demoAuthPool
      oneDemotion := by
    decide +kernel
  exact ⟨by decide +kernel, admin_remains_while_callers_are demoAuthConfig demoAuthCrypto
    demoAuthPool rfl (by decide) oneDemotion hrun oneDemotion [] (List.append_nil _).symm⟩

/-- The demoted administrator answers with the token he still has. -/
def mutualDemotion : List AuthAction :=
  oneDemotion ++ changeRole (adminToken "a-2" "GOTHER" "s-2") "a-1" .buyer

theorem no_admin_left :
    HasAdmin demoAuthPool.shared ∧
      ¬ HasAdmin ((auth demoAuthConfig demoAuthCrypto).run mutualDemotion demoAuthPool).shared := by
  decide +kernel

end Demotions

end ChainSettle
