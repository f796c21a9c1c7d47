import ChainSettle.Auth.Sessions

/-!
Verified addresses. A verification token carries its address, so the address that is
stored is always the one it was signed for. Whether the token was accepted before is
told by two things that are written apart: the token in Redis, deleted last, and
`pendingEmail`. Two verifications that overlap, or an address that is made pending
again while its used token is still stored, accept one token twice.
-/

namespace ChainSettle

open Lib

section Pending

def AuthWorld.pendingEmailOf (w : AuthWorld) (userId : String) : Option String :=
  (w.accounts.find? userId).bind Account.pendingEmail

variable {w w' : AuthWorld}

theorem pendingEmailOf_congr (h : w'.accounts = w.accounts) (userId : String) :
    w'.pendingEmailOf userId = w.pendingEmailOf userId := by
  rw [AuthWorld.pendingEmailOf, h]
  rfl

theorem pendingEmailOf_update {id : String} {f : Account → Account}
    (hrows : w'.accounts.rows =
      w.accounts.rows.map fun account => if account.id = id then f account else account)
    (hid : ∀ account, (f account).id = account.id)
    (hpending : ∀ account, (f account).pendingEmail = account.pendingEmail) (userId : String) :
    w'.pendingEmailOf userId = w.pendingEmailOf userId := by
  have hfind := Table.find?_of_map hrows (fun account => by
    split
    · exact hid account
    · rfl) userId
  rw [AuthWorld.pendingEmailOf, hfind, AuthWorld.pendingEmailOf]
  cases w.accounts.find? userId with
  | none => rfl
  | some account =>
      show Account.pendingEmail (if account.id = id then f account else account) = _
      split
      · exact hpending account
      · rfl

theorem pendingEmailOf_insert {account : Account} (hfree : w.accounts.find? account.id = none)
    (hnone : account.pendingEmail = none) (haccounts : w'.accounts = w.accounts.insert account)
    (userId : String) : w'.pendingEmailOf userId = w.pendingEmailOf userId := by
  unfold AuthWorld.pendingEmailOf
  rw [haccounts]
  by_cases hself : userId = account.id
  · subst hself
    rw [Table.find?_insert, hfree]
    simp [hnone]
  · rw [Table.find?_insert_of_ne _ hself]

/-- The two statements that write `pendingEmail`. -/
def AuthStatement.writesPendingEmail : AuthStatement → Bool
  | .email (.setPendingEmail ..) | .email (.setEmail ..) => true
  | _ => false

theorem pendingEmailOf_resume (config : AuthConfig) (crypto : Crypto) (input : AuthInput)
    {call : AuthStatement} (h : call.writesPendingEmail = false) (userId : String) :
    (call.resume config crypto input w).1.pendingEmailOf userId = w.pendingEmailOf userId := by
  let Same (r : AuthWorld × List AuthStatement) : Prop :=
    r.1.pendingEmailOf userId = w.pendingEmailOf userId
  have hlost : Same (w, []) := rfl
  cases hwrites : call.writesAccount with
  | false => exact pendingEmailOf_congr (accounts_resume input w hwrites) userId
  | true =>
      unfold AuthStatement.writesAccount at hwrites
      split at hwrites
      · refine thrown_or (P := Same) hlost fun _ => ?_
        simp only [LoginStatement.exec]
        split
        · rfl
        · split
          · rfl
          · rename_i hfree
            exact pendingEmailOf_insert (Option.not_isSome_iff_eq_none.mp hfree) rfl rfl userId
      · refine thrown_or (P := Same) hlost fun _ => ?_
        refine pendingEmailOf_update rfl ?_ ?_ userId <;> exact fun _ => rfl
      · refine thrown_or (P := Same) hlost fun _ => ?_
        refine pendingEmailOf_update rfl ?_ ?_ userId <;> exact fun _ => rfl
      · refine thrown_or (P := Same) hlost fun _ => ?_
        refine pendingEmailOf_update rfl ?_ ?_ userId <;> exact fun _ => rfl
      · cases h
      · cases h
      · refine thrown_or (P := Same) hlost fun _ => ?_
        simp only [PhoneStatement.exec]
        split
        · rfl
        · refine pendingEmailOf_update rfl ?_ ?_ userId <;> exact fun _ => rfl
      · cases hwrites

end Pending

section Tokens

/-- Accepted as often as it was generated. -/
def AuthWorld.Spent (w : AuthWorld) (token : Jwt) : Prop :=
  w.signed.count token ≤ w.log.count (.emailVerified token)

instance (w : AuthWorld) (token : Jwt) : Decidable (w.Spent token) :=
  inferInstanceAs (Decidable (_ ≤ _))

/-- A token that the account would accept now is not spent. -/
def Redeemable (w : AuthWorld) (token : Jwt) : Prop :=
  ∀ email, token.email = some email → w.pendingEmailOf token.sub = some email → ¬ w.Spent token

/-- A verification that has compared the address and has not stored it yet. -/
def AuthStatement.checked (token : Jwt) : AuthStatement → Nat
  | .email (.findExisting other _) | .email (.setEmail other _) => if other = token then 1 else 0
  | _ => 0

/-- The token that a verification has found in Redis and not compared yet. -/
def AuthStatement.looksUp? : AuthStatement → Option Jwt
  | .email (.findPending token _) => some token
  | _ => none

/-- An address is compared while no other verification of the token is past that, and
made pending while no spent token for it is stored or about to be compared. -/
def EmailStatement.EmailsApart (w : AuthWorld) (others : List AuthStatement) :
    EmailStatement → Prop
  | .findPending token _ => ∀ other ∈ others, other.checked token = 0
  | .setPendingEmail userId email =>
      (∀ entry ∈ w.verificationTokens userId, entry.value.email = some email →
        ¬ w.Spent entry.value) ∧
      ∀ other ∈ others, ∀ token ∈ other.looksUp?, token.sub = userId → token.email = some email →
        ¬ w.Spent token
  | _ => True

instance (w : AuthWorld) (others : List AuthStatement) (next : EmailStatement) :
    Decidable (next.EmailsApart w others) :=
  match next with
  | .findPending token _ => inferInstanceAs (Decidable (∀ other ∈ others, other.checked token = 0))
  | .setPendingEmail userId email =>
      have : Decidable (∀ entry ∈ w.verificationTokens userId, entry.value.email = some email →
        ¬ w.Spent entry.value) := inferInstance
      have : Decidable (∀ other ∈ others, ∀ token ∈ other.looksUp?, token.sub = userId →
        token.email = some email → ¬ w.Spent token) := inferInstance
      inferInstanceAs (Decidable (_ ∧ _))
  | .updateProfile .. | .checkUnused .. | .storeToken .. | .sendEmail ..
  | .resendVerificationEmail _ | .verifyEmail _ | .findExisting .. | .setEmail ..
  | .clearToken _ => inferInstanceAs (Decidable True)

def AuthStatement.EmailsApart (w : AuthWorld) (others : List AuthStatement) : AuthStatement → Prop
  | .email next => next.EmailsApart w others
  | _ => True

instance (w : AuthWorld) (others : List AuthStatement) (call : AuthStatement) :
    Decidable (call.EmailsApart w others) :=
  match call with
  | .email next => inferInstanceAs (Decidable (next.EmailsApart w others))
  | .login _ | .apiKey _ | .logout _ | .account _ | .phone _ => inferInstanceAs (Decidable True)

structure EmailsSound (config : AuthConfig) (w : AuthWorld) : Prop where
  stored : ∀ userId entry, w.verificationTokens userId = some entry →
    entry.value.sub = userId ∧ Redeemable w entry.value
  /-- a token with an address is that of a mail to it -/
  signed : ∀ token ∈ w.signed, ∀ email, token.email = some email →
    ∃ now, token = config.sign now "24h" (mailClaims token.sub email)

def EmailProgress (config : AuthConfig) (w : AuthWorld) : AuthStatement → Prop
  | .login (.registerSession _ _ token) => token.email = none
  | .email (.storeToken token email _) =>
      ∃ now userId, token = config.sign now "24h" (mailClaims userId email)
  | .email (.findPending token email) => token.email = some email ∧ Redeemable w token
  | .email (.findExisting token email) | .email (.setEmail token email) =>
      token.email = some email
  | _ => True

end Tokens

section Steps

variable {config : AuthConfig} {w w' : AuthWorld}

theorem Redeemable.kept {token : Jwt} (h : Redeemable w token)
    (hpending : w'.pendingEmailOf token.sub = w.pendingEmailOf token.sub)
    (hsigned : w.signed.count token ≤ w'.signed.count token)
    (hverified : w'.log.count (.emailVerified token) = w.log.count (.emailVerified token)) :
    Redeemable w' token := by
  intro email hemail hnow hspent
  refine h email hemail (hpending.symm.trans hnow) ?_
  unfold AuthWorld.Spent at hspent ⊢
  rw [hverified] at hspent
  exact hsigned.trans hspent

theorem pendingEmailOf_recorded (id : String) (f : Account → Account)
    (hf : ∀ account, (f account).id = account.id) (event : AuthEvent) (userId : String) :
    ((w.updateAccount id f hf).record event).pendingEmailOf userId = if userId = id then
      (w.accounts.find? id).bind fun account => (f account).pendingEmail
    else w.pendingEmailOf userId := by
  unfold AuthWorld.pendingEmailOf
  dsimp only [AuthWorld.record, AuthWorld.updateAccount]
  split
  · rename_i hself
    subst hself
    rw [Table.find?_modify_self, Option.bind_map]
    rfl
  · rename_i hother
    rw [Table.find?_modify_of_ne _ _ _ hother]

/-- An address is made pending. -/
theorem Redeemable.setPendingEmail (config : AuthConfig) {token : Jwt} (h : Redeemable w token)
    {userId email : String}
    (hapart : token.sub = userId → token.email = some email → ¬ w.Spent token) :
    Redeemable ((EmailStatement.setPendingEmail userId email).exec config w).1 token := by
  simp only [EmailStatement.exec]
  intro address haddress hpending hspent
  rw [pendingEmailOf_recorded] at hpending
  have hbefore : w.Spent token := by
    unfold AuthWorld.Spent at hspent ⊢
    dsimp only [AuthWorld.record, AuthWorld.updateAccount] at hspent
    rwa [List.count_cons_of_ne (by simp)] at hspent
  split at hpending
  · rename_i huser
    obtain ⟨account, -, hsame⟩ := Option.bind_eq_some_iff.mp hpending
    cases hsame
    exact hapart huser haddress hbefore
  · exact h address haddress hpending hbefore

/-- An address is stored: none of the user's tokens would be accepted any more. -/
theorem Redeemable.setEmail (config : AuthConfig) {token : Jwt} (h : Redeemable w token)
    {other : Jwt} {email : String} :
    Redeemable ((EmailStatement.setEmail other email).exec config w).1 token := by
  simp only [EmailStatement.exec]
  split
  · refine h.kept rfl le_rfl ?_
    exact List.count_cons_of_ne (by simp)
  · intro address haddress hpending hspent
    rw [pendingEmailOf_recorded] at hpending
    split at hpending
    · obtain ⟨account, -, hsame⟩ := Option.bind_eq_some_iff.mp hpending
      cases hsame
    · rename_i huser
      refine h address haddress hpending ?_
      have hne : AuthEvent.emailVerified other ≠ .emailVerified token := by
        intro hsame
        cases hsame
        exact huser rfl
      unfold AuthWorld.Spent at hspent ⊢
      dsimp only [AuthWorld.record, AuthWorld.updateAccount] at hspent
      rwa [List.count_cons_of_ne hne] at hspent

theorem verified_email {next : EmailStatement} {token : Jwt}
    (h : ∀ token email, next ≠ .setEmail token email) :
    (next.exec config w).1.log.count (.emailVerified token) =
      w.log.count (.emailVerified token) := by
  cases next with
  | setEmail token email => exact absurd rfl (h _ _)
  | _ =>
      simp only [EmailStatement.exec]
      repeat' split
      all_goals rfl

variable (config) (crypto : Crypto) (input : AuthInput)

/-- A token stays unspent for as long as the account would accept it. -/
theorem redeemable_resume {token : Jwt} (h : Redeemable w token) {call : AuthStatement}
    (hapart : ∀ userId email, call = .email (.setPendingEmail userId email) → ¬ input.thrown →
      token.sub = userId → token.email = some email → ¬ w.Spent token) :
    Redeemable (call.resume config crypto input w).1 token := by
  have hsigned := count_signed_resume config crypto input w call token
  have hpending (hother : call.writesPendingEmail = false) :=
    pendingEmailOf_resume (w := w) config crypto input hother token.sub
  have haside (hg : call.group ≠ .email) :
      (call.resume config crypto input w).1.log.count (.emailVerified token) =
        w.log.count (.emailVerified token) :=
    (resume_frame input w call).count_log rfl hg
  cases call with
  | email next =>
      simp only [AuthStatement.resume] at hsigned hpending ⊢
      split at hsigned
      · rename_i hthrown
        rwa [if_pos hthrown]
      · rename_i hthrown
        rw [if_neg hthrown] at hpending ⊢
        cases next with
        | setPendingEmail userId email =>
            exact h.setPendingEmail config (hapart userId email rfl hthrown)
        | setEmail other email => exact h.setEmail config
        | _ => exact h.kept (hpending rfl) hsigned (verified_email (by intro _ _ h; cases h))
  | _ => exact h.kept (hpending rfl) hsigned (haside (by simp [AuthStatement.group]))

theorem verificationTokens_email {next : EmailStatement}
    (hstore : ∀ token email profile, next ≠ .storeToken token email profile)
    (hclear : ∀ token, next ≠ .clearToken token) :
    (next.exec config w).1.verificationTokens = w.verificationTokens := by
  cases next with
  | storeToken token email profile => exact absurd rfl (hstore _ _ _)
  | clearToken token => exact absurd rfl (hclear _)
  | _ =>
      simp only [EmailStatement.exec]
      repeat' split
      all_goals rfl

/-- A stored token was there before, or it has just been signed. -/
theorem stored_resume (call : AuthStatement) {userId : String} {entry : Entry Jwt}
    (h : (call.resume config crypto input w).1.verificationTokens userId = some entry) :
    w.verificationTokens userId = some entry ∨
      (userId = entry.value.sub ∧
        (call.resume config crypto input w).1.signed = entry.value :: w.signed ∧
        (call.resume config crypto input w).1.log = w.log) := by
  have haside (hg : call.group ≠ .email) :
      (call.resume config crypto input w).1.verificationTokens = w.verificationTokens :=
    (resume_frame input w call).verificationTokens hg
  cases call with
  | email next =>
      simp only [AuthStatement.resume] at h ⊢
      split at h
      · exact .inl h
      · rename_i hthrown
        simp only [if_neg hthrown]
        cases next with
        | storeToken token email profile =>
            rcases Store.entry_of_set h with ⟨hself, rfl⟩ | hbefore
            · exact .inr ⟨hself, rfl, rfl⟩
            · exact .inl hbefore
        | clearToken token => exact .inl (Store.entry_of_del h)
        | _ =>
            left
            rwa [verificationTokens_email config (by intro _ _ _ h; cases h)
              (by intro _ h; cases h)] at h
  | _ => exact .inl (haside (by simp [AuthStatement.group]) ▸ h)

theorem emailsSound_resume (h : EmailsSound config w) {call : AuthStatement}
    (hcall : EmailProgress config w call)
    (hpaid : ∀ token, w.log.count (.emailVerified token) ≤ w.signed.count token)
    {others : List AuthStatement} (hapart : input.thrown ∨ call.EmailsApart w others) :
    EmailsSound config (call.resume config crypto input w).1 := by
  refine ⟨fun userId entry hentry => ?_, fun token hmem email hemail => ?_⟩
  · rcases stored_resume config crypto input call hentry with hbefore | ⟨hself, hsigned, hlog⟩
    · obtain ⟨hsub, hredeemable⟩ := h.stored userId entry hbefore
      refine ⟨hsub, redeemable_resume config crypto input hredeemable ?_⟩
      rintro other email rfl hthrown hother hemail
      obtain rfl : userId = other := hsub.symm.trans hother
      exact (hapart.resolve_left hthrown).1 entry hbefore hemail
    · refine ⟨hself.symm, fun _ _ _ hspent => ?_⟩
      unfold AuthWorld.Spent at hspent
      rw [hsigned, hlog, List.count_cons_self] at hspent
      exact absurd ((hpaid entry.value).trans_lt (Nat.lt_of_succ_le hspent)) (lt_irrefl _)
  · rcases signed_resume config crypto input w call with hsame | ⟨new, hnew, hsigns⟩
    · exact h.signed token (hsame ▸ hmem) email hemail
    · rw [hnew] at hmem
      rcases List.mem_cons.mp hmem with rfl | hmem
      · unfold AuthStatement.Signs at hsigns
        split at hsigns
        · subst hsigns
          rw [show _ = none from hcall] at hemail
          cases hemail
        · subst hsigns
          obtain ⟨now, userId, rfl⟩ := hcall
          cases hemail
          exact ⟨now, rfl⟩
        · obtain ⟨target, rfl⟩ := hsigns
          cases hemail
        · cases hsigns
      · exact h.signed token hmem email hemail

/-- What the calls of a verification know. -/
theorem emailProgress_email (h : EmailsSound config w) {next : EmailStatement}
    (hcall : EmailProgress config w (.email next)) :
    ∀ later ∈ (next.exec config w).2,
      EmailProgress config (next.exec config w).1 (.email later) := by
  intro later hlater
  cases later with
  | storeToken token email profile =>
      obtain ⟨userId, rfl⟩ := token_of_storeToken hlater
      exact ⟨_, userId, rfl⟩
  | findPending token email =>
      cases next with
      | verifyEmail other =>
          simp only [EmailStatement.exec] at hlater ⊢
          split at hlater
          · rename_i address haddress
            split at hlater
            · rename_i hverifies
              cases List.mem_singleton.mp hlater
              obtain ⟨entry, hentry, rfl⟩ := Store.entry_of_get hverifies.2
              rw [if_pos hverifies]
              exact ⟨haddress, (h.stored _ entry hentry).2⟩
            · cases hlater
          · cases hlater
      | _ =>
          simp only [EmailStatement.exec] at hlater
          repeat' split at hlater
          all_goals simp [AuthWorld.refuse] at hlater
  | findExisting token email =>
      cases next with
      | findPending other address =>
          simp only [EmailStatement.exec] at hlater
          split at hlater
          · cases hlater
          · split at hlater
            · cases hlater
            · cases List.mem_singleton.mp hlater
              exact hcall.1
      | _ =>
          simp only [EmailStatement.exec] at hlater
          repeat' split at hlater
          all_goals simp [AuthWorld.refuse] at hlater
  | setEmail token email =>
      cases next with
      | findExisting other address =>
          simp only [EmailStatement.exec] at hlater
          split at hlater
          · cases hlater
          · cases List.mem_singleton.mp hlater
            exact hcall
      | _ =>
          simp only [EmailStatement.exec] at hlater
          repeat' split at hlater
          all_goals simp [AuthWorld.refuse] at hlater
  | _ => trivial

theorem emailProgress_of_group {call : AuthStatement} (hlogin : call.group ≠ .login)
    (hemail : call.group ≠ .email) : EmailProgress config w call := by
  cases call with
  | login next => exact absurd rfl hlogin
  | email next => exact absurd rfl hemail
  | _ => trivial

theorem emailProgress_resume (h : EmailsSound config w) {call : AuthStatement}
    (hcall : EmailProgress config w call) :
    ∀ next ∈ (call.resume config crypto input w).2,
      EmailProgress config (call.resume config crypto input w).1 next := by
  intro next hnext
  cases call with
  | login statement =>
      simp only [AuthStatement.resume] at hnext ⊢
      split at hnext
      · cases hnext
      · obtain ⟨later, hlater, rfl⟩ := List.mem_map.mp hnext
        cases later with
        | registerSession dto nonce token =>
            obtain ⟨account, rfl⟩ := token_of_registerSession hlater
            rfl
        | _ => trivial
  | email statement =>
      simp only [AuthStatement.resume] at hnext ⊢
      split at hnext
      · cases hnext
      · rename_i hthrown
        rw [if_neg hthrown]
        obtain ⟨later, hlater, rfl⟩ := List.mem_map.mp hnext
        exact emailProgress_email config h hcall later hlater
  | _ =>
      have hgroup := group_resume input w hnext
      refine emailProgress_of_group config ?_ ?_ <;> rw [hgroup] <;> simp [AuthStatement.group]

/-- What a call knows outlasts the steps of the others. -/
theorem EmailProgress.kept {other : AuthStatement} (h : EmailProgress config w other)
    {call : AuthStatement} {others : List AuthStatement} (hmem : other ∈ others)
    (hapart : input.thrown ∨ call.EmailsApart w others) :
    EmailProgress config (call.resume config crypto input w).1 other := by
  cases other with
  | login next =>
      cases next with
      | registerSession dto nonce token => exact h
      | _ => trivial
  | email next =>
      cases next with
      | storeToken token email profile => exact h
      | findPending token email =>
          refine ⟨h.1, redeemable_resume config crypto input h.2 ?_⟩
          rintro userId address rfl hthrown hsub hemail
          exact (hapart.resolve_left hthrown).2 _ hmem token rfl hsub hemail
      | findExisting token email => exact h
      | setEmail token email => exact h
      | _ => trivial
  | _ => trivial

/-- A step pays for the acceptance of a token: one that is stored was compared, and one
that is compared is not spent and alone in that. -/
theorem checked_email {next : EmailStatement} (hcall : EmailProgress config w (.email next))
    {others : List AuthStatement} (hapart : next.EmailsApart w others) (token : Jwt) {rest : Nat}
    (hrest : rest = (others.map (AuthStatement.checked token)).sum)
    (h : w.log.count (.emailVerified token) + ((AuthStatement.email next).checked token + rest) ≤
      w.signed.count token) :
    (next.exec config w).1.log.count (.emailVerified token) +
        ((((next.exec config w).2.map AuthStatement.email).map (AuthStatement.checked token)).sum +
          rest) ≤
      (next.exec config w).1.signed.count token := by
  have hidle : w.log.count (.emailVerified token) + (0 + rest) ≤ w.signed.count token := by omega
  cases next with
  | updateProfile userId email =>
      simp only [EmailStatement.exec]
      repeat' split
      all_goals exact hidle
  | checkUnused userId email =>
      simp only [EmailStatement.exec]
      repeat' split
      all_goals exact hidle
  | storeToken other email profile =>
      exact hidle.trans List.count_le_count_cons
  | sendEmail other email profile =>
      simp only [EmailStatement.exec]
      split
      all_goals exact hidle
  | setPendingEmail userId email => exact hidle
  | resendVerificationEmail userId =>
      simp only [EmailStatement.exec]
      repeat' split
      all_goals exact hidle
  | verifyEmail other =>
      simp only [EmailStatement.exec]
      repeat' split
      all_goals exact hidle
  | findPending other email =>
      simp only [EmailStatement.exec]
      split
      · exact hidle
      · rename_i user huser
        split
        · exact hidle
        · rename_i hpending
          by_cases hsame : other = token
          · subst hsame
            have halone : rest = 0 := by
              refine hrest.trans (List.sum_eq_zero_iff_forall_eq_nat.mpr fun share hshare => ?_)
              obtain ⟨call, hmem, rfl⟩ := List.mem_map.mp hshare
              exact hapart call hmem
            have hunspent : ¬ w.Spent other := by
              refine hcall.2 email hcall.1 ?_
              rw [AuthWorld.pendingEmailOf, huser]
              exact not_not.mp hpending
            have hlt := not_le.mp hunspent
            simp only [AuthStatement.checked, List.map_cons, List.map_nil, List.sum_cons,
              List.sum_nil, if_true, halone]
            omega
          · simpa [AuthStatement.checked, hsame] using hidle
  | findExisting other email =>
      simp only [EmailStatement.exec]
      split
      · exact hidle
      · exact h
  | setEmail other email =>
      simp only [EmailStatement.exec]
      split
      · exact hidle
      · by_cases hsame : other = token
        · subst hsame
          simp only [AuthStatement.checked, if_true] at h
          simp only [AuthWorld.record, AuthWorld.updateAccount, AuthStatement.checked,
            List.count_cons_self, List.map_cons, List.map_nil, List.sum_cons, List.sum_nil]
          omega
        · have hne : AuthEvent.emailVerified other ≠ .emailVerified token := by simpa using hsame
          simpa [AuthWorld.record, AuthWorld.updateAccount, AuthStatement.checked,
            List.count_cons_of_ne hne] using hidle
  | clearToken other => exact hidle

end Steps

section Runs

variable (config : AuthConfig) (crypto : Crypto)

def EmailsApart (s : AuthPool) : AuthAction → Prop
  | .resume index input => input.thrown ∨
      ∀ call ∈ s.inflight[index]?, call.EmailsApart s.shared (s.inflight.eraseIdx index)
  | _ => True

instance (s : AuthPool) (a : AuthAction) : Decidable (EmailsApart s a) :=
  match a with
  | .resume .. => inferInstanceAs (Decidable (_ ∨ _))
  | .begin _ | .crash _ | .external _ => inferInstanceAs (Decidable True)

structure EmailInvariant (s : AuthPool) : Prop where
  sound : EmailsSound config s.shared
  progress : ∀ call ∈ s.inflight, EmailProgress config s.shared call
  paid : ∀ token, s.shared.log.count (.emailVerified token) +
    (s.inflight.map (AuthStatement.checked token)).sum ≤ s.shared.signed.count token

theorem checked_of_group {token : Jwt} {call : AuthStatement} (h : call.group ≠ .email) :
    call.checked token = 0 := by
  cases call with
  | email next => exact absurd rfl h
  | _ => rfl

theorem checked_resume {w : AuthWorld} (input : AuthInput) {call : AuthStatement}
    (hcall : EmailProgress config w call) {others : List AuthStatement}
    (hapart : input.thrown ∨ call.EmailsApart w others) (token : Jwt) {rest : Nat}
    (hrest : rest = (others.map (AuthStatement.checked token)).sum)
    (h : w.log.count (.emailVerified token) + (call.checked token + rest) ≤
      w.signed.count token) :
    (call.resume config crypto input w).1.log.count (.emailVerified token) +
        (((call.resume config crypto input w).2.map (AuthStatement.checked token)).sum + rest) ≤
      (call.resume config crypto input w).1.signed.count token := by
  have haside (hg : call.group ≠ .email) :
      (call.resume config crypto input w).1.log.count (.emailVerified token) +
          (((call.resume config crypto input w).2.map (AuthStatement.checked token)).sum + rest) ≤
        (call.resume config crypto input w).1.signed.count token := by
    have hlog : (call.resume config crypto input w).1.log.count (.emailVerified token) =
        w.log.count (.emailVerified token) :=
      (resume_frame input w call).count_log rfl hg
    have hsigned := count_signed_resume config crypto input w call token
    have hnone : ((call.resume config crypto input w).2.map (AuthStatement.checked token)).sum =
        0 :=
      shares_resume input w hg fun other hother => checked_of_group hother
    omega
  cases call with
  | email next =>
      simp only [AuthStatement.resume]
      split
      · simp only [List.map_nil, List.sum_nil]
        omega
      · rename_i hthrown
        exact checked_email config hcall (hapart.resolve_left hthrown) token hrest h
  | _ => exact haside (by simp [AuthStatement.group])

theorem emailProgress_of_starts {w : AuthWorld} {call : AuthStatement} (h : call.starts) :
    EmailProgress config w call := by
  cases call with
  | login next =>
      cases next with
      | registerSession dto nonce token => cases h
      | _ => trivial
  | email next =>
      cases next with
      | storeToken token email profile => cases h
      | findPending token email => cases h
      | findExisting token email => cases h
      | setEmail token email => cases h
      | _ => trivial
  | _ => trivial

theorem checked_of_starts {token : Jwt} {call : AuthStatement} (h : call.starts) :
    call.checked token = 0 := by
  cases call with
  | email next =>
      cases next with
      | findExisting token email => cases h
      | setEmail token email => cases h
      | _ => rfl
  | _ => rfl

theorem emailInvariant_step (s : AuthPool) (a : AuthAction) (h : EmailInvariant config s)
    (hallowed : EmailsApart s a) : EmailInvariant config ((auth config crypto).step s a) := by
  have hpaid (token : Jwt) : s.shared.log.count (.emailVerified token) ≤
      s.shared.signed.count token :=
    (Nat.le_add_right _ _).trans (h.paid token)
  have hkeeps := (auth config crypto).keeps_step (Q := EmailsSound config)
    (P := EmailProgress config) a h.sound h.progress
    (fun call _ hstart => emailProgress_of_starts config hstart)
    (fun index input call haction hcall => by
      subst haction
      have hmem := List.mem_of_getElem? hcall
      have hapart := hallowed.imp_right fun hall => hall call hcall
      exact ⟨emailsSound_resume config crypto input h.sound (h.progress call hmem) hpaid hapart,
        emailProgress_resume config crypto input h.sound (h.progress call hmem),
        fun other hother => EmailProgress.kept config crypto input
          (h.progress other (List.mem_of_mem_eraseIdx hother)) hother hapart⟩)
    (fun _ => ⟨⟨h.sound.stored, h.sound.signed⟩, h.progress⟩)
  refine ⟨hkeeps.1, hkeeps.2, fun token => ?_⟩
  refine (auth config crypto).budget_step (fun w => w.log.count (.emailVerified token))
    (fun w => w.signed.count token) (AuthStatement.checked token) a (h.paid token)
    (fun call hstart => checked_of_starts hstart) ?_ (fun _ => ⟨Nat.le_refl _, Nat.le_refl _⟩)
  intro index input call others haction hcall hothers hbefore
  subst haction
  exact checked_resume config crypto input (h.progress call (List.mem_of_getElem? hcall))
    (hallowed.imp_right fun hall => hall call hcall) token hothers hbefore

end Runs

end ChainSettle
