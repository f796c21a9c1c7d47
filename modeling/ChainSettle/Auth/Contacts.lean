import ChainSettle.Auth.Emails
import ChainSettle.Auth.Phones

/-!
Contact details that are stored as verified. Each was proven with a token, or a code,
that was generated for exactly that address or number, and each token and code was
accepted at most as often as it was generated, along runs in which the overlaps of
`Auth.Emails` and `Auth.Phones` do not occur.
-/

namespace ChainSettle

open Lib

section Accounts

def EmailProven (log : List AuthEvent) (account : Account) : Prop :=
  account.emailVerified → ∃ token, .emailVerified token ∈ log ∧ token.sub = account.id ∧
    token.email.isSome ∧ account.email = token.email

def PhoneProven (log : List AuthEvent) (account : Account) : Prop :=
  account.phoneVerified → ∃ phoneNumber otp, .phoneVerified account.id phoneNumber otp ∈ log ∧
    account.phoneNumber = some phoneNumber

def ContactsProven (w : AuthWorld) : Prop :=
  ∀ account ∈ w.accounts.rows, EmailProven w.log account ∧ PhoneProven w.log account

variable {w w' : AuthWorld}

theorem EmailProven.mono {log log' : List AuthEvent} {account : Account}
    (h : EmailProven log account) (hlog : ∀ event ∈ log, event ∈ log') :
    EmailProven log' account := by
  intro hverified
  obtain ⟨token, hmem, hrest⟩ := h hverified
  exact ⟨token, hlog _ hmem, hrest⟩

theorem PhoneProven.mono {log log' : List AuthEvent} {account : Account}
    (h : PhoneProven log account) (hlog : ∀ event ∈ log, event ∈ log') :
    PhoneProven log' account := by
  intro hverified
  obtain ⟨phoneNumber, otp, hmem, hrest⟩ := h hverified
  exact ⟨phoneNumber, otp, hlog _ hmem, hrest⟩

theorem ContactsProven.kept (h : ContactsProven w) (hlog : ∀ event ∈ w.log, event ∈ w'.log)
    (hrows : ∀ account ∈ w'.accounts.rows, account ∈ w.accounts.rows ∨
      (EmailProven w'.log account ∧ PhoneProven w'.log account)) : ContactsProven w' := by
  intro account hmem
  rcases hrows account hmem with hbefore | hproven
  · exact ⟨(h account hbefore).1.mono hlog, (h account hbefore).2.mono hlog⟩
  · exact hproven

/-- One row is rewritten. -/
theorem ContactsProven.update (h : ContactsProven w) {id : String} {f : Account → Account}
    (hrows : w'.accounts.rows =
      w.accounts.rows.map fun account => if account.id = id then f account else account)
    (hlog : ∀ event ∈ w.log, event ∈ w'.log)
    (hf : ∀ account, account.id = id → EmailProven w'.log account → PhoneProven w'.log account →
      EmailProven w'.log (f account) ∧ PhoneProven w'.log (f account)) : ContactsProven w' := by
  refine h.kept hlog fun account hmem => ?_
  rw [hrows] at hmem
  obtain ⟨before, hbefore, rfl⟩ := List.mem_map.mp hmem
  obtain ⟨hemail, hphone⟩ := h before hbefore
  split
  · rename_i hid
    exact .inr (hf before hid (hemail.mono hlog) (hphone.mono hlog))
  · exact .inl hbefore

variable (config : AuthConfig) (crypto : Crypto) (input : AuthInput)

theorem contactsProven_upsertUser (h : ContactsProven w) (dto : LoginDto) (nonce : String) :
    ContactsProven ((LoginStatement.upsertUser dto nonce).exec config input w).1 := by
  simp only [LoginStatement.exec]
  split
  · exact h
  · split
    · exact h.kept (fun _ => List.mem_cons_of_mem _) fun _ hmem => .inl hmem
    · rename_i hfree
      refine h.kept (fun _ hmem => hmem) fun account hmem => ?_
      have hid : (newAccount input.id dto.stellarAddress).id ∉ w.accounts.rows.map Account.id :=
        Table.find?_eq_none_iff.mp (Option.not_isSome_iff_eq_none.mp hfree)
      rw [Table.rows_insert hid] at hmem
      rcases List.mem_append.mp hmem with hbefore | hnew
      · exact .inl hbefore
      · cases List.mem_singleton.mp hnew
        refine .inr ⟨fun hverified => ?_, fun hverified => ?_⟩ <;> cases hverified

theorem contactsProven_setEmail (h : ContactsProven w) {token : Jwt} {email : String}
    (hemail : token.email = some email) :
    ContactsProven ((EmailStatement.setEmail token email).exec config w).1 := by
  simp only [EmailStatement.exec]
  split
  · exact h.kept (fun _ => List.mem_cons_of_mem _) fun _ hmem => .inl hmem
  · refine h.update rfl (fun _ => List.mem_cons_of_mem _) fun account hid _ hphone => ?_
    refine ⟨fun _ => ⟨token, List.mem_cons_self .., hid.symm, ?_, hemail.symm⟩, hphone⟩
    rw [hemail]
    rfl

theorem contactsProven_setPhone (h : ContactsProven w) (userId otp pendingPhone : String) :
    ContactsProven ((PhoneStatement.setPhone userId otp pendingPhone).exec input w).1 := by
  simp only [PhoneStatement.exec]
  split
  · exact h.kept (fun _ => List.mem_cons_of_mem _) fun _ hmem => .inl hmem
  · refine h.update rfl (fun _ => List.mem_cons_of_mem _) fun account hid hemail _ => ?_
    refine ⟨hemail, fun _ => ⟨pendingPhone, otp, ?_, rfl⟩⟩
    rw [← hid]
    exact List.mem_cons_self ..

theorem contactsProven_resume (h : ContactsProven w) {call : AuthStatement}
    (hcall : EmailProgress config w call) :
    ContactsProven (call.resume config crypto input w).1 := by
  have hthrown {result : AuthWorld × List AuthStatement} (hdone : ContactsProven result.1) :
      ContactsProven (if input.thrown then (w, []) else result).1 :=
    thrown_or (P := fun r => ContactsProven r.1) h fun _ => hdone
  have hframe : AuthFrame call.group w (call.resume config crypto input w).1 :=
    resume_frame input w call
  have hlog : ∀ event ∈ w.log, event ∈ (call.resume config crypto input w).1.log := by
    intro event hmem
    rcases hframe.log with hsame | ⟨recorded, hnew, -⟩
    · rwa [hsame]
    · rw [hnew]
      exact List.mem_cons_of_mem _ hmem
  have hother {event : AuthEvent} {id : String} {f : Account → Account}
      {hf : ∀ account, (f account).id = account.id}
      (hemail : ∀ log account, EmailProven log account → EmailProven log (f account))
      (hphone : ∀ log account, PhoneProven log account → PhoneProven log (f account)) :
      ContactsProven ((w.updateAccount id f hf).record event) :=
    h.update rfl (fun _ => List.mem_cons_of_mem _)
      fun account _ hbefore hbefore' => ⟨hemail _ account hbefore, hphone _ account hbefore'⟩
  cases hwrites : call.writesAccount with
  | false =>
      refine h.kept hlog fun account hmem => ?_
      rw [accounts_resume input w hwrites] at hmem
      exact .inl hmem
  | true =>
      unfold AuthStatement.writesAccount at hwrites
      split at hwrites
      · exact hthrown (contactsProven_upsertUser config input h _ _)
      · exact hthrown (hother (fun _ _ h => h) fun _ _ h => h)
      · exact hthrown (hother (fun _ _ h => h) fun _ _ h => h)
      · exact hthrown (hother (fun _ _ h => h) fun _ _ h => h)
      · exact hthrown (hother (fun _ _ h => h) fun _ _ h => h)
      · exact hthrown (contactsProven_setEmail config h hcall)
      · exact hthrown (contactsProven_setPhone input h _ _ _)
      · cases hwrites

end Accounts

section Runs

variable (config : AuthConfig) (crypto : Crypto)

def ContactsApart (s : AuthPool) (a : AuthAction) : Prop := EmailsApart s a ∧ PhonesApart s a

instance (s : AuthPool) (a : AuthAction) : Decidable (ContactsApart s a) :=
  inferInstanceAs (Decidable (_ ∧ _))

structure ContactInvariant (s : AuthPool) : Prop where
  proven : ContactsProven s.shared
  email : EmailInvariant config s
  phone : PhoneInvariant s

theorem contactInvariant_step (s : AuthPool) (a : AuthAction) (h : ContactInvariant config s)
    (hallowed : ContactsApart s a) : ContactInvariant config ((auth config crypto).step s a) := by
  refine ⟨?_, emailInvariant_step config crypto s a h.email hallowed.1,
    phoneInvariant_step config crypto s a h.phone hallowed.2⟩
  exact (auth config crypto).shared_step a h.proven
    (fun input call hmem => contactsProven_resume config crypto input h.proven
      (h.email.progress call hmem))
    (fun _ => h.proven)

/-- Along a run in which no verification overlaps another of the same token or code, and
no request a verification, as `EmailsApart` and `PhonesApart` say: an address that is
stored as verified was proven with a token for it, a number with a code that was sent to
it, and no token or code was accepted more often than it was generated. -/
theorem contacts_proven_while_apart (accounts : Table Account.id)
    (hunverified : ∀ account ∈ accounts.rows,
      account.emailVerified = false ∧ account.phoneVerified = false)
    (now : Nat) (actions : List AuthAction)
    (hrun : Along (auth config crypto).step ContactsApart (freshAuth accounts now) actions) :
    ∀ pre post, actions = pre ++ post → ∀ w,
      ((auth config crypto).run pre (freshAuth accounts now)).shared = w →
      (∀ account ∈ w.accounts.rows, account.emailVerified → ∃ email signedAt,
        account.email = some email ∧
        config.sign signedAt "24h" (mailClaims account.id email) ∈ w.signed ∧
        .emailVerified (config.sign signedAt "24h" (mailClaims account.id email)) ∈ w.log) ∧
      (∀ account ∈ w.accounts.rows, account.phoneVerified → ∃ phoneNumber otp,
        account.phoneNumber = some phoneNumber ∧
        .otpSent account.id phoneNumber otp ∈ w.log ∧
        .phoneVerified account.id phoneNumber otp ∈ w.log) ∧
      (∀ token, w.log.count (.emailVerified token) ≤ w.signed.count token) ∧
      ∀ userId phoneNumber otp, w.log.count (.phoneVerified userId phoneNumber otp) ≤
        w.log.count (.otpSent userId phoneNumber otp) := by
  have hstart : ContactInvariant config (freshAuth accounts now) := by
    refine ⟨fun account hmem => ⟨fun hverified => ?_, fun hverified => ?_⟩,
      ⟨⟨fun userId entry hentry => ?_, List.forall_mem_nil _⟩, List.forall_mem_nil _,
        fun token => Nat.zero_le _⟩,
      ⟨fun userId number otp hotp _ => ?_, fun _ _ _ => Nat.zero_le _, fun _ _ _ => Nat.zero_le _⟩⟩
    · rw [(hunverified account hmem).1] at hverified
      cases hverified
    · rw [(hunverified account hmem).2] at hverified
      cases hverified
    · cases hentry
    · cases hotp
  rintro pre post hsplit w rfl
  have hinv : ContactInvariant config ((auth config crypto).run pre (freshAuth accounts now)) :=
    hrun.invariant (contactInvariant_step config crypto) hstart pre post hsplit
  have hemails (token : Jwt) := (Nat.le_add_right _ _).trans (hinv.email.paid token)
  have hphones (userId phoneNumber otp : String) :=
    ((Nat.le_add_right _ _).trans (hinv.phone.verified userId phoneNumber otp)).trans
      ((Nat.le_add_right _ _).trans (hinv.phone.used userId phoneNumber otp))
  refine ⟨fun account hmem hverified => ?_, fun account hmem hverified => ?_, hemails, hphones⟩
  · obtain ⟨token, htoken, hsub, hsome, hemail⟩ := (hinv.proven account hmem).1 hverified
    obtain ⟨email, hown⟩ := Option.isSome_iff_exists.mp hsome
    have hsigned := List.count_pos_iff.mp
      ((List.count_pos_iff.mpr htoken).trans_le (hemails token))
    obtain ⟨signedAt, hform⟩ := hinv.email.sound.signed token hsigned email hown
    rw [hsub] at hform
    exact ⟨email, signedAt, hemail.trans hown, hform ▸ hsigned, hform ▸ htoken⟩
  · obtain ⟨phoneNumber, otp, hevent, hnumber⟩ := (hinv.proven account hmem).2 hverified
    have hsent := List.count_pos_iff.mp
      ((List.count_pos_iff.mpr hevent).trans_le (hphones account.id phoneNumber otp))
    exact ⟨phoneNumber, otp, hnumber, hsent, hevent⟩

def requestEmail (email : String) : List AuthAction :=
  .begin (.email (.updateProfile "u-1" email)) :: List.replicate 5 (.resume 0 calmly)

def mailToken (email : String) : Jwt :=
  ⟨"u-1", none, none, none, some email, none, 0, 86400⟩

/-- A code is drawn. -/
def coding (otp : String) : AuthInput := { calmly with otp := otp }

/-- The steps of a request that is at this index. -/
def requestCode (index : Nat) (phoneNumber otp : String) : List AuthAction :=
  .begin (.phone (.sendPhoneVerificationOtp "u-1" phoneNumber)) ::
    List.replicate 3 (.resume index (coding otp))

def verifyBoth : List AuthAction :=
  requestEmail "user@example.org" ++
    .begin (.email (.verifyEmail (mailToken "user@example.org"))) ::
      List.replicate 5 (.resume 0 calmly) ++
  requestCode 0 "+4420" "111111" ++
    .begin (.phone (.verifyPhone "u-1" "111111")) :: List.replicate 5 (.resume 0 calmly)

theorem both_proven :
    (((auth demoAuthConfig demoAuthCrypto).run verifyBoth demoAuthPool).shared.accounts.rows.map
        fun account => (account.emailVerified, account.phoneVerified)) =
        [(true, true), (false, false), (false, false)] ∧
      ((auth demoAuthConfig demoAuthCrypto).run verifyBoth demoAuthPool).shared.log.count
          (.phoneVerified "u-1" "+4420" "111111") ≤
        ((auth demoAuthConfig demoAuthCrypto).run verifyBoth demoAuthPool).shared.log.count
          (.otpSent "u-1" "+4420" "111111") := by
  have hrun : Along (auth demoAuthConfig demoAuthCrypto).step ContactsApart demoAuthPool
      verifyBoth := by
    decide +kernel
  exact ⟨by decide +kernel, (contacts_proven_while_apart demoAuthConfig demoAuthCrypto demoAccounts
    (by decide) 0 verifyBoth hrun verifyBoth [] (List.append_nil _).symm _ rfl).2.2.2 _ _ _⟩

/-- Between the two reads of a verification comes a request for another number. -/
def crossedCodes : List AuthAction :=
  requestCode 0 "+4420" "111111" ++
    [.begin (.phone (.verifyPhone "u-1" "111111")), .resume 0 calmly] ++
    requestCode 1 "+4930" "222222" ++ List.replicate 4 (.resume 0 calmly)

/-- Two verifications of one token that both compare the address before either stores
it. -/
def crossedTokens : List AuthAction :=
  requestEmail "user@example.org" ++
    [.begin (.email (.verifyEmail (mailToken "user@example.org"))),
      .begin (.email (.verifyEmail (mailToken "user@example.org"))),
      .resume 0 calmly, .resume 0 calmly, .resume 1 calmly, .resume 1 calmly] ++
    List.replicate 6 (.resume 0 calmly)

/-- A number is verified with the code of another; and a token is accepted twice. -/
theorem contacts_unproven :
    (((auth demoAuthConfig demoAuthCrypto).run crossedCodes
        demoAuthPool).shared.accounts.rows.head?.map fun account =>
          (account.phoneNumber, account.phoneVerified)) = some (some "+4930", true) ∧
      .phoneVerified "u-1" "+4930" "111111" ∈
        ((auth demoAuthConfig demoAuthCrypto).run crossedCodes demoAuthPool).shared.log ∧
      .otpSent "u-1" "+4930" "111111" ∉
        ((auth demoAuthConfig demoAuthCrypto).run crossedCodes demoAuthPool).shared.log ∧
      ((auth demoAuthConfig demoAuthCrypto).run crossedTokens demoAuthPool).shared.signed.count
        (mailToken "user@example.org") = 1 ∧
      ((auth demoAuthConfig demoAuthCrypto).run crossedTokens demoAuthPool).shared.log.count
        (.emailVerified (mailToken "user@example.org")) = 2 := by
  decide +kernel

end Runs

end ChainSettle
