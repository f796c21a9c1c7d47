import ChainSettle.Tokens.Decimals

/-!
When is a token enabled? `create` wants the flag of its entry to be set, all other readers
take a missing flag for one that is set. The two notions agree on an entry exactly when it
has the flag, and the only entries without it are built-in tokens that nobody has configured.
-/

namespace ChainSettle

open Lib Lib.Eff

section Gate

variable (services : Services) (db : Db)

/-- The refusal of `create`. -/
def disabledToken (tokenAddress : String) : Exn :=
  .badRequest s!"Token {tokenAddress} is disabled and cannot be used for new shipments"

theorem ne_disabledToken {tokenAddress text : String} (h : text.toList.head? ≠ some 'T') :
    Exn.badRequest text ≠ disabledToken tokenAddress := by
  intro heq
  refine h ?_
  rw [Exn.badRequest.inj heq]
  simp [String.toList_append, toString]

theorem error_assertBound {bound : Option String} {violates : Int → Bool}
    {refusal : Int → String → Exn} {err : Exn}
    (h : (exec (assertBound bound violates refusal) db).1 = .error err) :
    err = .invalidValue ∨ ∃ value text, err = refusal value text := by
  unfold assertBound at h
  cases bound with
  | none => cases h
  | some text =>
      cases hvalue : bigIntOfString text with
      | none =>
          simp only [hvalue] at h
          cases h
          exact .inl rfl
      | some value =>
          simp only [hvalue] at h
          by_cases hviolates : violates value
          · rw [if_pos hviolates] at h
            cases h
            exact .inr ⟨value, text, rfl⟩
          · rw [if_neg hviolates] at h
            cases h

/-- What the comparisons with the bounds refuse is not the flag. -/
theorem error_assertValueWithinBounds {tokenAddress : String} {totalAmount : Int} {err : Exn}
    (h : (exec (assertValueWithinBounds services tokenAddress totalAmount) db).1 = .error err) :
    err ≠ disabledToken tokenAddress := by
  unfold assertValueWithinBounds at h
  cases htoken : services.registered tokenAddress with
  | none =>
      rw [htoken] at h
      cases h
  | some token =>
      simp only [htoken, exec_bind] at h
      split at h
      · obtain rfl | ⟨value, text, rfl⟩ := error_assertBound _ h
        · exact nofun
        · refine ne_disabledToken ?_
          simp [String.toList_append, toString]
      · rename_i hlow
        cases h
        obtain rfl | ⟨value, text, rfl⟩ := error_assertBound db (congrArg Prod.fst hlow)
        · exact nofun
        · refine ne_disabledToken ?_
          simp [String.toList_append, toString]

theorem error_resolveRequiredApprovals {requiredApprovals : Option Int} {totalAmount : Int}
    {tokenAddress : String} {err : Exn}
    (h : (exec (resolveRequiredApprovals services requiredApprovals totalAmount) db).1 =
      .error err) : err ≠ disabledToken tokenAddress := by
  unfold resolveRequiredApprovals at h
  cases requiredApprovals with
  | none => cases h
  | some count =>
      by_cases hsmall : totalAmount < services.multisigThreshold
      · simp only [hsmall, if_true] at h
        cases h
        exact ne_disabledToken (by simp)
      · by_cases hcount : count < 1
        · simp only [hsmall, hcount, if_false, if_true] at h
          cases h
          exact ne_disabledToken (by simp)
        · simp only [hsmall, hcount, if_false] at h
          cases h

/-- The flag of the entry decides, for every amount and every count that is asked for. -/
theorem createRow_disabled_iff (dto : CreateShipmentDto) (fields : CreateFields)
    (totalAmount : Int) :
    (exec (createRow services dto fields totalAmount) db).1 =
        .error (disabledToken fields.tokenAddress) ↔
      (services.getToken fields.tokenAddress).enabled ≠ some true := by
  unfold createRow tokenGate
  constructor
  · intro h henabled
    simp only [henabled, ne_eq, not_true_eq_false, if_false, exec_bind] at h
    split at h
    · rename_i hgate
      split at hgate
      · cases hgate
        split at h
        · cases h
        · rename_i happrovals
          cases h
          exact error_resolveRequiredApprovals services _ (congrArg Prod.fst happrovals) rfl
      · cases hgate
    · rename_i hgate
      cases h
      split at hgate
      · cases hgate
      · rename_i hbounds
        cases hgate
        exact error_assertValueWithinBounds services db (congrArg Prod.fst hbounds) rfl
  · intro hdisabled
    simp only [hdisabled, ne_eq, not_false_eq_true, if_true, exec_bind]
    rfl

/-- What the other readers make of the flag. -/
theorem isEnabled_eq_false_iff (tokenAddress : String) :
    services.isEnabled tokenAddress = false ↔
      ∃ token, services.registered tokenAddress = some token ∧ token.enabled = some false := by
  unfold Services.isEnabled
  cases services.registered tokenAddress with
  | none => simp
  | some token => rcases henabled : token.enabled with _ | flag <;> simp [henabled]

theorem getToken_disabled_iff (tokenAddress : String) :
    (services.getToken tokenAddress).enabled ≠ some true ↔
      ∃ token, services.registered tokenAddress = some token ∧ token.enabled ≠ some true := by
  unfold Services.getToken
  cases services.registered tokenAddress with
  | none => simp [unknownToken]
  | some token => simp

end Gate

section Runs

variable (base : Services) (config : RegistryConfig) (db : Db)

/-- What has an entry was configured or written. -/
def KeysKnown (w : TokenWorld) : Prop :=
  ∀ address token, w.registry address = some token → address ∈ w.keys base.text config

theorem mem_keys_iff (w : TokenWorld) (address : String) :
    address ∈ w.keys base.text config ↔
      address ∈ (initRegistry base.text config).rows.map Prod.fst ∨
        address ∈ w.applied.map Prod.fst := by
  unfold TokenWorld.keys
  rw [List.mem_eraseDups, List.mem_append, List.map_reverse, List.mem_reverse]

theorem keysKnown_configured : KeysKnown base config (TokenWorld.configured base.text config db) := by
  intro address token hfound
  obtain ⟨entry, hentry, -⟩ := Option.map_eq_some_iff.mp hfound
  refine (mem_keys_iff base config _ address).mpr (.inl ?_)
  exact Table.key_of_find? hentry ▸ List.mem_map_of_mem (Table.mem_of_find? hentry)

theorem keysKnown_step (s : TokenPool) (a : TokenAction) (h : KeysKnown base config s.shared) :
    KeysKnown base config ((tokens base).step s a).shared := by
  refine (tokens base).shared_step a h (fun input call _ address token hfound => ?_)
    fun event => by cases event; exact h
  rw [mem_keys_iff]
  obtain ⟨other, change, written, -, hset⟩ | hleaves := writes_or_leaves base input s.shared call
  · simp only [tokens, hset] at hfound ⊢
    by_cases haddress : address = other
    · exact .inr (haddress ▸ .head _)
    · have hsame : (s.shared.set other change written).registry address =
          s.shared.registry address := Function.update_of_ne haddress ..
      rcases (mem_keys_iff base config _ address).mp (h address token (hsame ▸ hfound)) with
        hthere | hwritten
      · exact .inl hthere
      · exact .inr (.tail _ hwritten)
  · rw [tokens, hleaves.registry] at hfound
    simp only [tokens, hleaves.applied]
    exact (mem_keys_iff base config _ address).mp (h address token hfound)

/-- A process that has been started, and what has become of it. -/
def reachedTokens (actions : List TokenAction) : TokenPool :=
  (tokens base).run actions ⟨TokenWorld.configured base.text config db, []⟩

theorem reachedTokens_known (actions : List TokenAction) :
    KeysKnown base config (reachedTokens base config db actions).shared :=
  List.foldlRecOn (motive := fun s : TokenPool => KeysKnown base config s.shared) actions _
    (keysKnown_configured base config db) fun s hs a _ => keysKnown_step base config s a hs

variable (collates : String → String → Bool)

/-- The list has the entry that is found, and no other for the address. -/
theorem mem_listTokens_iff {w : TokenWorld} (h : KeysKnown base config w) (address : String)
    (entry : TokenEntry) :
    entry ∈ w.listTokens base.text config collates ∧
        entry.address = base.text.toUpperCase address ↔
      w.findByAddress base.text address = some entry := by
  unfold TokenWorld.listTokens TokenWorld.findByAddress
  rw [(List.perm_insertionSort ..).mem_iff, Option.map_eq_some_iff, List.mem_map]
  constructor
  · rintro ⟨⟨⟨other, token⟩, hentry, rfl⟩, haddress⟩
    obtain ⟨key, -, hkey⟩ := List.mem_filterMap.mp hentry
    obtain ⟨_, hfound, hpair⟩ := Option.map_eq_some_iff.mp hkey
    cases hpair
    obtain rfl : other = base.text.toUpperCase address := haddress
    exact ⟨token, hfound, rfl⟩
  · rintro ⟨token, hfound, rfl⟩
    refine ⟨⟨(base.text.toUpperCase address, token), ?_, rfl⟩, rfl⟩
    exact List.mem_filterMap.mpr ⟨_, h _ token hfound, by rw [hfound]; rfl⟩

/-- `create`, when it comes to the token, and the readers of the flag agree on an address. -/
structure EnabledAgrees (w : TokenWorld) (address : String) : Prop where
  created : ∀ dto fields totalAmount input, fields.tokenAddress = address →
    ((TokenCall.createToken dto fields totalAmount).resume base input w =
        (w.respond (.error (disabledToken address)), []) ↔
      (w.services base).isEnabled address = false)
  listed : ∀ entry, entry ∈ w.listTokens base.text config collates →
    entry.address = base.text.toUpperCase address →
      entry.enabled = (w.services base).isEnabled address
  found : ∀ entry, w.findByAddress base.text address = some entry →
    entry.enabled = (w.services base).isEnabled address

theorem resume_createToken_iff (w : TokenWorld) (dto : CreateShipmentDto) (fields : CreateFields)
    (totalAmount : Int) (input : TokenInput) (err : Exn) :
    (TokenCall.createToken dto fields totalAmount).resume base input w =
        (w.respond (.error err), []) ↔
      (exec (createRow (w.services base) dto fields totalAmount) w.db).1 = .error err := by
  unfold TokenCall.resume TokenWorld.proceed
  obtain ⟨refusal, hrefused⟩ | ⟨created, hcreated, -⟩ :=
    readOnly_createRow (w.services base) w.db dto fields totalAmount
  · simp only [hrefused]
    constructor
    · intro h
      have hresponses := congrArg (fun result => result.1.responses) h
      exact congrArg Except.error (Except.error.inj (List.cons.inj hresponses).1)
    · intro h
      cases h
      rfl
  · simp only [hcreated]
    refine iff_of_false (fun h => ?_) nofun
    cases congrArg Prod.snd h

/-- In every state that is reached, the readers agree on an address exactly when its entry,
if there is one, has the flag. -/
theorem enabled_agrees_iff (actions : List TokenAction) (address : String) :
    EnabledAgrees base config collates (reachedTokens base config db actions).shared address ↔
      ∀ token, (reachedTokens base config db actions).shared.registry
        (base.text.toUpperCase address) = some token → token.enabled ≠ none := by
  have hknown := reachedTokens_known base config db actions
  generalize (reachedTokens base config db actions).shared = w at hknown ⊢
  have hregistered : (w.services base).registered address =
      (w.registry (base.text.toUpperCase address)).map RegisteredToken.toTokenInfo := rfl
  have hcreate (dto : CreateShipmentDto) (fields : CreateFields) (totalAmount : Int)
      (input : TokenInput) (haddress : fields.tokenAddress = address) :
      (TokenCall.createToken dto fields totalAmount).resume base input w =
          (w.respond (.error (disabledToken address)), []) ↔
        ∃ token, (w.services base).registered address = some token ∧
          token.enabled ≠ some true := by
    subst haddress
    rw [resume_createToken_iff, createRow_disabled_iff, getToken_disabled_iff]
  have hfound (entry : TokenEntry) (h : w.findByAddress base.text address = some entry) :
      entry.enabled = (w.services base).isEnabled address := by
    obtain ⟨token, htoken, rfl⟩ := Option.map_eq_some_iff.mp h
    unfold Services.isEnabled
    rw [hregistered, htoken]
    rfl
  constructor
  · intro hagrees token htoken henabled
    -- any request for the address that comes to its token
    have hgate := hagrees.created (requestFor "SHIP-1") ⟨"", "", "", address, []⟩ 0
      ⟨.calm 0, .ok true, false⟩ rfl
    rw [hcreate _ _ _ _ rfl, isEnabled_eq_false_iff, hregistered, htoken] at hgate
    obtain ⟨other, hother, hdisabled⟩ := hgate.mp ⟨_, rfl, by simp [henabled]⟩
    cases hother
    exact absurd (henabled.symm.trans hdisabled) nofun
  · intro hset
    refine ⟨fun dto fields totalAmount input haddress => ?_, fun entry hentry haddress => ?_, hfound⟩
    · rw [hcreate dto fields totalAmount input haddress, isEnabled_eq_false_iff]
      refine exists_congr fun token => and_congr_right fun htoken => ?_
      obtain ⟨registered, hregistry, rfl⟩ := Option.map_eq_some_iff.mp (hregistered ▸ htoken)
      have hflag := hset registered hregistry
      cases henabled : registered.enabled with
      | none => exact absurd henabled hflag
      | some flag => cases flag <;> simp
    · exact hfound entry ((mem_listTokens_iff base config collates hknown address entry).mp
        ⟨hentry, haddress⟩)

/-- A request for the built-in USDC, which is listed as enabled, is refused. -/
def usdcRequest : CreateShipmentDto :=
  { requestFor "SHIP-1" with
    tokenAddress := some "CBIELTK6YBZJU5UP2WWQEUCYKLPU6AUNZ2BQ4WWFEIE3USCIHMXQDAMA" }

theorem built_in_token_refused :
    let w := (reachedTokens strictServices ⟨none, none⟩ oneToken.db
      [.begin (.create usdcRequest), tokenStep 0, tokenStep 0, tokenStep 0, tokenStep 0]).shared
    w.responses = [.error (disabledToken
        "CBIELTK6YBZJU5UP2WWQEUCYKLPU6AUNZ2BQ4WWFEIE3USCIHMXQDAMA")] ∧
      (w.services strictServices).isEnabled
        "CBIELTK6YBZJU5UP2WWQEUCYKLPU6AUNZ2BQ4WWFEIE3USCIHMXQDAMA" = true ∧
      (w.listTokens strictServices.text ⟨none, none⟩ fun _ _ => true).map TokenEntry.enabled =
        [true, true] := by
  decide +kernel

end Runs

end ChainSettle
