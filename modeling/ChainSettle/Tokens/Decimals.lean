import ChainSettle.Archive.Immutable
import ChainSettle.Tokens.Steps

/-!
The decimals of a token that is used. A count of the shipments is to keep them as they are;
it finds only addresses that are written in upper case, and neither a shipment that is
about to be inserted nor a registration is counted. As long as every entry is written with
the decimals that the shipments of its token have, each shipment has the decimals of its
token.
-/

namespace ChainSettle

open Lib Lib.Eff

section Uses

variable (base : Services)

/-- The decimals are those of the token, where the address is registered. -/
def TokenRegistry.Agrees (registry : TokenRegistry) (tokenAddress : String) (decimals : Nat) :
    Prop :=
  ∀ token ∈ registry (base.text.toUpperCase tokenAddress), decimals = token.decimals

/-- Every shipment has the decimals of its registered token. -/
def DecimalsStored (w : TokenWorld) : Prop :=
  ∀ row ∈ w.db.shipments.rows,
    TokenRegistry.Agrees base w.registry row.tokenAddress row.tokenDecimals

/-- The shipments of a token, stored or about to be inserted, have these decimals. -/
def TokenWorld.UsedWith (w : TokenWorld) (others : List TokenCall) (address : String)
    (decimals : Nat) : Prop :=
  (∀ row ∈ w.db.shipments.rows,
      base.text.toUpperCase row.tokenAddress = address → row.tokenDecimals = decimals) ∧
    ∀ call ∈ others, ∀ new ∈ call.new,
      base.text.toUpperCase new.tokenAddress = address → new.tokenDecimals = decimals

/-- A call that is about to write an entry writes the decimals that its shipments have. -/
def TokenCall.Agreeing (input : TokenInput) (w : TokenWorld) (others : List TokenCall) :
    TokenCall → Prop
  | .contractExists address dto =>
      input.contract = .ok true → w.UsedWith base others address dto.decimals
  | .countShipments address existing updates =>
      input.env.fails .shipmentRead = false →
        (∀ row ∈ w.db.shipments.rows, row.tokenAddress ≠ address) →
          (updates.apply existing).Ordered →
            w.UsedWith base others address (updates.apply existing).decimals
  | _ => True

def WritesAgreeing (s : TokenPool) : TokenAction → Prop
  | .resume index input =>
      ∀ call ∈ s.inflight[index]?,
        call.Agreeing base input s.shared (s.inflight.eraseIdx index)
  | _ => True

instance (w : TokenWorld) (others : List TokenCall) (address : String) (decimals : Nat) :
    Decidable (w.UsedWith base others address decimals) :=
  inferInstanceAs (Decidable (_ ∧ _))

instance (input : TokenInput) (w : TokenWorld) (others : List TokenCall) (call : TokenCall) :
    Decidable (call.Agreeing base input w others) := by
  unfold TokenCall.Agreeing
  split <;> infer_instance

instance (s : TokenPool) : (a : TokenAction) → Decidable (WritesAgreeing base s a)
  | .resume index input =>
      inferInstanceAs (Decidable (∀ call ∈ s.inflight[index]?,
        call.Agreeing base input s.shared (s.inflight.eraseIdx index)))
  | .begin _ | .crash _ | .external _ => inferInstanceAs (Decidable True)

instance (w : TokenWorld) : Decidable (DecimalsStored base w) :=
  inferInstanceAs (Decidable (∀ row ∈ w.db.shipments.rows,
    ∀ token ∈ w.registry (base.text.toUpperCase row.tokenAddress),
      row.tokenDecimals = token.decimals))

/-- A step changes the decimals of no entry that a stored shipment resolves to. -/
def DecimalsFrozen (s : TokenPool) (a : TokenAction) : Prop :=
  ∀ address token token', s.shared.registry address = some token →
    ((tokens base).step s a).shared.registry address = some token' →
      token'.decimals ≠ token.decimals →
        ∀ row ∈ s.shared.db.shipments.rows, base.text.toUpperCase row.tokenAddress ≠ address

end Uses

section Steps

variable {base : Services}

/-- A new shipment agrees with the registry that its decimals were read from. -/
theorem agrees_of_priced {w : TokenWorld} {new : NewShipment}
    (h : new.Priced (w.services base)) :
    TokenRegistry.Agrees base w.registry new.tokenAddress new.tokenDecimals := by
  intro token htoken
  rw [h, Services.getToken, Services.registered]
  have hfound : (w.services base).registry ((w.services base).text.toUpperCase new.tokenAddress) =
      some token.toTokenInfo := congrArg (Option.map RegisteredToken.toTokenInfo) htoken
  rw [hfound, Option.getD_some]

/-- What agrees goes on to agree where an entry is written with its decimals. -/
theorem agrees_set {w : TokenWorld} {address tokenAddress : String} {change : TokenChange}
    {token : RegisteredToken} {decimals : Nat}
    (h : TokenRegistry.Agrees base w.registry tokenAddress decimals)
    (hused : base.text.toUpperCase tokenAddress = address → decimals = token.decimals) :
    TokenRegistry.Agrees base (w.set address change token).registry tokenAddress decimals := by
  intro found hfound
  by_cases haddress : base.text.toUpperCase tokenAddress = address
  · have hself : (w.set address change token).registry (base.text.toUpperCase tokenAddress) =
        some token := by
      rw [haddress]
      exact Function.update_self ..
    cases hself.symm.trans hfound
    exact hused haddress
  · refine h found ?_
    have hother : (w.set address change token).registry (base.text.toUpperCase tokenAddress) =
        w.registry (base.text.toUpperCase tokenAddress) := Function.update_of_ne haddress ..
    exact hother ▸ hfound

/-- Whatever agrees before a write has the decimals that are written. -/
theorem decimals_of_writes {input : TokenInput} {w : TokenWorld} {call : TokenCall}
    {others : List TokenCall} {address : String} {change : TokenChange} {token : RegisteredToken}
    (h : call.Writes base input w address change token)
    (hagreeing : call.Agreeing base input w others) :
    (∀ tokenAddress decimals, TokenRegistry.Agrees base w.registry tokenAddress decimals →
        base.text.toUpperCase tokenAddress = address → decimals = token.decimals) ∨
      w.UsedWith base others address token.decimals := by
  cases h with
  | register address dto deployed => exact .inr (hagreeing deployed)
  | update other updates existing found decimals ordered =>
      refine .inl fun tokenAddress value hagrees haddress => ?_
      rw [decimals]
      exact hagrees existing (haddress ▸ found)
  | recount address existing updates reads unused ordered =>
      exact .inr (hagreeing reads unused ordered)

/-- A step leaves the registry alone, or the database. -/
theorem registry_step (base : Services) (s : TokenPool) (a : TokenAction) :
    ((tokens base).step s a).shared.registry = s.shared.registry ∨
      ((tokens base).step s a).shared.db = s.shared.db := by
  rcases (tokens base).step_cases s a with ⟨call, -, -, hnext⟩ |
    ⟨index, input, call, pre, post, -, -, -, -, hnext⟩ |
    ⟨index, call, pre, post, -, -, -, -, hnext⟩ | ⟨event, -, hnext⟩ | ⟨hnext, -⟩
  · exact .inl (by rw [hnext])
  · rw [hnext]
    obtain ⟨address, change, token, -, hset⟩ | hleaves :=
      writes_or_leaves base input s.shared call
    · refine .inr ?_
      simp only [tokens, hset]
      rfl
    · exact .inl hleaves.registry
  · exact .inl (by rw [hnext])
  · rw [hnext]
    cases event
    exact .inl rfl
  · exact .inl (by rw [hnext])

/-- The stored shipments and those that are about to be inserted have the decimals of
their tokens. -/
structure TokensAgree (base : Services) (s : TokenPool) : Prop where
  stored : DecimalsStored base s.shared
  pending : ∀ call ∈ s.inflight, ∀ new ∈ call.new,
    TokenRegistry.Agrees base s.shared.registry new.tokenAddress new.tokenDecimals

theorem tokensAgree_step (s : TokenPool) (a : TokenAction) (h : TokensAgree base s)
    (hagreeing : WritesAgreeing base s a) : TokensAgree base ((tokens base).step s a) := by
  have hkeeps := (tokens base).keeps_step (Q := DecimalsStored base)
    (P := fun w call => ∀ new ∈ call.new,
      TokenRegistry.Agrees base w.registry new.tokenAddress new.tokenDecimals) a h.stored h.pending
    (fun call _ hstart => by
      have hnone : call.new = none := by
        cases call <;> first | rfl | cases hstart
      simp [hnone])
    (fun index input call haction hcall => by
      subst haction
      have hpending (other : TokenCall) (hother : other ∈ s.inflight.eraseIdx index) :=
        h.pending other (List.mem_of_mem_eraseIdx hother)
      obtain ⟨address, change, token, hwrites, hset⟩ | hleaves :=
        writes_or_leaves base input s.shared call
      · have hdecimals := decimals_of_writes hwrites (hagreeing call hcall)
        simp only [tokens, hset]
        refine ⟨fun row hrow => agrees_set (h.stored row hrow) fun haddress => ?_,
          List.forall_mem_singleton.mpr nofun,
          fun other hother new hnew =>
            agrees_set (hpending other hother new hnew) fun haddress => ?_⟩
        · exact hdecimals.elim (fun hall => hall _ _ (h.stored row hrow) haddress)
            fun hused => hused.1 row hrow haddress
        · exact hdecimals.elim (fun hall => hall _ _ (hpending other hother new hnew) haddress)
            fun hused => hused.2 other hother new hnew haddress
      · refine ⟨fun row hrow => ?_, fun next hnext new hnew => ?_, fun other hother new hnew => ?_⟩
        · rw [tokens, hleaves.registry]
          rcases hleaves.rows row hrow with hold | ⟨new, hnew, rfl⟩
          · exact h.stored row hold
          · exact h.pending call (List.mem_of_getElem? hcall) new hnew
        · rw [tokens, hleaves.registry]
          exact agrees_of_priced (hleaves.new next hnext new hnew)
        · rw [tokens, hleaves.registry]
          exact hpending other hother new hnew)
    (fun event => by cases event; exact ⟨h.stored, h.pending⟩)
  exact ⟨hkeeps.1, hkeeps.2⟩

/-- Where a step keeps the shipments right, it freezes the decimals that they have. -/
theorem frozen_of_agree {s : TokenPool} {a : TokenAction} (h : DecimalsStored base s.shared)
    (hafter : DecimalsStored base ((tokens base).step s a).shared) : DecimalsFrozen base s a := by
  intro address token token' hfound hfound' hchanged row hrow haddress
  rcases registry_step base s a with hregistry | hdb
  · rw [hregistry, hfound] at hfound'
    cases hfound'
    exact hchanged rfl
  · have hbefore := h row hrow token (haddress ▸ hfound)
    have hnow := hafter row (hdb ▸ hrow) token' (haddress ▸ hfound')
    exact hchanged (hnow.symm.trans hbefore)

end Steps

section Runs

variable (base : Services)

/-- Along every run in which entries are written only with the decimals that the shipments
of their token have, stored or about to be inserted, every stored shipment has the decimals
of its registered token, and no step changes the decimals of an entry while a stored
shipment resolves to it. -/
theorem decimals_frozen_while_agreeing (start : TokenWorld) (hstart : DecimalsStored base start)
    (actions : List TokenAction)
    (h : Along (tokens base).step (WritesAgreeing base) ⟨start, []⟩ actions) :
    ∀ pre post, actions = pre ++ post →
      DecimalsStored base ((tokens base).run pre ⟨start, []⟩).shared ∧
        ∀ a rest, post = a :: rest → DecimalsFrozen base ((tokens base).run pre ⟨start, []⟩) a := by
  intro pre post hsplit
  have hidle : TokensAgree base ⟨start, []⟩ := ⟨hstart, List.forall_mem_nil _⟩
  have hstep (s : TokenPool) (a : TokenAction) (hs : TokensAgree base s)
      (ha : WritesAgreeing base s a) : TokensAgree base ((tokens base).step s a) :=
    tokensAgree_step s a hs ha
  have hagree : TokensAgree base ((tokens base).run pre ⟨start, []⟩) :=
    h.invariant hstep hidle pre post hsplit
  refine ⟨hagree.stored, ?_⟩
  rintro a rest rfl
  have hallowed : WritesAgreeing base ((tokens base).run pre ⟨start, []⟩) a :=
    along_iff_forall.mp h pre a rest hsplit
  exact frozen_of_agree hagree.stored (hstep _ a hagree hallowed).stored

/-- One token, and users without shipments. -/
def oneToken : TokenWorld where
  db := { Db.demo .pending with shipments := .empty, milestones := .empty, users := demoUsers }
  registry address :=
    if address = "CUSDC" then some ⟨⟨"USDC", 7, some true, none, none⟩, none⟩ else none
  applied := []
  responses := []

/-- A request whose token is written in lower case. -/
def lowerCaseRequest : CreateShipmentDto :=
  { requestFor "SHIP-1" with tokenAddress := some "cusdc" }

def newDecimals (decimals : Nat) : UpdateTokenDto := ⟨none, some decimals, none, none, none, none⟩

def tokenStep (index : Nat) : TokenAction := .resume index ⟨.calm 20, .ok true, false⟩

/-- The decimals change before the shipment is created, and another token is registered. -/
def changedBefore : List TokenAction :=
  [.begin (.updateToken "cusdc" (newDecimals 6)), tokenStep 0, tokenStep 0, tokenStep 0,
    .begin (.create lowerCaseRequest), tokenStep 1, tokenStep 1, tokenStep 1,
    .begin (.registerToken ⟨"ceurc", "EURC", none, 7, none, none⟩), tokenStep 2, tokenStep 2,
    tokenStep 1, tokenStep 1, tokenStep 0, tokenStep 0]

theorem changed_before_creation :
    DecimalsStored strictServices
        ((tokens strictServices).run changedBefore ⟨oneToken, []⟩).shared ∧
      ((tokens strictServices).run changedBefore ⟨oneToken, []⟩).shared.db.shipments.rows.map
        (fun row => (row.tokenAddress, row.tokenDecimals)) = [("cusdc", 6)] :=
  ⟨(decimals_frozen_while_agreeing strictServices oneToken (by decide) changedBefore
    (by decide +kernel) changedBefore [] rfl).1, by decide +kernel⟩

/-- The decimals change after the shipment is created. -/
def changedAfter : List TokenAction :=
  .begin (.create lowerCaseRequest) :: List.replicate 5 (tokenStep 0) ++
    .begin (.updateToken "CUSDC" (newDecimals 6)) :: List.replicate 4 (tokenStep 0)

theorem changed_after_creation :
    ¬ DecimalsStored strictServices
        ((tokens strictServices).run changedAfter ⟨oneToken, []⟩).shared ∧
      ((tokens strictServices).run changedAfter ⟨oneToken, []⟩).shared.responses.all
        fun response => response.isOk := by
  decide +kernel

end Runs

end ChainSettle
