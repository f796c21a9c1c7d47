import ChainSettle.Tokens.Decimals

/-!
Concurrent changes of one entry. Every write passes the check on its bounds, so bounds stay
in order whatever comes in between. An update that has waited for the count of shipments
writes the whole entry as it was copied, and takes back what others have changed since; a
registration that has waited for the chain takes back a whole entry.
-/

namespace ChainSettle

open Lib Lib.Eff

section Fields

inductive TokenField where
  | symbol | decimals | enabled | displayName | minValue | maxValue
deriving DecidableEq

namespace UpdateTokenDto

variable (updates : UpdateTokenDto)

def touches : TokenField → Bool
  | .symbol => (truthyText updates.symbol).isSome
  | .decimals => updates.decimals.isSome
  | .enabled => updates.enabled.isSome
  | .displayName => updates.displayName.isSome
  | .minValue => updates.minValue.isSome
  | .maxValue => updates.maxValue.isSome

/-- The entry has what the update asks for. -/
def ReflectedIn (token : RegisteredToken) : TokenField → Prop
  | .symbol => ∀ symbol ∈ truthyText updates.symbol, token.symbol = symbol
  | .decimals => ∀ decimals ∈ updates.decimals, token.decimals = decimals
  | .enabled => ∀ enabled ∈ updates.enabled, token.enabled = some enabled
  | .displayName => ∀ name ∈ updates.displayName, token.displayName = some name
  | .minValue => ∀ bound ∈ updates.minValue, token.minValue = bound
  | .maxValue => ∀ bound ∈ updates.maxValue, token.maxValue = bound

instance (token : RegisteredToken) : (field : TokenField) →
    Decidable (updates.ReflectedIn token field)
  | .symbol | .decimals | .enabled | .displayName | .minValue | .maxValue =>
      inferInstanceAs (Decidable (∀ _ ∈ _, _))

theorem reflectedIn_apply (existing : RegisteredToken) (field : TokenField) :
    updates.ReflectedIn (updates.apply existing) field := by
  cases field <;> intro value hvalue <;> simp [apply, Option.mem_def.mp hvalue]

variable {updates} in
/-- An update leaves the fields that it does not touch. -/
theorem ReflectedIn.apply {token : RegisteredToken} {field : TokenField}
    (h : updates.ReflectedIn token field) {other : UpdateTokenDto}
    (huntouched : other.touches field = false) :
    updates.ReflectedIn (other.apply token) field := by
  cases field <;> intro value hvalue <;>
    simp only [touches, Option.isSome_eq_false_iff, Option.isNone_iff_eq_none] at huntouched <;>
    simpa [UpdateTokenDto.apply, huntouched] using h value hvalue

end UpdateTokenDto

/-- An update of this field of this entry. -/
def touchesField (address : String) (field : TokenField) : String × TokenChange → Bool
  | (other, .update updates) => other = address && updates.touches field
  | (_, .register _) => false

end Fields

section Log

/-- Every update that was written is in the entry, but for the fields that later updates
have touched. -/
def AppliedReflected (w : TokenWorld) : Prop :=
  ∀ later address updates earlier, w.applied = later ++ (address, .update updates) :: earlier →
    ∃ token, w.registry address = some token ∧
      ∀ field, (∀ change ∈ later, touchesField address field change = false) →
        updates.ReflectedIn token field

/-- Every update that succeeded is in the entry, but for the fields that other updates that
succeeded have touched. -/
def UpdatesReflected (w : TokenWorld) : Prop :=
  ∀ later address updates earlier, w.reported = later ++ (address, .update updates) :: earlier →
    ∃ token, w.registry address = some token ∧
      ∀ field, (∀ change ∈ later ++ earlier, touchesField address field change = false) →
        updates.ReflectedIn token field

/-- The bounds of every entry are in order. -/
def BoundsOrdered (w : TokenWorld) : Prop :=
  ∀ address token, w.registry address = some token → token.Ordered

variable {w : TokenWorld}

/-- When all that was written is reported, in whatever order, the reported updates are
reflected. -/
theorem AppliedReflected.reported (h : AppliedReflected w) (hperm : w.applied.Perm w.reported) :
    UpdatesReflected w := by
  intro later address updates earlier hreported
  rw [hreported] at hperm
  have hmem : (address, TokenChange.update updates) ∈ w.applied :=
    hperm.mem_iff.mpr (List.mem_append_right _ List.mem_cons_self)
  obtain ⟨newer, older, happlied⟩ := List.append_of_mem hmem
  obtain ⟨token, hfound, hreflected⟩ := h newer address updates older happlied
  refine ⟨token, hfound, fun field huntouched => hreflected field fun change hchange => ?_⟩
  rw [happlied] at hperm
  have hothers : (newer ++ older).Perm (later ++ earlier) :=
    (List.perm_middle.symm.trans (hperm.trans List.perm_middle)).cons_inv
  exact huntouched change (hothers.mem_iff.mp (List.mem_append_left _ hchange))

theorem AppliedReflected.of_eq {w' : TokenWorld} (h : AppliedReflected w)
    (hregistry : w'.registry = w.registry) (happlied : w'.applied = w.applied) :
    AppliedReflected w' := by
  unfold AppliedReflected
  rw [hregistry, happlied]
  exact h

/-- An update of the entry that is there. -/
theorem AppliedReflected.update (h : AppliedReflected w) {address : String}
    {existing : RegisteredToken} (hfound : w.registry address = some existing)
    (updates : UpdateTokenDto) :
    AppliedReflected (w.set address (.update updates) (updates.apply existing)) := by
  intro later other earlierUpdates earlier happlied
  have hself : (w.set address (.update updates) (updates.apply existing)).registry address =
      some (updates.apply existing) := Function.update_self ..
  cases later with
  | nil =>
      obtain ⟨hhead, -⟩ := List.cons.inj happlied
      cases hhead
      exact ⟨_, hself, fun field _ => updates.reflectedIn_apply existing field⟩
  | cons change later =>
      obtain ⟨rfl, hrest⟩ := List.cons.inj happlied
      obtain ⟨token, htoken, hreflected⟩ := h later other earlierUpdates earlier hrest
      by_cases haddress : other = address
      · subst haddress
        cases hfound.symm.trans htoken
        refine ⟨_, hself, fun field huntouched => ?_⟩
        obtain ⟨hlast, hlater⟩ := List.forall_mem_cons.mp huntouched
        refine (hreflected field hlater).apply ?_
        simpa [touchesField] using hlast
      · refine ⟨token, ?_, fun field huntouched =>
          hreflected field (List.forall_mem_cons.mp huntouched).2⟩
        exact (Function.update_of_ne haddress ..).trans htoken

/-- The registration of an address that is free. -/
theorem AppliedReflected.register (h : AppliedReflected w) {address : String}
    (hfree : w.registry address = none) (dto : RegisterTokenDto) :
    AppliedReflected (w.set address (.register dto) dto.token) := by
  intro later other updates earlier happlied
  cases later with
  | nil => cases (List.cons.inj happlied).1
  | cons change later =>
      obtain ⟨rfl, hrest⟩ := List.cons.inj happlied
      obtain ⟨token, htoken, hreflected⟩ := h later other updates earlier hrest
      have haddress : other ≠ address := by
        rintro rfl
        exact absurd (hfree.symm.trans htoken) nofun
      refine ⟨token, ?_, fun field huntouched =>
        hreflected field (List.forall_mem_cons.mp huntouched).2⟩
      exact (Function.update_of_ne haddress ..).trans htoken

end Log

section Steps

variable (base : Services)

/-- An update that writes after its count finds the entry that it has copied, a
registration an address that is free, and a change that is made is reported. -/
def TokenCall.SnapshotCurrent (input : TokenInput) (w : TokenWorld) : TokenCall → Prop
  | .contractExists address _ => input.contract = .ok true → w.registry address = none
  | .countShipments address existing updates =>
      input.env.fails .shipmentRead = false →
        (∀ row ∈ w.db.shipments.rows, row.tokenAddress ≠ address) →
          (updates.apply existing).Ordered → w.registry address = some existing
  | .clearList .. => input.redisFails = false
  | _ => True

def UpdatesCurrent (s : TokenPool) : TokenAction → Prop
  | .resume index input => ∀ call ∈ s.inflight[index]?, call.SnapshotCurrent input s.shared
  | .crash index => ∀ call ∈ s.inflight[index]?, call.change = none
  | _ => True

instance (input : TokenInput) (w : TokenWorld) :
    (call : TokenCall) → Decidable (call.SnapshotCurrent input w)
  | .contractExists .. => inferInstanceAs (Decidable (_ → _))
  | .countShipments .. => inferInstanceAs (Decidable (_ → _ → _ → _))
  | .clearList .. => inferInstanceAs (Decidable (_ = _))
  | .registerToken .. | .updateToken .. | .recordAudit .. | .create .. | .createTemplate ..
  | .createKyc .. | .createToken .. | .clone .. | .insert .. | .draft ..
  | .claim .. => inferInstanceAs (Decidable True)

instance (s : TokenPool) : (a : TokenAction) → Decidable (UpdatesCurrent s a)
  | .resume index input =>
      inferInstanceAs (Decidable (∀ call ∈ s.inflight[index]?, call.SnapshotCurrent input s.shared))
  | .crash index => inferInstanceAs (Decidable (∀ call ∈ s.inflight[index]?, call.change = none))
  | .begin _ | .external _ => inferInstanceAs (Decidable True)

variable {base}

theorem change_of_starts {call : TokenCall} (h : call.starts = true) : call.change = none := by
  cases call <;> first | rfl | cases h

theorem change_of_writes {input : TokenInput} {w : TokenWorld} {call : TokenCall} {address : String}
    {change : TokenChange} {token : RegisteredToken}
    (h : call.Writes base input w address change token) : call.change = none := by
  cases h <;> rfl

/-- A write that finds what its call has read keeps the updates before it. -/
theorem reflected_writes {input : TokenInput} {w : TokenWorld} {call : TokenCall}
    {address : String} {change : TokenChange} {token : RegisteredToken}
    (h : AppliedReflected w) (hwrites : call.Writes base input w address change token)
    (hcurrent : call.SnapshotCurrent input w) : AppliedReflected (w.set address change token) := by
  cases hwrites with
  | register address dto deployed => exact h.register (hcurrent deployed) dto
  | update other updates existing found decimals ordered => exact h.update found updates
  | recount address existing updates reads unused ordered =>
      exact h.update (hcurrent reads unused ordered) updates

structure BoundsKept (s : TokenPool) : Prop where
  ordered : BoundsOrdered s.shared
  checked : ∀ call ∈ s.inflight, call.Checked

theorem boundsKept_step (s : TokenPool) (a : TokenAction) (h : BoundsKept s) :
    BoundsKept ((tokens base).step s a) := by
  have hkeeps := (tokens base).keeps_step (Q := BoundsOrdered) (P := fun _ => TokenCall.Checked) a
    h.ordered h.checked
    (fun call _ hstart => by cases call <;> trivial)
    (fun index input call _ hcall => by
      have hothers (other : TokenCall) (hother : other ∈ s.inflight.eraseIdx index) :=
        h.checked other (List.mem_of_mem_eraseIdx hother)
      obtain ⟨address, change, token, hwrites, hset⟩ | hleaves :=
        writes_or_leaves base input s.shared call
      · simp only [tokens, hset]
        refine ⟨fun other found hfound => ?_, List.forall_mem_singleton.mpr trivial, hothers⟩
        by_cases haddress : other = address
        · subst haddress
          have hself : (s.shared.set other change token).registry other = some token :=
            Function.update_self ..
          cases hself.symm.trans hfound
          exact hwrites.ordered (h.checked call (List.mem_of_getElem? hcall))
        · have hsame : (s.shared.set address change token).registry other =
              s.shared.registry other := Function.update_of_ne haddress ..
          exact h.ordered other found (hsame ▸ hfound)
      · refine ⟨fun other found hfound => ?_, hleaves.checked, hothers⟩
        rw [tokens, hleaves.registry] at hfound
        exact h.ordered other found hfound)
    (fun event => by cases event; exact ⟨h.ordered, h.checked⟩)
  exact ⟨hkeeps.1, hkeeps.2⟩

/-- What was written is reported or still under way. -/
structure UpdatesKept (s : TokenPool) : Prop where
  reflected : AppliedReflected s.shared
  accounted : s.shared.applied.Perm (s.inflight.filterMap TokenCall.change ++ s.shared.reported)

theorem updatesKept_step (s : TokenPool) (a : TokenAction) (h : UpdatesKept s)
    (hcurrent : UpdatesCurrent s a) : UpdatesKept ((tokens base).step s a) := by
  obtain ⟨hreflected, haccounted⟩ := h
  rcases (tokens base).step_cases s a with ⟨call, -, hstart, hnext⟩ |
    ⟨index, input, call, pre, post, rfl, hcall, hsplit, -, hnext⟩ |
    ⟨index, call, pre, post, rfl, hcall, hsplit, -, hnext⟩ | ⟨event, -, hnext⟩ | ⟨hnext, -⟩
  · rw [hnext]
    refine ⟨hreflected, ?_⟩
    rw [List.filterMap_append, List.filterMap_cons, change_of_starts hstart, List.filterMap_nil,
      List.append_nil]
    exact haccounted
  · have hbefore : s.shared.applied.Perm (pre.filterMap TokenCall.change ++
        (call.change.toList ++ post.filterMap TokenCall.change) ++ s.shared.reported) := by
      rw [hsplit, List.filterMap_append] at haccounted
      cases hchange : call.change <;> simpa [List.filterMap_cons, hchange] using haccounted
    rw [hnext]
    obtain ⟨address, change, token, hwrites, hset⟩ | hleaves :=
      writes_or_leaves base input s.shared call
    · simp only [tokens, hset]
      refine ⟨reflected_writes hreflected hwrites (hcurrent call hcall), ?_⟩
      rw [change_of_writes hwrites, Option.toList_none, List.nil_append] at hbefore
      rw [List.filterMap_append]
      exact (hbefore.cons (address, change)).trans (List.perm_middle.symm.append_right _)
    · refine ⟨hreflected.of_eq hleaves.registry hleaves.applied, ?_⟩
      obtain ⟨address, change, entry, rfl, hfails⟩ | hreports := hleaves.changes
      · exact absurd (hfails.symm.trans (hcurrent _ hcall)) (by rintro ⟨⟩)
      · simp only [tokens, hleaves.applied, List.filterMap_append]
        rw [List.perm_iff_count] at hbefore hreports ⊢
        intro change
        have hall := hbefore change
        have hown := hreports change
        simp only [List.count_append] at hall hown ⊢
        omega
  · rw [hnext]
    refine ⟨hreflected, ?_⟩
    rw [hsplit, List.filterMap_append, List.filterMap_cons, hcurrent call hcall] at haccounted
    rw [List.filterMap_append]
    exact haccounted
  · rw [hnext]
    cases event
    exact ⟨hreflected, haccounted⟩
  · rw [hnext]
    exact ⟨hreflected, haccounted⟩

end Steps

section Runs

variable (base : Services)

/-- No call under way, and nothing logged. -/
def TokenWorld.fresh (w : TokenWorld) : TokenPool :=
  ⟨{ w with applied := [], responses := [] }, []⟩

/-- In every run the bounds stay in order. Along every run in which an update that has
waited finds the entry that it has copied, a registration that has waited finds its address
free, and no call fails or is lost after its write, every update that succeeded is in the
entry once all changes are reported, but for the fields that other updates have touched. -/
theorem updates_reflected_while_current (start : TokenWorld) (hstart : BoundsOrdered start)
    (actions : List TokenAction) :
    (∀ pre post, actions = pre ++ post →
      BoundsOrdered ((tokens base).run pre start.fresh).shared) ∧
    (Along (tokens base).step UpdatesCurrent start.fresh actions →
      ∀ pre post, actions = pre ++ post →
        (∀ call ∈ ((tokens base).run pre start.fresh).inflight, call.change = none) →
          UpdatesReflected ((tokens base).run pre start.fresh).shared) := by
  constructor
  · intro pre post _
    have hidle : BoundsKept start.fresh := ⟨hstart, List.forall_mem_nil _⟩
    have hkept : BoundsKept ((tokens base).run pre start.fresh) :=
      List.foldlRecOn pre _ hidle fun s hs a _ => boundsKept_step s a hs
    exact hkept.ordered
  · intro h pre post hsplit hdone
    have hidle : UpdatesKept start.fresh := by
      refine ⟨fun later address updates earlier happlied => ?_, .refl _⟩
      cases later <;> cases happlied
    have hstep (s : TokenPool) (a : TokenAction) (hs : UpdatesKept s) (ha : UpdatesCurrent s a) :
        UpdatesKept ((tokens base).step s a) := updatesKept_step s a hs ha
    have hkept : UpdatesKept ((tokens base).run pre start.fresh) :=
      h.invariant hstep hidle pre post hsplit
    have haccounted := hkept.accounted
    rw [List.filterMap_eq_nil_iff.mpr hdone, List.nil_append] at haccounted
    exact hkept.reflected.reported haccounted

theorem boundsOrdered_oneToken : BoundsOrdered oneToken := by
  intro address token htoken
  simp only [oneToken] at htoken
  split at htoken
  · cases htoken
    exact nofun
  · cases htoken

def disabled : UpdateTokenDto := ⟨none, none, some false, none, none, none⟩

/-- A lower bound, and then an upper bound, below it at first. -/
def bounded (low high : Option String) : UpdateTokenDto :=
  ⟨none, none, none, none, low.map some, high.map some⟩

def changedInTurn : List TokenAction :=
  [.begin (.updateToken "CUSDC" disabled), .begin (.updateToken "CUSDC" (newDecimals 6)),
    tokenStep 0, tokenStep 1, tokenStep 0, tokenStep 0, tokenStep 0, tokenStep 0, tokenStep 0,
    .begin (.updateToken "CUSDC" (bounded (some "500") none)), tokenStep 0, tokenStep 0, tokenStep 0,
    .begin (.updateToken "CUSDC" (bounded none (some "400"))), tokenStep 0,
    .begin (.updateToken "CUSDC" (bounded none (some "900"))), tokenStep 0, tokenStep 0,
    tokenStep 0]

theorem changed_in_turn :
    BoundsOrdered ((tokens strictServices).run changedInTurn oneToken.fresh).shared ∧
      UpdatesReflected ((tokens strictServices).run changedInTurn oneToken.fresh).shared ∧
      ((tokens strictServices).run changedInTurn oneToken.fresh).shared.registry "CUSDC" =
        some ⟨⟨"USDC", 6, some false, some "500", some "900"⟩, none⟩ :=
  ⟨(updates_reflected_while_current strictServices oneToken boundsOrdered_oneToken changedInTurn).1
      changedInTurn [] rfl,
    (updates_reflected_while_current strictServices oneToken boundsOrdered_oneToken
      changedInTurn).2 (by decide) changedInTurn [] rfl (by decide), by decide⟩

/-- The token is disabled while another update waits for the count. -/
def changedMeanwhile : List TokenAction :=
  [.begin (.updateToken "CUSDC" (newDecimals 6)), tokenStep 0,
    .begin (.updateToken "CUSDC" disabled), tokenStep 1, tokenStep 1, tokenStep 1,
    tokenStep 0, tokenStep 0, tokenStep 0]

theorem enabled_again :
    ¬ UpdatesReflected ((tokens strictServices).run changedMeanwhile oneToken.fresh).shared ∧
      ((tokens strictServices).run changedMeanwhile oneToken.fresh).inflight.length = 0 := by
  refine ⟨fun h => ?_, by decide⟩
  have hentry : ((tokens strictServices).run changedMeanwhile oneToken.fresh).shared.registry
      "CUSDC" = some ⟨⟨"USDC", 6, some true, none, none⟩, none⟩ := by decide
  obtain ⟨token, hfound, hreflected⟩ := h [("CUSDC", .update (newDecimals 6))] "CUSDC" disabled []
    (by decide)
  cases hentry.symm.trans hfound
  exact absurd (hreflected .enabled (by decide)) (by decide)

end Runs

end ChainSettle
