import ChainSettle.Creation.Gates
import ChainSettle.Semantics.TokenRegistry

/-!
What the steps around the token registry do. Three of them write an entry; all others leave
the registry alone, and either make a shipment with the decimals that its token has just
then, insert one that was made before, or report a change.
-/

namespace ChainSettle

open Lib Lib.Eff

section Rows

variable (services : Services) (env : Env) (db : Db)

/-- A new shipment with the decimals that its token has. -/
def NewShipment.Priced (new : NewShipment) : Prop :=
  new.tokenDecimals = (services.getToken new.tokenAddress).decimals

theorem readOnly_createFields (dto : CreateShipmentDto) :
    ReadOnly (createFields services env dto) db fun _ => True := by
  unfold createFields
  refine readOnly_bind (readOnly_findTemplate env db dto) fun template _ => ?_
  refine readOnly_bind (readOnly_requiredFields services db dto.buyer_nonempty _) fun fields _ => ?_
  refine readOnly_bind (readOnly_checkPercentages db fields.milestones) fun _ _ => ?_
  split
  · exact readOnly_throw _ _ _
  · exact readOnly_pure trivial

theorem readOnly_createRow (dto : CreateShipmentDto) (fields : CreateFields) (totalAmount : Int) :
    ReadOnly (createRow services dto fields totalAmount) db
      fun created => created.1.Priced services := by
  unfold createRow
  refine readOnly_bind (readOnly_tokenGate services db fields.tokenAddress totalAmount)
    fun token htoken => ?_
  refine readOnly_bind (readOnly_resolveRequiredApprovals services db _ totalAmount) fun _ _ => ?_
  refine readOnly_pure ?_
  simp only [NewShipment.Priced, htoken.1]

/-- The row of a clone: the id asked for, no approvals required, and the decimals that its
token has. -/
theorem readOnly_cloneRow (id buyerAddress : String) (dto : CloneShipmentDto) :
    ReadOnly (cloneRow services env id buyerAddress dto) db
      fun cloned => cloned.1.id = dto.newId ∧ cloned.1.requiredApprovals = none ∧
        cloned.1.Priced services := by
  unfold cloneRow
  refine readOnly_found env db id fun source _ => readOnly_guard fun _ => ?_
  refine readOnly_bind (readOnly_get db) fun _ _ => ?_
  split
  · exact readOnly_throw _ _ _
  · exact readOnly_pure ⟨rfl, rfl, rfl⟩

theorem priced_draft {due : DueSchedule} {shipmentId : String} {new : NewShipment}
    (h : due.draft services shipmentId = some new) : new.Priced services := by
  simp only [DueSchedule.draft, Option.pure_def, Option.bind_eq_bind, Option.bind_eq_some_iff,
    Option.some.injEq] at h
  obtain ⟨_, _, _, _, _, _, tokenAddress, _, rfl⟩ := h
  rfl

/-- The rows after an insert, where it is not rejected. -/
theorem mem_shipments_insert (new : NewShipment) (milestones : List NewMilestone) (row : Shipment)
    (h : row ∈ (exec (shipmentInsert env new milestones) db).2.shipments.rows) :
    row ∈ db.shipments.rows ∨ row = new.row := by
  obtain ⟨-, hok⟩ | ⟨-, err, herr⟩ := exec_shipmentInsert env db new milestones
  · rw [hok] at h
    exact Table.mem_insert h
  · rw [herr] at h
    exact .inl h

theorem mem_shipments_claim (due : DueSchedule) (new : NewShipment) (nextRunAt : Nat)
    (row : Shipment)
    (h : row ∈ (exec (claimAndInsert env due new nextRunAt) db).2.shipments.rows) :
    row ∈ db.shipments.rows ∨ row = new.row := by
  unfold claimAndInsert at h
  rw [exec_bind, exec_prismaCall] at h
  cases hwrites : env.fails .scheduleWrite with
  | true => exact .inl (by simpa [hwrites] using h)
  | false =>
      simp only [hwrites, Bool.false_eq_true, if_false, exec_bind, exec_get] at h
      split at h
      · rw [exec_bind] at h
        obtain ⟨-, hok⟩ | ⟨-, err, herr⟩ := exec_shipmentInsert env db new []
        · rw [hok] at h
          exact Table.mem_insert h
        · rw [herr] at h
          exact .inl h
      · exact .inl h

end Rows

section Calls

variable (base : Services)

/-- The shipment that a call is about to insert. -/
def TokenCall.new : TokenCall → Option NewShipment
  | .insert new _ | .claim _ new _ => some new
  | _ => none

/-- The change that a call has made and not reported. -/
def TokenCall.change : TokenCall → Option (String × TokenChange)
  | .clearList address change _ | .recordAudit address change _ => some (address, change)
  | _ => none

/-- The changes that were reported to their callers. -/
def TokenWorld.reported (w : TokenWorld) : List (String × TokenChange) :=
  w.responses.filterMap fun response =>
    match response with
    | .ok (.changed address change _) => some (address, change)
    | _ => none

/-- The bounds of an entry are in order. -/
def RegisteredToken.Ordered (token : RegisteredToken) : Prop :=
  ∀ low ∈ token.minValue, ∀ high ∈ token.maxValue,
    ∃ least ∈ bigIntOfString low, ∃ most ∈ bigIntOfString high, least ≤ most

instance (token : RegisteredToken) : Decidable token.Ordered :=
  inferInstanceAs (Decidable (∀ low ∈ token.minValue, ∀ high ∈ token.maxValue,
    ∃ least ∈ bigIntOfString low, ∃ most ∈ bigIntOfString high, least ≤ most))

/-- A registration is checked before it waits for the chain. -/
def TokenCall.Checked : TokenCall → Prop
  | .contractExists _ dto => dto.token.Ordered
  | _ => True

/-- The entry that a step writes. -/
inductive TokenCall.Writes (input : TokenInput) (w : TokenWorld) :
    TokenCall → String → TokenChange → RegisteredToken → Prop
  | register (address : String) (dto : RegisterTokenDto) (deployed : input.contract = .ok true) :
      Writes input w (.contractExists address dto) address (.register dto) dto.token
  | update (address : String) (updates : UpdateTokenDto) (existing : RegisteredToken)
      (found : w.registry (base.text.toUpperCase address) = some existing)
      (decimals : (updates.apply existing).decimals = existing.decimals)
      (ordered : (updates.apply existing).Ordered) :
      Writes input w (.updateToken address updates) (base.text.toUpperCase address)
        (.update updates) (updates.apply existing)
  | recount (address : String) (existing : RegisteredToken) (updates : UpdateTokenDto)
      (reads : input.env.fails .shipmentRead = false)
      (unused : ∀ row ∈ w.db.shipments.rows, row.tokenAddress ≠ address)
      (ordered : (updates.apply existing).Ordered) :
      Writes input w (.countShipments address existing updates) address (.update updates)
        (updates.apply existing)

/-- A step that writes no entry. -/
structure LeavesRegistry (input : TokenInput) (w : TokenWorld) (call : TokenCall)
    (result : TokenWorld × List TokenCall) : Prop where
  registry : result.1.registry = w.registry
  applied : result.1.applied = w.applied
  rows : ∀ row ∈ result.1.db.shipments.rows, row ∈ w.db.shipments.rows ∨
    ∃ new ∈ call.new, row = new.row
  new : ∀ next ∈ result.2, ∀ new ∈ next.new, new.Priced (w.services base)
  checked : ∀ next ∈ result.2, next.Checked
  changes : (∃ address change entry, call = .clearList address change entry ∧
      input.redisFails = true) ∨
    (result.2.filterMap TokenCall.change ++ result.1.reported).Perm
      (call.change.toList ++ w.reported)

variable {base} {input : TokenInput} {w : TokenWorld} {call : TokenCall}

theorem TokenCall.Writes.ordered {address : String} {change : TokenChange}
    {token : RegisteredToken} (h : call.Writes base input w address change token)
    (hchecked : call.Checked) : token.Ordered := by
  cases h with
  | register => exact hchecked
  | update => assumption
  | recount => assumption

theorem ordered_of_assert {token : RegisteredToken}
    (h : assertBoundsOrdered token.minValue token.maxValue = .ok ()) : token.Ordered := by
  intro low hlow high hhigh
  rw [Option.mem_def.mp hlow, Option.mem_def.mp hhigh] at h
  unfold assertBoundsOrdered at h
  cases hleast : bigIntOfString low with
  | none => simp [hleast] at h
  | some least =>
      cases hmost : bigIntOfString high with
      | none => simp [hleast, hmost] at h
      | some most =>
          by_cases hless : most < least
          · simp [hleast, hmost, hless] at h
          · exact ⟨least, rfl, most, rfl, Int.not_lt.mp hless⟩

/-- `updateToken` ends in its write, or its bounds are refused. -/
theorem update_cases (w : TokenWorld) (address : String) (existing : RegisteredToken)
    (updates : UpdateTokenDto) :
    ((updates.apply existing).Ordered ∧
      w.update address existing updates =
        (w.set address (.update updates) (updates.apply existing),
          [.clearList address (.update updates) (updates.apply existing)])) ∨
    ∃ err, w.update address existing updates = (w.respond (.error err), []) := by
  unfold TokenWorld.update
  dsimp only
  split
  · exact .inr ⟨_, rfl⟩
  · rename_i hordered
    exact .inl ⟨ordered_of_assert hordered, rfl⟩

/-- A call that ends. -/
theorem leaves_end {w' : TokenWorld} (hregistry : w'.registry = w.registry)
    (happlied : w'.applied = w.applied)
    (hrows : ∀ row ∈ w'.db.shipments.rows, row ∈ w.db.shipments.rows ∨
      ∃ new ∈ call.new, row = new.row)
    (hreported : w'.reported.Perm (call.change.toList ++ w.reported)) :
    LeavesRegistry base input w call (w', []) where
  registry := hregistry
  applied := happlied
  rows := hrows
  new := List.forall_mem_nil _
  checked := List.forall_mem_nil _
  changes := .inr hreported

theorem leaves_refuse (err : Exn) (hchange : call.change = none) :
    LeavesRegistry base input w call (w.respond (.error err), []) :=
  leaves_end rfl rfl (fun _ h => .inl h) (by rw [hchange]; exact .refl _)

/-- A call that goes on by itself. -/
structure TokenCall.Follows (base : Services) (w : TokenWorld) (next : TokenCall) : Prop where
  change : next.change = none
  new : ∀ new ∈ next.new, new.Priced (w.services base)
  checked : next.Checked

theorem leaves_next {next : TokenCall} (hchange : call.change = none)
    (hnext : next.Follows base w) : LeavesRegistry base input w call (w, [next]) where
  registry := rfl
  applied := rfl
  rows _ h := .inl h
  new := List.forall_mem_singleton.mpr hnext.new
  checked := List.forall_mem_singleton.mpr hnext.checked
  changes := .inr (by simp [hchange, hnext.change])

/-- A program that only reads leaves everything alone. -/
theorem leaves_proceed {α : Type} {program : Tx α} {Q : α → Prop} {next : α → TokenCall}
    (hchange : call.change = none) (hreads : ReadOnly program w.db Q)
    (hnext : ∀ value, Q value → (next value).Follows base w) :
    LeavesRegistry base input w call (w.proceed program fun value => [next value]) := by
  unfold TokenWorld.proceed
  obtain ⟨err, herr⟩ | ⟨value, hok, hvalue⟩ := hreads
  · rw [herr]
    exact leaves_refuse err hchange
  · rw [hok]
    exact leaves_next hchange (hnext value hvalue)

/-- A step writes the entry of its call, or none. -/
theorem writes_or_leaves (base : Services) (input : TokenInput) (w : TokenWorld)
    (call : TokenCall) :
    (∃ address change token, call.Writes base input w address change token ∧
      call.resume base input w =
        (w.set address change token, [.clearList address change token])) ∨
    LeavesRegistry base input w call (call.resume base input w) := by
  cases call with
  | registerToken dto =>
      simp only [TokenCall.resume]
      split
      · exact .inr (leaves_refuse _ rfl)
      · rename_i hordered
        split
        · exact .inr (leaves_refuse _ rfl)
        · have htoken : dto.token.Ordered := ordered_of_assert hordered
          exact .inr (leaves_next rfl ⟨rfl, nofun, htoken⟩)
  | contractExists address dto =>
      cases hcontract : input.contract with
      | error message =>
          simp only [TokenCall.resume, hcontract]
          exact .inr (leaves_refuse _ rfl)
      | ok deployed =>
          cases deployed with
          | false =>
              simp only [TokenCall.resume, hcontract]
              exact .inr (leaves_refuse _ rfl)
          | true =>
              simp only [TokenCall.resume, hcontract]
              exact .inl ⟨_, _, _, .register address dto hcontract, rfl⟩
  | updateToken address updates =>
      simp only [TokenCall.resume]
      split
      · exact .inr (leaves_refuse _ rfl)
      · rename_i existing hfound
        split
        · exact .inr (leaves_next rfl ⟨rfl, nofun, trivial⟩)
        · rename_i hsame
          obtain ⟨hordered, hset⟩ | ⟨err, herr⟩ :=
            update_cases w (base.text.toUpperCase address) existing updates
          · rw [hset]
            refine .inl ⟨_, _, _, .update address updates existing hfound ?_ hordered, rfl⟩
            cases hdecimals : updates.decimals with
            | none => simp [UpdateTokenDto.apply, hdecimals]
            | some decimals => simpa [UpdateTokenDto.apply, hdecimals] using hsame
          · rw [herr]
            exact .inr (leaves_refuse _ rfl)
  | countShipments address existing updates =>
      simp only [TokenCall.resume]
      split
      · exact .inr (leaves_refuse _ rfl)
      · rename_i hreads
        split
        · exact .inr (leaves_refuse _ rfl)
        · rename_i hunused
          obtain ⟨hordered, hset⟩ | ⟨err, herr⟩ := update_cases w address existing updates
          · rw [hset]
            exact .inl ⟨_, _, _, .recount address existing updates (by simpa using hreads)
              (by simpa using hunused) hordered, rfl⟩
          · rw [herr]
            exact .inr (leaves_refuse _ rfl)
  | clearList address change entry =>
      cases hredis : input.redisFails with
      | true =>
          simp only [TokenCall.resume, hredis, if_true]
          exact .inr ⟨rfl, rfl, fun _ h => .inl h, List.forall_mem_nil _, List.forall_mem_nil _,
            .inl ⟨address, change, entry, rfl, hredis⟩⟩
      | false =>
          simp only [TokenCall.resume, hredis, Bool.false_eq_true, if_false]
          cases change with
          | register dto => exact .inr (leaves_end rfl rfl (fun _ h => .inl h) (.refl _))
          | update updates =>
              exact .inr ⟨rfl, rfl, fun _ h => .inl h, List.forall_mem_singleton.mpr nofun,
                List.forall_mem_singleton.mpr trivial, .inr (.refl _)⟩
  | recordAudit address change entry =>
      exact .inr (leaves_end rfl rfl (fun _ h => .inl h) (.refl _))
  | create dto =>
      exact .inr (leaves_proceed rfl (readOnly_checkUnused input.env w.db dto)
        fun _ _ => ⟨rfl, nofun, trivial⟩)
  | createTemplate dto =>
      exact .inr (leaves_proceed rfl (readOnly_createFields (w.services base) input.env w.db dto)
        fun _ _ => ⟨rfl, nofun, trivial⟩)
  | createKyc dto fields totalAmount =>
      exact .inr (leaves_proceed rfl (readOnly_kycGate (w.services base) input.env w.db _ _ _)
        fun _ _ => ⟨rfl, nofun, trivial⟩)
  | createToken dto fields totalAmount =>
      refine .inr (leaves_proceed rfl
        (readOnly_createRow (w.services base) w.db dto fields totalAmount) fun created hcreated => ?_)
      exact ⟨rfl, fun new hnew => Option.some.inj hnew ▸ hcreated, trivial⟩
  | clone id buyerAddress dto =>
      refine .inr (leaves_proceed rfl
        (readOnly_cloneRow (w.services base) input.env w.db id buyerAddress dto)
        fun cloned hcloned => ?_)
      exact ⟨rfl, fun new hnew => Option.some.inj hnew ▸ hcloned.2.2, trivial⟩
  | insert new milestones =>
      have hrows (row : Shipment) := mem_shipments_insert input.env w.db new milestones row
      simp only [TokenCall.resume]
      cases hrun : exec (shipmentInsert input.env new milestones) w.db with
      | mk outcome db =>
          rw [hrun] at hrows
          have hinserts (row : Shipment) (h : row ∈ db.shipments.rows) :
              row ∈ w.db.shipments.rows ∨ ∃ other ∈ some new, row = other.row :=
            (hrows row h).imp_right fun hnew => ⟨new, rfl, hnew⟩
          cases outcome with
          | error err => exact .inr (leaves_end rfl rfl hinserts (.refl _))
          | ok value => exact .inr (leaves_end rfl rfl hinserts (.refl _))
  | draft due shipmentId nextRunAt =>
      simp only [TokenCall.resume]
      split
      · exact .inr (leaves_end rfl rfl (fun _ h => .inl h) (.refl _))
      · rename_i new hdraft
        refine .inr (leaves_next rfl ⟨rfl, fun other hother => ?_, trivial⟩)
        cases hother
        exact priced_draft (w.services base) hdraft
  | claim due new nextRunAt =>
      have hrows (row : Shipment) := mem_shipments_claim input.env w.db due new nextRunAt row
      simp only [TokenCall.resume, TokenWorld.proceed]
      cases hrun : exec (claimAndInsert input.env due new nextRunAt) w.db with
      | mk outcome db =>
          rw [hrun] at hrows
          have hinserts (row : Shipment) (h : row ∈ db.shipments.rows) :
              row ∈ w.db.shipments.rows ∨ ∃ other ∈ some new, row = other.row :=
            (hrows row h).imp_right fun hnew => ⟨new, rfl, hnew⟩
          cases outcome with
          | error err => exact .inr (leaves_end rfl rfl hinserts (.refl _))
          | ok value => exact .inr (leaves_end rfl rfl hinserts (.refl _))

end Calls

end ChainSettle
