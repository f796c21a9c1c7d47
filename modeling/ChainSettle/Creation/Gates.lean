import ChainSettle.Concurrency.Steps
import ChainSettle.Semantics.Creation

/-!
The gates on a new shipment: verified parties from the KYC threshold on, an
enabled token, an amount within the token's bounds. `create` ends in its insert
only past all of them. `clone` inserts an equal row for an amount of the
caller's choice and asks none of them, so what it creates has passed the gates
exactly when the source's parties and token would pass them for that amount.
-/

namespace ChainSettle

open Lib Lib.Eff

section Insert

/-- The insert goes through. -/
def Inserts (env : Env) (db : Db) (new : NewShipment) : Prop :=
  env.fails .shipmentWrite = false ∧ new.Storable db ∧ db.shipments.find? new.id = none

instance (env : Env) (db : Db) (new : NewShipment) : Decidable (Inserts env db new) :=
  inferInstanceAs (Decidable (_ ∧ _ ∧ _))

def Db.withShipment (db : Db) (new : NewShipment) (milestones : List NewMilestone) : Db :=
  { db with
    shipments := db.shipments.insert new.row
    milestones := (milestoneRows new.id milestones).foldl Table.insert db.milestones }

theorem exec_shipmentCreate (env : Env) (db : Db) (new : NewShipment)
    (milestones : List NewMilestone) :
    exec (shipmentCreate env new milestones) db =
      if env.fails .shipmentWrite then (.error (.unavailable .shipmentWrite), db)
      else if (db.shipments.find? new.id).isSome then (.error .invalidValue, db)
      else (.ok (), db.withShipment new milestones) := by
  unfold shipmentCreate
  rw [exec_bind, exec_prismaCall]
  cases env.fails .shipmentWrite with
  | true => rfl
  | false =>
      simp only [Bool.false_eq_true, if_false, exec_bind, exec_get]
      split <;> rfl

theorem exec_shipmentInsert (env : Env) (db : Db) (new : NewShipment)
    (milestones : List NewMilestone) :
    (Inserts env db new ∧
      exec (shipmentInsert env new milestones) db = (.ok (), db.withShipment new milestones)) ∨
    (¬ Inserts env db new ∧ ∃ err, exec (shipmentInsert env new milestones) db = (.error err, db)) := by
  unfold shipmentInsert
  rw [exec_bind, exec_get]
  by_cases hstorable : new.Storable db
  · simp only [hstorable, not_true_eq_false, if_false, exec_shipmentCreate]
    cases hcall : env.fails .shipmentWrite with
    | true => exact .inr ⟨fun h => absurd (hcall.symm.trans h.1) (by rintro ⟨⟩), _, rfl⟩
    | false =>
        cases hfree : db.shipments.find? new.id with
        | none => exact .inl ⟨⟨hcall, hstorable, hfree⟩, rfl⟩
        | some row => exact .inr ⟨fun h => absurd (hfree.symm.trans h.2.2) (by rintro ⟨⟩), _, rfl⟩
  · simp only [hstorable, not_false_eq_true, if_true]
    exact .inr ⟨fun h => hstorable h.2.1, _, rfl⟩

theorem after_shipmentInsert (env : Env) (db : Db) (new : NewShipment)
    (milestones : List NewMilestone) :
    after (shipmentInsert env new milestones) db =
      if Inserts env db new then db.withShipment new milestones else db := by
  unfold after
  obtain ⟨hinserts, hok⟩ | ⟨hrefused, err, herr⟩ := exec_shipmentInsert env db new milestones
  · rw [hok, if_pos hinserts]
  · rw [herr, if_neg hrefused]

/-- What holds of every row that an operation created. -/
def Created (P : Shipment → Prop) (db next : Db) : Prop :=
  ∀ s ∈ next.shipments.rows, s ∉ db.shipments.rows → P s

theorem created_refl (P : Shipment → Prop) (db : Db) : Created P db db :=
  fun _ hmem hnew => absurd hmem hnew

theorem created_shipmentInsert_iff {P : Shipment → Prop} (env : Env) (db : Db)
    (new : NewShipment) (milestones : List NewMilestone) :
    Created P db (after (shipmentInsert env new milestones) db) ↔
      (Inserts env db new → P new.row) := by
  rw [after_shipmentInsert]
  split
  · rename_i hinserts
    have hfree : new.id ∉ db.shipments.rows.map Shipment.id :=
      Table.find?_eq_none_iff.mp hinserts.2.2
    have hrows : (db.withShipment new milestones).shipments.rows =
        db.shipments.rows ++ [new.row] := Table.rows_insert hfree
    have hnew : new.row ∉ db.shipments.rows :=
      fun hmem => hfree (List.mem_map_of_mem hmem)
    simp only [Created, hrows, List.mem_append, List.mem_singleton, hinserts, true_implies]
    constructor
    · intro h
      exact h new.row (.inr rfl) hnew
    · intro h s hs hcreated
      rcases hs with hold | rfl
      · exact absurd hold hcreated
      · exact h
  · rename_i hinserts
    exact iff_of_true (created_refl P db) fun h => absurd h hinserts

end Insert

section Checks

variable (services : Services) (env : Env) (db : Db)

def Db.Verified (db : Db) (now : Nat) (address : String) : Prop :=
  isActiveVerification (db.users.find? address) now = true

/-- The amount lies within the bounds that are configured for the token. -/
def Services.WithinBounds (services : Services) (tokenAddress : String) (amount : Int) : Prop :=
  ∀ token, services.registered tokenAddress = some token →
    (∀ bound, token.minValue.bind bigIntOfString = some bound → bound ≤ amount) ∧
      ∀ bound, token.maxValue.bind bigIntOfString = some bound → amount ≤ bound

/-- What the three gates ask of a new shipment. -/
structure PassesGates (buyerAddress supplierAddress tokenAddress : String) (totalAmount : Int) :
    Prop where
  verified : services.meetsThreshold totalAmount = true →
    db.Verified env.now buyerAddress ∧ db.Verified env.now supplierAddress
  enabled : services.isEnabled tokenAddress = true
  bounds : services.WithinBounds tokenAddress totalAmount

def Shipment.Gated (s : Shipment) : Prop :=
  PassesGates services env db s.buyerAddress s.supplierAddress s.tokenAddress s.totalAmount

theorem readOnly_isVerified (address : String) :
    ReadOnly (isVerified env address) db
      fun verified => verified = isActiveVerification (db.users.find? address) env.now := by
  unfold isVerified
  exact readOnly_read env db .userRead fun _ => readOnly_pure rfl

theorem readOnly_kycGate (buyerAddress supplierAddress : String) (totalAmount : Int) :
    ReadOnly (kycGate services env buyerAddress supplierAddress totalAmount) db
      fun _ => services.meetsThreshold totalAmount = true →
        db.Verified env.now buyerAddress ∧ db.Verified env.now supplierAddress := by
  unfold kycGate
  split
  · refine readOnly_bind (readOnly_isVerified env db buyerAddress) fun buyerVerified hbuyer => ?_
    refine readOnly_bind (readOnly_isVerified env db supplierAddress)
      fun supplierVerified hsupplier => ?_
    split
    · exact readOnly_throw _ _ _
    · rename_i hverified
      refine readOnly_pure fun _ => ?_
      rw [hbuyer, hsupplier] at hverified
      simpa [Db.Verified] using hverified
  · rename_i hbelow
    exact readOnly_pure fun hmeets => absurd hmeets hbelow

theorem readOnly_assertBound (bound : Option String) (violates : Int → Bool)
    (refusal : Int → String → Exn) :
    ReadOnly (assertBound bound violates refusal) db
      fun _ => ∀ value, bound.bind bigIntOfString = some value → violates value = false := by
  cases bound with
  | none => exact readOnly_pure fun _ h => (by cases h)
  | some text =>
      unfold assertBound
      simp only [Option.bind_some]
      split
      · exact readOnly_throw _ _ _
      · rename_i value hvalue
        rw [hvalue]
        split
        · exact readOnly_throw _ _ _
        · rename_i hok
          refine readOnly_pure fun other hother => ?_
          cases hother
          exact Bool.eq_false_iff.mpr hok

theorem readOnly_assertValueWithinBounds (tokenAddress : String) (amount : Int) :
    ReadOnly (assertValueWithinBounds services tokenAddress amount) db
      fun _ => services.WithinBounds tokenAddress amount := by
  unfold assertValueWithinBounds Services.WithinBounds
  cases services.registered tokenAddress with
  | none => exact readOnly_pure fun _ h => (by cases h)
  | some token =>
      refine readOnly_bind (readOnly_assertBound db _ _ _) fun _ hmin => ?_
      obtain ⟨err, herr⟩ | ⟨value, hok, hmax⟩ := readOnly_assertBound db token.maxValue
        (fun value => value < amount) _
      · exact .inl ⟨err, herr⟩
      · refine .inr ⟨value, hok, fun other hother => ?_⟩
        cases hother
        exact ⟨fun bound hbound => by simpa using hmin bound hbound,
          fun bound hbound => by simpa using hmax bound hbound⟩

/-- The flag that `create` reads is stricter than `isEnabled`. -/
theorem isEnabled_of_enabled {tokenAddress : String}
    (h : (services.getToken tokenAddress).enabled = some true) :
    services.isEnabled tokenAddress = true := by
  unfold Services.getToken at h
  unfold Services.isEnabled
  cases hfound : services.registered tokenAddress with
  | none => rfl
  | some token =>
      rw [hfound] at h
      simp only [Option.getD_some] at h
      simp [h]

theorem readOnly_tokenGate (tokenAddress : String) (totalAmount : Int) :
    ReadOnly (tokenGate services tokenAddress totalAmount) db
      fun token => token = services.getToken tokenAddress ∧
        services.isEnabled tokenAddress = true ∧
        services.WithinBounds tokenAddress totalAmount := by
  unfold tokenGate
  refine readOnly_guard fun henabled => ?_
  refine readOnly_bind (readOnly_assertValueWithinBounds services db tokenAddress totalAmount)
    fun _ hbounds => ?_
  exact readOnly_pure ⟨rfl, isEnabled_of_enabled services (not_not.mp henabled), hbounds⟩

theorem readOnly_resolveRequiredApprovals (requiredApprovals : Option Int) (totalAmount : Int) :
    ReadOnly (resolveRequiredApprovals services requiredApprovals totalAmount) db
      fun _ => True := by
  cases requiredApprovals with
  | none => exact readOnly_pure trivial
  | some count => exact readOnly_guard fun _ => readOnly_guard fun _ => readOnly_pure trivial

theorem readOnly_checkUnused (dto : CreateShipmentDto) :
    ReadOnly (checkUnused env dto) db fun _ => True := by
  unfold checkUnused
  refine readOnly_bind (readOnly_shipmentFindUnique env db dto.shipmentId _) fun _ _ => ?_
  refine readOnly_guard fun _ => ?_
  cases truthyText dto.referenceNumber with
  | none => exact readOnly_pure trivial
  | some reference =>
      refine readOnly_read env db .shipmentRead fun _ => ?_
      split
      · exact readOnly_throw _ _ _
      · exact readOnly_pure trivial

theorem readOnly_findTemplate (dto : CreateShipmentDto) :
    ReadOnly (findTemplate env dto) db fun _ => True := by
  unfold findTemplate
  cases truthyText dto.templateId with
  | none => exact readOnly_pure trivial
  | some templateId =>
      refine readOnly_read env db .templateRead fun _ => ?_
      split
      · exact readOnly_throw _ _ _
      · exact readOnly_pure trivial

/-- Past the check no party has the arbiter's address. -/
theorem readOnly_requiredFields {buyerAddress : String} (hbuyer : buyerAddress ≠ "")
    (merged : MergedFields) :
    ReadOnly (requiredFields services buyerAddress merged) db fun fields =>
      arbiterConflict services.text fields.arbiterAddress
        [buyerAddress, fields.supplierAddress, fields.logisticsAddress] = false ∧
      merged.milestones = some fields.milestones := by
  unfold requiredFields
  refine readOnly_guard fun hconflict => ?_
  split
  · rename_i supplier logistics arbiter token milestones hsupplier hlogistics harbiter _
      hmilestones
    refine readOnly_pure ⟨?_, hmilestones⟩
    have hbuyer' : truthyText (some buyerAddress) = some buyerAddress := by
      simp [truthyText, hbuyer]
    simpa [harbiter, hbuyer', hsupplier, hlogistics] using hconflict
  · exact readOnly_throw _ _ _

theorem readOnly_checkPercentages (milestones : List NewMilestone) :
    ReadOnly (checkPercentages milestones) db fun _ =>
      milestones = [] ∨ (milestones.map NewMilestone.paymentPercent).sum = 100 := by
  unfold checkPercentages
  dsimp only
  split
  · exact readOnly_throw _ _ _
  · rename_i hsum
    refine readOnly_pure ?_
    simpa [or_iff_not_imp_left] using hsum

/-- What `create` knows of a row when it comes to the insert. -/
structure Checked (dto : CreateShipmentDto) (new : NewShipment) (milestones : List NewMilestone) :
    Prop where
  id : new.id = dto.shipmentId
  buyer : new.buyerAddress = dto.buyerAddress
  gated : new.row.Gated services env db
  neutral : arbiterConflict services.text new.arbiterAddress
    [new.buyerAddress, new.supplierAddress, new.logisticsAddress] = false
  percentages : milestones = [] ∨ (milestones.map NewMilestone.paymentPercent).sum = 100
  requested : ∀ given ∈ dto.milestones, milestones = given.map fun m => m.toNewMilestone

theorem readOnly_createChecks (dto : CreateShipmentDto) :
    ReadOnly (createChecks services env dto) db
      fun checked => Checked services env db dto checked.1 checked.2 := by
  unfold createChecks
  refine readOnly_bind (readOnly_checkUnused env db dto) fun _ _ => ?_
  refine readOnly_bind (readOnly_findTemplate env db dto) fun template _ => ?_
  refine readOnly_bind (readOnly_requiredFields services db dto.buyer_nonempty _)
    fun fields hfields => ?_
  have hrequested (given : List MilestoneDto) (hgiven : given ∈ dto.milestones) :
      fields.milestones = given.map fun m => m.toNewMilestone := by
    have hmerged := hfields.2
    rw [CreateShipmentDto.merge, Option.mem_def.mp hgiven] at hmerged
    exact (Option.some.inj hmerged).symm
  refine readOnly_bind (readOnly_checkPercentages db fields.milestones) fun _ hsum => ?_
  split
  · exact readOnly_throw _ _ _
  · rename_i totalAmount _
    refine readOnly_bind (readOnly_kycGate services env db _ _ totalAmount) fun _ hverified => ?_
    refine readOnly_bind (readOnly_tokenGate services db fields.tokenAddress totalAmount)
      fun token htoken => ?_
    refine readOnly_bind (readOnly_resolveRequiredApprovals services db _ totalAmount)
      fun _ _ => ?_
    exact readOnly_pure ⟨rfl, rfl, ⟨hverified, htoken.2.1, htoken.2.2⟩, hfields.1, hsum, hrequested⟩

end Checks

section Requests

variable (services : Services) (env : Env) (db : Db)

/-- `create` either stops at a check or inserts what it has checked. -/
theorem exec_create_cases (dto : CreateShipmentDto) :
    (∃ err, exec (ShipmentsService.create services env dto) db = (.error err, db)) ∨
    ∃ new milestones, Checked services env db dto new milestones ∧
      exec (ShipmentsService.create services env dto) db =
        exec (shipmentInsert env new milestones) db := by
  unfold ShipmentsService.create
  rw [exec_bind]
  obtain ⟨err, herr⟩ | ⟨⟨new, milestones⟩, hok, hchecked⟩ :=
    readOnly_createChecks services env db dto
  · rw [herr]
    exact .inl ⟨err, rfl⟩
  · rw [hok]
    exact .inr ⟨new, milestones, hchecked, rfl⟩

theorem created_create {P : Shipment → Prop} (dto : CreateShipmentDto)
    (h : ∀ new milestones, Checked services env db dto new milestones → P new.row) :
    Created P db (after (ShipmentsService.create services env dto) db) := by
  unfold after
  obtain ⟨err, herr⟩ | ⟨new, milestones, hchecked, hinsert⟩ :=
    exec_create_cases services env db dto
  · rw [herr]
    exact created_refl P db
  · rw [hinsert]
    exact (created_shipmentInsert_iff env db new milestones).mpr
      fun _ => h new milestones hchecked

/-- A source that `clone` comes to copy, and the amount it is given. -/
structure Clones (id buyerAddress : String) (dto : CloneShipmentDto) (source : Shipment)
    (totalAmount : Int) : Prop where
  reads : env.fails .shipmentRead = false
  found : db.shipments.find? id = some source
  buyer : source.buyerAddress = buyerAddress
  amount : bigIntOfString dto.totalAmount = some totalAmount
  inserts : Inserts env db (source.copy services dto totalAmount)

theorem after_clone (id buyerAddress : String) (dto : CloneShipmentDto) :
    after (clone services env id buyerAddress dto) db =
      if env.fails .shipmentRead then db
      else match db.shipments.find? id, bigIntOfString dto.totalAmount with
        | some source, some totalAmount =>
            if source.buyerAddress = buyerAddress then
              after (shipmentInsert env (source.copy services dto totalAmount)
                (dto.milestones (db.findMany id))) db
            else db
        | _, _ => db := by
  unfold clone after
  rw [exec_bind, exec_shipmentFindUnique]
  cases env.fails .shipmentRead with
  | true => rfl
  | false =>
      simp only [Bool.false_eq_true, if_false]
      cases db.shipments.find? id with
      | none => rfl
      | some source =>
          by_cases hbuyer : source.buyerAddress = buyerAddress
          · simp only [hbuyer, ne_eq, not_true_eq_false, if_false, exec_bind, exec_get]
            cases bigIntOfString dto.totalAmount with
            | none => rfl
            | some totalAmount => exact (if_pos hbuyer).symm
          · simp only [hbuyer, ne_eq, not_false_eq_true, if_true, exec_bind, exec_throw]
            cases bigIntOfString dto.totalAmount with
            | none => rfl
            | some totalAmount => exact (if_neg hbuyer).symm

/-- `clone` checks nothing else. -/
theorem created_clone_iff {P : Shipment → Prop} (id buyerAddress : String)
    (dto : CloneShipmentDto) :
    Created P db (after (clone services env id buyerAddress dto) db) ↔
      ∀ source totalAmount, Clones services env db id buyerAddress dto source totalAmount →
        P (source.copy services dto totalAmount).row := by
  rw [after_clone]
  cases hreads : env.fails .shipmentRead with
  | true =>
      refine iff_of_true (created_refl P db) fun source totalAmount h => ?_
      rw [h.reads] at hreads
      cases hreads
  | false =>
      simp only [Bool.false_eq_true, if_false]
      split
      · rename_i source totalAmount hfound hamount
        split
        · rename_i hbuyer
          rw [created_shipmentInsert_iff]
          constructor
          · intro h other amount hclones
            cases hfound.symm.trans hclones.found
            cases hamount.symm.trans hclones.amount
            exact h hclones.inserts
          · intro h hinserts
            exact h source totalAmount ⟨hreads, hfound, hbuyer, hamount, hinserts⟩
        · rename_i hbuyer
          refine iff_of_true (created_refl P db) fun other amount hclones => ?_
          cases hfound.symm.trans hclones.found
          exact absurd hclones.buyer hbuyer
      · rename_i hnone
        refine iff_of_true (created_refl P db) fun source totalAmount h => ?_
        exact absurd h.amount (hnone source totalAmount h.found)

/-- A way of creating a shipment that is no draft. -/
inductive CreationRequest where
  | create (dto : CreateShipmentDto)
  | clone (id buyerAddress : String) (dto : CloneShipmentDto)

def CreationRequest.run (request : CreationRequest) : Tx Unit :=
  match request with
  | .create dto => ShipmentsService.create services env dto
  | .clone id buyerAddress dto => ChainSettle.clone services env id buyerAddress dto

/-- A shipment that is cloned would pass the gates again for the new amount. -/
def CreationRequest.PassesGates (request : CreationRequest) : Prop :=
  match request with
  | .create _ => True
  | .clone id buyerAddress dto =>
      ∀ source totalAmount, Clones services env db id buyerAddress dto source totalAmount →
        ChainSettle.PassesGates services env db source.buyerAddress source.supplierAddress
          source.tokenAddress totalAmount

end Requests

/-- Whatever the registry, the thresholds and the users are: every row that a
request creates has passed the three gates at that moment exactly when the
request is no clone of a shipment that would not. -/
theorem created_shipments_gated_iff (services : Services) (env : Env) (db : Db)
    (request : CreationRequest) :
    Created (Shipment.Gated services env db) db (after (request.run services env) db) ↔
      request.PassesGates services env db := by
  cases request with
  | create dto =>
      refine iff_of_true ?_ trivial
      exact created_create services env db dto fun _ _ hchecked => hchecked.gated
  | clone id buyerAddress dto => exact created_clone_iff services env db id buyerAddress dto

section Unverified

/-- A shipment between parties that are not verified. -/
def unverifiedDb : Db := { Db.demo .pending with users := demoUsers }

/-- The threshold is 1000, and the shipment's token has been disabled. -/
def strictServices : Services where
  threshold := 1000
  enhancedThreshold := 10000
  multisigThreshold := 1000
  registry address :=
    if address = "CUSDC" then some ⟨"USDC", 7, some false, none, some "500"⟩ else none
  text := .ascii

def cloneLarge : CloneShipmentDto where
  txHash := "tx-2"
  totalAmount := "5000"
  newId := "SHIP-2"
  milestoneIds index := toString index

/-- The clone is of five times the threshold, its parties are not verified, its
token is disabled and the amount is above the token's maximum. -/
theorem clone_passes_no_gate :
    ¬ Created (Shipment.Gated strictServices (.calm 20) unverifiedDb) unverifiedDb
      (after ((CreationRequest.clone "SHIP-1" "GBUYER" cloneLarge).run strictServices (.calm 20))
        unverifiedDb) := by
  intro h
  have hgated := (created_clone_iff strictServices (.calm 20) unverifiedDb "SHIP-1" "GBUYER"
    cloneLarge).mp h _ 5000 ⟨rfl, rfl, rfl, by decide, by decide⟩
  exact absurd hgated.enabled (by decide)

end Unverified

end ChainSettle
