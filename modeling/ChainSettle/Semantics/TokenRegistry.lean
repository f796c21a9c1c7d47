import ChainSettle.Lib.Pool
import ChainSettle.Semantics.Creation

/-!
`TokenRegistryService`, whose registry is a `Map` in the memory of the process, and the
requests that read it: a shipment takes the decimals of its token from the registry, and is
inserted in a later statement. `updateToken` copies an entry, may wait for a count of the
shipments, and then replaces the whole entry; `registerToken` waits for the chain between
its check and its write.

The CSV import inserts nothing: `importDrafts` names `milestonesRaw`, which is declared
nowhere, and reports every valid row as an error. No request changes the token of a shipment
that is stored.

The constructor fills the `Map` with the built-in tokens, and then with those of
`TOKEN_REGISTRY_JSON` and of the file at `TOKEN_REGISTRY_PATH`.
-/

namespace ChainSettle

open Lib Lib.Eff

section Entries

/-- An entry with its label. -/
structure RegisteredToken extends TokenInfo where
  displayName : Option String
deriving DecidableEq

/-- `registry`, by address in upper case. -/
abbrev TokenRegistry := String → Option RegisteredToken

structure RegisterTokenDto where
  address : String
  symbol : String
  displayName : Option String
  decimals : Nat
  minValue : Option String
  maxValue : Option String
deriving DecidableEq

/-- The fields to change; a bound that is `null` is cleared. -/
structure UpdateTokenDto where
  symbol : Option String
  decimals : Option Nat
  enabled : Option Bool
  displayName : Option String
  minValue : Option (Option String)
  maxValue : Option (Option String)
deriving DecidableEq

def assertBoundsOrdered (minValue maxValue : Option String) : Except Exn Unit :=
  match minValue, maxValue with
  | some low, some high =>
      match bigIntOfString low, bigIntOfString high with
      | some least, some most =>
          if most < least then
            .error (.badRequest s!"minValue ({low}) must not exceed maxValue ({high})")
          else .ok ()
      | _, _ => .error .invalidValue
  | _, _ => .ok ()

def RegisterTokenDto.token (dto : RegisterTokenDto) : RegisteredToken where
  symbol := dto.symbol
  decimals := dto.decimals
  enabled := some true
  displayName := some (dto.displayName.getD dto.symbol)
  minValue := dto.minValue
  maxValue := dto.maxValue

/-- An empty symbol is left alone. -/
def UpdateTokenDto.apply (updates : UpdateTokenDto) (existing : RegisteredToken) :
    RegisteredToken where
  symbol := (truthyText updates.symbol).getD existing.symbol
  decimals := updates.decimals.getD existing.decimals
  enabled := updates.enabled.or existing.enabled
  displayName := updates.displayName.or existing.displayName
  minValue := updates.minValue.getD existing.minValue
  maxValue := updates.maxValue.getD existing.maxValue

end Entries

section Shipments

variable (services : Services) (env : Env)

/-- The checks of `create` between the template and the KYC gate. -/
def createFields (dto : CreateShipmentDto) : Tx (CreateFields × Int) := do
  let template ← findTemplate env dto
  let fields ← requiredFields services dto.buyerAddress (dto.merge template env.now)
  checkPercentages fields.milestones
  match bigIntOfString dto.totalAmount with
  | none => throw .invalidValue
  | some totalAmount => return (fields, totalAmount)

/-- The end of the checks of `create`, which reads the registry. -/
def createRow (dto : CreateShipmentDto) (fields : CreateFields) (totalAmount : Int) :
    Tx (NewShipment × List NewMilestone) := do
  let token ← tokenGate services fields.tokenAddress totalAmount
  let requiredApprovals ← resolveRequiredApprovals services dto.requiredApprovals totalAmount
  return ({
    id := dto.shipmentId
    buyerAddress := dto.buyerAddress
    supplierAddress := fields.supplierAddress
    logisticsAddress := fields.logisticsAddress
    requiredApprovals := requiredApprovals
    totalAmount := totalAmount
    txHash := dto.txHash
    tokenDecimals := token.decimals
    arbiterAddress := fields.arbiterAddress
    tokenAddress := fields.tokenAddress
    tokenSymbol := token.symbol
    referenceNumber := dto.referenceNumber
    isDraft := false }, fields.milestones)

/-- What `clone` does before the insert. -/
def cloneRow (id buyerAddress : String) (dto : CloneShipmentDto) :
    Tx (NewShipment × List NewMilestone) := do
  match ← shipmentFindUnique env .shipmentRead id with
  | none => throw (.notFound s!"Shipment {id} not found")
  | some source =>
      if source.buyerAddress ≠ buyerAddress then
        throw (.forbidden "Only the original shipment buyer can clone it")
      let milestones := dto.milestones ((← get).findMany id)
      match bigIntOfString dto.totalAmount with
      | none => throw .invalidValue
      | some totalAmount => return (source.copy services dto totalAmount, milestones)

theorem clone_eq (id buyerAddress : String) (dto : CloneShipmentDto) :
    clone services env id buyerAddress dto = (do
      let (new, milestones) ← cloneRow services env id buyerAddress dto
      shipmentInsert env new milestones) := by
  unfold clone cloneRow
  simp only [bind_assoc]
  refine bind_congr fun source => ?_
  cases source with
  | none => rfl
  | some source =>
      by_cases howner : source.buyerAddress = buyerAddress
      · simp only [howner, ne_eq, not_true_eq_false, if_false, bind_assoc]
        refine bind_congr fun db => ?_
        cases bigIntOfString dto.totalAmount with
        | none => rfl
        | some totalAmount => rfl
      · simp only [howner, ne_eq, not_false_eq_true, if_true]
        rfl

/-- The transaction of a schedule's run, with the draft that was made before it. -/
def claimAndInsert (due : DueSchedule) (new : NewShipment) (nextRunAt : Nat) : Tx Bool := do
  prismaCall env .scheduleWrite
  if (← get).claimable due then
    shipmentInsert env new []
    modify fun db => db.claimSchedule due.schedule.id nextRunAt env.now
    return true
  else return false

end Shipments

section Calls

inductive TokenChange where
  | register (dto : RegisterTokenDto)
  | update (updates : UpdateTokenDto)
deriving DecidableEq

inductive TokenCall where
  | registerToken (dto : RegisterTokenDto)
  | contractExists (address : String) (dto : RegisterTokenDto)
  | updateToken (address : String) (updates : UpdateTokenDto)
  | countShipments (address : String) (existing : RegisteredToken) (updates : UpdateTokenDto)
  | clearList (address : String) (change : TokenChange) (entry : RegisteredToken)
  | recordAudit (address : String) (change : TokenChange) (entry : RegisteredToken)
  | create (dto : CreateShipmentDto)
  | createTemplate (dto : CreateShipmentDto)
  | createKyc (dto : CreateShipmentDto) (fields : CreateFields) (totalAmount : Int)
  | createToken (dto : CreateShipmentDto) (fields : CreateFields) (totalAmount : Int)
  | clone (id buyerAddress : String) (dto : CloneShipmentDto)
  | insert (new : NewShipment) (milestones : List NewMilestone)
  /-- a schedule as the job has read it -/
  | draft (due : DueSchedule) (shipmentId : String) (nextRunAt : Nat)
  | claim (due : DueSchedule) (new : NewShipment) (nextRunAt : Nat)

inductive TokenReply where
  | changed (address : String) (change : TokenChange) (entry : RegisteredToken)
  | created (shipmentId : String)
deriving DecidableEq

structure TokenWorld where
  db : Db
  registry : TokenRegistry
  /-- what was written to the registry, the newest first -/
  applied : List (String × TokenChange)
  responses : List (Except Exn TokenReply)

/-- The inputs of a step: the failures of its statements, the answer of the chain, and
whether Redis fails. -/
structure TokenInput where
  env : Env
  contract : Except String Bool
  redisFails : Bool

/-- What other requests write. -/
inductive TokenEvent where
  | edit (db : Db)

namespace TokenWorld

variable (w : TokenWorld)

/-- The services with the registry as it is now. -/
def services (base : Services) : Services :=
  { base with registry := fun address => (w.registry address).map RegisteredToken.toTokenInfo }

def respond (response : Except Exn TokenReply) : TokenWorld :=
  { w with responses := response :: w.responses }

def set (address : String) (change : TokenChange) (token : RegisteredToken) : TokenWorld :=
  { w with
    registry := Function.update w.registry address (some token)
    applied := (address, change) :: w.applied }

/-- The end of `updateToken`, for the entry that it has copied. -/
def update (address : String) (existing : RegisteredToken) (updates : UpdateTokenDto) :
    TokenWorld × List TokenCall :=
  let next := updates.apply existing
  match assertBoundsOrdered next.minValue next.maxValue with
  | .error err => (w.respond (.error err), [])
  | .ok _ => (w.set address (.update updates) next, [.clearList address (.update updates) next])

/-- The call goes on with what a program returns, or ends with its exception. -/
def proceed {α : Type} (program : Tx α) (next : α → List TokenCall) :
    TokenWorld × List TokenCall :=
  match exec program w.db with
  | (.error err, db) => ({ w with db := db }.respond (.error err), [])
  | (.ok value, db) => ({ w with db := db }, next value)

end TokenWorld

def TokenCall.resume (base : Services) (input : TokenInput) (w : TokenWorld) :
    TokenCall → TokenWorld × List TokenCall
  | .registerToken dto =>
      let normalized := base.text.toUpperCase dto.address
      match assertBoundsOrdered dto.minValue dto.maxValue with
      | .error err => (w.respond (.error err), [])
      | .ok _ =>
          if (w.registry normalized).isSome then
            (w.respond (.error (.conflict s!"Token address {normalized} is already registered")), [])
          else (w, [.contractExists normalized dto])
  | .contractExists address dto =>
      match input.contract with
      | .error message =>
          (w.respond (.error (.badRequest
            s!"Could not verify contract {address} on-chain: {message}")), [])
      | .ok false =>
          (w.respond (.error (.badRequest s!"No contract found at address {address}")), [])
      | .ok true =>
          (w.set address (.register dto) dto.token, [.clearList address (.register dto) dto.token])
  | .updateToken address updates =>
      let normalized := base.text.toUpperCase address
      match w.registry normalized with
      | none =>
          (w.respond (.error (.notFound s!"Token address {normalized} not found in registry")), [])
      | some existing =>
          if updates.decimals.any fun decimals => decimals ≠ existing.decimals then
            (w, [.countShipments normalized existing updates])
          else w.update normalized existing updates
  | .countShipments address existing updates =>
      if input.env.fails .shipmentRead then
        (w.respond (.error (.unavailable .shipmentRead)), [])
      else if w.db.shipments.rows.any fun s => s.tokenAddress = address then
        (w.respond (.error (.conflict (s!"Cannot change decimals for token {address} because " ++
          "shipments already reference it"))), [])
      else w.update address existing updates
  | .clearList address change entry =>
      if input.redisFails then
        (w.respond (.error (.internalServerError "Internal server error")), [])
      else
        match change with
        | .register _ => (w.respond (.ok (.changed address change entry)), [])
        | .update _ => (w, [.recordAudit address change entry])
  -- an audit entry that cannot be written is only logged
  | .recordAudit address change entry => (w.respond (.ok (.changed address change entry)), [])
  | .create dto => w.proceed (checkUnused input.env dto) fun _ => [.createTemplate dto]
  | .createTemplate dto =>
      w.proceed (createFields (w.services base) input.env dto) fun (fields, totalAmount) =>
        [.createKyc dto fields totalAmount]
  | .createKyc dto fields totalAmount =>
      w.proceed (kycGate (w.services base) input.env dto.buyerAddress fields.supplierAddress
        totalAmount) fun _ => [.createToken dto fields totalAmount]
  | .createToken dto fields totalAmount =>
      w.proceed (createRow (w.services base) dto fields totalAmount) fun (new, milestones) =>
        [.insert new milestones]
  | .clone id buyerAddress dto =>
      w.proceed (cloneRow (w.services base) input.env id buyerAddress dto)
        fun (new, milestones) => [.insert new milestones]
  | .insert new milestones =>
      match exec (shipmentInsert input.env new milestones) w.db with
      | (.error err, db) => ({ w with db := db }.respond (.error err), [])
      | (.ok _, db) => ({ w with db := db }.respond (.ok (.created new.id)), [])
  | .draft due shipmentId nextRunAt =>
      match due.draft (w.services base) shipmentId with
      | none => (w, [])
      | some new => (w, [.claim due new nextRunAt])
  | .claim due new nextRunAt => w.proceed (claimAndInsert input.env due new nextRunAt) fun _ => []

def TokenCall.starts : TokenCall → Bool
  | .registerToken _ | .updateToken .. | .create _ | .clone .. | .draft .. => true
  | _ => false

def tokens (base : Services) : PoolSystem TokenWorld TokenCall TokenInput TokenEvent where
  starts := TokenCall.starts
  resume input w call := call.resume base input w
  external
    | .edit db, w => { w with db := { db with shipments := w.db.shipments } }

abbrev TokenPool := Pool TokenWorld TokenCall

abbrev TokenAction := PoolAction TokenCall TokenInput TokenEvent

end Calls

section Configuration

def BUILT_IN_TOKENS : List (String × RegisteredToken) :=
  [("CBIELTK6YBZJU5UP2WWQEUCYKLPU6AUNZ2BQ4WWFEIE3USCIHMXQDAMA",
      ⟨⟨"USDC", 7, some true, none, none⟩, some "USD Coin"⟩),
    ("GB3Q6QDZYTHWT7E5PVS3W7FUT5GVAFC5KSZFFLPU25GO7VTC3NM2ZTVO",
      ⟨⟨"EURC", 7, some true, none, none⟩, some "Euro Coin"⟩)]

/-- The `Map` of a fresh process. -/
abbrev TokenMap := Table (Prod.fst : String × RegisteredToken → String)

def TokenMap.get (registry : TokenMap) (address : String) : Option RegisteredToken :=
  (registry.find? address).map Prod.snd

def TokenMap.set (registry : TokenMap) (address : String) (token : RegisteredToken) : TokenMap :=
  registry.upsert (address, token) (fun entry => (entry.1, token)) fun _ => rfl

/-- An element of the configured array; `null` is as good as a missing field. -/
structure TokenJson where
  address : String
  symbol : String
  decimals : Nat
  enabled : Option Bool
  displayName : Option String
  minValue : Option String
  maxValue : Option String

def TokenJson.token (json : TokenJson) : RegisteredToken where
  symbol := json.symbol
  decimals := json.decimals
  enabled := some (json.enabled.getD true)
  displayName := some (json.displayName.getD json.symbol)
  minValue := json.minValue
  maxValue := json.maxValue

/-- The loop of `loadFromJson`. It ends at an element whose address is no text, with an
exception that is logged. -/
def loadTokens (text : CaseMapping) (registry : TokenMap) : List (Option TokenJson) → TokenMap
  | [] | none :: _ => registry
  | some json :: rest =>
      loadTokens text (registry.set (text.toUpperCase json.address) json.token) rest

/-- Nothing is loaded from a text that is not JSON, or no array. -/
def loadFromJson (text : CaseMapping) (registry : TokenMap)
    (tokens : Option (List (Option TokenJson))) : TokenMap :=
  loadTokens text registry (tokens.getD [])

/-- What the two settings parse to; a file that cannot be read is only logged. -/
structure RegistryConfig where
  inlineJson : Option (List (Option TokenJson))
  file : Option (List (Option TokenJson))

/-- Only the address, the symbol and the decimals of a built-in token are taken over. -/
def initRegistry (text : CaseMapping) (config : RegistryConfig) : TokenMap :=
  let builtIn : TokenMap := BUILT_IN_TOKENS.foldl
    (fun registry (address, token) =>
      TokenMap.set registry address ⟨⟨token.symbol, token.decimals, none, none, none⟩, none⟩)
    Table.empty
  loadFromJson text (loadFromJson text builtIn config.inlineJson) config.file

end Configuration

section Readers

structure TokenEntry where
  address : String
  symbol : String
  decimals : Nat
  enabled : Bool
  displayName : String
  minValue : Option String
  maxValue : Option String
deriving DecidableEq

def RegisteredToken.toEntry (address : String) (token : RegisteredToken) : TokenEntry where
  address := address
  symbol := token.symbol
  decimals := token.decimals
  enabled := token.enabled.getD true
  displayName := token.displayName.getD token.symbol
  minValue := token.minValue
  maxValue := token.maxValue

/-- A process that has read its configuration. -/
def TokenWorld.configured (text : CaseMapping) (config : RegistryConfig) (db : Db) : TokenWorld where
  db := db
  registry := (initRegistry text config).get
  applied := []
  responses := []

variable (w : TokenWorld) (text : CaseMapping) (config : RegistryConfig)

/-- The keys of the `Map`, in the order in which they were first set. -/
def TokenWorld.keys : List String :=
  ((initRegistry text config).rows.map Prod.fst ++ w.applied.reverse.map Prod.fst).eraseDups

def TokenWorld.entries : List (String × RegisteredToken) :=
  (w.keys text config).filterMap fun address =>
    (w.registry address).map fun token => (address, token)

/-- `collates` is the order of `localeCompare`. -/
def TokenWorld.listTokens (collates : String → String → Bool) : List TokenEntry :=
  ((w.entries text config).map fun (address, token) => token.toEntry address).insertionSort
    fun entry entry' => collates entry.symbol entry'.symbol

def TokenWorld.findByAddress (address : String) : Option TokenEntry :=
  (w.registry (text.toUpperCase address)).map (RegisteredToken.toEntry (text.toUpperCase address))

end Readers

end ChainSettle
