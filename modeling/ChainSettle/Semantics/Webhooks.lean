import ChainSettle.Lib.Calendar
import ChainSettle.Lib.Pool
import ChainSettle.Semantics.Database

/-!
Webhook endpoints and deliveries. Every attempt to deliver an event writes its
row before and after an HTTP request that can take long, fail, or be lost with
the process; calls are therefore cut at their database statements, at
`axios.post` and at its answer, and any number of them are in flight in any
number of replicas.

`posts` records the requests that were sent and `responses` what the callers of
the API were told. `update` of a row is the `data` object of the source: a field
that is not set stays as it is.
-/

namespace ChainSettle

open Lib

section Text

/-- The characters of a JSON string. -/
def escapeJson (c : Char) : List Char :=
  if c = '"' ∨ c = '\\' then ['\\', c]
  else if c = '\n' then ['\\', 'n']
  else if c = '\r' then ['\\', 'r']
  else if c = '\t' then ['\\', 't']
  else if c = '\x08' then ['\\', 'b']
  else if c = '\x0c' then ['\\', 'f']
  else if c.toNat < 32 then
    ['\\', 'u', '0', '0', Nat.digitChar (c.toNat / 16), Nat.digitChar (c.toNat % 16)]
  else [c]

def quoteJson (text : String) : String :=
  "\"" ++ String.ofList (text.toList.flatMap escapeJson) ++ "\""

mutual

/-- `JSON.stringify`. -/
def Json.stringify : Json → String
  | .null => "null"
  | .bool b => if b then "true" else "false"
  | .num n => toString n
  | .str s => quoteJson s
  | .arr items => "[" ++ ",".intercalate (stringifyItems items) ++ "]"
  | .obj fields => "\x7b" ++ ",".intercalate (stringifyFields fields) ++ "\x7d"

def stringifyItems : List Json → List String
  | [] => []
  | item :: rest => item.stringify :: stringifyItems rest

def stringifyFields : List (String × Json) → List String
  | [] => []
  | field :: rest => stringifyField field :: stringifyFields rest

def stringifyField : String × Json → String
  | (name, value) => quoteJson name ++ ":" ++ value.stringify

end

/-- Hex texts of a given length. -/
structure HexText (length : Nat) where
  text : String
  hex : ∀ c ∈ text.toList, isHex c
  size : text.toList.length = length
deriving DecidableEq

theorem HexText.ext_text {length : Nat} {a b : HexText length} (h : a.text = b.text) : a = b := by
  cases a
  cases b
  simpa using h

end Text

section Retries

def MAX_AUTO_ATTEMPTS : Nat := 5

def RETRYABLE_STATUS_CODES : List Nat := [429, 500, 502, 503, 504]

def RETRYABLE_ERROR_CODES : List String :=
  ["ECONNREFUSED", "ECONNRESET", "ETIMEDOUT", "ENOTFOUND", "ERR_NETWORK"]

def baseDelaySeconds (attempt : Nat) : Nat := 30 * 4 ^ (attempt - 1)

/-- `Math.random()` is a multiple of 2 ^ -53. -/
abbrev JsRandom := Fin (2 ^ 53)

/-- The delay, a quarter more or less, to the nearest second. -/
def withJitter (seconds : Nat) (random : JsRandom) : Nat :=
  (seconds * (3 * 2 ^ 52 + random) + 2 ^ 53) / 2 ^ 54

/-- In milliseconds. -/
def nextRetryDate (attemptCount : Nat) (random : JsRandom) (now : Nat) : Nat :=
  now + withJitter (baseDelaySeconds attemptCount) random * 1000

structure HttpResponse where
  status : Nat
  data : String
deriving DecidableEq

/-- An `AxiosError`, with or without a response, or any other exception. -/
structure DeliveryError where
  response : Option HttpResponse
  code : Option String
  message : String
deriving DecidableEq

def isRetryable (err : DeliveryError) : Bool :=
  match err.response with
  | some response => RETRYABLE_STATUS_CODES.contains response.status
  | none =>
      RETRYABLE_ERROR_CODES.contains (err.code.getD "") || err.code == some "ECONNABORTED"

/-- `MetricsService` has no member `webhookDeliveries` to increment. -/
def observeWebhookDelivery : Except DeliveryError Unit :=
  .error
    { response := none, code := none,
      message := "Cannot read properties of undefined (reading 'inc')" }

def recordDeliveryMetric : Except DeliveryError Unit := observeWebhookDelivery

/-- What comes back from a receiver. -/
inductive ReceiverAnswer where
  | response (response : HttpResponse)
  | failed (code message : String)
deriving DecidableEq

/-- `axios.post` resolves for a status of 2xx only. -/
def axiosPost : ReceiverAnswer → Except DeliveryError HttpResponse
  | .response response =>
      if 200 ≤ response.status ∧ response.status < 300 then .ok response
      else .error
        { response := some response
          code := some (if 500 ≤ response.status then "ERR_BAD_RESPONSE" else "ERR_BAD_REQUEST")
          message := "Request failed with status code " ++ toString response.status }
  | .failed code message => .error { response := none, code := some code, message }

def DeliveryError.statusCode (err : DeliveryError) : Option Nat :=
  err.response.map HttpResponse.status

def firstThousand (text : String) : String := String.ofList (text.toList.take 1000)

def DeliveryError.responseBody (err : DeliveryError) : String :=
  firstThousand ((err.response.map HttpResponse.data).getD err.message)

end Retries

section Rows

structure WebhookEndpoint where
  id : String
  userId : String
  url : String
  secret : String
  events : List String
  /-- encrypted values -/
  headers : Option (List (String × String))
  active : Bool
deriving DecidableEq

structure WebhookDelivery where
  id : String
  endpointId : String
  eventType : String
  payload : Json
  statusCode : Option Nat
  responseBody : Option String
  deliveredAt : Option Nat
  nextRetryAt : Option Nat
  attemptCount : Nat
  permanentlyFailedAt : Option Nat
  createdAt : Nat

/-- The `data` of an update; `none` leaves a column as it is. -/
structure DeliveryData where
  statusCode : Option (Option Nat) := none
  responseBody : Option (Option String) := none
  deliveredAt : Option (Option Nat) := none
  nextRetryAt : Option (Option Nat) := none
  attemptCount : Option Nat := none
  permanentlyFailedAt : Option (Option Nat) := none
deriving DecidableEq

def DeliveryData.apply (data : DeliveryData) (row : WebhookDelivery) : WebhookDelivery :=
  { row with
    statusCode := data.statusCode.getD row.statusCode
    responseBody := data.responseBody.getD row.responseBody
    deliveredAt := data.deliveredAt.getD row.deliveredAt
    nextRetryAt := data.nextRetryAt.getD row.nextRetryAt
    attemptCount := data.attemptCount.getD row.attemptCount
    permanentlyFailedAt := data.permanentlyFailedAt.getD row.permanentlyFailedAt }

inductive RetryState where
  | succeeded | pendingRetry | permanentlyFailed | pending
deriving DecidableEq

def WebhookDelivery.describeRetryStatus (row : WebhookDelivery) : RetryState :=
  if row.deliveredAt.isSome then .succeeded
  else if row.permanentlyFailedAt.isSome then .permanentlyFailed
  else if row.nextRetryAt.isSome then .pendingRetry
  else .pending

/-- The `where` of the retry queue. -/
def WebhookDelivery.due (now : Nat) (row : WebhookDelivery) : Bool :=
  row.nextRetryAt.any (· ≤ now) && row.permanentlyFailedAt.isNone && row.deliveredAt.isNone

end Rows

section Signing

/-- Node's `crypto`, as far as the service uses it. Digests are hex texts; `iv`,
tag and ciphertext of a header value are base64 texts. -/
structure Crypto where
  sha256 : String → HexText 64
  /-- key and message -/
  hmacSha256 : String → String → HexText 64
  /-- key, iv and value, to tag and ciphertext -/
  cipher : String → String → String → Option (String × String)
  /-- key, iv, tag and ciphertext -/
  decipher : String → String → String → String → Option String

structure WebhooksService where
  maxPayloadBytes : Nat
  encryptionKey : String
deriving DecidableEq

def buildBody (eventType : String) (payload : Json) (now : Nat) : String :=
  "\x7b\"eventType\":" ++ quoteJson eventType ++ ",\"payload\":" ++ payload.stringify ++
    ",\"timestamp\":" ++ quoteJson (toISOString now) ++ "\x7d"

variable (crypto : Crypto)

def signBody (secret body : String) : String :=
  "sha256=" ++ (crypto.hmacSha256 secret body).text

def signBodyV2 (secret : String) (timestampSeconds : Nat) (body : String) : String :=
  let digest := (crypto.hmacSha256 secret (toString timestampSeconds ++ "." ++ body)).text
  "t=" ++ toString timestampSeconds ++ ",v1=" ++ digest

def nowUnixSeconds (now : Nat) : Nat := now / 1000

/-- `iv:tag:ciphertext`. -/
def encryptHeaderValue (value key iv : String) : Option String :=
  (crypto.cipher key iv value).map fun (tag, ciphertext) => iv ++ ":" ++ tag ++ ":" ++ ciphertext

def decryptHeaderValue (encrypted key : String) : Option String :=
  match (encrypted.toList.splitOn ':').map String.ofList with
  | iv :: tag :: ciphertext :: _ => crypto.decipher key iv tag ciphertext
  | _ => none

def encryptHeaders (headers : List (String × String)) (key : String) (iv : String → String) :
    Option (List (String × String)) :=
  headers.mapM fun (name, value) =>
    (encryptHeaderValue crypto value key (iv name)).map fun encrypted => (name, encrypted)

/-- Values that cannot be decrypted are skipped. -/
def decryptHeaders (headers : Option (List (String × String))) (key : String) :
    List (String × String) :=
  (headers.getD []).filterMap fun (name, value) =>
    (decryptHeaderValue crypto value key).map fun decrypted => (name, decrypted)

def RESERVED_HEADERS : List String := ["host", "content-length", "content-type"]

def lowerCase (name : String) : String := String.ofList (name.toList.map Char.toLower)

def isReservedHeader (name : String) : Bool :=
  RESERVED_HEADERS.contains (lowerCase name) ||
    "x-chainsettle-".toList.isPrefixOf (lowerCase name).toList

def MAX_HEADERS : Nat := 10

def MAX_HEADERS_TOTAL_BYTES : Nat := 1024

def isHeaderNameChar (c : Char) : Bool :=
  c.isAlphanum || "!#$%&'*+-.^_`|~".toList.contains c

/-- The loop over the entries, with the bytes counted so far. -/
def validateEntries : Nat → List (String × String) → Option String
  | _, [] => none
  | totalBytes, (name, value) :: rest =>
      if name = "" ∨ ¬ name.toList.all isHeaderNameChar then
        some ("Invalid header name: \"" ++ name ++ "\"")
      else if isReservedHeader name then
        some ("Header \"" ++ name ++ "\" is reserved and cannot be set")
      else
        let total := totalBytes + name.utf8ByteSize + value.utf8ByteSize
        if MAX_HEADERS_TOTAL_BYTES < total then
          some ("Headers exceed " ++ toString MAX_HEADERS_TOTAL_BYTES ++
            " bytes total (names + values)")
        else validateEntries total rest

/-- The message of the first violation. -/
def validateHeaders (headers : List (String × String)) : Option String :=
  if MAX_HEADERS < headers.length then
    some ("Too many headers: max " ++ toString MAX_HEADERS ++ " allowed")
  else validateEntries 0 headers

/-- The headers every path sends. -/
def signatureHeaders (ts : Nat) (signature signatureV2 : String) : List (String × String) :=
  [("Content-Type", "application/json"), ("X-ChainSettle-Timestamp", toString ts),
    ("X-ChainSettle-Signature", signature), ("X-ChainSettle-Signature-V2", signatureV2)]

/-- Only a manual retry sends these. -/
def buildDeliveryHeaders (service : WebhooksService) (ep : WebhookEndpoint)
    (requestId : Option String) (ts : Nat) (signature signatureV2 : String) :
    List (String × String) :=
  decryptHeaders crypto ep.headers service.encryptionKey ++
    signatureHeaders ts signature signatureV2 ++
    (truthyText requestId).toList.map fun value => ("X-Request-ID", value)

end Signing

section Calls

structure PayloadCheck where
  body : String
  bytes : Nat
  exceedsLimit : Bool
deriving DecidableEq

def WebhooksService.preparePayloadForDelivery (service : WebhooksService) (eventType : String)
    (payload : Json) (now : Nat) : PayloadCheck :=
  let body := buildBody eventType payload now
  let bytes := body.utf8ByteSize
  { body, bytes, exceedsLimit := decide (service.maxPayloadBytes < bytes) }

/-- What the update of an attempt over the limit tells. -/
def WebhooksService.sizeMessage (service : WebhooksService) (check : PayloadCheck) : String :=
  "Payload exceeds max size (" ++ toString check.bytes ++ "/" ++
    toString service.maxPayloadBytes ++ " bytes)"

structure WebhookRequest where
  url : String
  headers : List (String × String)
  body : String
deriving DecidableEq

/-- How an attempt comes about. An automatic retry keeps the time it was
scheduled for. -/
inductive SendPath where
  | first
  | automatic (scheduledFor : Option Nat)
  | manual
deriving DecidableEq

def SendPath.scheduledFor : SendPath → Option Nat
  | .automatic scheduledFor => scheduledFor
  | _ => none

/-- An attempt for a row, with the counter it goes by: of the created row, of the
row its first update returned, or of the row a manual retry has read. -/
structure DeliveryAttempt where
  path : SendPath
  deliveryId : String
  attemptCount : Nat
  check : PayloadCheck
  endpoint : WebhookEndpoint
  request : WebhookRequest

structure CreateWebhookDto where
  url : String
  events : List String
  headers : Option (List (String × String))

structure UpdateWebhookDto where
  url : Option String
  events : Option (List String)
  active : Option Bool
  headers : Option (List (String × String))

/-- The database statements before which a call can be suspended. -/
inductive WebhookStatement where
  | register (userId : String) (dto : CreateWebhookDto)
  | update (userId id : String) (dto : UpdateWebhookDto)
  | updateRow (id : String) (dto : UpdateWebhookDto) (headers : Option (List (String × String)))
  | rotateSecret (id userId : String)
  | rotateRow (id : String) (plaintext : HexText 64)
  /-- the address of the user and the audit entry -/
  | rotateRecord (id : String) (plaintext : HexText 64)
  | dispatch (eventType : String) (payload : Json)
  | deliverOnce (ep : WebhookEndpoint) (eventType : String) (payload : Json)
      (check : PayloadCheck) (request : WebhookRequest)
  | retryDelivery (endpointId deliveryId userId : String)
  | retryRow (endpoint : WebhookEndpoint) (deliveryId : String)
  | replayFailedDeliveries (endpointId : String) (from_ to_ : Nat)
  | replayRows (endpoint : WebhookEndpoint) (from_ to_ : Nat)
  | bulkTest (userId : String)
  | processRetryQueue
  | executeRetry (ep : WebhookEndpoint) (delivery : WebhookDelivery) (check : PayloadCheck)
      (request : WebhookRequest)
  | skip (a : DeliveryAttempt)
  | handleFailure (a : DeliveryAttempt) (err : DeliveryError)

inductive WebhookCall where
  | statement (next : WebhookStatement)
  | post (a : DeliveryAttempt)
  | answer (a : DeliveryAttempt)
  | ping (ep : WebhookEndpoint) (request : WebhookRequest)

def WebhookCall.starts : WebhookCall → Bool
  | .statement (.register ..) | .statement (.update ..) | .statement (.rotateSecret ..)
  | .statement (.dispatch ..) | .statement (.retryDelivery ..)
  | .statement (.replayFailedDeliveries ..) | .statement (.bulkTest _)
  | .statement .processRetryQueue => true
  | _ => false

inductive WebhookReply where
  | registered (id : String) (secret : HexText 64)
  | updated (id : String)
  | rotated (id : String) (secret : HexText 64)
  /-- "Webhook delivery retried" -/
  | retried (deliveryId : String)
deriving DecidableEq

/-- A request on the wire: the attempt for a delivery that has sent it, unless it
is a test ping, the endpoint as its sender has read it, and the secret that the
owner of the endpoint had been given last. -/
structure WebhookPost where
  attempt : Option (SendPath × String)
  endpoint : WebhookEndpoint
  request : WebhookRequest
  returned : Option (HexText 64)
deriving DecidableEq

structure WebhookWorld where
  endpoints : Table WebhookEndpoint.id
  deliveries : Table WebhookDelivery.id
  /-- in milliseconds -/
  now : Nat
  posts : List WebhookPost
  responses : List (Except Exn WebhookReply)

/-- `findMany` without `orderBy`: the rows come in any order. -/
structure RowOrder where
  order : List WebhookDelivery → List WebhookDelivery
  perm : ∀ rows, (order rows).Perm rows

/-- The inputs of a step: the replica that takes it, what the database generates
or throws, the answer of the receiver, and Node's random values. -/
structure WebhookInput where
  service : WebhooksService
  id : String
  plaintext : HexText 64
  iv : String → String
  random : JsRandom
  requestId : Option String
  thrown : Option DeliveryError
  receiver : ReceiverAnswer
  scan : RowOrder

namespace WebhookWorld

variable (w : WebhookWorld)

def respond (response : Except Exn WebhookReply) : WebhookWorld :=
  { w with responses := response :: w.responses }

def updateDelivery (id : String) (data : DeliveryData) : WebhookWorld :=
  { w with deliveries := w.deliveries.modify id data.apply fun _ => rfl }

/-- The secret in the most recent response about an endpoint that has one. -/
def returned (id : String) : Option (HexText 64) :=
  w.responses.findSome? fun response =>
    match response with
    | .ok (.registered other secret) | .ok (.rotated other secret) =>
        if other = id then some secret else none
    | _ => none

def send (attempt : Option (SendPath × String)) (ep : WebhookEndpoint)
    (request : WebhookRequest) : WebhookWorld :=
  { w with posts := ⟨attempt, ep, request, w.returned ep.id⟩ :: w.posts }

def due (scan : RowOrder) : List WebhookDelivery :=
  (scan.order (w.deliveries.rows.filter (WebhookDelivery.due w.now))).take 50

end WebhookWorld

variable (crypto : Crypto)

/-- The request of the first attempt, of an automatic retry and of a ping. -/
def signedRequest (ep : WebhookEndpoint) (check : PayloadCheck) (now : Nat) : WebhookRequest :=
  let ts := nowUnixSeconds now
  let signature := signBody crypto ep.secret check.body
  let signatureV2 := signBodyV2 crypto ep.secret ts check.body
  { url := ep.url, headers := signatureHeaders ts signature signatureV2, body := check.body }

/-- The request of a manual retry. -/
def manualRequest (input : WebhookInput) (ep : WebhookEndpoint) (check : PayloadCheck)
    (now : Nat) : WebhookRequest :=
  let ts := nowUnixSeconds now
  let signature := signBody crypto ep.secret check.body
  let signatureV2 := signBodyV2 crypto ep.secret ts check.body
  { url := ep.url
    headers :=
      buildDeliveryHeaders crypto input.service ep input.requestId ts signature signatureV2
    body := check.body }

/-- An attempt goes on with the update of an oversized payload or with the request. -/
def DeliveryAttempt.proceed (a : DeliveryAttempt) : WebhookCall :=
  if a.check.exceedsLimit then .statement (.skip a) else .post a

def DeliveryAttempt.sizeData (a : DeliveryAttempt) (service : WebhooksService) (now : Nat) :
    DeliveryData :=
  { statusCode := some none
    responseBody := some (some (service.sizeMessage a.check))
    nextRetryAt := some none
    permanentlyFailedAt := some (some now)
    attemptCount := if a.path = .manual then some (a.attemptCount + 1) else none }

/-- The first attempt leaves `permanentlyFailedAt` alone; a manual one counts. -/
def DeliveryAttempt.deliveredData (a : DeliveryAttempt) (res : HttpResponse) (now : Nat) :
    DeliveryData :=
  { statusCode := some (some res.status)
    responseBody := some (some (firstThousand res.data))
    deliveredAt := some (some now)
    nextRetryAt := some none
    permanentlyFailedAt := if a.path = .first then none else some none
    attemptCount := if a.path = .manual then some (a.attemptCount + 1) else none }

def handleFailure (attemptCount : Nat) (err : DeliveryError) (random : JsRandom) (now : Nat) :
    DeliveryData :=
  if isRetryable err ∧ ¬ MAX_AUTO_ATTEMPTS ≤ attemptCount then
    { statusCode := some err.statusCode
      responseBody := some (some err.responseBody)
      nextRetryAt := some (some (nextRetryDate attemptCount random now))
      permanentlyFailedAt := some none }
  else
    { statusCode := some err.statusCode
      responseBody := some (some err.responseBody)
      nextRetryAt := some none
      permanentlyFailedAt := some (some now) }

/-- A manual retry that fails counts and clears `permanentlyFailedAt`; it neither
schedules nor gives up. -/
def DeliveryAttempt.failureData (a : DeliveryAttempt) (err : DeliveryError) (random : JsRandom)
    (now : Nat) : DeliveryData :=
  if a.path = .manual then
    { statusCode := some err.statusCode
      responseBody := some (some err.responseBody)
      attemptCount := some (a.attemptCount + 1)
      permanentlyFailedAt := some none }
  else handleFailure a.attemptCount err random now

/-- The last update of an attempt and the metric after it. `retryDelivery` would tell
its caller the same whatever came of the attempt. -/
def DeliveryAttempt.finish (a : DeliveryAttempt) (w : WebhookWorld) (data : DeliveryData) :
    WebhookWorld × List WebhookCall :=
  let next := w.updateDelivery a.deliveryId data
  let reply : Except Exn WebhookReply :=
    match recordDeliveryMetric with
    | .ok _ => .ok (.retried a.deliveryId)
    | .error _ => .error (.internalServerError "Internal server error")
  (if a.path = .manual then next.respond reply else next, [])

/-- The `catch` around a request. But for a manual retry it records the metric first. -/
def DeliveryAttempt.caught (a : DeliveryAttempt) (w : WebhookWorld) (err : DeliveryError) :
    WebhookWorld × List WebhookCall :=
  match recordDeliveryMetric with
  | .ok _ => (w, [.statement (.handleFailure a err)])
  | .error _ => (w, if a.path = .manual then [.statement (.handleFailure a err)] else [])

/-- The answer to the request is a success. -/
def DeliveryAttempt.succeed (a : DeliveryAttempt) (w : WebhookWorld) (res : HttpResponse) :
    WebhookWorld × List WebhookCall :=
  match recordDeliveryMetric with
  | .ok _ => a.finish w (a.deliveredData res w.now)
  | .error err => a.caught (w.updateDelivery a.deliveryId (a.deliveredData res w.now)) err

/-- The columns that a request to change an endpoint sets. -/
def UpdateWebhookDto.apply (dto : UpdateWebhookDto) (headers : Option (List (String × String)))
    (ep : WebhookEndpoint) : WebhookEndpoint :=
  { ep with
    url := dto.url.getD ep.url
    events := dto.events.getD ep.events
    active := dto.active.getD ep.active
    headers := if dto.headers.isSome then headers else ep.headers }

/-- The headers as they are stored: nothing for an empty or missing set. -/
def storedHeaders (input : WebhookInput) (headers : Option (List (String × String))) :
    Option (Option (List (String × String))) :=
  match headers with
  | none => some none
  | some headers => (encryptHeaders crypto headers input.service.encryptionKey input.iv).map some

def WebhookStatement.exec (input : WebhookInput) (w : WebhookWorld) :
    WebhookStatement → WebhookWorld × List WebhookCall
  | .register userId dto =>
      match dto.headers.bind validateHeaders, storedHeaders crypto input dto.headers with
      | some message, _ => (w.respond (.error (.badRequest ("headers: " ++ message))), [])
      | none, none => (w.respond (.error (.internalServerError "Internal server error")), [])
      | none, some headers =>
          let hashed := crypto.sha256 input.plaintext.text
          let endpoint : WebhookEndpoint :=
            ⟨input.id, userId, dto.url, hashed.text, dto.events, headers, true⟩
          if (w.endpoints.find? input.id).isSome then (w.respond (.error .invalidValue), [])
          else ({ w with endpoints := w.endpoints.insert endpoint }.respond
            (.ok (.registered input.id input.plaintext)), [])
  | .update userId id dto =>
      match w.endpoints.rows.find? fun ep => ep.id = id ∧ ep.userId = userId with
      | none => (w.respond (.error (.notFound "Webhook endpoint not found")), [])
      | some _ =>
          match dto.headers.bind validateHeaders,
              storedHeaders crypto input (dto.headers.filter (¬ ·.isEmpty)) with
          | some message, _ => (w.respond (.error (.badRequest ("headers: " ++ message))), [])
          | none, none => (w.respond (.error (.internalServerError "Internal server error")), [])
          | none, some headers => (w, [.statement (.updateRow id dto headers)])
  | .updateRow id dto headers =>
      ({ w with endpoints := w.endpoints.modify id (dto.apply headers) fun _ => rfl }.respond
        (.ok (.updated id)), [])
  | .rotateSecret id userId =>
      match w.endpoints.find? id with
      | none => (w.respond (.error (.notFound "Webhook endpoint not found")), [])
      | some ep =>
          if ep.userId ≠ userId then
            (w.respond (.error (.forbidden "Not the endpoint owner")), [])
          else (w, [.statement (.rotateRow id input.plaintext)])
  | .rotateRow id plaintext =>
      let hashed := crypto.sha256 plaintext.text
      ({ w with
        endpoints := w.endpoints.modify id (fun ep => { ep with secret := hashed.text })
          fun _ => rfl }, [.statement (.rotateRecord id plaintext)])
  | .rotateRecord id plaintext => (w.respond (.ok (.rotated id plaintext)), [])
  | .dispatch eventType payload =>
      (w, (w.endpoints.rows.filter fun ep => ep.active && ep.events.contains eventType).map
        fun ep =>
          let check := input.service.preparePayloadForDelivery eventType payload w.now
          .statement (.deliverOnce ep eventType payload check
            (signedRequest crypto ep check w.now)))
  | .deliverOnce ep eventType payload check request =>
      let delivery : WebhookDelivery :=
        { id := input.id, endpointId := ep.id, eventType, payload, statusCode := none,
          responseBody := none, deliveredAt := none, nextRetryAt := none, attemptCount := 1,
          permanentlyFailedAt := none, createdAt := w.now }
      if (w.deliveries.find? input.id).isSome then (w, [])
      else ({ w with deliveries := w.deliveries.insert delivery },
        [DeliveryAttempt.proceed ⟨.first, input.id, 1, check, ep, request⟩])
  | .retryDelivery endpointId deliveryId userId =>
      match w.endpoints.rows.find? fun ep => ep.id = endpointId ∧ ep.userId = userId with
      | none =>
          (w.respond (.error (.forbidden "Only the endpoint owner can retry deliveries")), [])
      | some endpoint => (w, [.statement (.retryRow endpoint deliveryId)])
  | .retryRow endpoint deliveryId =>
      match w.deliveries.rows.find? fun row =>
          row.id = deliveryId ∧ row.endpointId = endpoint.id with
      | none => (w.respond (.error (.notFound "Webhook delivery not found")), [])
      | some delivery =>
          let check :=
            input.service.preparePayloadForDelivery delivery.eventType delivery.payload w.now
          let request := manualRequest crypto input endpoint check w.now
          (w, [DeliveryAttempt.proceed
            ⟨.manual, deliveryId, delivery.attemptCount, check, endpoint, request⟩])
  | .replayFailedDeliveries endpointId from_ to_ =>
      match w.endpoints.find? endpointId with
      | none => (w.respond (.error (.notFound "Webhook endpoint not found")), [])
      | some endpoint => (w, [.statement (.replayRows endpoint from_ to_)])
  | .replayRows endpoint from_ to_ =>
      (w, (w.deliveries.rows.filter fun row =>
          decide (row.endpointId = endpoint.id) && row.deliveredAt.isNone &&
            decide (from_ ≤ row.createdAt) && decide (row.createdAt ≤ to_)).map
        fun row => .statement (.retryDelivery endpoint.id row.id endpoint.userId))
  | .bulkTest userId =>
      let check := input.service.preparePayloadForDelivery "WEBHOOK_TEST"
        (.obj [("message", .str "This is a test ping from ChainSettle")]) w.now
      (w, (w.endpoints.rows.filter fun ep => decide (ep.userId = userId) && ep.active &&
          !check.exceedsLimit).map
        fun ep => .ping ep (signedRequest crypto ep check w.now))
  | .processRetryQueue =>
      (w, (w.due input.scan).filterMap fun delivery =>
        (w.endpoints.find? delivery.endpointId).map fun ep =>
          let check :=
            input.service.preparePayloadForDelivery delivery.eventType delivery.payload w.now
          .statement (.executeRetry ep delivery check (signedRequest crypto ep check w.now)))
  | .executeRetry ep delivery check request =>
      (w.updateDelivery delivery.id
        { attemptCount := some (delivery.attemptCount + 1), nextRetryAt := some none },
        [DeliveryAttempt.proceed ⟨.automatic delivery.nextRetryAt, delivery.id,
          delivery.attemptCount + 1, check, ep, request⟩])
  | .skip a => a.finish w (a.sizeData input.service w.now)
  | .handleFailure a err => a.finish w (a.failureData err input.random w.now)

/-- A statement that throws ends its call; an exception after a 2xx answer, of the
update or of the metric, is handled like one of the request. -/
def WebhookCall.resume (input : WebhookInput) (w : WebhookWorld) :
    WebhookCall → WebhookWorld × List WebhookCall
  | .statement next =>
      if input.thrown.isSome then (w, []) else next.exec crypto input w
  | .post a => (w.send (some (a.path, a.deliveryId)) a.endpoint a.request, [.answer a])
  | .answer a =>
      match axiosPost input.receiver, input.thrown with
      | .error err, _ => a.caught w err
      | .ok _, some err => a.caught w err
      | .ok res, none => a.succeed w res
  | .ping ep request => (w.send none ep request, [])

/-- All replicas share one clock. -/
def webhooks : PoolSystem WebhookWorld WebhookCall WebhookInput Nat where
  starts := WebhookCall.starts
  resume input w call := call.resume crypto input w
  external milliseconds w := { w with now := w.now + milliseconds }

end Calls

abbrev WebhookPool := Pool WebhookWorld WebhookCall

abbrev WebhookAction := PoolAction WebhookCall WebhookInput Nat

/-- Any endpoints, no deliveries yet. -/
def freshPool (endpoints : Table WebhookEndpoint.id) (now : Nat) : WebhookPool where
  shared := { endpoints, deliveries := Table.empty, now, posts := [], responses := [] }
  inflight := []

end ChainSettle
