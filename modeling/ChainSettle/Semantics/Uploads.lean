import ChainSettle.Lib.Pool
import ChainSettle.Lib.Store
import ChainSettle.Lib.Text
import ChainSettle.Semantics.Database

/-!
Uploads to IPFS. A file is held against the upload limits, which every pod caches for a minute, and
its content against its declared type, before it is looked up by its hash and else posted to the
pinning service, three times at most. Any number of uploads are under way on any number of pods,
each of them suspended before its next statement.

The pinning service answers anything. What an admin writes, the clock and the state of the node
change beside the uploads.
-/

namespace ChainSettle

open Lib

section Sniffing

def startsWith (buf bytes : List UInt8) : Bool := buf.take bytes.length = bytes

/-- The bytes as Latin-1, if there are that many. -/
def ascii (buf : List UInt8) (start stop : Nat) : String :=
  if stop ≤ buf.length then
    String.ofList (((buf.drop start).take (stop - start)).map fun b => Char.ofNat b.toNat)
  else ""

def HEIC_BRANDS : List String := ["heic", "heix", "hevc", "hevx", "heim", "heis"]

def AVIF_BRANDS : List String := ["avif", "avis"]

def QUICKTIME_ATOMS : List String := ["moov", "mdat", "wide", "free", "skip", "pnot"]

def sniffMimeType (buf : List UInt8) : Option String :=
  if buf.length < 4 then none
  else if ascii buf 0 5 = "%PDF-" then some "application/pdf"
  else if startsWith buf [0xff, 0xd8, 0xff] then some "image/jpeg"
  else if startsWith buf [0x89, 0x50, 0x4e, 0x47, 0x0d, 0x0a, 0x1a, 0x0a] then some "image/png"
  else if ascii buf 0 6 = "GIF87a" ∨ ascii buf 0 6 = "GIF89a" then some "image/gif"
  else if ascii buf 0 4 = "RIFF" ∧ ascii buf 8 12 = "WEBP" then some "image/webp"
  else if ascii buf 4 8 = "ftyp" then
    let brand := ascii buf 8 12
    if brand = "qt  " then some "video/quicktime"
    else if brand ∈ HEIC_BRANDS then some "image/heic"
    else if brand ∈ AVIF_BRANDS then some "image/avif"
    else some "video/mp4"
  else if ascii buf 4 8 ∈ QUICKTIME_ATOMS then some "video/quicktime"
  else none

def MIME_ALIASES : List (String × String) :=
  [("image/jpg", "image/jpeg"), ("image/pjpeg", "image/jpeg"), ("image/x-png", "image/png"),
    ("application/x-pdf", "application/pdf"), ("video/x-quicktime", "video/quicktime")]

variable (text : CaseMapping)

def normalizeMimeType (mime : String) : String :=
  let base := text.toLowerCase (String.ofList (jsTrim (mime.toList.takeWhile (· ≠ ';'))))
  (MIME_ALIASES.lookup base).getD base

def isoVideo : List String := ["video/mp4", "video/quicktime"]

def mimeTypesMatch (declared sniffed : String) : Bool :=
  let a := normalizeMimeType text declared
  let b := normalizeMimeType text sniffed
  a = b || (a ∈ isoVideo && b ∈ isoVideo)

end Sniffing

section Limits

structure IpfsUploadLimits where
  maxSizeBytes : Nat
  allowedMimeTypes : List String
deriving DecidableEq

/-- The value of the row in AppConfig, as far as its parts have the right types. -/
structure LimitsRow where
  maxSizeBytes : Option Nat
  allowedMimeTypes : Option (List String)
deriving DecidableEq

structure UploadFile where
  bytes : List UInt8
  originalName : String
  mimeType : String
deriving DecidableEq

structure IpfsService where
  apiKey : String
  defaultUploadLimits : IpfsUploadLimits
  dedupTtlDays : Nat
  text : CaseMapping
  sha256 : List UInt8 → String

variable (service : IpfsService)

/-- The limits that a row stands for. -/
def IpfsService.limitsOf : Option LimitsRow → IpfsUploadLimits
  | none => service.defaultUploadLimits
  | some row =>
      { maxSizeBytes := row.maxSizeBytes.getD service.defaultUploadLimits.maxSizeBytes
        allowedMimeTypes :=
          (row.allowedMimeTypes.filter (· ≠ [])).getD
            service.defaultUploadLimits.allowedMimeTypes }

def joinComma (texts : List String) : String := String.intercalate ", " texts

def IpfsService.assertContentMatchesType (file : UploadFile) (limits : IpfsUploadLimits) :
    Except HttpError Unit :=
  match sniffMimeType file.bytes with
  | none =>
      .error ⟨415, "File content could not be identified as an allowed type. Allowed types: " ++
        joinComma limits.allowedMimeTypes⟩
  | some sniffed =>
      let allowed := limits.allowedMimeTypes.map (normalizeMimeType service.text)
      if normalizeMimeType service.text sniffed ∉ allowed then
        .error ⟨415, s!"File content is {sniffed}, which is not allowed. Allowed types: " ++
          joinComma limits.allowedMimeTypes⟩
      else if ¬ mimeTypesMatch service.text file.mimeType sniffed then
        .error ⟨415, s!"File content ({sniffed}) does not match the declared type " ++
          s!"({file.mimeType})"⟩
      else .ok ()

/-- The checks of `uploadFile`. -/
def IpfsService.checkUpload (file : UploadFile) (limits : IpfsUploadLimits) :
    Except HttpError Unit :=
  if limits.maxSizeBytes < file.bytes.length then
    .error ⟨400, s!"File size {file.bytes.length} bytes exceeds the maximum allowed size of " ++
      s!"{limits.maxSizeBytes} bytes"⟩
  else if file.mimeType ∉ limits.allowedMimeTypes then
    .error ⟨400, s!"Unsupported file type: {file.mimeType}. Allowed types: " ++
      joinComma limits.allowedMimeTypes⟩
  else service.assertContentMatchesType file limits

end Limits

section Statements

def UPLOAD_LIMITS_CACHE_TTL_MS : Nat := 60000

/-- `MAX_ATTEMPTS` -/
def MAX_POST_ATTEMPTS : Nat := 3

/-- An answer without a CID: its HTTP status, if there is one, and the detail of the error. -/
structure PostError where
  status : Option Nat
  detail : String
deriving DecidableEq

/-- Whether the database and Redis fail, and what the pinning service answers. -/
structure UploadInput where
  dbFails : Bool
  redisError : Option String
  post : Except PostError String

inductive UploadEvent where
  | rejected (error : HttpError)
  | limitsMissed
  | admitted (file : UploadFile) (limits : IpfsUploadLimits)
  | failed (error : HttpError)
  | stubbed (cid : String)
  | missed
  /-- with what is thrown, if this was the last attempt -/
  | posted (file : UploadFile) (attempt : Nat) (reply : Except PostError String)
      (thrown : Option HttpError)
  /-- the CID could not be remembered -/
  | forgotten (attempt : Nat) (thrown : Option HttpError)
  /-- the request is answered; `hash` is that of the content -/
  | returned (hash cid : String)

inductive UploadCall where
  | uploadFile (pod : Nat) (file : UploadFile)
  /-- `start` is when the limits were asked for -/
  | readLimits (number pod : Nat) (file : UploadFile) (start : Nat)
  | dedup (number pod : Nat) (file : UploadFile)
  | post (number : Nat) (file : UploadFile) (attempt : Nat)
  | remember (number : Nat) (file : UploadFile) (attempt : Nat) (cid : String)

structure UploadWorld where
  now : Nat
  appConfig : Option LimitsRow
  redis : Store String String
  /-- the cached limits of each pod, and since when it has them -/
  caches : Nat → Option (IpfsUploadLimits × Nat)
  isHealthy : Nat → Bool
  uploads : Nat
  log : List (Nat × UploadEvent)

def dedupKey (hash : String) : String := "ipfs:dedup:" ++ hash

def hexDigit (n : Nat) : Char := "0123456789abcdef".toList.getD n '0'

def hexOf (bytes : List UInt8) : List Char :=
  bytes.flatMap fun b => [hexDigit (b.toNat / 16), hexDigit (b.toNat % 16)]

/-- What is returned where no API key is configured. -/
def stubCid (originalName : String) : String :=
  "bafydev" ++ String.ofList ((hexOf originalName.toUTF8.toList).take 52)

variable (service : IpfsService)

namespace UploadWorld

variable (w : UploadWorld)

def event (number : Nat) (e : UploadEvent) : UploadWorld := { w with log := (number, e) :: w.log }

/-- The limits that a pod has in its cache, while they are fresh. -/
def cachedLimits (pod : Nat) : Option IpfsUploadLimits :=
  ((w.caches pod).filter fun entry => w.now - entry.2 < UPLOAD_LIMITS_CACHE_TTL_MS).map Prod.fst

def cache (pod : Nat) (limits : IpfsUploadLimits) (at_ : Nat) : UploadWorld :=
  { w with caches := Function.update w.caches pod (some (limits, at_)) }

/-- `uploadFile` with its limits, up to the lookup in Redis. -/
def checkLimits (number pod : Nat) (file : UploadFile) (limits : IpfsUploadLimits) :
    UploadWorld × List UploadCall :=
  match service.checkUpload file limits with
  | .error err => (w.event number (.rejected err), [])
  | .ok _ => (w.event number (.admitted file limits), [.dedup number pod file])

end UploadWorld

def uploadFailed (detail : String) : HttpError := ⟨500, "IPFS upload failed: " ++ detail⟩

/-- An attempt has failed for the moment: the next one, or the error of the last. -/
def tryAgain (number : Nat) (file : UploadFile) (attempt : Nat) (detail : String) :
    Option HttpError × List UploadCall :=
  if attempt < MAX_POST_ATTEMPTS then (none, [.post number file (attempt + 1)])
  else (some (uploadFailed detail), [])

/-- A status from 400 to 499 is not tried again. -/
def PostError.isRejection (err : PostError) : Bool :=
  err.status.any fun status => 400 ≤ status ∧ status < 500

def UploadCall.resume (input : UploadInput) (w : UploadWorld) :
    UploadCall → UploadWorld × List UploadCall
  | .uploadFile pod file =>
      let number := w.uploads
      let w := { w with uploads := number + 1 }
      match w.cachedLimits pod with
      | some limits => w.checkLimits service number pod file limits
      | none => (w.event number .limitsMissed, [.readLimits number pod file w.now])
  | .readLimits number pod file start =>
      let limits :=
        if input.dbFails then service.defaultUploadLimits else service.limitsOf w.appConfig
      (w.cache pod limits start).checkLimits service number pod file limits
  | .dedup number pod file =>
      let hash := service.sha256 file.bytes
      match input.redisError with
      | some _ => (w.event number (.failed ⟨500, "Internal server error"⟩), [])
      | none =>
          match truthyText (w.redis.get w.now (dedupKey hash)) with
          | some cid => (w.event number (.returned hash cid), [])
          | none =>
              if service.apiKey = "" then
                (w.event number (.stubbed (stubCid file.originalName)), [])
              else if w.isHealthy pod then (w.event number .missed, [.post number file 1])
              else (w.event number (.failed ⟨503, "IPFS service is currently unavailable"⟩), [])
  | .post number file attempt =>
      let (thrown, rest) : Option HttpError × List UploadCall :=
        match input.post with
        | .ok cid => (none, [.remember number file attempt cid])
        | .error err =>
            if err.isRejection then (some (uploadFailed err.detail), [])
            else tryAgain number file attempt err.detail
      (w.event number (.posted file attempt input.post thrown), rest)
  | .remember number file attempt cid =>
      let hash := service.sha256 file.bytes
      match input.redisError with
      | some message =>
          -- the statement is inside the `try` of the attempt
          let (thrown, rest) := tryAgain number file attempt message
          (w.event number (.forgotten attempt thrown), rest)
      | none =>
          let ttlSeconds := service.dedupTtlDays * 86400
          let expiresAt := if ttlSeconds = 0 then none else some (w.now + ttlSeconds * 1000)
          (({ w with redis := w.redis.set (dedupKey hash) cid expiresAt }).event number
            (.returned hash cid), [])

/-- What happens beside the uploads: an admin writes the limits, which the pod that does it also
takes into its cache, time passes, and the node is found to be up or down. -/
inductive UploadEdit where
  | upsert (row : LimitsRow)
  | recache (pod : Nat) (limits : IpfsUploadLimits)
  | elapse (ms : Nat)
  | checked (pod : Nat) (isHealthy : Bool)

def UploadEdit.apply (w : UploadWorld) : UploadEdit → UploadWorld
  | .upsert row => { w with appConfig := some row }
  | .recache pod limits => w.cache pod limits w.now
  | .elapse ms => { w with now := w.now + ms }
  | .checked pod isHealthy => { w with isHealthy := Function.update w.isHealthy pod isHealthy }

def uploads : PoolSystem UploadWorld UploadCall UploadInput UploadEdit where
  starts call := match call with
    | .uploadFile _ _ => true
    | _ => false
  resume input w call := call.resume service input w
  external edit w := edit.apply w

abbrev UploadPool := Pool UploadWorld UploadCall

abbrev UploadAction := PoolAction UploadCall UploadInput UploadEdit

/-- Before the first upload: no CID is remembered, and no pod has limits in its cache. -/
def freshUploads (now : Nat) (appConfig : Option LimitsRow) : UploadPool where
  shared := {
    now := now
    appConfig := appConfig
    redis := Store.empty
    caches := fun _ => none
    isHealthy := fun _ => false
    uploads := 0
    log := [] }
  inflight := []

end Statements

end ChainSettle
