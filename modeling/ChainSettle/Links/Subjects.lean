import ChainSettle.History.Changes
import ChainSettle.Lib.Base64
import ChainSettle.Lib.Signature

/-!
Links that carry a signature: the subscription of a calendar feed and the unsubscribe link of a
mail. The unsubscribe link is signed with the secret of the session tokens, which are signed over
their header and payload with a dot between them.

Whom a signed link is for. A calendar feed is that of the user whose id is signed, and an
unsubscribe link that of its payload; its secret also signs session tokens, over a text with a
dot in it, which the signed text of an unsubscribe link never has.
-/

namespace ChainSettle

open Lib JsonTree

/-- Node's `crypto`, `Buffer` and `JSON` and the token library, as far as the links use them. -/
structure LinkPlatform where
  /-- key and message -/
  hmacSha256 : String → String → List UInt8
  /-- `Buffer.from(text, 'base64url').toString('utf8')` -/
  fromBase64url : String → String
  numbers : NumberFormat Nat
  /-- `JSON.parse`, nothing where it throws -/
  parse : String → Option (JsonTree Nat)
  /-- `Number(value)`, nothing for `NaN` -/
  toNumber : JsonTree Nat → Option Nat
  /-- `jwt.verify`, of a secret and a token, nothing where it throws -/
  verifyJwt : String → String → Option (JsonTree Nat)

/-- `split('.')` -/
def dotParts (token : String) : List String := (token.toList.splitOn '.').map String.ofList

/-- `Buffer.from(text).toString('base64url')` -/
def toBase64url (text : String) : String := String.ofList (base64url (utf8 text.toList))

/-- The lengths are equal and `timingSafeEqual` holds. -/
def sameBytes (a b : String) : Bool := utf8 a.toList = utf8 b.toList

/-- `createHmac('sha256', key).update(message).digest('base64url')` -/
def LinkPlatform.digest (platform : LinkPlatform) (key message : String) : String :=
  String.ofList (base64url (platform.hmacSha256 key message))

variable (platform : LinkPlatform)

section CalendarFeed

def feedNotConfigured : HttpError := ⟨401, "Calendar feeds are not configured on this deployment"⟩

def invalidCalendarToken : HttpError := ⟨401, "Invalid calendar token"⟩

/-- `sign` -/
def signUser (feedSecret userId : String) : String := platform.digest feedSecret userId

/-- A subscription token, which does not expire. -/
def issueToken (feedSecret userId : String) : Except HttpError String :=
  if feedSecret = "" then .error feedNotConfigured
  else .ok (toBase64url userId ++ "." ++ signUser platform feedSecret userId)

def verifyToken (feedSecret token : String) : Except HttpError String :=
  if feedSecret = "" then .error feedNotConfigured
  else if token = "" then .error invalidCalendarToken
  else
    match dotParts token with
    | [encodedUserId, signature] =>
      let userId := platform.fromBase64url encodedUserId
      if userId = "" then .error invalidCalendarToken
      else if ¬ sameBytes signature (signUser platform feedSecret userId) then
        .error invalidCalendarToken
      else .ok userId
    | _ => .error invalidCalendarToken

end CalendarFeed

section Unsubscribe

/-- What an unsubscribe link is for. -/
structure Unsubscription where
  userId : String
  type : String
deriving DecidableEq

/-- 30 days -/
def unsubscribeTtl : Nat := 30 * 24 * 60 * 60 * 1000

/-- The configured secret, or the default. -/
def unsubscribeSecret (jwtSecret : Option String) : String := jwtSecret.getD "secret"

def unsubscribePayload (link : Unsubscription) (exp : Nat) : JsonTree Nat :=
  .obj [("userId", .str link.userId), ("type", .str link.type), ("exp", .num exp)]

def unsubscribeData (link : Unsubscription) (exp : Nat) : String :=
  toBase64url (String.ofList (text platform.numbers (unsubscribePayload link exp)))

def generateUnsubscribeToken (jwtSecret : Option String) (now : Nat) (link : Unsubscription) :
    String :=
  let data := unsubscribeData platform link (now + unsubscribeTtl)
  data ++ "." ++ platform.digest (unsubscribeSecret jwtSecret) data

/-- What a signed payload asks for, which need not be texts. -/
structure UnsubscribeRequest where
  userId : JsonTree Nat
  type : JsonTree Nat

def Unsubscription.request (link : Unsubscription) : UnsubscribeRequest :=
  ⟨.str link.userId, .str link.type⟩

/-- A property of a parsed payload; one that is missing is as falsy as null. -/
def payloadField (payload : JsonTree Nat) (key : String) : JsonTree Nat :=
  match payload with
  | .obj fields => (Fields.get? fields key).getD .null
  | _ => .null

/-- `!value` -/
def isFalsy : JsonTree Nat → Bool
  | .null => true
  | .bool b => !b
  | .num n => n = 0
  | .str s => s = ""
  | .arr _ | .obj _ => false

/-- What is checked of a payload whose signature is right. -/
def checkUnsubscribePayload (now : Nat) : JsonTree Nat → Except HttpError UnsubscribeRequest
  -- a property of null is read
  | .null => .error ⟨500, "Internal server error"⟩
  | payload =>
    let userId := payloadField payload "userId"
    let type := payloadField payload "type"
    let exp := payloadField payload "exp"
    if isFalsy userId ∨ isFalsy type ∨ isFalsy exp then
      .error ⟨400, "Invalid unsubscribe token payload"⟩
    else if (platform.toNumber exp).any (· < now) then
      .error ⟨400, "Unsubscribe token has expired"⟩
    else .ok ⟨userId, type⟩

def verifyUnsubscribeToken (jwtSecret : Option String) (now : Nat) (token : String) :
    Except HttpError UnsubscribeRequest :=
  if token = "" then .error ⟨400, "Unsubscribe token is required"⟩
  else
    match dotParts token with
    | [data, sig] =>
      if ¬ sameBytes sig (platform.digest (unsubscribeSecret jwtSecret) data) then
        .error ⟨400, "Invalid or tampered unsubscribe token"⟩
      else
        match platform.parse (platform.fromBase64url data) with
        | none => .error ⟨400, "Invalid unsubscribe token payload"⟩
        | some payload => checkUnsubscribePayload platform now payload
    | _ => .error ⟨400, "Invalid unsubscribe token format"⟩

end Unsubscribe

section Parts

theorem sameBytes_iff {a b : String} : sameBytes a b = true ↔ a = b := by
  rw [sameBytes, decide_eq_true_iff]
  constructor
  · intro h
    have hchars : a.toList = b.toList := by
      rw [← decodeUtf8_utf8 a.toList, h, decodeUtf8_utf8]
    exact String.toList_inj.mp hchars
  · rintro rfl
    rfl

theorem dotParts_append (rest : String) {last : String} (h : '.' ∉ last.toList) :
    dotParts (rest ++ "." ++ last) = dotParts rest ++ [last] := by
  have htext : (rest ++ "." ++ last).toList = rest.toList ++ '.' :: last.toList := by
    rw [String.toList_append, String.toList_append, List.append_assoc]
    rfl
  rw [dotParts, htext, List.splitOn_append_cons_self, List.splitOn_eq_singleton h, List.map_append,
    List.map_singleton, String.ofList_toList]
  rfl

theorem dotParts_of_not_mem {text : String} (h : '.' ∉ text.toList) : dotParts text = [text] := by
  rw [dotParts, List.splitOn_eq_singleton h, List.map_singleton, String.ofList_toList]

theorem dot_not_mem_of_mem_dotParts {token part : String} (h : part ∈ dotParts token) :
    '.' ∉ part.toList := by
  obtain ⟨chars, hchars, rfl⟩ := List.mem_map.mp h
  rw [String.toList_ofList]
  exact not_mem_of_mem_splitOn hchars

theorem intercalate_dotParts (token : String) : ".".intercalate (dotParts token) = token := by
  have hchars : (dotParts token).map String.toList = token.toList.splitOn '.' := by
    simp [dotParts, Function.comp_def]
  rw [← String.toList_inj, String.toList_intercalate, hchars]
  exact List.intercalate_splitOn '.'

/-- What is behind the last dot. -/
def signaturePart (token : String) : String := (dotParts token).getLast?.getD ""

theorem signaturePart_append (rest : String) {last : String} (h : '.' ∉ last.toList) :
    signaturePart (rest ++ "." ++ last) = last := by
  rw [signaturePart, dotParts_append rest h, List.getLast?_concat]
  rfl

theorem signaturePart_of_pair {token first last : String} (h : dotParts token = [first, last]) :
    signaturePart token = last := by
  rw [signaturePart, h]
  rfl

theorem ne_empty_of_dot (a b : String) : a ++ "." ++ b ≠ "" := by
  intro h
  have hlength := congrArg String.length h
  rw [String.length_append, String.length_append] at hlength
  have hdot : ".".length = 1 := rfl
  have hempty : "".length = 0 := rfl
  omega

end Parts

/-- Nothing is lost in a text that is encoded or a payload that is written, no two messages have
the same signature, and a session token is signed over its header and payload. -/
structure LinkPlatform.Faithful (platform : LinkPlatform) : Prop where
  hmac : ∀ key, Function.Injective (platform.hmacSha256 key)
  buffer : ∀ text, platform.fromBase64url (toBase64url text) = text
  json : ∀ link exp, platform.parse
    (String.ofList (text platform.numbers (unsubscribePayload link exp))) =
      some (unsubscribePayload link exp)
  number : ∀ n, platform.toNumber (.num n) = some n
  hs256 : ∀ {secret token payload}, platform.verifyJwt secret token = some payload →
    ∃ head body, token = head ++ "." ++ body ++ "." ++ platform.digest secret (head ++ "." ++ body)

section Signatures

variable {platform : LinkPlatform}

theorem dot_not_mem_toBase64url (text : String) : '.' ∉ (toBase64url text).toList := by
  rw [toBase64url, String.toList_ofList]
  exact dot_not_mem_base64url _

theorem dot_not_mem_digest (platform : LinkPlatform) (key message : String) :
    '.' ∉ (platform.digest key message).toList := by
  rw [LinkPlatform.digest, String.toList_ofList]
  exact dot_not_mem_base64url _

theorem digest_injective (h : platform.Faithful) (key : String) :
    Function.Injective (platform.digest key) := by
  intro a b hsame
  exact h.hmac key (base64url_injective (String.ofList_injective hsame))

end Signatures

section Tokens

variable {platform : LinkPlatform}

/-- A feed's token is accepted for the user that it names, under the signature of that user. -/
theorem verifyToken_eq_ok_iff {feedSecret token userId : String} :
    verifyToken platform feedSecret token = .ok userId ↔
      feedSecret ≠ "" ∧ token ≠ "" ∧ userId ≠ "" ∧ ∃ encoded,
        dotParts token = [encoded, signUser platform feedSecret userId] ∧
        platform.fromBase64url encoded = userId := by
  unfold verifyToken
  split_ifs with hsecret htoken
  · simp [hsecret]
  · simp [htoken]
  rw [and_iff_right hsecret, and_iff_right htoken]
  split
  · rename_i encoded signature hparts
    rw [hparts]
    simp only [List.cons.injEq, and_true]
    split_ifs with hempty hsame
    · constructor
      · exact nofun
      · rintro ⟨hne, other, ⟨rfl, -⟩, rfl⟩
        exact absurd hempty hne
    · rw [sameBytes_iff] at hsame
      constructor
      · rintro ⟨⟩
        exact ⟨hempty, encoded, ⟨rfl, hsame⟩, rfl⟩
      · rintro ⟨-, other, ⟨rfl, -⟩, rfl⟩
        rfl
    · constructor
      · exact nofun
      · rintro ⟨-, other, ⟨rfl, rfl⟩, rfl⟩
        exact absurd (sameBytes_iff.mpr rfl) hsame
  · rename_i hparts
    constructor
    · exact nofun
    · rintro ⟨-, encoded, hpair, -⟩
      exact absurd hpair (hparts _ _)

/-- An accepted unsubscribe token has the signature of the text in front of it, and the payload
that this is read as is what it asks for. -/
theorem signed_of_verifyUnsubscribeToken {jwtSecret : Option String} {now : Nat} {token : String}
    {request : UnsubscribeRequest}
    (h : verifyUnsubscribeToken platform jwtSecret now token = .ok request) :
    ∃ data payload,
      dotParts token = [data, platform.digest (unsubscribeSecret jwtSecret) data] ∧
      platform.parse (platform.fromBase64url data) = some payload ∧
      checkUnsubscribePayload platform now payload = .ok request := by
  unfold verifyUnsubscribeToken at h
  split_ifs at h
  split at h
  · rename_i data sig hparts
    split_ifs at h with hsame
    rw [sameBytes_iff] at hsame
    split at h
    · cases h
    · rename_i payload hpayload
      exact ⟨data, payload, by rw [hparts, hsame], hpayload, h⟩
  · cases h

theorem checkUnsubscribePayload_eq (h : platform.Faithful) {link : Unsubscription}
    (huser : link.userId ≠ "") (htype : link.type ≠ "") {exp : Nat} (hexp : exp ≠ 0) (now : Nat) :
    checkUnsubscribePayload platform now (unsubscribePayload link exp) =
      if now ≤ exp then .ok link.request
      else .error ⟨400, "Unsubscribe token has expired"⟩ := by
  have hfields : ¬ (isFalsy (.str link.userId) ∨ isFalsy (.str link.type) ∨ isFalsy (.num exp)) := by
    simp [isFalsy, huser, htype, hexp]
  change (if isFalsy (.str link.userId) ∨ isFalsy (.str link.type) ∨ isFalsy (.num exp) then _
    else if (platform.toNumber (.num exp)).any (· < now) then _ else Except.ok link.request) = _
  rw [if_neg hfields, h.number, Option.any_some]
  by_cases htime : now ≤ exp
  · rw [if_neg (by simpa using htime), if_pos htime]
  · rw [if_pos (by simpa using htime), if_neg htime]

theorem parse_unsubscribeData (h : platform.Faithful) (link : Unsubscription) (exp : Nat) :
    platform.parse (platform.fromBase64url (unsubscribeData platform link exp)) =
      some (unsubscribePayload link exp) := by
  rw [unsubscribeData, h.buffer, h.json]

/-- What the service signed is accepted until it expires. -/
theorem verifyUnsubscribeToken_signed (h : platform.Faithful) (jwtSecret : Option String)
    {link : Unsubscription} (huser : link.userId ≠ "") (htype : link.type ≠ "") {exp : Nat}
    (hexp : exp ≠ 0) (now : Nat) :
    verifyUnsubscribeToken platform jwtSecret now
        (unsubscribeData platform link exp ++ "." ++
          platform.digest (unsubscribeSecret jwtSecret) (unsubscribeData platform link exp)) =
      if now ≤ exp then .ok link.request
      else .error ⟨400, "Unsubscribe token has expired"⟩ := by
  have hparse := parse_unsubscribeData h link exp
  have hdata : '.' ∉ (unsubscribeData platform link exp).toList := dot_not_mem_toBase64url _
  generalize unsubscribeData platform link exp = data at hparse hdata
  generalize hkey : unsubscribeSecret jwtSecret = key
  have hparts : dotParts (data ++ "." ++ platform.digest key data) =
      [data, platform.digest key data] := by
    rw [dotParts_append data (dot_not_mem_digest platform key data), dotParts_of_not_mem hdata]
    rfl
  unfold verifyUnsubscribeToken
  rw [if_neg (ne_empty_of_dot _ _), hkey, hparts]
  simp only [hparse]
  rw [if_neg (not_not.mpr (sameBytes_iff.mpr rfl))]
  exact checkUnsubscribePayload_eq h huser htype hexp now

end Tokens

section Links

variable {platform : LinkPlatform}

/-- The texts that session tokens are signed over. -/
def tokenMessages : Set String := {m | ∃ head body, m = head ++ "." ++ body}

/-- The texts that unsubscribe tokens are signed over. -/
def unsubscribeMessages (platform : LinkPlatform) : Set String :=
  {m | ∃ link exp, m = unsubscribeData platform link exp}

theorem dot_mem_append (a b : String) : '.' ∈ (a ++ "." ++ b).toList := by
  rw [String.toList_append, String.toList_append]
  exact List.mem_append_left _ (List.mem_append_right _ (.head _))

theorem disjoint_messages {signed : Set String} (h : ∀ m ∈ signed, '.' ∉ m.toList) :
    Disjoint tokenMessages signed := by
  rw [Set.disjoint_left]
  rintro _ ⟨head, body, rfl⟩ hmem
  exact h _ hmem (dot_mem_append head body)

theorem dot_not_mem_unsubscribeMessages (platform : LinkPlatform) :
    ∀ m ∈ unsubscribeMessages platform, '.' ∉ m.toList := by
  rintro _ ⟨link, exp, rfl⟩
  exact dot_not_mem_toBase64url _

/-- A signed link is for exactly one user. Calendar tokens are accepted for the user they were
issued for, under the signature of that user and no other, and unsubscribe tokens for their user
and type until they expire. Someone who has seen signatures of session tokens only has no
unsubscribe token, and the other way round. -/
theorem links_identify_subject (platform : LinkPlatform) (h : platform.Faithful)
    (feedSecret : String) (jwtSecret : Option String) :
    (∀ userId, feedSecret ≠ "" → userId ≠ "" → ∃ token,
      issueToken platform feedSecret userId = .ok token ∧
      verifyToken platform feedSecret token = .ok userId) ∧
    (∀ token userId, verifyToken platform feedSecret token = .ok userId → ∃ issued,
      issueToken platform feedSecret userId = .ok issued ∧
      signaturePart token = signaturePart issued) ∧
    (∀ link now later, link.userId ≠ "" → link.type ≠ "" →
      verifyUnsubscribeToken platform jwtSecret later
          (generateUnsubscribeToken platform jwtSecret now link) =
        if later ≤ now + unsubscribeTtl then .ok link.request
        else .error ⟨400, "Unsubscribe token has expired"⟩) ∧
    (∀ token now request,
      Keyless (platform.digest (unsubscribeSecret jwtSecret)) tokenMessages
        (signaturePart token) →
      verifyUnsubscribeToken platform jwtSecret now token ≠ .ok request) ∧
    ∀ secret token,
      Keyless (platform.digest secret) (unsubscribeMessages platform) (signaturePart token) →
      platform.verifyJwt secret token = none := by
  refine ⟨?_, ?_, ?_, ?_, ?_⟩
  · intro userId hsecret huser
    refine ⟨_, if_neg hsecret, verifyToken_eq_ok_iff.mpr
      ⟨hsecret, ne_empty_of_dot _ _, huser, toBase64url userId, ?_, h.buffer userId⟩⟩
    have hparts := dotParts_append (toBase64url userId)
      (dot_not_mem_digest platform feedSecret userId)
    rw [dotParts_of_not_mem (dot_not_mem_toBase64url userId)] at hparts
    exact hparts
  · intro token userId hverify
    obtain ⟨hsecret, -, -, encoded, hparts, -⟩ := verifyToken_eq_ok_iff.mp hverify
    refine ⟨_, if_neg hsecret, ?_⟩
    rw [signaturePart_of_pair hparts]
    exact (signaturePart_append _ (dot_not_mem_digest _ _ _)).symm
  · intro link now later huser htype
    have hexp : now + unsubscribeTtl ≠ 0 := by
      unfold unsubscribeTtl
      omega
    exact verifyUnsubscribeToken_signed h jwtSecret huser htype hexp later
  · intro token now request hkeyless hverify
    obtain ⟨data, -, hparts, -, -⟩ := signed_of_verifyUnsubscribeToken hverify
    have hdot : '.' ∉ data.toList :=
      dot_not_mem_of_mem_dotParts (hparts ▸ List.mem_cons_self)
    rw [signaturePart_of_pair hparts] at hkeyless
    exact ne_sign_of_keyless (digest_injective h _) (disjoint_messages fun m hm => by
      rw [Set.mem_singleton_iff.mp hm]
      exact hdot) hkeyless (Set.mem_singleton data) rfl
  · intro secret token hkeyless
    cases hverify : platform.verifyJwt secret token with
    | none => rfl
    | some payload =>
        obtain ⟨head, body, htoken⟩ := h.hs256 hverify
        rw [htoken, signaturePart_append _ (dot_not_mem_digest _ _ _)] at hkeyless
        exact absurd rfl (ne_sign_of_keyless (digest_injective h secret)
          (disjoint_messages (dot_not_mem_unsubscribeMessages platform)).symm hkeyless
          ⟨head, body, rfl⟩)

end Links

section Demo

/-- More bytes than a digest of SHA-256 has. -/
def longTag (message : String) : List UInt8 := List.replicate 33 0 ++ utf8 message.toList

theorem longTag_injective : Function.Injective longTag := by
  intro a b h
  have hbytes := List.append_cancel_left h
  have hchars : a.toList = b.toList := by
    rw [← decodeUtf8_utf8 a.toList, hbytes, decodeUtf8_utf8]
  exact String.toList_inj.mp hchars

def linkDigests (key : String) : Fields String (List UInt8) :=
  if key = "feed-secret" then
    [("user-1", [110, 49, 106, 131, 183, 134, 212, 55, 205, 53, 214, 141, 94, 215, 76, 130, 92, 32,
      165, 231, 24, 91, 250, 109, 230, 245, 43, 44, 47, 110, 218, 142])]
  else if key = "super-secret-key" then
    [("eyJ1c2VySWQiOiJ1c2VyLTEiLCJ0eXBlIjoiQUxMIiwiZXhwIjoyNTkyMDAwMDAwfQ",
      [222, 99, 229, 139, 214, 228, 12, 117, 122, 102, 151, 1, 84, 188, 224, 101, 123, 65, 84, 82,
        60, 89, 39, 209, 71, 5, 251, 194, 210, 141, 116, 223]),
    ("eyJhbGciOiJIUzI1NiIsInR5cCI6IkpXVCJ9.eyJzdWIiOiJ1c2VyLTEifQ",
      [41, 189, 46, 199, 210, 120, 99, 123, 7, 57, 65, 104, 141, 104, 125, 154, 236, 65, 239, 32,
        154, 193, 205, 66, 225, 7, 226, 109, 205, 208, 196, 202])]
  else []

theorem linkDigests_spec (key : String) :
    ((linkDigests key).map Prod.snd).Nodup ∧ ∀ entry ∈ linkDigests key, entry.2.length = 32 := by
  unfold linkDigests
  split_ifs
  · decide
  · decide
  · exact ⟨List.nodup_nil, nofun⟩

/-- `JSON.parse` as far as it is the inverse of `JSON.stringify`. -/
noncomputable def demoParse (json : String) : Option (JsonTree Nat) :=
  open Classical in
  if h : ∃ v, String.ofList (text wholeNumbers v) = json then some h.choose else none

theorem demoParse_text (v : JsonTree Nat) :
    demoParse (String.ofList (text wholeNumbers v)) = some v := by
  have hwritten : ∃ w, String.ofList (text wholeNumbers w) = String.ofList (text wholeNumbers v) :=
    ⟨v, rfl⟩
  rw [demoParse, dif_pos hwritten]
  exact congrArg some (text_injective wholeNumbers (String.ofList_injective hwritten.choose_spec))

def linkDigest (key message : String) : String :=
  String.ofList (base64url (prescribed (linkDigests key) longTag message))

def demoDecode (encoded : String) : String :=
  String.ofList (decodeUtf8 (decodeBase64url encoded.toList))

noncomputable def demoPlatform : LinkPlatform where
  hmacSha256 key := prescribed (linkDigests key) longTag
  fromBase64url := demoDecode
  numbers := wholeNumbers
  parse := demoParse
  toNumber value := match value with
    | .num n => some n
    | _ => none
  verifyJwt secret token :=
    match dotParts token with
    | [head, body, signature] =>
      if signature = linkDigest secret (head ++ "." ++ body) then demoParse (demoDecode body)
      else none
    | _ => none

theorem demoPlatform_faithful : demoPlatform.Faithful where
  hmac key := by
    refine prescribed_injective longTag_injective (linkDigests_spec key).1 ?_
    intro entry hmem message heq
    have hlength := (linkDigests_spec key).2 entry hmem
    rw [heq, longTag, List.length_append, List.length_replicate] at hlength
    omega
  buffer text := by
    change demoDecode (toBase64url text) = text
    rw [demoDecode, toBase64url, String.toList_ofList, decodeBase64url_base64url, decodeUtf8_utf8,
      String.ofList_toList]
  json link exp := demoParse_text _
  number n := rfl
  hs256 := by
    intro secret token payload hverify
    change (match dotParts token with
      | [head, body, signature] =>
        if signature = linkDigest secret (head ++ "." ++ body) then demoParse (demoDecode body)
        else none
      | _ => none) = some payload at hverify
    split at hverify
    · rename_i head body signature hparts
      split_ifs at hverify with hsignature
      refine ⟨head, body, ?_⟩
      rw [← intercalate_dotParts token, hparts, hsignature]
      rfl
    · cases hverify

def demoFeedToken : String := "dXNlci0x.bjFqg7eG1DfNNdaNXtdMglwgpecYW_pt5vUrLC9u2o4"

def demoUnsubscribeToken : String :=
  "eyJ1c2VySWQiOiJ1c2VyLTEiLCJ0eXBlIjoiQUxMIiwiZXhwIjoyNTkyMDAwMDAwfQ." ++
    "3mPli9bkDHV6ZpcBVLzgZXtBVFI8WSfRRwX7wtKNdN8"

theorem demoFeedToken_eq :
    issueToken demoPlatform "feed-secret" "user-1" = .ok demoFeedToken := by
  rfl

theorem demoUnsubscribeToken_eq : generateUnsubscribeToken demoPlatform (some "super-secret-key") 0
    ⟨"user-1", "ALL"⟩ = demoUnsubscribeToken := by
  decide +kernel

/-- The header and payload of a session token, and the signature over them. -/
def demoSession : String × String :=
  ("eyJhbGciOiJIUzI1NiIsInR5cCI6IkpXVCJ9.eyJzdWIiOiJ1c2VyLTEifQ",
    "Kb0ux9J4Y3sHOUFojWh9muxB7yCawc1C4Qfibc3QxMo")

theorem demo_links_identify_subject :
    verifyToken demoPlatform "feed-secret" demoFeedToken = .ok "user-1" ∧
      verifyUnsubscribeToken demoPlatform (some "super-secret-key") 2592000000
        demoUnsubscribeToken = .ok ⟨.str "user-1", .str "ALL"⟩ ∧
      verifyUnsubscribeToken demoPlatform (some "super-secret-key") 2592000001
        demoUnsubscribeToken = .error ⟨400, "Unsubscribe token has expired"⟩ ∧
      verifyUnsubscribeToken demoPlatform (some "super-secret-key") 0
        ("eyJhbGciOiJIUzI1NiIsInR5cCI6IkpXVCJ9." ++ demoSession.2) ≠ .ok ⟨.str "user-1", .str "ALL"⟩ ∧
      demoPlatform.verifyJwt "super-secret-key"
        (demoSession.1 ++ "." ++ signaturePart demoUnsubscribeToken) = none := by
  obtain ⟨hfeed, -, hunsubscribe, htoken, hjwt⟩ := links_identify_subject demoPlatform
    demoPlatform_faithful "feed-secret" (some "super-secret-key")
  refine ⟨?_, ?_, ?_, ?_, ?_⟩
  · obtain ⟨token, hissued, hverify⟩ := hfeed "user-1" (by decide) (by decide)
    rw [demoFeedToken_eq] at hissued
    cases hissued
    exact hverify
  · have hopen := hunsubscribe ⟨"user-1", "ALL"⟩ 0 2592000000 (by decide) (by decide)
    rw [demoUnsubscribeToken_eq] at hopen
    exact hopen
  · have hexpired := hunsubscribe ⟨"user-1", "ALL"⟩ 0 2592000001 (by decide) (by decide)
    rw [demoUnsubscribeToken_eq] at hexpired
    exact hexpired
  · refine htoken _ 0 ⟨.str "user-1", .str "ALL"⟩ (.inl ⟨demoSession.1, ?_, by decide +kernel⟩)
    exact ⟨"eyJhbGciOiJIUzI1NiIsInR5cCI6IkpXVCJ9", "eyJzdWIiOiJ1c2VyLTEifQ", by decide⟩
  · refine hjwt _ _ (.inl ⟨unsubscribeData demoPlatform ⟨"user-1", "ALL"⟩ 2592000000, ?_,
      by decide +kernel⟩)
    exact ⟨_, _, rfl⟩

end Demo

end ChainSettle
