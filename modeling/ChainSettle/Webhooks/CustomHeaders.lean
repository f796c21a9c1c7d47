import ChainSettle.Lib.Fields
import ChainSettle.Webhooks.Headers

/-!
Custom headers from the validator to a delivery. What is stored decrypts to what was accepted, and
next to the headers of the delivery every custom one keeps its value, but for a request id that the
delivery sends too.
-/

namespace ChainSettle

open Lib

/-- A header map that the service takes. Its names are the keys of one object. -/
structure CustomHeaders where
  entries : List (String × String)
  distinct : (entries.map Prod.fst).Nodup
  /-- an assignment to this key sets the prototype -/
  ordinary : "__proto__" ∉ entries.map Prod.fst
  accepted : validateHeaders entries = none

/-- The object of a literal with these entries: an entry overwrites an earlier one of its name. -/
def objectOf (entries : List (String × String)) : Fields String String :=
  Fields.assign [] entries

theorem objectOf_append (entries more : List (String × String)) :
    objectOf (entries ++ more) = Fields.assign (objectOf entries) more :=
  List.foldl_append

section Own

/-- The headers of a delivery that come behind the custom ones. -/
def ownHeaders (requestId : Option String) (ts : Nat) (signature signatureV2 : String) :
    List (String × String) :=
  signatureHeaders ts signature signatureV2 ++
    (truthyText requestId).toList.map fun value => ("X-Request-ID", value)

variable {requestId : Option String} {ts : Nat} {signature signatureV2 : String}

theorem names_ownHeaders : (ownHeaders requestId ts signature signatureV2).map Prod.fst =
    ["Content-Type", "X-ChainSettle-Timestamp", "X-ChainSettle-Signature",
      "X-ChainSettle-Signature-V2"] ++ (truthyText requestId).toList.map fun _ => "X-Request-ID" := by
  unfold ownHeaders
  rw [List.map_append, List.map_map]
  rfl

theorem ownHeaders_nodup : ((ownHeaders requestId ts signature signatureV2).map Prod.fst).Nodup := by
  rw [names_ownHeaders]
  cases truthyText requestId with
  | none => exact (by decide : List.Nodup ["Content-Type", "X-ChainSettle-Timestamp",
      "X-ChainSettle-Signature", "X-ChainSettle-Signature-V2"])
  | some value => exact (by decide : List.Nodup ["Content-Type", "X-ChainSettle-Timestamp",
      "X-ChainSettle-Signature", "X-ChainSettle-Signature-V2", "X-Request-ID"])

/-- A header that the delivery does not send. -/
theorem get?_ownHeaders_eq_none {name : String} (hname : isReservedHeader name = false)
    (hid : name = "X-Request-ID" → truthyText requestId = none) :
    Fields.get? (ownHeaders requestId ts signature signatureV2) name = none := by
  rw [← Option.not_isSome_iff_eq_none, Fields.isSome_get?_iff, names_ownHeaders, List.mem_append,
    not_or]
  constructor
  · intro hmem
    have hreserved : ∀ own ∈ ["Content-Type", "X-ChainSettle-Timestamp", "X-ChainSettle-Signature",
        "X-ChainSettle-Signature-V2"], isReservedHeader own = true := by decide
    rw [hreserved name hmem] at hname
    cases hname
  · intro hmem
    obtain ⟨value, hvalue, hsame⟩ := List.mem_map.mp hmem
    rw [hid hsame.symm] at hvalue
    cases hvalue

end Own

section Delivery

variable {headers : CustomHeaders} {requestId : Option String} {ts : Nat}
  {signature signatureV2 : String}

def deliveryObject (headers : CustomHeaders) (requestId : Option String) (ts : Nat)
    (signature signatureV2 : String) : Fields String String :=
  objectOf (headers.entries ++ ownHeaders requestId ts signature signatureV2)

theorem get?_deliveryObject (name : String) :
    Fields.get? (deliveryObject headers requestId ts signature signatureV2) name =
      (Fields.get? (ownHeaders requestId ts signature signatureV2) name).or
        (Fields.get? headers.entries name) := by
  unfold deliveryObject
  rw [objectOf_append, Fields.get?_assign ownHeaders_nodup, objectOf,
    Fields.get?_assign headers.distinct, Fields.get?_nil, Option.or_none]

theorem deliveryObject_nodup :
    ((deliveryObject headers requestId ts signature signatureV2).map Prod.fst).Nodup :=
  Fields.keys_assign_nodup (o := []) List.nodup_nil _

/-- A reserved name is one of the delivery's own. -/
theorem mem_of_reserved {header : String × String}
    (h : header ∈ deliveryObject headers requestId ts signature signatureV2)
    (hreserved : isReservedHeader header.1 = true) : header.1 ∈ ["Content-Type",
      "X-ChainSettle-Timestamp", "X-ChainSettle-Signature", "X-ChainSettle-Signature-V2"] := by
  have hvalue := (Fields.get?_eq_some_iff deliveryObject_nodup).mpr h
  rw [get?_deliveryObject] at hvalue
  rcases Option.or_eq_some_iff.mp hvalue with hown | ⟨-, hcustom⟩
  · have hname := List.mem_map_of_mem (f := Prod.fst) (Fields.mem_of_get? hown)
    rw [names_ownHeaders, List.mem_append] at hname
    refine hname.resolve_right fun hid => ?_
    obtain ⟨value, -, hsame⟩ := List.mem_map.mp hid
    rw [← hsame] at hreserved
    exact absurd hreserved (by decide)
  · have hfree := not_reserved_of_validateHeaders headers.accepted _ (Fields.mem_of_get? hcustom)
    rw [hreserved] at hfree
    cases hfree

/-- What a receiver may rely on. -/
structure DeliversHeaders (headers : CustomHeaders) (requestId : Option String) (ts : Nat)
    (signature signatureV2 : String) (sent : Fields String String) : Prop where
  custom : ∀ header ∈ headers.entries,
    (header.1 = "X-Request-ID" → truthyText requestId = none) →
      Fields.get? sent header.1 = some header.2
  computed : ∀ header ∈ signatureHeaders ts signature signatureV2,
    Fields.get? sent header.1 = some header.2
  once : ∀ header ∈ sent, ∀ other ∈ sent, isReservedHeader header.1 = true →
    lowerCase header.1 = lowerCase other.1 → header = other

theorem deliversHeaders (headers : CustomHeaders) (requestId : Option String) (ts : Nat)
    (signature signatureV2 : String) : DeliversHeaders headers requestId ts signature signatureV2
      (deliveryObject headers requestId ts signature signatureV2) where
  custom header hmem hid := by
    have hfree := not_reserved_of_validateHeaders headers.accepted header hmem
    rw [get?_deliveryObject, get?_ownHeaders_eq_none hfree hid, Option.none_or]
    exact (Fields.get?_eq_some_iff headers.distinct).mpr hmem
  computed header hmem := by
    have hown : Fields.get? (ownHeaders requestId ts signature signatureV2) header.1 =
        some header.2 :=
      (Fields.get?_eq_some_iff ownHeaders_nodup).mpr (List.mem_append_left _ hmem)
    rw [get?_deliveryObject, hown, Option.some_or]
  once header hmem other hother hreserved hsame := by
    have hreserved' : isReservedHeader other.1 = true := (isReservedHeader_congr hsame) ▸ hreserved
    have hnames : ∀ a ∈ ["Content-Type", "X-ChainSettle-Timestamp", "X-ChainSettle-Signature",
        "X-ChainSettle-Signature-V2"], ∀ b ∈ ["Content-Type", "X-ChainSettle-Timestamp",
        "X-ChainSettle-Signature", "X-ChainSettle-Signature-V2"],
        lowerCase a = lowerCase b → a = b := by decide
    have hname := hnames _ (mem_of_reserved hmem hreserved) _
      (mem_of_reserved hother hreserved') hsame
    exact List.inj_on_of_nodup_map deliveryObject_nodup hmem hother hname

end Delivery

variable {crypto : Crypto}

/-- Custom headers that are stored reach a delivery as they were accepted, and the headers of the
delivery are its own. -/
theorem custom_headers_faithful (hcrypto : crypto.RoundTrips) (service : WebhooksService)
    (iv : String → String) (hiv : ∀ name, ':' ∉ (iv name).toList) (headers : CustomHeaders)
    {stored : List (String × String)}
    (hstored : encryptHeaders crypto headers.entries service.encryptionKey iv = some stored) :
    decryptHeaders crypto (some stored) service.encryptionKey = headers.entries ∧
    ∀ (ep : WebhookEndpoint) (requestId : Option String) (ts : Nat) (signature signatureV2 : String),
      ep.headers = some stored → DeliversHeaders headers requestId ts signature signatureV2
        (objectOf (buildDeliveryHeaders crypto service ep requestId ts signature signatureV2)) := by
  have hdecrypted := decryptHeaders_encryptHeaders hcrypto hiv hstored
  refine ⟨hdecrypted, fun ep requestId ts signature signatureV2 hep => ?_⟩
  unfold buildDeliveryHeaders
  rw [hep, hdecrypted, List.append_assoc]
  exact deliversHeaders headers requestId ts signature signatureV2

section Examples

def headerService : WebhooksService := ⟨262144, "webhook-headers-encryption-key-1"⟩

theorem authorization_delivered : DeliversHeaders
    ⟨[("Authorization", "Bearer token")], by decide, by decide, by decide +kernel⟩ (some "req-1") 0
    "sha256=" "t=0,v1=" (objectOf (buildDeliveryHeaders headerCrypto headerService
      authorizedEndpoint (some "req-1") 0 "sha256=" "t=0,v1=")) :=
  (custom_headers_faithful headerCrypto_roundTrips headerService
    (fun _ => "AAAAAAAAAAAAAAAA") (fun _ => by decide) _ rfl).2 _ _ _ _ _ rfl

/-- The endpoint of `authorizedEndpoint` with a custom header of another name. -/
def correlatedEndpoint : WebhookEndpoint :=
  { authorizedEndpoint with
    headers := some
      [("X-Request-ID", "AAAAAAAAAAAAAAAA:GRS1TDD3G7CERwnsBAIv5A==:tQXgoomfNOx0d9Gq")] }

/-- A custom request id is accepted and stored, and the id of the request is sent in its place. -/
theorem request_id_replaced :
    validateHeaders [("X-Request-ID", "Bearer token")] = none ∧
      encryptHeaders headerCrypto [("X-Request-ID", "Bearer token")] headerService.encryptionKey
        (fun _ => "AAAAAAAAAAAAAAAA") = correlatedEndpoint.headers ∧
      Fields.get? (objectOf (buildDeliveryHeaders headerCrypto headerService correlatedEndpoint
        (some "req-1") 0 "sha256=" "t=0,v1=")) "X-Request-ID" = some "req-1" ∧
      ¬ ∀ header ∈ [("X-Request-ID", "Bearer token")],
        Fields.get? (objectOf (buildDeliveryHeaders headerCrypto headerService correlatedEndpoint
          (some "req-1") 0 "sha256=" "t=0,v1=")) header.1 = some header.2 := by
  decide +kernel

end Examples

end ChainSettle
