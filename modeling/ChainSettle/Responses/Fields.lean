import ChainSettle.Semantics.Serialization

/-!
Sparse fieldsets. Each field of a response is made from the column or relation of its name
alone, so a query that selects less does not change it. One field that may be asked for has
no such place in the response: the approvals are reported as `approvalStatus`.
-/

namespace ChainSettle

open Lib

section Serialize

variable (now : Nat) (callerUserId : Option String) (shipment : JsObject)

def computedKeys : List String :=
  ["approvalStatus", "tokenSymbol", "tokenDecimals", "totalAmount", "releasedAmount",
    "totalAmountFormatted", "releasedAmountFormatted", "isFavorited", "milestones",
    "trackingUpdates", "latestTracking"]

theorem get?_serialize (key : String) :
    Fields.get? (serialize now callerUserId shipment) key =
      (Fields.get? (computedFields now callerUserId shipment) key).or
        (if key ∈ ["favorites", "approvals"] then none else Fields.get? shipment key) := by
  have hkeys : (computedFields now callerUserId shipment).map Prod.fst = computedKeys := rfl
  have hnodup : computedKeys.Nodup := by decide
  unfold serialize
  rw [Fields.get?_assign (hkeys ▸ hnodup), Fields.get?_without]

/-- What becomes of a field that may be selected. -/
def shownField (field : String) (value : JsValue) : JsValue :=
  match field with
  | "tokenSymbol" => value.orElse (.str "USDC")
  | "tokenDecimals" => value.orElse (.num 7)
  | "totalAmount" | "releasedAmount" => value.digits
  | "milestones" => value.mapItems (serializeMilestone now)
  | "trackingUpdates" => value.mapItems serializeTracking
  | _ => value

/-- The fields that are not passed on as they are. -/
def shownKeys : List String :=
  ["tokenSymbol", "tokenDecimals", "totalAmount", "releasedAmount", "milestones",
    "trackingUpdates"]

theorem shownField_of_not_mem {field : String} (h : field ∉ shownKeys) (value : JsValue) :
    shownField now field value = value := by
  simp only [shownKeys, List.mem_cons, List.not_mem_nil, or_false, not_or] at h
  unfold shownField
  split <;> simp_all

theorem selectable_cases {field : String} (h : field ∈ SHIPMENT_DETAIL_FIELDS) :
    field = "approvals" ∨ field ∈ shownKeys ∨
      field ∉ computedKeys ∧ field ∉ shownKeys ∧ field ∉ ["favorites", "approvals"] := by
  have hall : ∀ f ∈ SHIPMENT_DETAIL_FIELDS, f = "approvals" ∨ f ∈ shownKeys ∨
      f ∉ computedKeys ∧ f ∉ shownKeys ∧ f ∉ ["favorites", "approvals"] := by
    decide
  exact hall field h

/-- A field of the response depends on the field of the record only. -/
theorem get?_serialize_field {field : String} (h : field ∈ SHIPMENT_DETAIL_FIELDS)
    (happrovals : field ≠ "approvals") {value : JsValue}
    (hvalue : Fields.get? shipment field = some value) :
    Fields.get? (serialize now callerUserId shipment) field = some (shownField now field value) := by
  rw [get?_serialize]
  obtain rfl | hshown | ⟨hcomputed, hplain, hpassed⟩ := selectable_cases h
  · exact absurd rfl happrovals
  · have hget : shipment.get field = value := by
      unfold JsObject.get
      rw [hvalue]
      rfl
    simp only [shownKeys, List.mem_cons, List.not_mem_nil, or_false] at hshown
    rcases hshown with rfl | rfl | rfl | rfl | rfl | rfl
    all_goals
      subst hget
      rfl
  · have hnone : Fields.get? (computedFields now callerUserId shipment) field = none := by
      rw [← Option.not_isSome_iff_eq_none, Fields.isSome_get?_iff]
      exact hcomputed
    rw [hnone, if_neg hpassed, hvalue, shownField_of_not_mem now hplain]
    rfl

theorem get?_serialize_approvals :
    Fields.get? (serialize now callerUserId shipment) "approvals" = none := by
  rw [get?_serialize]
  rfl

end Serialize

section Records

variable (s : LoadedShipment) (now : Nat) (callerUserId : Option String)

theorem ofOption_ne_undefined {α : Type} {f : α → JsValue} (hf : ∀ a, f a ≠ .undefined)
    (value : Option α) : JsValue.ofOption f value ≠ .undefined := by
  cases value with
  | none => exact nofun
  | some a => exact hf a

def SHIPMENT_COLUMNS : List String :=
  ["id", "buyerAddress", "supplierAddress", "logisticsAddress", "arbiterAddress", "tokenAddress",
    "totalAmount", "releasedAmount", "status", "arbiterStatus", "txHash", "createdLedger",
    "tokenDecimals", "tokenSymbol", "requiredApprovals", "description", "referenceNumber",
    "metadata", "tags", "expectedDeliveryAt", "cancelledAt", "refundTxHash", "createdAt",
    "updatedAt", "isDraft"]

/-- What may be selected is a column or a relation of the detail query. -/
theorem selectable_stored : ∀ field ∈ SHIPMENT_DETAIL_FIELDS, field ∈ SHIPMENT_COLUMNS ++
    ["milestones", "events", "trackingUpdates", "approvals"] := by
  decide

/-- Every column has a value. -/
theorem columns_defined (row : ShipmentRow) : ∀ e ∈ row.columns, e.2 ≠ .undefined := by
  simp only [ShipmentRow.columns, List.forall_mem_cons, ne_eq, reduceCtorEq, not_false_eq_true,
    true_and]
  simp [ofOption_ne_undefined]

theorem withRelations_defined (relations : List ShipmentRelation) :
    ∀ e ∈ s.withRelations relations, e.2 ≠ .undefined := by
  refine List.forall_mem_append.mpr ⟨columns_defined s.row, fun e he => ?_⟩
  obtain ⟨r, -, rfl⟩ := List.mem_map.mp he
  exact nofun

/-- The full record has a value for every field that may be selected. -/
theorem detail_field {field : String} (h : field ∈ SHIPMENT_DETAIL_FIELDS) :
    ∃ value, Fields.get? (s.withRelations (detailRelations callerUserId)) field = some value ∧
      shownField now field value ≠ .undefined := by
  obtain rfl | hshown | ⟨-, hplain, -⟩ := selectable_cases h
  · exact ⟨_, rfl, nofun⟩
  · simp only [shownKeys, List.mem_cons, List.not_mem_nil, or_false] at hshown
    rcases hshown with rfl | rfl | rfl | rfl | rfl | rfl
    all_goals exact ⟨_, rfl, nofun⟩
  · have hkeys : field ∈ (s.withRelations (detailRelations callerUserId)).map Prod.fst := by
      have hcolumns : s.row.columns.map Prod.fst = SHIPMENT_COLUMNS := rfl
      unfold LoadedShipment.withRelations detailRelations
      rw [List.map_append, List.map_append, List.map_append, hcolumns, ← List.append_assoc]
      exact List.mem_append_left _ (selectable_stored field h)
    obtain ⟨value, hvalue⟩ := Option.isSome_iff_exists.mp ((Fields.isSome_get?_iff _ _).mpr hkeys)
    refine ⟨value, hvalue, ?_⟩
    rw [shownField_of_not_mem now hplain]
    exact withRelations_defined s _ _ (Fields.mem_of_get? hvalue)

end Records

section Sparse

variable (s : LoadedShipment) (now : Nat) (id : String) (callerUserId : Option String)

/-- The fields that an accepted parameter comes to. -/
theorem parseFields_cases {raw : String} {allowed : List String} {parsed : Option (List String)}
    (h : parseFields (some raw) allowed = .ok parsed) :
    (∀ field ∈ requestedFields raw, field ∈ allowed) ∧
      ((parsed = none ∧ requestedFields raw = []) ∨
        ∃ fields, parsed = some fields ∧
          ∀ field, field ∈ fields ↔ field = "id" ∨ field ∈ requestedFields raw) := by
  unfold parseFields at h
  dsimp only at h
  split at h
  · rename_i hempty
    cases h
    rw [hempty]
    exact ⟨List.forall_mem_nil _, .inl ⟨rfl, rfl⟩⟩
  · split at h
    · cases h
    · rename_i hknown
      cases h
      refine ⟨fun field hfield => ?_, .inr ⟨_, rfl, fun field => ?_⟩⟩
      · by_contra hunknown
        refine hknown (List.ne_nil_of_mem (List.mem_filter.mpr ⟨hfield, ?_⟩))
        exact decide_eq_true hunknown
      · rw [(List.perm_insertionSort ..).mem_iff, List.mem_eraseDups, List.mem_cons]

/-- The response of a query for these fields, of a record that has everything. -/
def sparseResponse (fields : List String) : JsObject :=
  let relations := detailRelations callerUserId
  pickFields (serialize now callerUserId
    (Fields.restrict (s.withRelations relations) (buildSelect fields relations))) fields

def fullResponse : JsObject :=
  serialize now callerUserId (s.withRelations (detailRelations callerUserId))

theorem findOneShipment_some (fields : List String) :
    findOneShipment (some s) now id callerUserId (some fields) =
      .ok (sparseResponse s now callerUserId fields) := rfl

theorem findOneShipment_none :
    findOneShipment (some s) now id callerUserId none = .ok (fullResponse s now callerUserId) := rfl

theorem get?_selected {fields : List String} {field : String} (h : field ∈ fields) :
    Fields.get? (Fields.restrict (s.withRelations (detailRelations callerUserId))
        (buildSelect fields (detailRelations callerUserId))) field =
      Fields.get? (s.withRelations (detailRelations callerUserId)) field := by
  rw [Fields.get?_restrict, if_pos]
  unfold buildSelect
  simp [h]

/-- Selecting less makes no difference to what is picked. -/
theorem sparseResponse_eq {fields : List String}
    (h : ∀ field ∈ fields, field ∈ SHIPMENT_DETAIL_FIELDS) :
    sparseResponse s now callerUserId fields =
      pickFields (fullResponse s now callerUserId) fields := by
  refine Fields.pick_congr fun field hfield => ?_
  unfold fullResponse
  by_cases happrovals : field = "approvals"
  · subst happrovals
    rw [get?_serialize_approvals, get?_serialize_approvals]
  · obtain ⟨value, hvalue, -⟩ := detail_field s now callerUserId (h field hfield)
    have hselected := (get?_selected s callerUserId hfield).trans hvalue
    rw [get?_serialize_field now callerUserId _ (h field hfield) happrovals hvalue,
      get?_serialize_field now callerUserId _ (h field hfield) happrovals hselected]

/-- The response has a value for the field. -/
def Shows (response : JsObject) (field : String) : Prop :=
  ∃ value, Fields.get? response field = some value ∧ value ≠ .undefined

theorem shows_full_iff {field : String} (h : field ∈ SHIPMENT_DETAIL_FIELDS) :
    Shows (fullResponse s now callerUserId) field ↔ field ≠ "approvals" := by
  unfold Shows fullResponse
  constructor
  · rintro ⟨value, hvalue, -⟩ rfl
    rw [get?_serialize_approvals] at hvalue
    cases hvalue
  · intro happrovals
    obtain ⟨value, hvalue, hdefined⟩ := detail_field s now callerUserId h
    exact ⟨_, get?_serialize_field now callerUserId _ h happrovals hvalue, hdefined⟩

theorem shows_pick_iff {response : JsObject} {fields : List String} {field : String}
    (h : field ∈ fields) : Shows (pickFields response fields) field ↔ Shows response field := by
  unfold Shows pickFields
  rw [Fields.get?_pick, if_pos h]

/-- A response restricted to what was asked for. -/
def restrictTo (response : JsObject) : Option (List String) → JsObject
  | none => response
  | some fields => pickFields response fields

/-- A sparse response is the full one restricted to the fields that were asked for, and has
all of these, exactly when the approvals are not among them. -/
theorem findOne_sparse_iff {raw : String} {parsed : Option (List String)}
    (h : parseFields (some raw) SHIPMENT_DETAIL_FIELDS = .ok parsed) :
    (∃ full response, findOneShipment (some s) now id callerUserId none = .ok full ∧
        findOneShipment (some s) now id callerUserId parsed = .ok response ∧
        response = restrictTo full parsed ∧ ∀ field ∈ requestedFields raw, Shows response field) ↔
      "approvals" ∉ requestedFields raw := by
  obtain ⟨hallowed, ⟨rfl, hempty⟩ | ⟨fields, rfl, hfields⟩⟩ := parseFields_cases h
  · rw [hempty]
    refine iff_of_true ?_ List.not_mem_nil
    exact ⟨_, _, findOneShipment_none .., findOneShipment_none .., rfl, List.forall_mem_nil _⟩
  · have hdetail (field : String) (hfield : field ∈ fields) : field ∈ SHIPMENT_DETAIL_FIELDS := by
      rcases (hfields field).mp hfield with rfl | hrequested
      · decide
      · exact hallowed field hrequested
    have hequal := sparseResponse_eq s now callerUserId hdetail
    have hshows (field : String) (hfield : field ∈ requestedFields raw) :
        Shows (sparseResponse s now callerUserId fields) field ↔ field ≠ "approvals" := by
      rw [hequal, shows_pick_iff ((hfields field).mpr (.inr hfield)),
        shows_full_iff s now callerUserId (hallowed field hfield)]
    constructor
    · rintro ⟨full, response, -, hresponse, -, hall⟩ happrovals
      cases hresponse
      exact (hshows "approvals" happrovals).mp (hall "approvals" happrovals) rfl
    · intro hnone
      refine ⟨_, _, findOneShipment_none .., findOneShipment_some .., hequal, fun field hfield => ?_⟩
      rw [hshows field hfield]
      rintro rfl
      exact hnone hfield

/-- A shipment with one approval and nothing else. -/
def approvedShipment : LoadedShipment where
  row :=
    { id := "SHIP-1", buyerAddress := "GBUYER", supplierAddress := "GSUPPLIER"
      logisticsAddress := "GLOGISTICS", releasedAmount := 0, status := .active
      requiredApprovals := some 1, cancelledAt := none, refundTxHash := none
      totalAmount := 1000, txHash := none, tokenDecimals := 7, arbiterAddress := "GARBITER"
      arbiterStatus := .pendingAcceptance, tokenAddress := "CUSDC", tokenSymbol := "USDC"
      referenceNumber := none, isDraft := false, createdLedger := none, description := none
      metadata := none, tags := [], expectedDeliveryAt := none, createdAt := 0, updatedAt := 0 }
  related r := if r = .approvals then [[("approverAddress", .str "GBUYER")]] else []

theorem status_and_milestones :
    ∃ full response, findOneShipment (some approvedShipment) 20 "SHIP-1" none none = .ok full ∧
      findOneShipment (some approvedShipment) 20 "SHIP-1" none
        (some ["id", "milestones", "status"]) = .ok response ∧
      response = restrictTo full (some ["id", "milestones", "status"]) ∧
      ∀ field ∈ requestedFields "status, milestones", Shows response field := by
  have hparsed : parseFields (some "status, milestones") SHIPMENT_DETAIL_FIELDS =
      .ok (some ["id", "milestones", "status"]) := by
    rfl
  exact (findOne_sparse_iff approvedShipment 20 "SHIP-1" none hparsed).mpr (by decide +kernel)

/-- The approvals are asked for and left out. -/
theorem approvals_left_out :
    parseFields (some "approvals") SHIPMENT_DETAIL_FIELDS = .ok (some ["approvals", "id"]) ∧
      "approvals" ∈ requestedFields "approvals" ∧
      ∃ response, findOneShipment (some approvedShipment) 20 "SHIP-1" none
          (some ["approvals", "id"]) = .ok response ∧ ¬ Shows response "approvals" := by
  refine ⟨rfl, by decide +kernel, _, findOneShipment_some .., ?_⟩
  have hkeys : ∀ field ∈ ["approvals", "id"], field ∈ SHIPMENT_DETAIL_FIELDS := by decide
  rw [sparseResponse_eq _ _ _ hkeys, shows_pick_iff (.head _),
    shows_full_iff _ _ _ (hkeys _ (.head _))]
  exact fun hne => hne rfl

end Sparse

end ChainSettle
