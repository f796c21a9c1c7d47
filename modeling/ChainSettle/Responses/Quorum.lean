import ChainSettle.Arbiters.Reachability
import ChainSettle.Cache.Coherence
import ChainSettle.Responses.Fields
import ChainSettle.Tokens.Steps

/-!
The quorum that a response reports. It is computed from the approvals that the response was
loaded with, and of the requests that return a shipment only `findOne` loads them. The others
report a quorum of zero approvals, which is the right answer as long as the gate is closed.
-/

namespace ChainSettle

open Lib Lib.Eff

section Reported

/-- `approvalStatus.quorumMet` -/
def quorumMetOf (response : JsObject) : Option Bool :=
  match response.get "approvalStatus" with
  | .obj status =>
      match JsObject.get status "quorumMet" with
      | .bool met => some met
      | _ => none
  | _ => none

theorem ShipmentRelation.name_injective : Function.Injective ShipmentRelation.name := by
  intro r r' h
  cases r <;> cases r' <;> first | rfl | exact absurd h (by decide)

theorem get?_relations (related : ShipmentRelation → JsValue) (relations : List ShipmentRelation)
    (r : ShipmentRelation) :
    Fields.get? (relations.map fun r => (r.name, related r)) r.name =
      if r ∈ relations then some (related r) else none := by
  induction relations with
  | nil => rfl
  | cons first rest ih =>
      rw [List.map_cons, Fields.get?_cons, ih]
      by_cases hfirst : first = r
      · rw [hfirst, if_pos rfl, if_pos (List.mem_cons_self ..)]
      · have hname : first.name ≠ r.name := fun h => hfirst (ShipmentRelation.name_injective h)
        rw [if_neg hname]
        simp [Ne.symm hfirst]

variable (s : LoadedShipment) (relations : List ShipmentRelation)

/-- The approvals that a response counts. -/
def shownApprovals : Nat :=
  if ShipmentRelation.approvals ∈ relations then (s.related .approvals).length else 0

theorem items_approvals :
    ((s.withRelations relations).get "approvals").items.length = shownApprovals s relations := by
  have hget : Fields.get? (s.withRelations relations) "approvals" =
      if ShipmentRelation.approvals ∈ relations then
        some (.arr ((s.related .approvals).map .obj)) else none := by
    unfold LoadedShipment.withRelations
    rw [Fields.get?_append]
    exact get?_relations (fun r => .arr ((s.related r).map .obj)) relations .approvals
  unfold JsObject.get shownApprovals
  rw [hget]
  split
  · exact List.length_map _
  · rfl

theorem get_requiredApprovals :
    (s.withRelations relations).get "requiredApprovals" =
      .ofOption (fun count : Nat => .num count) s.row.requiredApprovals := by
  unfold JsObject.get LoadedShipment.withRelations
  rw [Fields.get?_append]
  rfl

/-- The reported quorum is that of the approvals that were loaded. -/
theorem quorumMetOf_serialize (now : Nat) (callerUserId : Option String) :
    quorumMetOf (serialize now callerUserId (s.withRelations relations)) =
      some (decide
        (∀ required ∈ s.row.requiredApprovals, required ≤ shownApprovals s relations)) := by
  have hstatus : (serialize now callerUserId (s.withRelations relations)).get "approvalStatus" =
      .obj (approvalStatus ((s.withRelations relations).get "requiredApprovals")
        ((s.withRelations relations).get "approvals")) := by
    unfold JsObject.get
    rw [get?_serialize]
    rfl
  unfold quorumMetOf
  rw [hstatus, get_requiredApprovals]
  have hitems := items_approvals s relations
  generalize (s.withRelations relations).get "approvals" = approvals at hitems ⊢
  cases s.row.requiredApprovals with
  | none => rfl
  | some required =>
      have hmet : JsObject.get (approvalStatus (.ofOption (fun count : Nat => .num count)
          (some required)) approvals) "quorumMet" =
            .bool ((required : Int) ≤ (approvals.items.length : Int)) := rfl
      simp only [hmet, hitems]
      simp

end Reported

section Operations

variable {services : Services} {config : TagsConfig} {times : WriteTimes}

theorem exec_onDb {α : Type} (times : WriteTimes) (m : Tx α) (s : Versioned) :
    exec (onDb times m) s = ((exec m s.db).1, s.restamp (exec m s.db).2 times) := by
  unfold onDb
  rw [exec_bind, exec_get]
  dsimp only
  cases exec m s.db with
  | mk outcome next => cases outcome <;> rfl

theorem exec_of_onDb {α : Type} {m : Tx α} {s next : Versioned} {outcome : Except Exn α}
    (h : exec (onDb times m) s = (outcome, next)) : exec m s.db = (outcome, next.db) := by
  rw [exec_onDb] at h
  cases h
  rfl

theorem db_of_onDb {α : Type} {m : Tx α} {s next : Versioned} {outcome : Except Exn α}
    (h : exec (onDb times m) s = (outcome, next)) : next.db = after m s.db :=
  (congrArg Prod.snd (exec_of_onDb h)).symm

/-- The required count of a shipment and all approvals are as before. -/
structure SameQuorum (db next : Db) (shipmentId : String) : Prop where
  approvals : next.approvals = db.approvals
  required : (next.shipments.find? shipmentId).map Shipment.requiredApprovals =
    (db.shipments.find? shipmentId).map Shipment.requiredApprovals

theorem SameQuorum.refl (db : Db) (shipmentId : String) : SameQuorum db db shipmentId := ⟨rfl, rfl⟩

theorem sameQuorum_modify {db : Db} {id shipmentId : String} {f : Shipment → Shipment}
    (hid : ∀ s, (f s).id = s.id) (hf : ∀ s, (f s).requiredApprovals = s.requiredApprovals) :
    SameQuorum db { db with shipments := db.shipments.modify id f hid } shipmentId := by
  refine ⟨rfl, ?_⟩
  rw [Table.find?_modify]
  split
  · rename_i hsame
    rw [hsame]
    cases db.shipments.find? id with
    | none => rfl
    | some s => exact congrArg some (hf s)
  · rfl

theorem sameQuorum_answer (db : Db) (env : Env) (answer : ArbiterAnswer)
    (id callerAddress : String) :
    SameQuorum db (after (answerChecks env answer id callerAddress >>= fun _ =>
      answerUpdate env answer id) db) id := by
  rw [after_bind]
  obtain ⟨err, herr⟩ | ⟨_, hok, -⟩ := readOnly_answerChecks env db answer id callerAddress
  · rw [herr]
    exact .refl db id
  · rw [hok]
    dsimp only
    rw [after]
    obtain ⟨err, herr⟩ | ⟨-, hupdate⟩ := exec_answerUpdate_cases env db answer id
    · rw [herr]
      exact .refl db id
    · rw [hupdate]
      exact sameQuorum_modify (f := Shipment.setArbiterStatus answer.status) (fun _ => rfl)
        fun _ => rfl

/-- Only the requests that create a shipment change what the gate looks at. -/
theorem sameQuorum_run {op : SerializedOp} {s next : Versioned}
    (h : exec (op.run services config times) s = (.ok (), next))
    (hcreate : ∀ env dto, op ≠ .create env dto)
    (hclone : ∀ env id buyerAddress dto, op ≠ .clone env id buyerAddress dto) :
    SameQuorum s.db next.db op.shipmentId := by
  have hrefl := SameQuorum.refl s.db op.shipmentId
  cases op with
  | create env dto => exact absurd rfl (hcreate env dto)
  | clone env id buyerAddress dto => exact absurd rfl (hclone env id buyerAddress dto)
  | findOne env id callerUserId =>
      simp only [SerializedOp.run, exec_versionedCall] at h
      split at h
      · cases h
      · cases h
        exact hrefl
  | addTag env id buyerAddress tag at_ =>
      obtain ⟨err, herr⟩ | ⟨-, hok⟩ := exec_addTag_cases env s id buyerAddress tag at_
      · cases herr.symm.trans h
      · cases hok.symm.trans h
        exact hrefl
  | removeTag env id buyerAddress tag =>
      simp only [SerializedOp.run, exec_bind] at h
      obtain ⟨err, herr⟩ | ⟨-, hok⟩ := exec_removeTag_cases env s id buyerAddress tag
      · simp only [herr] at h
        cases h
      · simp only [hok, exec_versionedCall] at h
        split at h
        · cases h
        · cases h
          exact hrefl
  | replaceTags input request =>
      have hafter : complete (TagsCall.statement config input) 3 (.findUnique request) s = next := by
        rw [← after_whole]
        exact congrArg Prod.snd h
      obtain hsame | ⟨tags, hupdate⟩ := complete_replaceTags_cases config input s 3 request
      · rw [← hafter, hsame]
        exact hrefl
      · rw [← hafter, hupdate]
        exact hrefl
  | replaceArbiter env id buyerAddress arbiterAddress =>
      rw [db_of_onDb h]
      obtain hsame | ⟨shipment, -, hafter⟩ :=
        after_replaceArbiter_cases services.text env s.db id buyerAddress arbiterAddress
      · rw [hsame]
        exact hrefl
      · rw [hafter]
        exact sameQuorum_modify (f := Shipment.assignArbiter arbiterAddress) (fun _ => rfl)
          fun _ => rfl
  | arbiterAccept env id callerAddress =>
      rw [db_of_onDb h]
      exact sameQuorum_answer s.db env .accept id callerAddress
  | arbiterDecline env id callerAddress =>
      rw [db_of_onDb h]
      exact sameQuorum_answer s.db env .decline id callerAddress
  | cancel env id buyerAddress txHash =>
      rw [db_of_onDb h, after]
      obtain ⟨err, herr⟩ | ⟨-, hok⟩ := exec_cancel_cases env s.db id buyerAddress txHash
      · rw [herr]
        exact hrefl
      · rw [hok]
        exact sameQuorum_modify (Shipment.registerCancel_id env.now txHash) fun _ => rfl

/-- A shipment that is cloned requires no approvals. -/
theorem clone_unrestricted {env : Env} {id buyerAddress : String} {dto : CloneShipmentDto}
    {db next : Db} {shipment : Shipment}
    (h : exec (clone services env id buyerAddress dto) db = (.ok (), next))
    (hfound : next.shipments.find? dto.newId = some shipment) :
    shipment.requiredApprovals = none := by
  rw [clone_eq, exec_bind] at h
  obtain ⟨err, herr⟩ | ⟨⟨new, milestones⟩, hok, hid, hnone, -⟩ :=
    readOnly_cloneRow services env db id buyerAddress dto
  · rw [herr] at h
    cases h
  · rw [hok] at h
    obtain ⟨hinserts, hinserted⟩ | ⟨-, err, herr⟩ := exec_shipmentInsert env db new milestones
    · cases hinserted.symm.trans h
      have hrow : (db.withShipment new milestones).shipments.find? new.row.id = some new.row := by
        refine (Table.find?_insert db.shipments new.row new.row.id).trans ?_
        have hfree : db.shipments.find? new.row.id = none := hinserts.2.2
        rw [if_pos rfl, hfree]
        rfl
      have hrowId : new.row.id = dto.newId := hid
      rw [hrowId] at hrow
      cases hrow.symm.trans hfound
      exact hnone
    · cases herr.symm.trans h

end Operations

section Agreement

variable {services : Services} {config : TagsConfig} {times : WriteTimes} {others : OtherColumns}
  {now : Nat} {op : SerializedOp} {s next : Versioned} {response : JsObject}

theorem exec_hasQuorum {env : Env} {db : Db} {shipmentId : String} {shipment : Shipment}
    (hread : env.fails .quorumRead = false)
    (hfound : db.shipments.find? shipmentId = some shipment) :
    (exec (hasQuorum env shipmentId) db).1 = .ok (decide (∀ required ∈ shipment.requiredApprovals,
      required ≤ (approversOf db shipmentId).length)) := by
  unfold hasQuorum approversOf
  rw [exec_bind, exec_prismaCall, hread]
  simp only [Bool.false_eq_true, if_false, exec_bind, exec_get, hfound, Option.bind_some,
    List.length_map]
  cases shipment.requiredApprovals with
  | none => rfl
  | some required => simp

theorem respond_cases
    (h : exec (op.respond services config times others now) s = (.ok response, next)) :
    exec (op.run services config times) s = (.ok (), next) ∧
      ∃ shipment, next.db.shipments.find? op.shipmentId = some shipment ∧
        response = serialize now op.callerUserId
          ((next.load others shipment).withRelations op.relations) := by
  unfold SerializedOp.respond at h
  rw [exec_bind] at h
  cases hrun : exec (op.run services config times) s with
  | mk outcome mid =>
      cases outcome with
      | error err =>
          rw [hrun] at h
          cases h
      | ok value =>
          simp only [hrun, exec_bind, exec_get] at h
          cases hfound : mid.db.shipments.find? op.shipmentId with
          | none =>
              rw [hfound] at h
              cases h
          | some shipment =>
              simp only [hfound, exec_pure, Prod.mk.injEq, Except.ok.injEq] at h
              obtain ⟨hresponse, rfl⟩ := h
              exact ⟨rfl, shipment, hfound, hresponse.symm⟩

/-- The report and the gate agree where both counts reach the required one, or neither. -/
theorem agrees_iff {shipment : Shipment}
    (hfound : next.db.shipments.find? op.shipmentId = some shipment)
    (hresponse : response = serialize now op.callerUserId
      ((next.load others shipment).withRelations op.relations)) :
    (∃ met, quorumMetOf response = some met ∧ ∀ env : Env, env.fails .quorumRead = false →
        (exec (hasQuorum env op.shipmentId) next.db).1 = .ok met) ↔
      ∀ required ∈ shipment.requiredApprovals,
        (required ≤ (if ShipmentRelation.approvals ∈ op.relations then
          (approversOf next.db op.shipmentId).length else 0) ↔
        required ≤ (approversOf next.db op.shipmentId).length) := by
  have hshown : shownApprovals (next.load others shipment) op.relations =
      if ShipmentRelation.approvals ∈ op.relations then
        (approversOf next.db op.shipmentId).length else 0 := by
    have hid : shipment.id = op.shipmentId := Table.key_of_find? hfound
    unfold shownApprovals approversOf
    simp only [Versioned.load, List.length_map, hid]
  have hreported := quorumMetOf_serialize (next.load others shipment) op.relations now
    op.callerUserId
  rw [hshown, ← hresponse] at hreported
  rw [hreported]
  constructor
  · rintro ⟨met, hmet, hall⟩ required hrequired
    have hcalm : (Env.calm 0).fails .quorumRead = false := rfl
    have hquorum := (exec_hasQuorum hcalm hfound).symm.trans (hall (.calm 0) hcalm)
    cases hmet
    have hsame := decide_eq_decide.mp (Except.ok.inj hquorum)
    constructor
    · intro hle
      exact hsame.mpr (fun other hother => by cases hrequired.symm.trans hother; exact hle)
        required hrequired
    · intro hle
      exact hsame.mp (fun other hother => by cases hrequired.symm.trans hother; exact hle)
        required hrequired
  · intro hagrees
    refine ⟨_, rfl, fun env hread => ?_⟩
    rw [exec_hasQuorum hread hfound]
    refine congrArg Except.ok (decide_eq_decide.mpr ?_)
    exact forall₂_congr fun required hrequired => (hagrees required hrequired).symm

/-- The requests that neither create a shipment nor load its approvals. -/
def SerializedOp.overlooks : SerializedOp → Bool
  | .create _ _ | .clone _ _ _ _ | .findOne _ _ _ => false
  | _ => true

/-- The request loads the approvals, or the shipment that it finds requires none, or more
than it has. -/
def SerializedOp.QuorumShown (db : Db) (op : SerializedOp) : Prop :=
  op.overlooks = true → ∀ shipment, db.shipments.find? op.shipmentId = some shipment →
    ∀ required ∈ shipment.requiredApprovals,
      required = 0 ∨ (approversOf db op.shipmentId).length < required

theorem relations_of_overlooks (h : op.overlooks = true) :
    ShipmentRelation.approvals ∉ op.relations := by
  cases op with
  | create _ _ | clone _ _ _ _ | findOne _ _ _ => cases h
  | addTag _ _ _ _ _ | removeTag _ _ _ _ | replaceTags _ _ | replaceArbiter _ _ _ _
  | arbiterAccept _ _ _ | arbiterDecline _ _ _ | cancel _ _ _ _ => simp [SerializedOp.relations]

/-- A response reports what the gate says exactly when its request loads the approvals, or
they do not suffice anyway. -/
theorem quorum_reported_iff (howned : s.db.ApprovalsOwned)
    (h : exec (op.respond services config times others now) s = (.ok response, next)) :
    (∃ met, quorumMetOf response = some met ∧ ∀ env : Env, env.fails .quorumRead = false →
        (exec (hasQuorum env op.shipmentId) next.db).1 = .ok met) ↔ op.QuorumShown s.db := by
  obtain ⟨hrun, shipment, hfound, hresponse⟩ := respond_cases h
  rw [agrees_iff hfound hresponse]
  cases hoverlooks : op.overlooks with
  | true =>
      have hkept : SameQuorum s.db next.db op.shipmentId :=
        sameQuorum_run hrun (by rintro env dto rfl; cases hoverlooks)
          (by rintro env id buyerAddress dto rfl; cases hoverlooks)
      have hcount : approversOf next.db op.shipmentId = approversOf s.db op.shipmentId := by
        unfold approversOf
        rw [hkept.approvals]
      have hbefore := hkept.required
      rw [hfound, Option.map_some] at hbefore
      obtain ⟨old, hold, hsame⟩ := Option.map_eq_some_iff.mp hbefore.symm
      rw [if_neg (relations_of_overlooks hoverlooks), hcount, ← hsame]
      constructor
      · intro hall _ other hother required hrequired
        cases hold.symm.trans hother
        have hiff := hall required hrequired
        omega
      · intro hshown required hrequired
        have hcases := hshown hoverlooks old hold required hrequired
        omega
  | false =>
      refine iff_of_true (fun required hrequired => ?_) fun hop => ?_
      · cases op with
        | findOne env id callerUserId =>
            have hloads : ShipmentRelation.approvals ∈
                (SerializedOp.findOne env id callerUserId).relations :=
              List.mem_append_left _ (by decide)
            rw [if_pos hloads]
        | create env dto =>
            have hcreated : exec (ShipmentsService.create services env dto) s.db =
                (.ok (), next.db) := exec_of_onDb hrun
            obtain ⟨_, -, hnone, -⟩ := approvedBy_created howned hcreated
            have hzero : (approversOf next.db (SerializedOp.create env dto).shipmentId).length =
                0 := congrArg List.length hnone
            rw [hzero, ite_self]
        | clone env id buyerAddress dto =>
            have hcloned : exec (clone services env id buyerAddress dto) s.db =
                (.ok (), next.db) := exec_of_onDb hrun
            cases (clone_unrestricted hcloned hfound).symm.trans hrequired
        | _ => cases hoverlooks
      · rw [hoverlooks] at hop
        cases hop

/-- The shipment that requires two approvals, with those of so many of its parties. -/
def approvedDb (approvers : List String) : Versioned where
  db := { multisigDb with approvals := approvers.map fun address => ⟨"SHIP-1", address⟩ }
  tags := fun _ => []
  updatedAt := fun _ => 0
  milestoneUpdatedAt := fun _ => 0

def noTimes : WriteTimes := ⟨fun _ => 0, fun _ => 0, fun _ => false, fun _ => false⟩

def noColumns : OtherColumns := ⟨none, none, none, none, 0, fun _ => []⟩

def acceptRequest : SerializedOp := .arbiterAccept (.calm 20) "SHIP-1" "GARBITER"

/-- With one approval of two the quorum is reported as missing, and it is. -/
theorem missing_quorum_reported :
    ∃ response next, exec (acceptRequest.respond openServices demoConfig noTimes noColumns 20)
        (approvedDb ["GBUYER"]) = (.ok response, next) ∧
      ∃ met, quorumMetOf response = some met ∧ ∀ env : Env, env.fails .quorumRead = false →
        (exec (hasQuorum env acceptRequest.shipmentId) next.db).1 = .ok met := by
  obtain ⟨response, next, h⟩ : ∃ response next,
      exec (acceptRequest.respond openServices demoConfig noTimes noColumns 20)
        (approvedDb ["GBUYER"]) = (.ok response, next) := ⟨_, _, rfl⟩
  refine ⟨response, next, h, (quorum_reported_iff (by decide) h).mpr fun _ shipment hfound => ?_⟩
  cases hfound
  decide

/-- With both approvals the gate is open, and the answer to the arbiter says that it is not. -/
theorem met_quorum_denied :
    ∃ response next, exec (acceptRequest.respond openServices demoConfig noTimes noColumns 20)
        (approvedDb ["GBUYER", "GARBITER"]) = (.ok response, next) ∧
      quorumMetOf response = some false ∧
      (exec (hasQuorum (.calm 20) "SHIP-1") next.db).1 = .ok true :=
  ⟨_, _, rfl, rfl, rfl⟩

end Agreement

end ChainSettle
