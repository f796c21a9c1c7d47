import ChainSettle.Concurrency.Steps
import ChainSettle.Semantics.Arbiters

/-!
What each statement of the three operations on an arbiter does, and what the
operations do when nothing comes between their statements.
-/

namespace ChainSettle

open Lib Lib.Eff

section Replacement

/-- What `replaceArbiter` has checked when it comes to the update. -/
structure Replaceable (text : CaseMapping) (buyerAddress arbiterAddress : String)
    (shipment : Shipment) : Prop where
  buyer : shipment.buyerAddress = buyerAddress
  open_ : shipment.arbiterStatus ≠ .accepted
  neutral : arbiterConflict text arbiterAddress
    [shipment.buyerAddress, shipment.supplierAddress, shipment.logisticsAddress] = false

theorem readOnly_replaceChecks (text : CaseMapping) (env : Env) (db : Db)
    (id buyerAddress arbiterAddress : String) :
    ReadOnly (replaceChecks text env id buyerAddress arbiterAddress) db fun _ =>
      env.fails .shipmentRead = false ∧ ∃ shipment, db.shipments.find? id = some shipment ∧
        Replaceable text buyerAddress arbiterAddress shipment := by
  have hread : ReadOnly (shipmentFindUnique env .shipmentRead id) db fun found =>
      env.fails .shipmentRead = false ∧ found = db.shipments.find? id := by
    unfold shipmentFindUnique
    exact readOnly_read env db .shipmentRead fun hcall => readOnly_pure ⟨hcall, rfl⟩
  unfold replaceChecks
  refine readOnly_bind hread fun found hfound => ?_
  cases found with
  | none => exact readOnly_throw _ _ _
  | some shipment =>
      refine readOnly_guard fun hbuyer => readOnly_guard fun hopen => readOnly_guard fun hparty => ?_
      exact readOnly_pure ⟨hfound.1, shipment, hfound.2.symm, not_not.mp hbuyer, hopen,
        Bool.eq_false_iff.mpr hparty⟩

/-- The update that replaces the arbiter goes through. -/
def Reassigns (env : Env) (db : Db) (id arbiterAddress : String) : Prop :=
  env.fails .arbiterWrite = false ∧ (db.shipments.find? id).isSome ∧
    (db.users.find? arbiterAddress).isSome

theorem exec_replaceUpdate_cases (env : Env) (db : Db) (id arbiterAddress : String) :
    (∃ err, exec (replaceUpdate env id arbiterAddress) db = (.error err, db)) ∨
    Reassigns env db id arbiterAddress ∧
      exec (replaceUpdate env id arbiterAddress) db =
        (.ok (), db.assignArbiter id arbiterAddress) := by
  unfold replaceUpdate
  rw [exec_bind, exec_prismaCall]
  cases hcall : env.fails .arbiterWrite with
  | true => exact .inl ⟨_, rfl⟩
  | false =>
      simp only [Bool.false_eq_true, if_false, exec_bind, exec_get, Option.isNone_iff_eq_none]
      split
      · exact .inl ⟨_, rfl⟩
      · rename_i hfound
        simp only [exec_bind, exec_get]
        split
        · exact .inl ⟨_, rfl⟩
        · rename_i huser
          exact .inr ⟨⟨hcall, Option.isSome_iff_ne_none.mpr hfound,
            Option.isSome_iff_ne_none.mpr huser⟩, rfl⟩

/-- A replacement of the shipment's arbiter that goes through, with nothing between
its statements. -/
structure Replaces (text : CaseMapping) (env : Env) (db : Db)
    (id buyerAddress arbiterAddress : String) (shipment : Shipment) : Prop where
  reads : env.fails .shipmentRead = false
  found : db.shipments.find? id = some shipment
  allowed : Replaceable text buyerAddress arbiterAddress shipment
  reassigns : Reassigns env db id arbiterAddress

theorem after_replaceArbiter_cases (text : CaseMapping) (env : Env) (db : Db)
    (id buyerAddress arbiterAddress : String) :
    after (replaceArbiter text env id buyerAddress arbiterAddress) db = db ∨
    ∃ shipment, Replaces text env db id buyerAddress arbiterAddress shipment ∧
      after (replaceArbiter text env id buyerAddress arbiterAddress) db =
        db.assignArbiter id arbiterAddress := by
  unfold replaceArbiter after
  rw [exec_bind]
  obtain ⟨err, herr⟩ | ⟨_, hok, hreads, shipment, hfound, hallowed⟩ :=
    readOnly_replaceChecks text env db id buyerAddress arbiterAddress
  · rw [herr]
    exact .inl rfl
  · rw [hok]
    obtain ⟨err, herr⟩ | ⟨hreassigns, hupdate⟩ :=
      exec_replaceUpdate_cases env db id arbiterAddress
    · exact .inl (congrArg Prod.snd herr)
    · exact .inr ⟨shipment, ⟨hreads, hfound, hallowed, hreassigns⟩, congrArg Prod.snd hupdate⟩

end Replacement

section Answers

theorem readOnly_answerChecks (env : Env) (db : Db) (answer : ArbiterAnswer)
    (id callerAddress : String) :
    ReadOnly (answerChecks env answer id callerAddress) db fun _ =>
      ∃ shipment, db.shipments.find? id = some shipment ∧
        shipment.arbiterAddress = callerAddress ∧
        shipment.arbiterStatus = .pendingAcceptance := by
  unfold answerChecks
  refine readOnly_found env db id fun shipment hfound => ?_
  refine readOnly_guard fun hcaller => readOnly_guard fun hpending => ?_
  exact readOnly_pure ⟨shipment, hfound, not_not.mp hcaller, not_not.mp hpending⟩

theorem exec_answerUpdate_cases (env : Env) (db : Db) (answer : ArbiterAnswer) (id : String) :
    (∃ err, exec (answerUpdate env answer id) db = (.error err, db)) ∨
    env.fails .arbiterWrite = false ∧
      exec (answerUpdate env answer id) db = (.ok (), db.setArbiterStatus id answer.status) := by
  unfold answerUpdate
  rw [exec_bind, exec_prismaCall]
  cases env.fails .arbiterWrite with
  | true => exact .inl ⟨_, rfl⟩
  | false =>
      simp only [Bool.false_eq_true, if_false, exec_bind, exec_get, Option.isNone_iff_eq_none]
      split
      · exact .inl ⟨_, rfl⟩
      · exact .inr ⟨trivial, rfl⟩

end Answers

section Rows

theorem find?_assignArbiter (db : Db) (id arbiterAddress other : String) :
    (db.assignArbiter id arbiterAddress).shipments.find? other =
      if other = id then (db.shipments.find? id).map (Shipment.assignArbiter arbiterAddress)
      else db.shipments.find? other :=
  Table.find?_modify db.shipments id (Shipment.assignArbiter arbiterAddress) (fun _ => rfl) other

theorem find?_setArbiterStatus (db : Db) (id : String) (arbiterStatus : ArbiterStatus)
    (other : String) :
    (db.setArbiterStatus id arbiterStatus).shipments.find? other =
      if other = id then (db.shipments.find? id).map (Shipment.setArbiterStatus arbiterStatus)
      else db.shipments.find? other :=
  Table.find?_modify db.shipments id (Shipment.setArbiterStatus arbiterStatus) (fun _ => rfl) other

end Rows

section Alone

/-! With nothing in between, a call does what the operation does in one piece. -/

variable (text : CaseMapping) (env : Env) (db : Db)

theorem replaceArbiter_alone (id buyerAddress arbiterAddress : String) :
    complete (ArbiterCall.statement text env) 2 (.replaceRead id buyerAddress arbiterAddress) db =
      after (replaceArbiter text env id buyerAddress arbiterAddress) db :=
  complete_two rfl rfl db

theorem arbiterAccept_alone (id callerAddress : String) :
    complete (ArbiterCall.statement text env) 2 (.answerRead .accept id callerAddress) db =
      after (arbiterAccept env id callerAddress) db :=
  complete_two rfl rfl db

theorem arbiterDecline_alone (id callerAddress : String) :
    complete (ArbiterCall.statement text env) 2 (.answerRead .decline id callerAddress) db =
      after (arbiterDecline env id callerAddress) db :=
  complete_two rfl rfl db

end Alone

end ChainSettle
