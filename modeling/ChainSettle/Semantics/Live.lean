import ChainSettle.Semantics.Accounts
import ChainSettle.Semantics.Arbiters

/-!
Live updates of shipments. GraphQL subscribers of `shipmentUpdated` and
`milestoneUpdated` get what `ShipmentEventsPublisher` publishes of a processed chain
event, WebSocket clients in a shipment's room what `pushToShipmentRoom` emits. Who may
listen is read when a subscription or a join begins; a published message reaches those
who listen when it arrives.

Connections and sockets are numbered in the order in which they are opened.
-/

namespace ChainSettle

open Lib Lib.Eff

section Messages

inductive LiveTopic where
  | shipmentUpdated | milestoneUpdated
deriving DecidableEq

inductive Listener where
  | graphql (connection : Nat)
  | websocket (socket : Nat)
deriving DecidableEq

/-- What `publishShipment` sends of a shipment. -/
structure ShipmentGql where
  id : String
  buyerAddress : String
  supplierAddress : String
  logisticsAddress : String
  arbiterAddress : String
  status : ShipmentStatus
  totalAmount : String
  releasedAmount : String
  referenceNumber : Option String
deriving DecidableEq

def toShipmentGql (s : Shipment) : ShipmentGql where
  id := s.id
  buyerAddress := s.buyerAddress
  supplierAddress := s.supplierAddress
  logisticsAddress := s.logisticsAddress
  arbiterAddress := s.arbiterAddress
  status := s.status
  totalAmount := toString s.totalAmount
  releasedAmount := toString s.releasedAmount
  referenceNumber := s.referenceNumber

structure MilestoneGql where
  id : String
  shipmentId : String
  milestoneIndex : Int
  name : String
  paymentPercent : Int
  status : MilestoneStatus
  proofHash : Option String
  confirmedAt : Option Nat
  dueAt : Option Int
  paymentReleased : Option String
deriving DecidableEq

def toMilestoneGql (m : Milestone) : MilestoneGql where
  id := m.id
  shipmentId := m.shipmentId
  milestoneIndex := m.milestoneIndex
  name := m.name
  paymentPercent := m.paymentPercent
  status := m.status
  proofHash := m.proofHash
  confirmedAt := m.confirmedAt
  dueAt := m.dueAt
  paymentReleased := m.paymentReleased.map toString

inductive LivePayload where
  | shipmentUpdated (shipment : ShipmentGql)
  | milestoneUpdated (milestone : MilestoneGql)
  | chainEvent (eventName : String) (payload : Json)

structure LiveDelivery where
  listener : Listener
  shipmentId : String
  payload : LivePayload

structure LiveSubscription where
  connection : Nat
  topic : LiveTopic
  shipmentId : String
deriving DecidableEq

/-- The rule of `graphql.access`. -/
def isParticipant (shipment : Shipment) (user : Account) : Bool :=
  user.role = .admin ∨ user.stellarAddress ∈ shipment.participants

/-- The `filter` of the subscriptions: a message is delivered by its topic and the id of
the shipment. -/
def LivePayload.filter (payload : LivePayload) (subscription : LiveSubscription) :
    Option LiveDelivery :=
  match payload with
  | .shipmentUpdated shipment =>
      if subscription.topic = .shipmentUpdated ∧ shipment.id = subscription.shipmentId then
        some ⟨.graphql subscription.connection, shipment.id, payload⟩
      else none
  | .milestoneUpdated milestone =>
      if subscription.topic = .milestoneUpdated ∧ milestone.shipmentId = subscription.shipmentId then
        some ⟨.graphql subscription.connection, milestone.shipmentId, payload⟩
      else none
  | .chainEvent .. => none

end Messages

section Calls

/-- The subject of a token, `none` where it is missing or not valid, stands for the
token. -/
inductive LiveCall where
  | onConnect (subject : Option String)
  | handleConnection (subject : Option String)
  | subscribe (connection : Nat) (topic : LiveTopic) (shipmentId : String)
  | listen (connection : Nat) (topic : LiveTopic) (shipmentId : String)
  | joinShipmentRoom (socket : Nat) (shipmentId : String)
  | checkRoom (socket : Nat) (user : Account) (shipmentId : String)
  | join (socket : Nat) (shipmentId : String)
  | leaveShipmentRoom (socket : Nat) (shipmentId : String)
  | replaceArbiter (id buyerAddress arbiterAddress : String)
  | replaceUpdate (id arbiterAddress : String)
  | publishShipment (shipmentId : String) (milestoneIndex : Option Int)
  | publish (payload : LivePayload) (milestone : Option (String × Int))
  | fanOut (payload : LivePayload)
  | findMilestone (shipmentId : String) (milestoneIndex : Int)
  | pushToShipmentRoom (shipmentId eventName : String) (payload : Json)

structure LiveWorld where
  db : Db
  users : Table Account.id
  /-- the watched shipments, with the ids of the users -/
  watchers : List (String × String)
  /-- the users of the GraphQL connections, as `onConnect` has read them -/
  connections : List Account
  subscriptions : List LiveSubscription
  /-- `socketUserMap`, where `none` are the sockets that have been closed -/
  sockets : List (Option String)
  rooms : List (Nat × String)
  deliveries : List LiveDelivery
  refusals : List String

inductive LiveEvent where
  | complete (subscription : LiveSubscription)
  | closeConnection (connection : Nat)
  | handleDisconnect (socket : Nat)
  /-- what other requests write -/
  | edit (db : Db) (users : Table Account.id) (watchers : List (String × String))

namespace LiveWorld

variable (w : LiveWorld)

def refuse (message : String) : LiveWorld × List LiveCall :=
  ({ w with refusals := message :: w.refusals }, [])

def deliver (deliveries : List LiveDelivery) : LiveWorld :=
  { w with deliveries := deliveries ++ w.deliveries }

def socketUser (socket : Nat) : Option String := w.sockets[socket]?.join

/-- The condition under which `handleJoinShipmentRoom` lets a user in. -/
def mayJoin (shipment : Shipment) (user : Account) : Bool :=
  user.stellarAddress ∈ shipment.participants ∨ (shipment.id, user.id) ∈ w.watchers ∨
    user.role = .admin

end LiveWorld

/-- A statement that throws ends its call. -/
def LiveCall.resume (text : CaseMapping) (env : Env) (w : LiveWorld) :
    LiveCall → LiveWorld × List LiveCall
  | .onConnect subject =>
      match subject.bind w.users.find? with
      | none => (w, [])
      | some user =>
          if user.deactivatedAt.isSome ∨ env.fails .userRead then (w, [])
          else ({ w with connections := w.connections ++ [user] }, [])
  | .handleConnection subject =>
      match subject with
      | none => w.refuse "Invalid or expired token"
      | some userId => ({ w with sockets := w.sockets ++ [some userId] }, [])
  | .subscribe connection topic shipmentId =>
      match w.connections[connection]? with
      | none => w.refuse "Authentication required"
      | some user =>
          if env.fails .shipmentRead then w.refuse "Internal server error"
          else
            match w.db.shipments.find? shipmentId with
            | none => w.refuse s!"Shipment {shipmentId} not found"
            | some shipment =>
                if isParticipant shipment user then (w, [.listen connection topic shipmentId])
                else w.refuse "Not a participant on this shipment"
  | .listen connection topic shipmentId =>
      ({ w with subscriptions := ⟨connection, topic, shipmentId⟩ :: w.subscriptions }, [])
  | .joinShipmentRoom socket shipmentId =>
      match w.socketUser socket with
      | none => w.refuse "Unauthenticated"
      | some userId =>
          if shipmentId = "" then w.refuse "Missing shipmentId"
          else if env.fails .userRead then w.refuse "Internal server error"
          else
            match w.users.find? userId with
            | none => w.refuse "User not found"
            | some user => (w, [.checkRoom socket user shipmentId])
  | .checkRoom socket user shipmentId =>
      if env.fails .shipmentRead then w.refuse "Internal server error"
      else
        match w.db.shipments.find? shipmentId with
        | none => w.refuse "Shipment not found"
        | some shipment =>
            if w.mayJoin shipment user then (w, [.join socket shipmentId])
            else w.refuse "Unauthorized to join this shipment room"
  | .join socket shipmentId =>
      if (w.socketUser socket).isSome then
        ({ w with rooms := (socket, shipmentId) :: w.rooms }, [])
      else (w, [])
  | .leaveShipmentRoom socket shipmentId =>
      if (w.socketUser socket).isNone then w.refuse "Unauthenticated"
      else ({ w with rooms := w.rooms.filter fun room => room ≠ (socket, shipmentId) }, [])
  | .replaceArbiter id buyerAddress arbiterAddress =>
      match exec (replaceChecks text env id buyerAddress arbiterAddress) w.db with
      | (.error _, _) => (w, [])
      | (.ok _, _) => (w, [.replaceUpdate id arbiterAddress])
  | .replaceUpdate id arbiterAddress =>
      ({ w with db := after (ChainSettle.replaceUpdate env id arbiterAddress) w.db }, [])
  | .publishShipment shipmentId milestoneIndex =>
      if env.fails .shipmentRead then (w, [])
      else
        match w.db.shipments.find? shipmentId with
        | none => (w, [])
        | some shipment =>
            (w, [.publish (.shipmentUpdated (toShipmentGql shipment))
              (milestoneIndex.map fun index => (shipmentId, index))])
  | .publish payload milestone =>
      if env.fails .graphqlPublish then (w, [])
      else
        (w, .fanOut payload :: (milestone.map fun (shipmentId, index) =>
          LiveCall.findMilestone shipmentId index).toList)
  | .fanOut payload => (w.deliver (w.subscriptions.filterMap payload.filter), [])
  | .findMilestone shipmentId milestoneIndex =>
      if env.fails .milestoneRead then (w, [])
      else
        match w.db.milestones.find? (shipmentId, milestoneIndex) with
        | none => (w, [])
        | some milestone => (w, [.publish (.milestoneUpdated (toMilestoneGql milestone)) none])
  | .pushToShipmentRoom shipmentId eventName payload =>
      let members := w.rooms.filter fun room => room.2 = shipmentId
      (w.deliver (members.map fun room =>
        ⟨.websocket room.1, shipmentId, .chainEvent eventName payload⟩), [])

def LiveCall.starts : LiveCall → Bool
  | .onConnect _ | .handleConnection _ | .subscribe .. | .joinShipmentRoom ..
  | .leaveShipmentRoom .. | .replaceArbiter .. | .publishShipment .. | .pushToShipmentRoom .. =>
      true
  | _ => false

def LiveEvent.apply (w : LiveWorld) : LiveEvent → LiveWorld
  | .complete subscription =>
      { w with subscriptions := w.subscriptions.filter fun other => other ≠ subscription }
  | .closeConnection connection =>
      { w with subscriptions := w.subscriptions.filter fun other => other.connection ≠ connection }
  | .handleDisconnect socket =>
      { w with
        sockets := w.sockets.set socket none
        rooms := w.rooms.filter fun room => room.1 ≠ socket }
  | .edit db users watchers => { w with db := db, users := users, watchers := watchers }

def live (text : CaseMapping) : PoolSystem LiveWorld LiveCall Env LiveEvent where
  starts := LiveCall.starts
  resume env w call := call.resume text env w
  external event w := event.apply w

abbrev LivePool := Pool LiveWorld LiveCall

abbrev LiveAction := PoolAction LiveCall Env LiveEvent

end Calls

end ChainSettle
