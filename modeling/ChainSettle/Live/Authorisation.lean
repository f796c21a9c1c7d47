import ChainSettle.Lifecycle.Handlers
import ChainSettle.Semantics.Live

/-!
Who gets live updates. A delivery has a subscription, or a place in a room, behind it,
and that a check which its listener passed when it began. The check is not made again:
an arbiter who has been replaced goes on listening.
-/

namespace ChainSettle

open Lib

section Checks

/-- The step reads who the listener's user is. -/
def LiveCall.Identifies (w : LiveWorld) (listener : Listener) (user : Account) : LiveCall → Prop
  | .onConnect subject =>
      listener = .graphql w.connections.length ∧ user.deactivatedAt = none ∧
        ∃ userId ∈ subject, w.users.find? userId = some user
  | .joinShipmentRoom socket _ =>
      listener = .websocket socket ∧
        ∃ userId ∈ w.socketUser socket, w.users.find? userId = some user
  | _ => False

/-- The step finds that the user may listen to the shipment. -/
def LiveCall.Permits (w : LiveWorld) (listener : Listener) (shipmentId : String)
    (user : Account) : LiveCall → Prop
  | .subscribe connection _ id =>
      listener = .graphql connection ∧ id = shipmentId ∧ w.connections[connection]? = some user ∧
        ∃ shipment ∈ w.db.shipments.find? id, isParticipant shipment user
  | .checkRoom socket reader id =>
      listener = .websocket socket ∧ id = shipmentId ∧ reader = user ∧
        ∃ shipment ∈ w.db.shipments.find? id, w.mayJoin shipment user
  | _ => False

/-- The action takes a step of a call that meets `P`. -/
def Takes (P : LiveWorld → LiveCall → Prop) (s : LivePool) : LiveAction → Prop
  | .resume index _ => ∃ call, s.inflight[index]? = some call ∧ P s.shared call
  | _ => False

variable (text : CaseMapping) (start : LivePool)

/-- The listener's user has been read. -/
def Identified (actions : List LiveAction) (listener : Listener) (user : Account) : Prop :=
  Happened (live text).step (Takes fun w call => call.Identifies w listener user) start actions

/-- The listener has passed the check for the shipment, made with its user as read
before. -/
def Authorised (actions : List LiveAction) (listener : Listener) (shipmentId : String) : Prop :=
  ∃ user early a late, actions = early ++ a :: late ∧
    Identified text start early listener user ∧
    Takes (fun w call => call.Permits w listener shipmentId user) ((live text).run early start) a

variable {text start}

theorem Authorised.append {actions : List LiveAction} {listener : Listener} {shipmentId : String}
    (h : Authorised text start actions listener shipmentId) (more : List LiveAction) :
    Authorised text start (actions ++ more) listener shipmentId := by
  obtain ⟨user, early, a, late, rfl, hidentified, hpermits⟩ := h
  exact ⟨user, early, a, late ++ more, by simp, hidentified, hpermits⟩

end Checks

section Steps

variable {identified : Listener → Account → Prop} {authorised : Listener → String → Prop}

/-- What the calls in flight have been found to be. -/
def LiveCall.Checked (identified : Listener → Account → Prop)
    (authorised : Listener → String → Prop) : LiveCall → Prop
  | .checkRoom socket user _ => identified (.websocket socket) user
  | .listen connection _ shipmentId => authorised (.graphql connection) shipmentId
  | .join socket shipmentId => authorised (.websocket socket) shipmentId
  | _ => True

/-- All that listen, and all that has been delivered, is authorised. -/
structure LiveSound (identified : Listener → Account → Prop)
    (authorised : Listener → String → Prop) (w : LiveWorld) : Prop where
  connections : ∀ connection user, w.connections[connection]? = some user →
    identified (.graphql connection) user
  subscriptions : ∀ subscription ∈ w.subscriptions,
    authorised (.graphql subscription.connection) subscription.shipmentId
  rooms : ∀ room ∈ w.rooms, authorised (.websocket room.1) room.2
  deliveries : ∀ d ∈ w.deliveries, authorised d.listener d.shipmentId

theorem LiveCall.Checked.mono {identified' : Listener → Account → Prop}
    {authorised' : Listener → String → Prop} {call : LiveCall}
    (h : call.Checked identified authorised)
    (hidentified : ∀ listener user, identified listener user → identified' listener user)
    (hauthorised : ∀ listener id, authorised listener id → authorised' listener id) :
    call.Checked identified' authorised' := by
  cases call with
  | checkRoom socket user shipmentId => exact hidentified _ _ h
  | listen connection topic shipmentId => exact hauthorised _ _ h
  | join socket shipmentId => exact hauthorised _ _ h
  | _ => trivial

theorem LiveSound.mono {identified' : Listener → Account → Prop}
    {authorised' : Listener → String → Prop} {w : LiveWorld}
    (h : LiveSound identified authorised w)
    (hidentified : ∀ listener user, identified listener user → identified' listener user)
    (hauthorised : ∀ listener id, authorised listener id → authorised' listener id) :
    LiveSound identified' authorised' w where
  connections connection user huser := hidentified _ _ (h.connections connection user huser)
  subscriptions subscription hmem := hauthorised _ _ (h.subscriptions subscription hmem)
  rooms room hmem := hauthorised _ _ (h.rooms room hmem)
  deliveries d hmem := hauthorised _ _ (h.deliveries d hmem)

variable {w : LiveWorld}

theorem LiveSound.deliver (h : LiveSound identified authorised w) {deliveries : List LiveDelivery}
    (hnew : ∀ d ∈ deliveries, authorised d.listener d.shipmentId) :
    LiveSound identified authorised (w.deliver deliveries) :=
  ⟨h.connections, h.subscriptions, h.rooms, List.forall_mem_append.mpr ⟨hnew, h.deliveries⟩⟩

/-- A message goes to subscriptions of its own shipment. -/
theorem shipmentId_of_filter {payload : LivePayload} {subscription : LiveSubscription}
    {d : LiveDelivery} (h : payload.filter subscription = some d) :
    d.listener = .graphql subscription.connection ∧ d.shipmentId = subscription.shipmentId := by
  cases payload with
  | shipmentUpdated shipment =>
      simp only [LivePayload.filter] at h
      split at h
      · rename_i hmatch
        cases h
        exact ⟨rfl, hmatch.2⟩
      · cases h
  | milestoneUpdated milestone =>
      simp only [LivePayload.filter] at h
      split at h
      · rename_i hmatch
        cases h
        exact ⟨rfl, hmatch.2⟩
      · cases h
  | chainEvent eventName payload => cases h

/-- A step keeps this with the checks that it makes itself. -/
theorem liveSound_resume {identified' : Listener → Account → Prop}
    {authorised' : Listener → String → Prop} (text : CaseMapping) (env : Env)
    (hold : LiveSound identified authorised w) (h : LiveSound identified' authorised' w)
    {call : LiveCall} (hread : call.Checked identified authorised)
    (hcall : call.Checked identified' authorised')
    (hidentifies : ∀ listener user, call.Identifies w listener user → identified' listener user)
    (hpermits : ∀ listener id user, call.Permits w listener id user → identified listener user →
      authorised' listener id) :
    LiveSound identified' authorised' (call.resume text env w).1 ∧
      ∀ next ∈ (call.resume text env w).2, next.Checked identified' authorised' := by
  have hstop : LiveSound identified' authorised' w ∧
      ∀ next ∈ ([] : List LiveCall), next.Checked identified' authorised' :=
    ⟨h, List.forall_mem_nil _⟩
  have hrefuse (message : String) : LiveSound identified' authorised' (w.refuse message).1 ∧
      ∀ next ∈ (w.refuse message).2, next.Checked identified' authorised' :=
    ⟨⟨h.connections, h.subscriptions, h.rooms, h.deliveries⟩, List.forall_mem_nil _⟩
  cases call with
  | onConnect subject =>
      simp only [LiveCall.resume]
      split
      · exact hstop
      · rename_i user huser
        split
        · exact hstop
        · rename_i hactive
          obtain ⟨userId, hsubject, hfound⟩ := Option.bind_eq_some_iff.mp huser
          have hnew := hidentifies (.graphql w.connections.length) user
            ⟨rfl, by simpa using (not_or.mp hactive).1, userId, hsubject, hfound⟩
          refine ⟨⟨fun connection other hother => ?_, h.subscriptions, h.rooms, h.deliveries⟩,
            List.forall_mem_nil _⟩
          have hbound := (List.getElem?_eq_some_iff.mp hother).1
          rw [List.length_append, List.length_singleton] at hbound
          rcases Nat.lt_succ_iff_lt_or_eq.mp hbound with hlt | rfl
          · rw [List.getElem?_append_left hlt] at hother
            exact h.connections connection other hother
          · rw [List.getElem?_concat_length] at hother
            cases hother
            exact hnew
  | handleConnection subject =>
      simp only [LiveCall.resume]
      split
      · exact hrefuse _
      · exact ⟨⟨h.connections, h.subscriptions, h.rooms, h.deliveries⟩, List.forall_mem_nil _⟩
  | subscribe connection topic shipmentId =>
      simp only [LiveCall.resume]
      split
      · exact hrefuse _
      · rename_i user huser
        split
        · exact hrefuse _
        · split
          · exact hrefuse _
          · rename_i shipment hshipment
            split
            · rename_i hparticipant
              refine ⟨h, List.forall_mem_singleton.mpr ?_⟩
              exact hpermits (.graphql connection) shipmentId user
                ⟨rfl, rfl, huser, shipment, hshipment, hparticipant⟩
                (hold.connections connection user huser)
            · exact hrefuse _
  | listen connection topic shipmentId =>
      refine ⟨⟨h.connections, ?_, h.rooms, h.deliveries⟩, List.forall_mem_nil _⟩
      exact List.forall_mem_cons.mpr ⟨hcall, h.subscriptions⟩
  | joinShipmentRoom socket shipmentId =>
      simp only [LiveCall.resume]
      split
      · exact hrefuse _
      · rename_i userId huserId
        split
        · exact hrefuse _
        · split
          · exact hrefuse _
          · split
            · exact hrefuse _
            · rename_i user huser
              refine ⟨h, List.forall_mem_singleton.mpr ?_⟩
              exact hidentifies (.websocket socket) user ⟨rfl, userId, huserId, huser⟩
  | checkRoom socket user shipmentId =>
      simp only [LiveCall.resume]
      split
      · exact hrefuse _
      · split
        · exact hrefuse _
        · rename_i shipment hshipment
          split
          · rename_i hmay
            refine ⟨h, List.forall_mem_singleton.mpr ?_⟩
            exact hpermits (.websocket socket) shipmentId user
              ⟨rfl, rfl, rfl, shipment, hshipment, hmay⟩ hread
          · exact hrefuse _
  | join socket shipmentId =>
      simp only [LiveCall.resume]
      split
      · refine ⟨⟨h.connections, h.subscriptions, ?_, h.deliveries⟩, List.forall_mem_nil _⟩
        exact List.forall_mem_cons.mpr ⟨hcall, h.rooms⟩
      · exact hstop
  | leaveShipmentRoom socket shipmentId =>
      simp only [LiveCall.resume]
      split
      · exact hrefuse _
      · refine ⟨⟨h.connections, h.subscriptions, fun room hroom => ?_, h.deliveries⟩,
          List.forall_mem_nil _⟩
        exact h.rooms room (List.mem_of_mem_filter hroom)
  | replaceArbiter id buyerAddress arbiterAddress =>
      simp only [LiveCall.resume]
      split
      · exact hstop
      · exact ⟨h, List.forall_mem_singleton.mpr trivial⟩
  | replaceUpdate id arbiterAddress =>
      exact ⟨⟨h.connections, h.subscriptions, h.rooms, h.deliveries⟩, List.forall_mem_nil _⟩
  | publishShipment shipmentId milestoneIndex =>
      simp only [LiveCall.resume]
      split
      · exact hstop
      · split
        · exact hstop
        · exact ⟨h, List.forall_mem_singleton.mpr trivial⟩
  | publish payload milestone =>
      simp only [LiveCall.resume]
      split
      · exact hstop
      · refine ⟨h, List.forall_mem_cons.mpr ⟨trivial, fun next hnext => ?_⟩⟩
        obtain ⟨found, -, rfl⟩ := Option.map_eq_some_iff.mp (Option.mem_toList.mp hnext)
        trivial
  | fanOut payload =>
      refine ⟨h.deliver fun d hd => ?_, List.forall_mem_nil _⟩
      obtain ⟨subscription, hmem, hfilter⟩ := List.mem_filterMap.mp hd
      obtain ⟨hlistener, hid⟩ := shipmentId_of_filter hfilter
      rw [hlistener, hid]
      exact h.subscriptions subscription hmem
  | findMilestone shipmentId milestoneIndex =>
      simp only [LiveCall.resume]
      split
      · exact hstop
      · split
        · exact hstop
        · exact ⟨h, List.forall_mem_singleton.mpr trivial⟩
  | pushToShipmentRoom shipmentId eventName payload =>
      refine ⟨h.deliver fun d hd => ?_, List.forall_mem_nil _⟩
      obtain ⟨room, hmem, rfl⟩ := List.mem_map.mp hd
      obtain ⟨hroom, hid⟩ := List.mem_filter.mp hmem
      rw [← of_decide_eq_true hid]
      exact h.rooms room hroom

theorem liveSound_external (h : LiveSound identified authorised w) (event : LiveEvent) :
    LiveSound identified authorised (event.apply w) := by
  cases event with
  | complete subscription =>
      exact ⟨h.connections, fun other hmem => h.subscriptions other (List.mem_of_mem_filter hmem),
        h.rooms, h.deliveries⟩
  | closeConnection connection =>
      exact ⟨h.connections, fun other hmem => h.subscriptions other (List.mem_of_mem_filter hmem),
        h.rooms, h.deliveries⟩
  | handleDisconnect socket =>
      exact ⟨h.connections, h.subscriptions,
        fun room hmem => h.rooms room (List.mem_of_mem_filter hmem), h.deliveries⟩
  | edit db users watchers => exact ⟨h.connections, h.subscriptions, h.rooms, h.deliveries⟩

end Steps

section Runs

variable (text : CaseMapping)

/-- Nobody is connected yet. -/
def nobodyListens (db : Db) (users : Table Account.id) (watchers : List (String × String)) :
    LivePool where
  shared := ⟨db, users, watchers, [], [], [], [], [], []⟩
  inflight := []

variable {text} {start : LivePool}

structure LiveAuthorised (text : CaseMapping) (start : LivePool) (actions : List LiveAction)
    (s : LivePool) : Prop where
  sound : LiveSound (Identified text start actions) (Authorised text start actions) s.shared
  calls : ∀ call ∈ s.inflight,
    call.Checked (Identified text start actions) (Authorised text start actions)

theorem liveAuthorised_step (actions : List LiveAction) (a : LiveAction)
    (h : LiveAuthorised text start actions ((live text).run actions start)) :
    LiveAuthorised text start (actions ++ [a])
      ((live text).step ((live text).run actions start) a) := by
  have hidentified (listener : Listener) (user : Account)
      (hold : Identified text start actions listener user) :
      Identified text start (actions ++ [a]) listener user := hold.append [a]
  have hauthorised (listener : Listener) (id : String)
      (hold : Authorised text start actions listener id) :
      Authorised text start (actions ++ [a]) listener id := hold.append [a]
  have hcalls (call : LiveCall) (hmem : call ∈ ((live text).run actions start).inflight) :
      call.Checked (Identified text start (actions ++ [a]))
        (Authorised text start (actions ++ [a])) :=
    (h.calls call hmem).mono hidentified hauthorised
  have hsound := h.sound.mono hidentified hauthorised
  have hkeeps := (live text).keeps_step
    (Q := LiveSound (Identified text start (actions ++ [a]))
      (Authorised text start (actions ++ [a])))
    (P := fun _ call => call.Checked (Identified text start (actions ++ [a]))
      (Authorised text start (actions ++ [a]))) a hsound hcalls
    (fun call _ hstart => by cases call <;> trivial)
    (fun index env call haction hcall => by
      have hmem := List.mem_of_getElem? hcall
      subst haction
      have hstep := liveSound_resume text env h.sound hsound (h.calls call hmem) (hcalls call hmem)
        (fun listener user hidentifies => happened_last ⟨call, hcall, hidentifies⟩)
        (fun listener id user hpermits huser =>
          ⟨user, actions, _, [], rfl, huser, call, hcall, hpermits⟩)
      exact ⟨hstep.1, hstep.2, fun other hmem => hcalls other (List.mem_of_mem_eraseIdx hmem)⟩)
    (fun event => ⟨liveSound_external hsound event, hcalls⟩)
  exact ⟨hkeeps.1, hkeeps.2⟩

/-- In every run, what is delivered goes to listeners that have passed the check for the
shipment when they began to listen: their user, as he was read then or when the
connection was made, was a participant of it or an administrator, or watched it. -/
theorem live_updates_authorised (text : CaseMapping) (db : Db) (users : Table Account.id)
    (watchers : List (String × String)) (actions : List LiveAction) :
    ∀ d ∈ ((live text).run actions (nobodyListens db users watchers)).shared.deliveries,
      Authorised text (nobodyListens db users watchers) actions d.listener d.shipmentId := by
  have hsilent : LiveAuthorised text (nobodyListens db users watchers) []
      (nobodyListens db users watchers) :=
    ⟨⟨fun _ _ hfound => absurd (List.getElem?_nil.symm.trans hfound) (Option.some_ne_none _).symm,
        List.forall_mem_nil _, List.forall_mem_nil _, List.forall_mem_nil _⟩,
      List.forall_mem_nil _⟩
  exact (history_invariant hsilent liveAuthorised_step actions).sound.deliveries

/-- The listener's user may listen to the shipment by what is stored now. -/
def LiveWorld.Entitled (w : LiveWorld) (shipmentId : String) : Listener → Bool
  | .graphql connection =>
      (w.db.shipments.find? shipmentId).any fun shipment =>
        (w.connections[connection]?.bind fun user => w.users.find? user.id).any
          (isParticipant shipment)
  | .websocket socket =>
      (w.db.shipments.find? shipmentId).any fun shipment =>
        ((w.socketUser socket).bind w.users.find?).any (w.mayJoin shipment)

def arbiterAccount : Account := newAccount "user-arbiter" "GARBITER"

def oneShipment : LivePool :=
  nobodyListens { Db.demo .pending with users := demoUsers }
    (Table.empty.insert arbiterAccount) []

/-- The arbiter subscribes and joins the room, and is replaced. -/
def arbiterReplaced : List LiveAction :=
  let next (index : Nat) : LiveAction := .resume index (.calm 20)
  [.begin (.onConnect (some "user-arbiter")), next 0,
    .begin (.subscribe 0 .shipmentUpdated "SHIP-1"), next 0, next 0,
    .begin (.handleConnection (some "user-arbiter")), next 0,
    .begin (.joinShipmentRoom 0 "SHIP-1"), next 0, next 0, next 0,
    .begin (.replaceArbiter "SHIP-1" "GBUYER" "GOTHER"), next 0, next 0]

/-- A chain event is published afterwards. -/
def eventPublished : List LiveAction :=
  let next (index : Nat) : LiveAction := .resume index (.calm 30)
  [.begin (.publishShipment "SHIP-1" none), next 0, next 0, next 0,
    .begin (.pushToShipmentRoom "SHIP-1" "milestone_confirmed" .null), next 0]

theorem replaced_arbiter_was_authorised :
    Authorised .ascii oneShipment (arbiterReplaced ++ eventPublished) (.websocket 0) "SHIP-1" := by
  have hdelivered : ∃ payload, ⟨.websocket 0, "SHIP-1", payload⟩ ∈
      ((live .ascii).run (arbiterReplaced ++ eventPublished) oneShipment).shared.deliveries :=
    ⟨_, List.Mem.head _⟩
  obtain ⟨payload, hmem⟩ := hdelivered
  exact live_updates_authorised .ascii { Db.demo .pending with users := demoUsers }
    (Table.empty.insert arbiterAccount) [] (arbiterReplaced ++ eventPublished) _ hmem

theorem replaced_arbiter_listens :
    (((live .ascii).run arbiterReplaced oneShipment).shared.deliveries.length = 0 ∧
      ∀ listener ∈ [Listener.graphql 0, .websocket 0],
        ((live .ascii).run arbiterReplaced oneShipment).shared.Entitled "SHIP-1" listener = false) ∧
      ((live .ascii).run (arbiterReplaced ++ eventPublished) oneShipment).shared.deliveries.map
        (fun d => (d.listener, d.shipmentId)) =
          [(.websocket 0, "SHIP-1"), (.graphql 0, "SHIP-1")] := by
  decide

end Runs

end ChainSettle
