import ChainSettle.Dlq.NoLoss
import ChainSettle.Poller.Steps

/-!
Does the live poller lose events? There are four copies of the cursor: the
persisted row, the in-memory mirror of a process, the local one of a polling
loop and the value a callback is about to write. `Caught` says that every
event below any of them is accounted for: its handlers returned normally, or
the failed-events queue holds it.

Each copy moves past a whole ledger after one event of it. The invariant
therefore needs that no two events share a ledger; besides, the queue must
have taken the failed events, a restart must read the row, and a rewind must
not move the cursor forward.
-/

namespace ChainSettle

open Lib Lib.Eff

/-- The queue holds the event as `saveToDlq` writes it. -/
def Stored (db : Db) (event : RawEvent) : Prop :=
  ∃ row, db.failedEvents.find? event.dlqKey = some row ∧
    row.payload = payloadOrEmpty (extractPayload event)

/-- No other event occupies the event's key in the queue. -/
def KeyFree (db : Db) (event : RawEvent) : Prop :=
  ∀ row, db.failedEvents.find? event.dlqKey = some row →
    row.payload = payloadOrEmpty (extractPayload event)

section Queue

variable {db : Db} {event : RawEvent}

theorem stored_congr {db' : Db} (h : db'.failedEvents = db.failedEvents) :
    Stored db' event ↔ Stored db event := by
  unfold Stored
  rw [h]

theorem after_saveToDlq {env : Env} (error : Exn) (h : env.fails .failedEventUpsert = false) :
    after (saveToDlq env event error) db = db.recordFailure env.now event error := by
  simp [saveToDlq, h, after]

/-- A later failure does not displace a stored event. -/
theorem Stored.recordFailure {other : RawEvent} (h : Stored db other) (now : Nat)
    (error : Exn) : Stored (db.recordFailure now event error) other := by
  obtain ⟨old, hold, hpayload⟩ := h
  obtain ⟨row, hrow, hkept⟩ := (traced_recordFailure db now event error).kept _ old hold
  exact ⟨row, hrow, hkept.trans hpayload⟩

theorem stored_recordFailure (hfree : KeyFree db event) (now : Nat) (error : Exn) :
    Stored (db.recordFailure now event error) event := by
  have htrace := traced_recordFailure db now event error
  obtain ⟨row, hrow⟩ := htrace.stored event rfl
  refine ⟨row, hrow, ?_⟩
  rcases htrace.source _ row hrow with ⟨old, hold⟩ | ⟨_, rfl, _, hpayload⟩
  · obtain ⟨row', hrow', hkept⟩ := htrace.kept _ old hold
    have heq : row' = row := Option.some.inj (hrow'.symm.trans hrow)
    rw [← heq, hkept]
    exact hfree old hold
  · exact hpayload

end Queue

namespace Cluster

variable {ι : Type}

def Accounted (c : Cluster ι) (event : RawEvent) : Prop :=
  event ∈ c.handled ∨ Stored c.db event

/-- A restarted process resumes from the row, a rewind does not move the cursor
forward, and a failed event is stored. -/
def Careful (c : Cluster ι) : Action ι → Prop
  | .boot _ read => read = .resumed
  | .database id => ∀ r call, c.tasks id = some (r, .rewindWrite call false) →
      ∃ ledger, c.cursor = some ledger ∧ call.toLedger ≤ ledger
  | .stream sid (.saveDlq env) => env.fails .failedEventUpsert = false ∧
      ∀ s event rest, c.streams sid = some s → s.page = event :: rest → KeyFree c.db event
  | _ => True

variable (log : ContractLog) (start : Nat)

/-- Every event from the initial cursor up to a ledger is accounted for. -/
def Swept (c : Cluster ι) (ledger : Nat) : Prop :=
  ∀ event ∈ log.events, start ≤ event.ledger → event.ledger < ledger → c.Accounted event

/-- The state of a polling loop: what its page skips is accounted for. -/
structure Polled (c : Cluster ι) (s : Stream ι) : Prop where
  position : c.Swept log start s.currentLedger
  onChain : ∀ event ∈ s.page, event ∈ log.events
  ordered : Ordered RawEvent.ledger s.page
  page : ∀ event ∈ log.events, start ≤ event.ledger →
    (∃ later ∈ s.page, event.ledger < later.ledger) → c.Accounted event ∨ event ∈ s.page
  writing : ∀ ledger, s.callback = some (.writing ledger) → c.Swept log start ledger
  head : (∃ ledger, s.callback = some (.writing ledger)) ∨ s.callback = some .written →
    ∀ event rest, s.page = event :: rest → c.Accounted event

/-- Every copy of the cursor is behind what is accounted for. -/
structure Caught (c : Cluster ι) : Prop where
  persisted : ∀ ledger, c.cursor = some ledger → c.Swept log start ledger
  mirror : ∀ r, c.Swept log start (c.replicas r).lastProcessedLedger
  rewinding : ∀ id r call, c.tasks id = some (r, .rewindWrite call true) →
    c.Swept log start call.toLedger
  polling : ∀ sid s, c.streams sid = some s → c.Polled log start s

section Transport

variable {log start} {c c' : Cluster ι}

theorem Swept.mono {ledger : Nat} (h : c.Swept log start ledger)
    (hmono : ∀ event, c.Accounted event → c'.Accounted event) : c'.Swept log start ledger :=
  fun event hlog hstart hlt => hmono event (h event hlog hstart hlt)

theorem Swept.of_le {ledger ledger' : Nat} (h : c.Swept log start ledger)
    (hle : ledger' ≤ ledger) : c.Swept log start ledger' :=
  fun event hlog hstart hlt => h event hlog hstart (by omega)

theorem Swept.max {ledger ledger' : Nat} (h : c.Swept log start ledger)
    (h' : c.Swept log start ledger') : c.Swept log start (max ledger ledger') := by
  intro event hlog hstart hlt
  by_cases hbelow : event.ledger < ledger
  · exact h event hlog hstart hbelow
  · exact h' event hlog hstart (by omega)

theorem Polled.mono {s : Stream ι} (h : c.Polled log start s)
    (hmono : ∀ event, c.Accounted event → c'.Accounted event) : c'.Polled log start s where
  position := h.position.mono hmono
  onChain := h.onChain
  ordered := h.ordered
  page event hlog hstart hlater := (h.page event hlog hstart hlater).imp_left (hmono event)
  writing ledger hcallback := (h.writing ledger hcallback).mono hmono
  head hcallback event rest hpage := hmono event (h.head hcallback event rest hpage)

/-- What is accounted for stays so; only the copies that a step has moved are
left to check. -/
theorem Caught.mono (h : c.Caught log start)
    (hmono : ∀ event, c.Accounted event → c'.Accounted event)
    (hcursor : ∀ ledger, c'.cursor = some ledger →
      c.cursor = some ledger ∨ c'.Swept log start ledger)
    (hmirror : ∀ r, (c'.replicas r).lastProcessedLedger = (c.replicas r).lastProcessedLedger ∨
      c'.Swept log start (c'.replicas r).lastProcessedLedger)
    (hrewinding : ∀ id r call, c'.tasks id = some (r, .rewindWrite call true) →
      c.tasks id = some (r, .rewindWrite call true) ∨ c'.Swept log start call.toLedger)
    (hpolling : ∀ sid s, c'.streams sid = some s →
      c.streams sid = some s ∨ c'.Polled log start s) : c'.Caught log start where
  persisted ledger hledger := by
    rcases hcursor ledger hledger with hold | hswept
    · exact (h.persisted ledger hold).mono hmono
    · exact hswept
  mirror r := by
    rcases hmirror r with hold | hswept
    · rw [hold]
      exact (h.mirror r).mono hmono
    · exact hswept
  rewinding id r call htask := by
    rcases hrewinding id r call htask with hold | hswept
    · exact (h.rewinding id r call hold).mono hmono
    · exact hswept
  polling sid s hstream := by
    rcases hpolling sid s hstream with hold | hpolled
    · exact (h.polling sid s hold).mono hmono
    · exact hpolled

end Transport

/-- No two events at or after the initial cursor share a ledger. -/
def OnePerLedger : Prop :=
  ∀ first ∈ log.events, ∀ second ∈ log.events,
    start ≤ first.ledger → first.ledger = second.ledger → first = second

section Polling

variable {log start} {c c' : Cluster ι} {sid : Nat} {s : Stream ι} {event : RawEvent}
  {rest : List RawEvent}

/-- Once the head of the page is accounted for, so is its whole ledger. -/
theorem Polled.swept_head (h : c.Polled log start s) (hone : OnePerLedger log start)
    (hpage : s.page = event :: rest) (hmono : ∀ event, c.Accounted event → c'.Accounted event)
    (hhead : c'.Accounted event) : c'.Swept log start (event.ledger + 1) := by
  intro other hlog hstart hlt
  have hmem : event ∈ s.page := by
    rw [hpage]
    exact .head _
  by_cases hsame : other.ledger = event.ledger
  · rw [hone other hlog event (h.onChain event hmem) hstart hsame]
    exact hhead
  · have hbefore : other.ledger < event.ledger := by omega
    rcases h.page other hlog hstart ⟨event, hmem, hbefore⟩ with haccounted | hother
    · exact hmono other haccounted
    · -- nothing on the page lies before its head
      have hordered := h.ordered
      rw [hpage] at hordered hother
      rcases List.mem_cons.mp hother with rfl | hrest
      · omega
      · have hle := (List.pairwise_cons.mp hordered).1 other hrest
        omega

theorem Polled.fetched (h : c.Polled log start s) (hcallback : s.callback = none)
    (rpcOk : Bool) (tip : Nat) :
    c.Polled log start
      { s with page := if rpcOk then (log.upTo tip).getEvents s.currentLedger else [] } := by
  cases rpcOk with
  | false =>
      exact ⟨h.position, nofun, .nil, fun _ _ _ hlater => absurd hlater (by simp),
        by simp [hcallback], by simp [hcallback]⟩
  | true =>
      refine ⟨h.position, ?_, ?_, ?_, by simp [hcallback], by simp [hcallback]⟩
      · intro event hevent
        have hclosed := (mem_log_of_mem_page hevent).1
        exact (List.mem_filter.mp hclosed).1
      · exact ordered_page (log.upTo tip).ordered
      · rintro event hlog hstart ⟨later, hlater, hlt⟩
        by_cases hbehind : event.ledger < s.currentLedger
        · exact .inl (h.position event hlog hstart hbehind)
        · -- an event before one of the page is closed as well
          have hclosed := (List.mem_filter.mp (mem_log_of_mem_page hlater).1).2
          have hevent : event ∈ (log.upTo tip).events := by
            refine List.mem_filter.mpr ⟨hlog, ?_⟩
            simp only [decide_eq_true_eq] at hclosed ⊢
            omega
          exact .inr (mem_page_of_lt (log.upTo tip).ordered hlater hevent (by omega) hlt)

/-- The loop goes on to the next event of its page. -/
theorem Polled.finished (h : c.Polled log start s) (hone : OnePerLedger log start)
    (hpage : s.page = event :: rest)
    (hcallback : (∃ ledger, s.callback = some (.writing ledger)) ∨ s.callback = some .written) :
    c.Polled log start
      { s with
        currentLedger := max s.currentLedger (event.ledger + 1)
        page := rest
        callback := none } := by
  have hhead : c.Accounted event := h.head hcallback event rest hpage
  have hordered := h.ordered
  rw [hpage] at hordered
  refine ⟨h.position.max (h.swept_head hone hpage (fun _ hold => hold) hhead), ?_, ?_, ?_,
    nofun, by simp⟩
  · intro other hother
    exact h.onChain other (by rw [hpage]; exact .tail _ hother)
  · exact (List.pairwise_cons.mp hordered).2
  · rintro other hlog hstart ⟨later, hlater, hlt⟩
    rcases h.page other hlog hstart ⟨later, by rw [hpage]; exact .tail _ hlater, hlt⟩ with
      haccounted | hmem
    · exact .inl haccounted
    · rw [hpage] at hmem
      rcases List.mem_cons.mp hmem with rfl | hrest
      · exact .inl hhead
      · exact .inr hrest

/-- A callback moves to another await without touching the cursor. -/
theorem Polled.moved (h : c.Polled log start s) (callback : Callback)
    (hwriting : ∀ ledger, callback = .writing ledger → c.Swept log start ledger)
    (hhead : (∃ ledger, callback = .writing ledger) ∨ callback = .written →
      ∀ event rest, s.page = event :: rest → c.Accounted event) :
    c.Polled log start { s with callback := some callback } where
  position := h.position
  onChain := h.onChain
  ordered := h.ordered
  page := h.page
  writing ledger hcallback := hwriting ledger (Option.some.inj hcallback)
  head hcallback := hhead (by simpa using hcallback)

end Polling

section Steps

variable [DecidableEq ι] {log start} {c c' d : Cluster ι} {sid : Nat} {s : Stream ι}

omit [DecidableEq ι] in
/-- A step of a polling loop that leaves the processes alone. -/
theorem Caught.setStream (h : c.Caught log start)
    (hmono : ∀ event, c.Accounted event → d.Accounted event)
    (hcursor : ∀ ledger, d.cursor = some ledger →
      c.cursor = some ledger ∨ d.Swept log start ledger)
    (hreplicas : d.replicas = c.replicas) (htasks : d.tasks = c.tasks)
    (hstreams : d.streams = c.streams) (hpolled : d.Polled log start s) :
    (d.setStream sid s).Caught log start := by
  refine h.mono hmono hcursor ?_ ?_ ?_
  · intro r
    exact .inl (congrArg (fun replicas => (replicas r).lastProcessedLedger) hreplicas)
  · intro id r call htask
    exact .inl (by rwa [← htasks])
  · intro other s' hstream
    by_cases heq : other = sid
    · subst heq
      obtain rfl : s = s' := by simpa [Cluster.setStream] using hstream
      exact .inr (hpolled.mono fun _ hold => hold)
    · exact .inl (by simpa [Cluster.setStream, heq, hstreams] using hstream)

/-- The callback has dealt with its event and moves the mirror. -/
theorem Caught.advance (h : c.Caught log start) (hone : OnePerLedger log start)
    {event : RawEvent} {rest : List RawEvent} (hstream : c.streams sid = some s)
    (hpage : s.page = event :: rest) (hmono : ∀ event, c.Accounted event → d.Accounted event)
    (hhead : d.Accounted event) (hcursor : d.cursor = c.cursor)
    (hreplicas : d.replicas = c.replicas) (htasks : d.tasks = c.tasks)
    (hstreams : d.streams = c.streams) : (d.advance sid s event).Caught log start := by
  have hpolled := h.polling sid s hstream
  have hswept : d.Swept log start
      (max (d.replicas s.owner).lastProcessedLedger (event.ledger + 1)) := by
    rw [hreplicas]
    exact ((h.mirror s.owner).mono hmono).max (hpolled.swept_head hone hpage hmono hhead)
  have hmoved := (hpolled.mono hmono).moved
    (.writing (max (d.replicas s.owner).lastProcessedLedger (event.ledger + 1)))
    (by rintro ledger ⟨rfl⟩; exact hswept)
    (by
      intro _ other others hpage'
      rw [hpage] at hpage'
      cases hpage'
      exact hhead)
  refine h.mono hmono ?_ ?_ ?_ ?_
  · intro ledger hledger
    exact .inl (by rw [← hcursor]; exact hledger)
  · intro r
    by_cases hr : r = s.owner
    · subst hr
      have hmirror : ((d.advance sid s event).replicas s.owner).lastProcessedLedger =
          max (d.replicas s.owner).lastProcessedLedger (event.ledger + 1) := by
        simp [Cluster.advance, Cluster.setStream, setLast, setReplica]
      rw [hmirror]
      exact .inr (hswept.mono fun _ hold => hold)
    · refine .inl ?_
      simp [Cluster.advance, Cluster.setStream, setLast, setReplica, hr, hreplicas]
  · intro id r call htask
    exact .inl (by rw [← htasks]; exact htask)
  · intro other s' hother
    by_cases heq : other = sid
    · subst heq
      have hs' := hother
      simp only [Cluster.advance, Cluster.setStream, Function.update_self,
        Option.some.injEq] at hs'
      subst hs'
      exact .inr (hmoved.mono fun _ hold => hold)
    · exact .inl (by
        simpa [Cluster.advance, Cluster.setStream, setLast, setReplica, heq, hstreams] using hother)

theorem caught_streamed {input : StreamInput} (h : c.Caught log start)
    (hone : OnePerLedger log start) (hcareful : c.Careful (.stream sid input))
    (hstream : c.streams sid = some s) (hstreamed : Streamed log c sid s input c') :
    c'.Caught log start := by
  have hpolled := h.polling sid s hstream
  have hkeep : ∀ event, c.Accounted event → c.Accounted event := fun _ hold => hold
  cases hstreamed with
  | fetched rpcOk tip hcallback =>
      exact h.setStream hkeep (fun _ hledger => .inl hledger) rfl rfl rfl
        (hpolled.fetched hcallback rpcOk tip)
  | delivered =>
      exact h.setStream hkeep (fun _ hledger => .inl hledger) rfl rfl rfl
        (hpolled.moved _ nofun (by simp))
  | @handled env event rest db hcallback hpage hdb =>
      have hqueue : db.failedEvents = c.db.failedEvents := by
        rw [hdb]
        exact (sameQueue_processEvent env c.db event).1
      refine h.advance hone hstream hpage ?_ ?_ rfl rfl rfl rfl
      · rintro other (hhandled | hstored)
        · exact .inl (List.mem_append_left _ hhandled)
        · exact .inr ((stored_congr hqueue).mpr hstored)
      · exact .inl (List.mem_append_right _ (.head _))
  | @failed env event rest db error hcallback hpage hdb =>
      have hqueue : db.failedEvents = c.db.failedEvents := by
        rw [hdb]
        exact (sameQueue_processEvent env c.db event).1
      have hmono : ∀ other, c.Accounted other → ({ c with db := db } : Cluster ι).Accounted other :=
        fun other hother => hother.imp_right (stored_congr hqueue).mpr
      exact h.setStream hmono (fun _ hledger => .inl hledger) rfl rfl rfl
        ((hpolled.mono hmono).moved _ nofun (by simp))
  | @stored env event rest error hcallback hpage =>
      obtain ⟨hupsert, hfree⟩ := hcareful
      rw [after_saveToDlq error hupsert]
      refine h.advance hone hstream hpage ?_ ?_ rfl rfl rfl rfl
      · rintro other (hhandled | hstored)
        · exact .inl hhandled
        · exact .inr (hstored.recordFailure env.now error)
      · exact .inr (stored_recordFailure (hfree s event rest hstream hpage) env.now error)
  | @persisted ledger hcallback =>
      refine h.setStream (d := { c with cursor := some ledger }) hkeep ?_ rfl rfl rfl ?_
      · rintro _ ⟨rfl⟩
        exact .inr (hpolled.writing ledger hcallback)
      · have hhead := hpolled.head (.inl ⟨ledger, hcallback⟩)
        have hmoved := hpolled.moved .written nofun fun _ => hhead
        exact hmoved.mono fun _ hold => hold
  | finished hpage hcallback =>
      exact h.setStream hkeep (fun _ hledger => .inl hledger) rfl rfl rfl
        (hpolled.finished hone hpage hcallback)

omit [DecidableEq ι] in
/-- A new polling loop has nothing behind it but its starting point. -/
theorem polled_started {ledger : Nat} (h : c.Swept log start ledger) (r : ι) :
    c.Polled log start ⟨r, ledger, [], none⟩ :=
  ⟨h, nofun, .nil, fun _ _ _ hlater => absurd hlater (by simp), nofun, by simp⟩

omit [DecidableEq ι] in
/-- A step that leaves the events, the row and the loops alone, and a mirror
alone or on the row. -/
theorem Caught.called (h : c.Caught log start)
    (hmono : ∀ event, c.Accounted event → d.Accounted event) (hcursor : d.cursor = c.cursor)
    (hmirror : ∀ r, (d.replicas r).lastProcessedLedger = (c.replicas r).lastProcessedLedger ∨
      c.cursor = some (d.replicas r).lastProcessedLedger)
    (hrewinding : ∀ id r call, d.tasks id = some (r, .rewindWrite call true) →
      c.tasks id = some (r, .rewindWrite call true))
    (hstreams : d.streams = c.streams) : d.Caught log start := by
  refine h.mono hmono ?_ ?_ ?_ ?_
  · intro ledger hledger
    exact .inl (by rwa [← hcursor])
  · intro r
    rcases hmirror r with hold | hread
    · exact .inl hold
    · exact .inr ((h.persisted _ hread).mono hmono)
  · intro id r call htask
    exact .inl (hrewinding id r call htask)
  · intro sid s hstream
    exact .inl (by rwa [← hstreams])

theorem mirror_setReplica {r : ι} {f : Replica → Replica}
    (hf : (f (c.replicas r)).lastProcessedLedger = (c.replicas r).lastProcessedLedger) (q : ι) :
    ((c.setReplica r f).replicas q).lastProcessedLedger = (c.replicas q).lastProcessedLedger := by
  by_cases hq : q = r
  · subst hq
    simpa [setReplica] using hf
  · simp [setReplica, hq]

/-- A step that changes a process but not its mirror. -/
theorem Caught.setReplica (h : c.Caught log start) {r : ι} {f : Replica → Replica}
    (hf : (f (c.replicas r)).lastProcessedLedger = (c.replicas r).lastProcessedLedger) :
    (c.setReplica r f).Caught log start :=
  h.called (fun _ hold => hold) rfl (fun q => .inl (mirror_setReplica hf q))
    (fun _ _ _ htask => htask) rfl

/-- A loop is started at a mirror that is accounted for. -/
theorem Caught.startStreamSubscription (h : c.Caught log start) (r : ι) :
    (c.startStreamSubscription r).Caught log start := by
  have hhandle : (c.setReplica r fun replica =>
      { replica with subscription := some c.nextStream }).Caught log start :=
    h.setReplica rfl
  refine hhandle.mono (fun _ hold => hold) (fun _ hledger => .inl hledger) (fun _ => .inl rfl)
    (fun _ _ _ htask => .inl htask) ?_
  intro sid s hstream
  by_cases heq : sid = c.nextStream
  · subst heq
    simp only [Cluster.startStreamSubscription, Function.update_self,
      Option.some.injEq] at hstream
    subst hstream
    exact .inr ((polled_started (h.mirror r) r).mono fun _ hold => hold)
  · exact .inl (by simpa [Cluster.startStreamSubscription, Cluster.setReplica, heq] using hstream)

omit [DecidableEq ι] in
/-- The task table matters only in the executed writes of rewinds. -/
theorem Caught.updateTask (h : c.Caught log start) {id : Nat} {entry : Option (ι × Task)}
    (hdb : d.db = c.db) (hhandled : d.handled = c.handled) (hcursor : d.cursor = c.cursor)
    (hreplicas : d.replicas = c.replicas) (htasks : d.tasks = Function.update c.tasks id entry)
    (hstreams : d.streams = c.streams)
    (hentry : ∀ q call, entry ≠ some (q, .rewindWrite call true)) : d.Caught log start := by
  refine h.called ?_ hcursor (fun r => .inl (by rw [hreplicas])) ?_ hstreams
  · unfold Accounted
    rw [hdb, hhandled]
    exact fun _ hold => hold
  · intro other r call htask
    rw [htasks] at htask
    exact rewinding_of_update hentry htask

theorem caught_resumed {id : Nat} {r : ι} {task : Task} {ok : Bool} (h : c.Caught log start)
    (htask : c.tasks id = some (r, task)) (hresumed : Resumed c id r task ok c') :
    c'.Caught log start := by
  cases hresumed with
  | ended => exact h.updateTask rfl rfl rfl rfl rfl rfl nofun
  | steppedDown =>
      have hstopped : (c.stopStreamSubscription r).Caught log start := h.setReplica rfl
      have hresigned : ((c.stopStreamSubscription r).setLeader r false).Caught log start :=
        hstopped.setReplica rfl
      exact hresigned.updateTask rfl rfl rfl rfl rfl rfl nofun
  | elected =>
      have hleader : (c.setLeader r true).Caught log start := h.setReplica rfl
      exact (hleader.startStreamSubscription r).updateTask rfl rfl rfl rfl rfl rfl nofun
  | rewindElected call =>
      have hleader : (c.setLeader r true).Caught log start := h.setReplica rfl
      exact hleader.updateTask rfl rfl rfl rfl rfl rfl (by simp)
  | rewindPlanned call previousLedger => exact h.updateTask rfl rfl rfl rfl rfl rfl (by simp)
  | rewindRestarted call =>
      -- the restarted loop begins where the executed write put the row
      have hmoved : (c.setLast r call.toLedger).Caught log start := by
        refine h.mono (fun _ hold => hold) (fun _ hledger => .inl hledger) ?_
          (fun _ _ _ hold => .inl hold) fun _ _ hold => .inl hold
        intro q
        by_cases hq : q = r
        · subst hq
          have hmirror : ((c.setLast q call.toLedger).replicas q).lastProcessedLedger =
              call.toLedger := by
            simp [setLast, setReplica]
          rw [hmirror]
          exact .inr ((h.rewinding id q call htask).mono fun _ hold => hold)
        · exact .inl (by simp [setLast, setReplica, hq])
      exact (hmoved.startStreamSubscription r).updateTask rfl rfl rfl rfl rfl rfl (by simp)
  | @rewindFinished _ call _ succeeded hkind =>
      unfold finishRewind
      split
      · exact h.updateTask rfl rfl rfl rfl rfl rfl (by simp)
      · cases succeeded <;> exact h.updateTask rfl rfl rfl rfl rfl rfl nofun
  | rewindReleased call succeeded =>
      have hresigned : (c.setLeader r false).Caught log start := h.setReplica rfl
      cases succeeded <;> exact hresigned.updateTask rfl rfl rfl rfl rfl rfl nofun
  | releaseFailed => exact h.updateTask rfl rfl rfl rfl rfl rfl nofun
  | destroyReleased =>
      have hresigned : (c.setLeader r false).Caught log start := h.setReplica rfl
      exact hresigned.updateTask rfl rfl rfl rfl rfl rfl nofun

theorem caught_step {a : Action ι} (hone : OnePerLedger log start) (hcareful : c.Careful a)
    (hstep : c.step log a = some c') (h : c.Caught log start) : c'.Caught log start := by
  cases step_cases hstep with
  | @booted r read ledger cursor hnew hkept hread =>
      have hledger := hread hcareful
      refine h.called (fun _ hold => hold) (hkept (by simp [hledger])) ?_
        (fun _ _ _ hold => hold) rfl
      intro q
      by_cases hq : q = r
      · subst hq
        exact .inr (by simpa [setReplica] using hledger)
      · exact .inl (by simp [setReplica, hq])
  | crashed r =>
      have hstopped : (c.setReplica r fun replica =>
          { replica with crashed := true, isLeader := false, subscription := none }).Caught
            log start :=
        h.setReplica rfl
      refine hstopped.called (fun _ hold => hold) rfl (fun _ => .inl rfl) ?_ rfl
      intro id q call htask
      simp only [crash, Option.filter_eq_some_iff] at htask
      exact htask.1
  | expired =>
      exact h.called (fun _ hold => hold) rfl (fun _ => .inl rfl) (fun _ _ _ hold => hold) rfl
  | began halive hfresh =>
      exact h.updateTask rfl rfl rfl rfl rfl rfl (by cases hfresh <;> simp)
  | @destroyed r halive =>
      have hstopped : (c.setReplica r fun replica =>
          { replica with destroyed := true, subscription := none }).Caught log start :=
        h.setReplica rfl
      unfold destroy
      dsimp only
      split
      · exact hstopped.updateTask rfl rfl rfl rfl rfl rfl (by simp)
      · exact hstopped
  | answered hredis =>
      obtain ⟨r, old, new, lock, _, rfl, hnew⟩ := redis_frame hredis
      exact h.updateTask rfl rfl rfl rfl rfl rfl (by simp [hnew])
  | @upserted id r call htask =>
      obtain ⟨ledger, hledger, hle⟩ := hcareful r call htask
      have hswept := (h.persisted ledger hledger).of_le hle
      refine h.mono (fun _ hold => hold) ?_ (fun _ => .inl rfl) ?_ fun _ _ hold => .inl hold
      · rintro _ ⟨rfl⟩
        exact .inr (hswept.mono fun _ hold => hold)
      · intro other q call' hother
        by_cases heq : other = id
        · subst heq
          obtain ⟨_, rfl⟩ : r = q ∧ call = call' := by simpa [setTask] using hother
          exact .inr (hswept.mono fun _ hold => hold)
        · exact .inl (by simpa [setTask, heq] using hother)
  | resumed htask hresumed => exact caught_resumed h htask hresumed
  | streamed hstream hstreamed => exact caught_streamed h hone hcareful hstream hstreamed

omit [DecidableEq ι] in
theorem caught_initial (db : Db) : (initial db (some start) : Cluster ι).Caught log start := by
  refine ⟨?_, ?_, nofun, nofun⟩
  · rintro ledger ⟨rfl⟩ event _ hstart hlt
    omega
  · intro r event _ _ hlt
    have hnone : event.ledger < 0 := hlt
    omega

end Steps

end Cluster

section Result

variable {ι : Type} [DecidableEq ι]

/-- In a careful run on a log with at most one event per ledger, no event below
the persisted cursor is lost, whatever the RPC does and wherever a process
crashes. -/
theorem no_event_lost (log : ContractLog) (db : Db) (start : Nat) (c : Cluster ι)
    (hone : Cluster.OnePerLedger log start)
    (hrun : StepsAlong (Cluster.step log) Cluster.Careful (Cluster.initial db (some start)) c) :
    ∀ ledger, c.cursor = some ledger → ∀ event ∈ log.events,
      start ≤ event.ledger → event.ledger < ledger →
        event ∈ c.handled ∨ Stored c.db event := by
  have hpreserved : ∀ (t : Cluster ι) (a : Action ι) (u : Cluster ι),
      t.Careful a → t.step log a = some u → t.Caught log start → u.Caught log start :=
    fun _ _ _ hcareful hstep hcaught => Cluster.caught_step hone hcareful hstep hcaught
  exact (hrun.invariant hpreserved (Cluster.caught_initial db)).persisted

end Result

/-- The first replica is elected, polls one page and handles its first event. -/
def firstEventHandled : List (Action Nat) :=
  [.boot 0 .resumed, .tick 0, .redis 0, .resume 0 true, .stream 0 (.fetch true 20),
    .stream 0 .deliver, .stream 0 (.handle (.calm 1)), .stream 0 .cursorWrite]

def singleLog : ContractLog := ⟨[proofEvent], ordered_proofEvent⟩

/-- A single event is accounted for when the cursor has passed it. -/
theorem single_event_kept :
    ∃ c : Cluster Nat,
      StepsAlong (Cluster.step singleLog) Cluster.Careful
        (Cluster.initial (Db.demo .pending) (some 10)) c ∧
      c.cursor = some 11 ∧ (proofEvent ∈ c.handled ∨ Stored c.db proofEvent) := by
  obtain ⟨c, hc, hcursor⟩ : ∃ c : Cluster Nat,
      firstEventHandled.foldlM (Cluster.step singleLog)
        (Cluster.initial (Db.demo .pending) (some 10)) = some c ∧ c.cursor = some 11 :=
    ⟨_, rfl, rfl⟩
  have hrun : StepsAlong (Cluster.step singleLog) Cluster.Careful
      (Cluster.initial (Db.demo .pending) (some 10)) c :=
    .of_foldlM (by simp [firstEventHandled, Cluster.Careful]) hc
  have hone : Cluster.OnePerLedger singleLog 10 := by
    intro first hfirst second hsecond _ _
    rw [List.mem_singleton.mp hfirst, List.mem_singleton.mp hsecond]
  have hkept := no_event_lost singleLog _ 10 c hone hrun 11 hcursor proofEvent (.head _)
    (by decide) (by decide)
  exact ⟨c, hrun, hcursor, hkept⟩

/-- A second event in the ledger of `proofEvent`. -/
def siblingEvent : RawEvent :=
  ⟨"10-2", [some "proof_submitted"], .arr [.str "SHIP-1", .num 1], 10, some "tx-sibling"⟩

def siblingLog : ContractLog where
  events := [proofEvent, siblingEvent]
  ordered := by simp [Ordered, proofEvent, siblingEvent]

/-- Two events in one ledger: after the first of them the cursor is persisted
behind the ledger. A process that crashes here is restarted behind the second
event, which no handler has seen and the queue does not hold. -/
theorem sibling_event_lost :
    ∃ c : Cluster Nat,
      StepsAlong (Cluster.step siblingLog) Cluster.Careful
        (Cluster.initial (Db.demo .pending) (some 10)) c ∧
      c.cursor = some 11 ∧ (c.replicas 1).lastProcessedLedger = 11 ∧
      siblingEvent ∈ siblingLog.events ∧ siblingEvent.ledger = 10 ∧
      siblingEvent ∉ c.handled ∧ ¬ Stored c.db siblingEvent := by
  obtain ⟨c, hc, hcursor, hmirror, hhandled, hqueue⟩ : ∃ c : Cluster Nat,
      (firstEventHandled ++ [Action.crash 0, .boot 1 .resumed]).foldlM (Cluster.step siblingLog)
        (Cluster.initial (Db.demo .pending) (some 10)) = some c ∧
      c.cursor = some 11 ∧ (c.replicas 1).lastProcessedLedger = 11 ∧
      c.handled = [proofEvent] ∧ c.db.failedEvents.find? siblingEvent.dlqKey = none :=
    ⟨_, rfl, rfl, rfl, rfl, rfl⟩
  have hrun : StepsAlong (Cluster.step siblingLog) Cluster.Careful
      (Cluster.initial (Db.demo .pending) (some 10)) c :=
    .of_foldlM (by simp [firstEventHandled, Cluster.Careful]) hc
  refine ⟨c, hrun, hcursor, hmirror, .tail _ (.head _), rfl, ?_, ?_⟩
  · intro hmem
    rw [hhandled, List.mem_singleton] at hmem
    exact absurd (congrArg RawEvent.id hmem) (by decide)
  · rintro ⟨row, hrow, _⟩
    rw [hqueue] at hrow
    cases hrow

end ChainSettle
