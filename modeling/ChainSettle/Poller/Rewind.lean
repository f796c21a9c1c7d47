import ChainSettle.Lifecycle.Handlers
import ChainSettle.Poller.Steps

/-!
Does a rewind stay? `rewindCursor` stops the old polling loop by clearing a
flag, so a callback that is already running goes on: it may still have its
handler, its failed-event write or its cursor write in front of it. What it
persists is the larger of the shared mirror and its own event's ledger.

The window of a rewind begins when the stream is restarted and ends when the
new subscription has processed an event. The theorem says in which states the
restart may happen for the cursor to stay at or below `toLedger` during the
window, and that in every other state a stale callback can overrun it.
-/

namespace ChainSettle

open Lib Lib.Eff

/-- The callback in progress, if there is one, will not persist a ledger
beyond `toLedger`. -/
def Stream.Harmless {ι : Type} (s : Stream ι) (toLedger : Nat) : Prop :=
  match s.callback, s.page with
  | some .handling, event :: _ => event.ledger < toLedger
  | some (.savingDlq _), event :: _ => event.ledger < toLedger
  | some (.writing ledger), _ => ledger ≤ toLedger
  | _, _ => True

namespace Cluster

variable {ι : Type}

/-- No subscription from `first` on has processed an event. -/
def Unprocessed (c : Cluster ι) (first : Nat) : Prop :=
  ∀ sid s, first ≤ sid → c.streams sid = some s →
    (∀ ledger, s.callback ≠ some (.writing ledger)) ∧ s.callback ≠ some .written

/-- A step in the window of a rewind of `r`: the new subscription has processed
nothing, no other replica polls, and no other rewind goes beyond `toLedger`. -/
def Window (r : ι) (first toLedger : Nat) (c : Cluster ι) (a : Action ι) : Prop :=
  c.Unprocessed first ∧
    match a with
    | .stream sid _ => ∀ s, c.streams sid = some s → s.owner = r
    | .database id => ∀ q call, c.tasks id = some (q, .rewindWrite call false) →
        call.toLedger ≤ toLedger
    | .resume id _ => ∀ q call, c.tasks id = some (q, .rewindWrite call true) →
        call.toLedger ≤ toLedger
    | _ => True

/-- In the window, once the call has returned normally, the persisted cursor is
at most `toLedger`. -/
def RewindKept [DecidableEq ι] (log : ContractLog) (r : ι) (first : Nat) (call : RewindCall)
    (restarted : Cluster ι) : Prop :=
  ∀ c, StepsAlong (step log) (Window r first call.toLedger) restarted c → call ∈ c.rewound →
    ∀ ledger, c.cursor = some ledger → ledger ≤ call.toLedger

/-- The processes in the window: whatever the rewound replica can still persist
is at most `toLedger`. -/
structure Rewound (r : ι) (first toLedger : Nat) (c : Cluster ι) : Prop where
  mirror : (c.replicas r).lastProcessedLedger ≤ toLedger
  stale : ∀ sid s, sid < first → c.streams sid = some s → s.owner = r → s.Harmless toLedger
  current : ∀ sid, (c.replicas r).subscription = some sid → first ≤ sid
  next : first ≤ c.nextStream
  booted : (c.replicas r).booted = true

/-- The persisted cursor exists and is at most `toLedger`. -/
def CursorWithin (toLedger : Nat) (c : Cluster ι) : Prop :=
  ∃ ledger, c.cursor = some ledger ∧ ledger ≤ toLedger

section Transport

variable {r : ι} {first toLedger : Nat} {c c' : Cluster ι}

theorem Rewound.of_processes (h : c.Rewound r first toLedger)
    (hreplicas : c'.replicas = c.replicas) (hstreams : c'.streams = c.streams)
    (hnext : c'.nextStream = c.nextStream) : c'.Rewound r first toLedger where
  mirror := by rw [hreplicas]; exact h.mirror
  stale := by rw [hstreams]; exact h.stale
  current := by rw [hreplicas]; exact h.current
  next := by rw [hnext]; exact h.next
  booted := by rw [hreplicas]; exact h.booted

theorem Rewound.setStream (h : c.Rewound r first toLedger) {sid : Nat} {s : Stream ι}
    (hs : sid < first → s.owner = r → s.Harmless toLedger) :
    (c.setStream sid s).Rewound r first toLedger where
  mirror := h.mirror
  stale other s' hlt hstream howner := by
    by_cases heq : other = sid
    · subst heq
      obtain rfl : s = s' := by simpa [Cluster.setStream] using hstream
      exact hs hlt howner
    · exact h.stale other s' hlt (by simpa [Cluster.setStream, heq] using hstream) howner
  current := h.current
  next := h.next
  booted := h.booted

variable [DecidableEq ι]

theorem Rewound.setReplica (h : c.Rewound r first toLedger) (q : ι) {f : Replica → Replica}
    (hmirror : q = r → (f (c.replicas q)).lastProcessedLedger ≤ toLedger)
    (hcurrent : ∀ sid, (f (c.replicas q)).subscription = some sid →
      (c.replicas q).subscription = some sid ∨ first ≤ sid)
    (hbooted : (c.replicas q).booted = true → (f (c.replicas q)).booted = true) :
    (c.setReplica q f).Rewound r first toLedger := by
  by_cases hq : q = r
  · subst hq
    refine ⟨?_, h.stale, ?_, h.next, ?_⟩
    · simpa [Cluster.setReplica] using hmirror rfl
    · intro sid hsid
      rcases hcurrent sid (by simpa [Cluster.setReplica] using hsid) with hold | hnew
      · exact h.current sid hold
      · exact hnew
    · simpa [Cluster.setReplica] using hbooted h.booted
  · have hsame : (c.setReplica q f).replicas r = c.replicas r := by
      simp [Cluster.setReplica, Ne.symm hq]
    refine ⟨?_, h.stale, ?_, h.next, ?_⟩
    · rw [hsame]
      exact h.mirror
    · rw [hsame]
      exact h.current
    · rw [hsame]
      exact h.booted

theorem Rewound.setLeader (h : c.Rewound r first toLedger) (q : ι) (isLeader : Bool) :
    (c.setLeader q isLeader).Rewound r first toLedger := by
  refine h.setReplica q ?_ (fun _ hold => .inl hold) fun hold => hold
  rintro rfl
  exact h.mirror

/-- A new subscription is not a stale one. -/
theorem Rewound.startStreamSubscription (h : c.Rewound r first toLedger) (q : ι) :
    (c.startStreamSubscription q).Rewound r first toLedger := by
  have hset : (c.setReplica q fun replica =>
      { replica with subscription := some c.nextStream }).Rewound r first toLedger := by
    refine h.setReplica q ?_ ?_ fun hold => hold
    · rintro rfl
      exact h.mirror
    · rintro sid ⟨rfl⟩
      exact .inr h.next
  refine ⟨hset.mirror, ?_, hset.current, ?_, hset.booted⟩
  · intro sid s hlt hstream
    have hnext := h.next
    have hne : sid ≠ c.nextStream := by omega
    exact h.stale sid s hlt (by simpa [Cluster.startStreamSubscription, hne] using hstream)
  · have hnext := h.next
    change first ≤ c.nextStream + 1
    omega

/-- A stale callback has dealt with its event. -/
theorem Rewound.advance (h : c.Rewound r first toLedger) {sid : Nat} {s : Stream ι}
    {event : RawEvent} (howner : s.owner = r) (hevent : event.ledger < toLedger) :
    (c.advance sid s event).Rewound r first toLedger := by
  have hmirror := h.mirror
  subst howner
  have hmax : max (c.replicas s.owner).lastProcessedLedger (event.ledger + 1) ≤ toLedger := by
    omega
  have hset : (c.setLast s.owner _).Rewound s.owner first toLedger :=
    h.setReplica s.owner (fun _ => hmax) (fun _ hold => .inl hold) fun hold => hold
  exact hset.setStream fun _ _ => hmax

end Transport

section Steps

variable [DecidableEq ι] {r : ι} {first toLedger : Nat} {c c' : Cluster ι}

theorem rewound_resumed {id : Nat} {q : ι} {task : Task} {ok : Bool}
    (h : c.Rewound r first toLedger)
    (hwithin : ∀ call, task = .rewindWrite call true → call.toLedger ≤ toLedger)
    (hresumed : Resumed c id q task ok c') :
    c'.Rewound r first toLedger ∧ c'.cursor = c.cursor := by
  cases hresumed with
  | ended => exact ⟨h.of_processes rfl rfl rfl, rfl⟩
  | steppedDown =>
      have hstopped : (c.stopStreamSubscription q).Rewound r first toLedger :=
        h.setReplica q (by rintro rfl; exact h.mirror) nofun fun hold => hold
      exact ⟨(hstopped.setLeader q false).of_processes rfl rfl rfl, rfl⟩
  | elected =>
      have hstarted := (h.setLeader q true).startStreamSubscription q
      exact ⟨hstarted.of_processes rfl rfl rfl, rfl⟩
  | rewindElected call => exact ⟨(h.setLeader q true).of_processes rfl rfl rfl, rfl⟩
  | rewindPlanned => exact ⟨h.of_processes rfl rfl rfl, rfl⟩
  | rewindRestarted call =>
      have hmoved : (c.setLast q call.toLedger).Rewound r first toLedger :=
        h.setReplica q (fun _ => hwithin call rfl) (fun _ hold => .inl hold) fun hold => hold
      exact ⟨(hmoved.startStreamSubscription q).of_processes rfl rfl rfl, rfl⟩
  | @rewindFinished _ call _ succeeded hkind =>
      unfold finishRewind
      split
      · exact ⟨h.of_processes rfl rfl rfl, rfl⟩
      · cases succeeded <;> exact ⟨h.of_processes rfl rfl rfl, rfl⟩
  | rewindReleased call succeeded =>
      cases succeeded <;> exact ⟨(h.setLeader q false).of_processes rfl rfl rfl, rfl⟩
  | releaseFailed => exact ⟨h.of_processes rfl rfl rfl, rfl⟩
  | destroyReleased => exact ⟨(h.setLeader q false).of_processes rfl rfl rfl, rfl⟩

/-- A step of a polling loop of the rewound replica. A stale loop has no new
events delivered; a new one ends the window when it has processed an event. -/
theorem rewound_streamed {log : ContractLog} {sid : Nat} {s : Stream ι} {input : StreamInput}
    (h : c.Rewound r first toLedger) (hcursor : c.CursorWithin toLedger)
    (hunprocessed : c.Unprocessed first) (hstream : c.streams sid = some s) (howner : s.owner = r)
    (hstreamed : Streamed log c sid s input c') :
    c'.CursorWithin toLedger ∧ (c'.Unprocessed first → c'.Rewound r first toLedger) := by
  have hstale : sid < first → s.Harmless toLedger := fun hlt => h.stale sid s hlt hstream howner
  have hadvance : ∀ (d : Cluster ι) (event : RawEvent), d.replicas = c.replicas →
      d.streams = c.streams → d.nextStream = c.nextStream →
      (sid < first → event.ledger < toLedger) →
      (d.advance sid s event).Unprocessed first →
      (d.advance sid s event).Rewound r first toLedger := by
    intro d event hreplicas hstreams hnext hevent hprocessed
    by_cases hlt : sid < first
    · exact (h.of_processes hreplicas hstreams hnext).advance howner (hevent hlt)
    · have hwriting := (hprocessed sid _ (by omega)
        (by simp [Cluster.advance, Cluster.setStream]; rfl)).1
      exact absurd rfl (hwriting _)
  cases hstreamed with
  | fetched rpcOk tip hcallback =>
      refine ⟨hcursor, fun _ => h.setStream fun _ _ => ?_⟩
      simp [Stream.Harmless, hcallback]
  | delivered hcallback hactive =>
      have hnew : first ≤ sid := h.current sid (by rw [← howner]; exact hactive)
      exact ⟨hcursor, fun _ => h.setStream fun hlt _ => by omega⟩
  | @handled env event rest db hcallback hpage hdb =>
      refine ⟨hcursor, hadvance _ event rfl rfl rfl ?_⟩
      intro hlt
      simpa [Stream.Harmless, hcallback, hpage] using hstale hlt
  | @failed env event rest db error hcallback hpage hdb =>
      have hset : (c.setStream sid { s with callback := some (.savingDlq error) }).Rewound
          r first toLedger := by
        refine h.setStream fun hlt _ => ?_
        simpa [Stream.Harmless, hcallback, hpage] using hstale hlt
      exact ⟨hcursor, fun _ => hset.of_processes rfl rfl rfl⟩
  | @stored env event rest error hcallback hpage =>
      refine ⟨hcursor, hadvance _ event rfl rfl rfl ?_⟩
      intro hlt
      simpa [Stream.Harmless, hcallback, hpage] using hstale hlt
  | @persisted ledger hcallback =>
      have hlt : sid < first := by
        by_contra hnew
        exact (hunprocessed sid s (by omega) hstream).1 ledger hcallback
      have hle : ledger ≤ toLedger := by
        simpa [Stream.Harmless, hcallback] using hstale hlt
      have hset : (c.setStream sid { s with callback := some .written }).Rewound
          r first toLedger :=
        h.setStream fun _ _ => trivial
      exact ⟨⟨ledger, rfl, hle⟩, fun _ => hset.of_processes rfl rfl rfl⟩
  | finished hpage hcallback =>
      refine ⟨hcursor, fun _ => h.setStream fun _ _ => ?_⟩
      simp [Stream.Harmless]

/-- One step in the window. -/
theorem window_step {log : ContractLog} {a : Action ι} (hwindow : c.Window r first toLedger a)
    (hstep : c.step log a = some c') (hcursor : c.CursorWithin toLedger)
    (h : c.Rewound r first toLedger) :
    c'.CursorWithin toLedger ∧ (c'.Unprocessed first → c'.Rewound r first toLedger) := by
  obtain ⟨hunprocessed, hallowed⟩ := hwindow
  cases step_cases hstep with
  | @booted q read ledger cursor hnew hkept =>
      obtain ⟨old, hold, hle⟩ := hcursor
      have hne : q ≠ r := by
        rintro rfl
        rw [h.booted] at hnew
        cases hnew
      have hset : (c.setReplica q fun _ =>
          { Replica.fresh with booted := true, lastProcessedLedger := ledger }).Rewound
            r first toLedger :=
        h.setReplica q (fun heq => absurd heq hne) nofun fun _ => rfl
      refine ⟨⟨old, ?_, hle⟩, fun _ => hset.of_processes rfl rfl rfl⟩
      exact (hkept (by simp [hold])).trans hold
  | crashed q =>
      have hset : (c.setReplica q fun replica =>
          { replica with crashed := true, isLeader := false, subscription := none }).Rewound
            r first toLedger :=
        h.setReplica q (by rintro rfl; exact h.mirror) nofun fun hold => hold
      exact ⟨hcursor, fun _ => hset.of_processes rfl rfl rfl⟩
  | expired => exact ⟨hcursor, fun _ => h.of_processes rfl rfl rfl⟩
  | began => exact ⟨hcursor, fun _ => h.of_processes rfl rfl rfl⟩
  | @destroyed q =>
      have hset : (c.setReplica q fun replica =>
          { replica with destroyed := true, subscription := none }).Rewound r first toLedger :=
        h.setReplica q (by rintro rfl; exact h.mirror) nofun fun hold => hold
      unfold destroy
      dsimp only
      split
      · exact ⟨hcursor, fun _ => hset.of_processes rfl rfl rfl⟩
      · exact ⟨hcursor, fun _ => hset⟩
  | answered hredis =>
      obtain ⟨_, _, _, _, _, rfl, _⟩ := redis_frame hredis
      exact ⟨hcursor, fun _ => h.of_processes rfl rfl rfl⟩
  | @upserted id q call htask =>
      exact ⟨⟨call.toLedger, rfl, hallowed q call htask⟩, fun _ => h.of_processes rfl rfl rfl⟩
  | @resumed id ok q task _ htask hresumed =>
      obtain ⟨hrewound, hsame⟩ := rewound_resumed h
        (fun call heq => hallowed q call (by rw [htask, heq])) hresumed
      refine ⟨?_, fun _ => hrewound⟩
      unfold CursorWithin
      rw [hsame]
      exact hcursor
  | @streamed sid input s _ hstream hstreamed =>
      exact rewound_streamed h hcursor hunprocessed hstream (hallowed s hstream) hstreamed

/-- The whole window. -/
theorem window_run {log : ContractLog}
    (hrun : StepsAlong (step log) (Window r first toLedger) c c')
    (hcursor : c.CursorWithin toLedger) (h : c.Rewound r first toLedger) :
    c'.CursorWithin toLedger := by
  have hpreserved : ∀ (t : Cluster ι) (a : Action ι) (u : Cluster ι),
      t.Window r first toLedger a → t.step log a = some u →
      t.CursorWithin toLedger ∧ (t.Unprocessed first → t.Rewound r first toLedger) →
      u.CursorWithin toLedger ∧ (u.Unprocessed first → u.Rewound r first toLedger) := by
    rintro t a u hwindow hstep ⟨hwithin, hrewound⟩
    exact window_step hwindow hstep hwithin (hrewound hwindow.1)
  exact (hrun.invariant hpreserved ⟨hcursor, fun _ => h⟩).1

end Steps

section Overrun

variable [DecidableEq ι] {r : ι} {first toLedger : Nat} {c : Cluster ι}

/-- The rewound process runs, the cursor row exists and the window is open. -/
structure WindowOpen (r : ι) (first : Nat) (c : Cluster ι) : Prop where
  unprocessed : c.Unprocessed first
  alive : c.alive r = true
  row : c.cursor ≠ none

/-- A run in the window that leaves the cursor beyond `toLedger`. -/
def Overruns (log : ContractLog) (r : ι) (first toLedger : Nat) (c : Cluster ι) : Prop :=
  ∃ c', StepsAlong (step log) (Window r first toLedger) c c' ∧ c'.rewound = c.rewound ∧
    ∃ ledger, c'.cursor = some ledger ∧ toLedger < ledger

omit [DecidableEq ι] in
theorem Unprocessed.setStream (h : c.Unprocessed first) {sid : Nat} (hsid : sid < first)
    (s : Stream ι) : (c.setStream sid s).Unprocessed first := by
  intro other s' hother hstream
  have hne : other ≠ sid := by omega
  exact h other s' hother (by simpa [Cluster.setStream, hne] using hstream)

theorem WindowOpen.advance (h : c.WindowOpen r first) {sid : Nat} (hsid : sid < first)
    (s : Stream ι) (event : RawEvent) : (c.advance sid s event).WindowOpen r first where
  unprocessed := Unprocessed.setStream (c := c.setLast s.owner _) h.unprocessed hsid _
  alive := by
    have hsame : (c.setLast s.owner
        (max (c.replicas s.owner).lastProcessedLedger (event.ledger + 1))).alive r = c.alive r :=
      alive_setReplica rfl rfl r
    exact hsame.trans h.alive
  row := h.row

variable {log : ContractLog} {sid : Nat} {s : Stream ι} {event : RawEvent}
  {rest : List RawEvent}

omit [DecidableEq ι] in
/-- A loop of the rewound replica takes a step in the window. -/
theorem window_stream {input : StreamInput} (hunprocessed : c.Unprocessed first)
    (hstream : c.streams sid = some s) (howner : s.owner = r) :
    c.Window r first toLedger (.stream sid input) := by
  refine ⟨hunprocessed, ?_⟩
  intro s' hstream'
  rw [hstream] at hstream'
  cases hstream'
  exact howner

/-- One step of a stale loop, and what follows it. -/
theorem overruns_of_step {input : StreamInput} {c' : Cluster ι} (h : c.WindowOpen r first)
    (hstream : c.streams sid = some s) (howner : s.owner = r)
    (hstep : c.step log (.stream sid input) = some c') (hrewound : c'.rewound = c.rewound)
    (hnext : c'.Overruns log r first toLedger) : c.Overruns log r first toLedger := by
  obtain ⟨d, hrun, hsame, hbeyond⟩ := hnext
  have hwindow : c.Window r first toLedger (.stream sid input) :=
    window_stream h.unprocessed hstream howner
  exact ⟨d, (StepsAlong.tail (.refl c) hwindow hstep).trans hrun, hsame.trans hrewound, hbeyond⟩

theorem overruns_writing (h : c.WindowOpen r first) {ledger : Nat}
    (hstream : c.streams sid = some s) (howner : s.owner = r)
    (hcallback : s.callback = some (.writing ledger)) (hbeyond : toLedger < ledger) :
    c.Overruns log r first toLedger := by
  have hstep : c.step log (.stream sid .cursorWrite) =
      some ({ c with cursor := some ledger }.setStream sid
        { s with callback := some .written }) := by
    simp [step, stream, hstream, howner, h.alive, hcallback, h.row]
  exact overruns_of_step h hstream howner hstep rfl
    ⟨_, .refl _, rfl, ledger, rfl, hbeyond⟩

/-- The mirror that a callback computes is beyond its event's ledger. -/
theorem overruns_advance (h : c.WindowOpen r first) (hsid : sid < first) (howner : s.owner = r)
    (hevent : toLedger ≤ event.ledger) : (c.advance sid s event).Overruns log r first toLedger := by
  have hstream : (c.advance sid s event).streams sid = some { s with callback := some (.writing
      (max (c.replicas s.owner).lastProcessedLedger (event.ledger + 1))) } := by
    simp [advance, setStream]
  exact overruns_writing (h.advance hsid s event) hstream howner rfl (by omega)

theorem overruns_savingDlq (h : c.WindowOpen r first) (hsid : sid < first) {error : Exn}
    (hstream : c.streams sid = some s) (howner : s.owner = r)
    (hcallback : s.callback = some (.savingDlq error)) (hpage : s.page = event :: rest)
    (hevent : toLedger ≤ event.ledger) : c.Overruns log r first toLedger := by
  have hstep : c.step log (.stream sid (.saveDlq (.calm 0))) =
      some ({ c with db := after (saveToDlq (.calm 0) event error) c.db }.advance sid s event) := by
    simp [step, stream, hstream, howner, h.alive, hcallback, hpage]
  refine overruns_of_step h hstream howner hstep rfl ?_
  exact overruns_advance ⟨h.unprocessed, h.alive, h.row⟩ hsid howner hevent

theorem overruns_handling (h : c.WindowOpen r first) (hsid : sid < first)
    (hstream : c.streams sid = some s) (howner : s.owner = r)
    (hcallback : s.callback = some .handling) (hpage : s.page = event :: rest)
    (hevent : toLedger ≤ event.ledger) : c.Overruns log r first toLedger := by
  cases hrun : exec (processEvent (.calm 0) event) c.db with
  | mk outcome db =>
      cases outcome with
      | ok value =>
          have hstep : c.step log (.stream sid (.handle (.calm 0))) =
              some ({ c with db := db, handled := c.handled ++ [event] }.advance sid s event) := by
            simp [step, stream, hstream, howner, h.alive, hcallback, hpage, hrun]
          refine overruns_of_step h hstream howner hstep rfl ?_
          exact overruns_advance ⟨h.unprocessed, h.alive, h.row⟩ hsid howner hevent
      | error error =>
          have hstep : c.step log (.stream sid (.handle (.calm 0))) =
              some ({ c with db := db }.setStream sid
                { s with callback := some (.savingDlq error) }) := by
            simp [step, stream, hstream, howner, h.alive, hcallback, hpage, hrun]
          refine overruns_of_step h hstream howner hstep rfl ?_
          have hopen : ({ c with db := db }.setStream sid
              { s with callback := some (.savingDlq error) }).WindowOpen r first :=
            ⟨h.unprocessed.setStream hsid _, h.alive, h.row⟩
          have hstream' : ({ c with db := db }.setStream sid
              { s with callback := some (.savingDlq error) }).streams sid =
              some { s with callback := some (.savingDlq error) } := by
            simp [setStream]
          exact overruns_savingDlq hopen hsid hstream' howner rfl hpage hevent

/-- A callback that is not harmless can overrun the rewind from any of its
awaits. -/
theorem overruns_of_not_harmless (h : c.WindowOpen r first) (hsid : sid < first)
    (hstream : c.streams sid = some s) (howner : s.owner = r) (hs : ¬ s.Harmless toLedger) :
    c.Overruns log r first toLedger := by
  unfold Stream.Harmless at hs
  split at hs
  · rename_i hcallback hpage
    exact overruns_handling h hsid hstream howner hcallback hpage (by omega)
  · rename_i hcallback hpage
    exact overruns_savingDlq h hsid hstream howner hcallback hpage (by omega)
  · rename_i hcallback
    exact overruns_writing h hstream howner hcallback (by omega)
  · exact absurd trivial hs

end Overrun

section Return

variable [DecidableEq ι] {r : ι} {first toLedger : Nat} {c : Cluster ι} {log : ContractLog}
  {id : Nat} {call : RewindCall}

omit [DecidableEq ι] in
/-- A task that does not write the cursor goes on in the window. -/
theorem window_resume {task : Task} (htask : c.tasks id = some (r, task))
    (h : c.Unprocessed first) (hkind : ∀ call, task ≠ .rewindWrite call true) (ok : Bool) :
    c.Window r first toLedger (.resume id ok) := by
  refine ⟨h, ?_⟩
  intro q call hwrite
  rw [htask] at hwrite
  cases hwrite
  exact absurd rfl (hkind call)

omit [DecidableEq ι] in
theorem WindowOpen.congr {d : Cluster ι} (h : c.WindowOpen r first)
    (hstreams : d.streams = c.streams) (hcursor : d.cursor = c.cursor)
    (halive : d.alive r = c.alive r) : d.WindowOpen r first where
  unprocessed := by
    unfold Unprocessed
    rw [hstreams]
    exact h.unprocessed
  alive := halive.trans h.alive
  row := by
    rw [hcursor]
    exact h.row

/-- The borrowed lock is given back and the call returns. -/
theorem release_returns (h : c.WindowOpen r first)
    (htask : c.tasks id = some (r, .rewindRelease call true false)) :
    ∃ d, StepsAlong (step log) (Window r first toLedger) c d ∧ call ∈ d.rewound ∧
      d.streams = c.streams ∧ d.cursor = c.cursor ∧ d.alive r = c.alive r := by
  have hredis : c.step log (.redis id) =
      some ((c.releaseLock r).setTask id r (.rewindRelease call true true)) := by
    simp [step, redis, htask]
  rw [releaseLock_eq] at hredis
  have hreleased : ({ c with lock := if c.lock = some r then none else c.lock }.setTask id r
      (.rewindRelease call true true)).tasks id = some (r, .rewindRelease call true true) := by
    simp [setTask]
  have hresume : ({ c with lock := if c.lock = some r then none else c.lock }.setTask id r
      (.rewindRelease call true true)).step log (.resume id true) =
        some ((({ c with lock := if c.lock = some r then none else c.lock }.setTask id r
          (.rewindRelease call true true)).setLeader r false).endRewind id call true) := by
    simp [step, resume, hreleased]
  have hrun : StepsAlong (step log) (Window r first toLedger) c _ :=
    .tail (.refl c) ⟨h.unprocessed, trivial⟩ hredis
  refine ⟨_, hrun.tail (window_resume hreleased h.unprocessed (by rintro _ ⟨⟩) true) hresume,
    List.mem_append_right _ (.head _), rfl, rfl, ?_⟩
  simp [alive, endRewind, endTask, setLeader, setReplica, setTask]

/-- After the restart the call can return normally at once. -/
theorem rewind_returns (h : c.WindowOpen r first)
    (htask : c.tasks id = some (r, .rewindAudit call)) :
    ∃ d, StepsAlong (step log) (Window r first toLedger) c d ∧ call ∈ d.rewound ∧
      d.streams = c.streams ∧ d.cursor = c.cursor ∧ d.alive r = c.alive r := by
  have haudit : c.step log (.resume id true) = some (c.finishRewind id r call true) := by
    simp [step, resume, htask]
  have hrun : StepsAlong (step log) (Window r first toLedger) c (c.finishRewind id r call true) :=
    .tail (.refl c) (window_resume htask h.unprocessed (by rintro _ ⟨⟩) true) haudit
  cases hborrowed : call.acquiredHere with
  | false =>
      refine ⟨_, hrun, ?_⟩
      simp only [finishRewind, hborrowed, endRewind, Bool.false_eq_true, ↓reduceIte]
      exact ⟨List.mem_append_right _ (.head _), rfl, rfl, rfl⟩
  | true =>
      have hfinish : c.finishRewind id r call true =
          c.setTask id r (.rewindRelease call true false) := by
        simp [finishRewind, hborrowed]
      rw [hfinish] at hrun
      have hopen : (c.setTask id r (.rewindRelease call true false)).WindowOpen r first :=
        h.congr rfl rfl rfl
      have hreleasing : (c.setTask id r (.rewindRelease call true false)).tasks id =
          some (r, .rewindRelease call true false) := by
        simp [setTask]
      obtain ⟨d, hrest, hreturned, hsame⟩ := release_returns hopen hreleasing
      exact ⟨d, hrun.trans hrest, hreturned, hsame⟩

end Return

section Restart

variable [DecidableEq ι] {r : ι} {c : Cluster ι} {id : Nat} {call : RewindCall}

/-- The state in which the window of a rewind opens. -/
def restart (c : Cluster ι) (id : Nat) (r : ι) (call : RewindCall) : Cluster ι :=
  ((c.setLast r call.toLedger).startStreamSubscription r).setTask id r (.rewindAudit call)

theorem streams_restart_of_lt {sid : Nat} (hsid : sid < c.nextStream) :
    (c.restart id r call).streams sid = c.streams sid := by
  have hne : sid ≠ c.nextStream := by omega
  simp [restart, setTask, startStreamSubscription, setLast, setReplica, hne]

theorem restart_rewound (hbooted : (c.replicas r).booted = true)
    (hstale : ∀ sid s, c.streams sid = some s → s.owner = r → s.Harmless call.toLedger) :
    (c.restart id r call).Rewound r c.nextStream call.toLedger := by
  refine ⟨?_, ?_, ?_, ?_, ?_⟩
  · simp [restart, setTask, startStreamSubscription, setLast, setReplica]
  · intro sid s hlt hstream howner
    rw [streams_restart_of_lt hlt] at hstream
    exact hstale sid s hstream howner
  · simp [restart, setTask, startStreamSubscription, setLast, setReplica]
  · exact Nat.le_succ _
  · simpa [restart, setTask, startStreamSubscription, setLast, setReplica] using hbooted

theorem restart_open (hwf : c.WellFormed) (halive : c.alive r = true) (hrow : c.cursor ≠ none) :
    (c.restart id r call).WindowOpen r c.nextStream := by
  refine ⟨?_, ?_, hrow⟩
  · intro sid s hsid hstream
    by_cases heq : sid = c.nextStream
    · subst heq
      simp only [restart, setTask, startStreamSubscription, setLast, setReplica,
        Function.update_self, Option.some.injEq] at hstream
      subst hstream
      exact ⟨(by rintro _ ⟨⟩), (by rintro ⟨⟩)⟩
    · simp only [restart, setTask, startStreamSubscription, setLast, setReplica,
        Function.update_of_ne heq, hwf.streamFresh sid hsid] at hstream
      cases hstream
  · simpa [restart, alive, setTask, startStreamSubscription, setLast, setReplica] using halive

end Restart

end Cluster

section Result

variable {ι : Type} [DecidableEq ι]

/-- A rewind is kept exactly when, at the restart of the stream, the cursor row
is at most `toLedger` and every callback of an old subscription in progress is
harmless. -/
theorem rewind_kept_iff (log : ContractLog) (db : Db) (cursor : Option Nat) (c c' : Cluster ι)
    (id : Nat) (r : ι) (call : RewindCall)
    (hrun : StepsAlong (Cluster.step log) (fun _ _ => True) (Cluster.initial db cursor) c)
    (htask : c.tasks id = some (r, .rewindWrite call true))
    (hrestart : c.step log (.resume id true) = some c') :
    Cluster.RewindKept log r c.nextStream call c' ↔
      (∀ ledger, c.cursor = some ledger → ledger ≤ call.toLedger) ∧
      ∀ sid s, c.streams sid = some s → s.owner = r → s.Harmless call.toLedger := by
  have hpreserved : ∀ (t : Cluster ι) (a : Action ι) (u : Cluster ι),
      True → t.step log a = some u → t.WellFormed ∧ t.RowWritten → u.WellFormed ∧ u.RowWritten :=
    fun _ _ _ _ hstep hinv =>
      ⟨Cluster.wellFormed_step hstep hinv.1, Cluster.rowWritten_step hstep hinv.2⟩
  obtain ⟨hwf, hwritten⟩ := hrun.invariant hpreserved
    ⟨Cluster.wellFormed_initial db cursor, nofun⟩
  have halive := hwf.caller id r _ htask
  have hrow := hwritten id r call htask
  obtain rfl : c.restart id r call = c' := by
    simpa [Cluster.step, Cluster.resume, htask, Cluster.restart] using hrestart
  have hopen : (c.restart id r call).WindowOpen r c.nextStream :=
    Cluster.restart_open hwf halive hrow
  have haudit : (c.restart id r call).tasks id = some (r, .rewindAudit call) := by
    simp [Cluster.restart, Cluster.setTask]
  constructor
  · intro hkept
    obtain ⟨d, hreturn, hreturned, hstreams, hcursor, hsame⟩ :=
      Cluster.rewind_returns hopen haudit
    refine ⟨?_, ?_⟩
    · intro ledger hledger
      exact hkept d hreturn hreturned ledger (hcursor.trans hledger)
    · intro sid s hstream howner
      by_contra hharmful
      have hsid : sid < c.nextStream := by
        by_contra hge
        rw [hwf.streamFresh sid (by omega)] at hstream
        cases hstream
      have hstream' : d.streams sid = some s := by
        rw [hstreams, Cluster.streams_restart_of_lt hsid]
        exact hstream
      obtain ⟨e, hoverrun, hrewound, ledger, hledger, hbeyond⟩ :=
        Cluster.overruns_of_not_harmless (hopen.congr hstreams hcursor hsame) hsid hstream' howner
          hharmful
      have hmem : call ∈ e.rewound := by
        rw [hrewound]
        exact hreturned
      have hle := hkept e (hreturn.trans hoverrun) hmem ledger hledger
      omega
  · rintro ⟨hcursor, hstale⟩ d hwindow _ ledger hledger
    have hbooted : (c.replicas r).booted = true := by
      simp only [Cluster.alive, Bool.and_eq_true] at halive
      exact halive.1
    obtain ⟨old, hold⟩ := Option.ne_none_iff_exists'.mp hrow
    have hwithin : (c.restart id r call).CursorWithin call.toLedger := ⟨old, hold, hcursor old hold⟩
    obtain ⟨ledger', hledger', hle⟩ :=
      Cluster.window_run hwindow hwithin (Cluster.restart_rewound hbooted hstale)
    rw [hledger] at hledger'
    cases hledger'
    exact hle

end Result

/-- The elected replica has a callback in progress in ledger 10. -/
def callbackRunning : List (Action Nat) :=
  [.boot 0 .resumed, .tick 0, .redis 0, .resume 0 true, .stream 0 (.fetch true 20),
    .stream 0 .deliver]

def rewindToFive : List (Action Nat) :=
  [.rewind 0 5 20 1, .resume 1 true, .database 1]

def tenLog : ContractLog := ⟨[proofEvent], ordered_proofEvent⟩

/-- Without a callback in progress the rewind is kept. -/
theorem quiet_rewind_kept :
    ∃ (c c' : Cluster Nat) (call : RewindCall),
      StepsAlong (Cluster.step tenLog) (fun _ _ => True)
        (Cluster.initial (Db.demo .pending) (some 10)) c ∧
      c.tasks 1 = some (0, .rewindWrite call true) ∧ call.toLedger = 5 ∧
      c.step tenLog (.resume 1 true) = some c' ∧
      Cluster.RewindKept tenLog 0 c.nextStream call c' := by
  obtain ⟨c, hc, htask, hcursor, hstreams, c', hrestart⟩ : ∃ c : Cluster Nat,
      ([Action.boot 0 .resumed, .tick 0, .redis 0, .resume 0 true] ++ rewindToFive).foldlM
        (Cluster.step tenLog) (Cluster.initial (Db.demo .pending) (some 10)) = some c ∧
      c.tasks 1 = some (0, .rewindWrite ⟨5, 20, 1, false, 10⟩ true) ∧ c.cursor = some 5 ∧
      (∀ sid s, c.streams sid = some s → s.callback = none) ∧
      ∃ c', c.step tenLog (.resume 1 true) = some c' := by
    refine ⟨_, rfl, rfl, rfl, ?_, _, rfl⟩
    intro sid s hstream
    cases sid with
    | zero =>
        cases hstream
        rfl
    | succ sid => cases hstream
  have hrun : StepsAlong (Cluster.step tenLog) (fun _ _ => True)
      (Cluster.initial (Db.demo .pending) (some 10)) c := .of_foldlM (by simp) hc
  refine ⟨c, c', _, hrun, htask, rfl, hrestart, ?_⟩
  refine (rewind_kept_iff tenLog _ _ c c' 1 0 _ hrun htask hrestart).mpr ⟨?_, ?_⟩
  · intro ledger hledger
    rw [hcursor] at hledger
    cases hledger
    exact Nat.le_refl _
  · intro sid s hstream _
    simp [Stream.Harmless, hstreams sid s hstream]

/-- A callback of the old subscription is in its handler when the rewind
restarts the stream. The rewind returns normally; then the callback persists
its own ledger, and the new subscription has not processed anything. -/
theorem stale_callback_undoes_rewind :
    ∃ (c c' : Cluster Nat) (call : RewindCall),
      StepsAlong (Cluster.step tenLog) (fun _ _ => True)
        (Cluster.initial (Db.demo .pending) (some 10)) c ∧
      c.tasks 1 = some (0, .rewindWrite call true) ∧ call.toLedger = 5 ∧
      c.step tenLog (.resume 1 true) = some c' ∧
      ¬ Cluster.RewindKept tenLog 0 c.nextStream call c' := by
  obtain ⟨c, hc, htask, hnext, restarted, hrestart, haudit, returned, hreturn, hold, handled,
      hhandle, hadvanced, written, hwrite, hrewound, hcursor, hidle⟩ : ∃ c : Cluster Nat,
      (callbackRunning ++ rewindToFive).foldlM (Cluster.step tenLog)
        (Cluster.initial (Db.demo .pending) (some 10)) = some c ∧
      c.tasks 1 = some (0, .rewindWrite ⟨5, 20, 1, false, 10⟩ true) ∧ c.nextStream = 1 ∧
      ∃ restarted, c.step tenLog (.resume 1 true) = some restarted ∧
      restarted.tasks 1 = some (0, .rewindAudit ⟨5, 20, 1, false, 10⟩) ∧
      ∃ returned, restarted.step tenLog (.resume 1 true) = some returned ∧
      returned.streams 0 = some ⟨0, 10, [proofEvent], some .handling⟩ ∧
      ∃ handled, returned.step tenLog (.stream 0 (.handle (.calm 1))) = some handled ∧
      handled.streams 0 = some ⟨0, 10, [proofEvent], some (.writing 11)⟩ ∧
      ∃ written, handled.step tenLog (.stream 0 .cursorWrite) = some written ∧
      written.rewound = [⟨5, 20, 1, false, 10⟩] ∧ written.cursor = some 11 ∧
      ∀ x ∈ [restarted, returned, handled], ∀ sid s, 1 ≤ sid → x.streams sid = some s →
        s.callback = none := by
    refine ⟨_, rfl, rfl, rfl, _, rfl, rfl, _, rfl, rfl, _, rfl, rfl, _, rfl, rfl, rfl, ?_⟩
    simp only [List.mem_cons, List.not_mem_nil, or_false]
    rintro x (rfl | rfl | rfl) sid s hsid hstream
    all_goals
      match sid, hsid, hstream with
      | 1, _, hstream =>
          cases hstream
          rfl
      | _ + 2, _, hstream => cases hstream
  have hrun : StepsAlong (Cluster.step tenLog) (fun _ _ => True)
      (Cluster.initial (Db.demo .pending) (some 10)) c := .of_foldlM (by simp) hc
  refine ⟨c, restarted, _, hrun, htask, rfl, hrestart, ?_⟩
  rw [hnext]
  intro hkept
  have hopen : ∀ x ∈ [restarted, returned, handled], x.Unprocessed 1 := by
    intro x hx sid s hsid hstream
    rw [hidle x hx sid s hsid hstream]
    exact ⟨nofun, nofun⟩
  have hwindow : StepsAlong (Cluster.step tenLog) (Cluster.Window 0 1 5) restarted written := by
    refine .tail (.tail (.tail (.refl _) ?_ hreturn) ?_ hhandle) ?_ hwrite
    · exact Cluster.window_resume haudit (hopen _ (by simp)) nofun true
    · exact Cluster.window_stream (hopen _ (by simp)) hold rfl
    · exact Cluster.window_stream (hopen _ (by simp)) hadvanced rfl
  have hle := hkept written hwindow (by rw [hrewound]; exact .head _) 11 hcursor
  exact absurd hle (by decide)

end ChainSettle
