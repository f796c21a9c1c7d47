import ChainSettle.Lifecycle.Handlers
import ChainSettle.Poller.Steps

/-!
Does the persisted cursor only grow? A replica reads the row once, when it
boots, and from then on persists its own mirror of it. So a replica that is
elected long after its boot, or a callback of a former leader that is still in
progress, can put the row back to where that replica once was.

A loop keeps up with a ledger when whatever it persists next is at least that
ledger. The run theorem needs every loop to keep up with the row whenever the
row moves forward or a loop begins.
-/

namespace ChainSettle

open Lib Lib.Eff

/-- Whatever the loop `sid` persists next is at least `ledger`. A loop that is
in no callback persists something only while it is the replica's subscription. -/
def Stream.KeepsUp {ι : Type} (s : Stream ι) (replica : Replica) (sid ledger : Nat) : Prop :=
  match s.callback, s.page with
  | some (.writing next), _ => ledger ≤ next
  | some .handling, event :: _ =>
      ledger ≤ max replica.lastProcessedLedger (event.ledger + 1)
  | some (.savingDlq _), event :: _ =>
      ledger ≤ max replica.lastProcessedLedger (event.ledger + 1)
  | _, _ => replica.subscription = some sid → ledger ≤ replica.lastProcessedLedger

namespace Cluster

variable {ι : Type}

/-- All loops of live replicas, except possibly `own`, keep up with `ledger`. -/
def OthersKeepUp (c : Cluster ι) (own : Option Nat) (ledger : Nat) : Prop :=
  ∀ sid s, own ≠ some sid → c.streams sid = some s → c.alive s.owner = true →
    s.KeepsUp (c.replicas s.owner) sid ledger

/-- The hand-overs and forward moves that leave no loop behind: the row is
created or moved only when the (other) loops keep up with its new value, and a
loop begins with a mirror that is not behind the row. -/
def Aligned (c : Cluster ι) : Action ι → Prop
  | .boot _ (.seeded latestLedger) =>
      c.cursor = none → c.OthersKeepUp none (max 1 (latestLedger - 10))
  | .database id => ∀ r call, c.tasks id = some (r, .rewindWrite call false) →
      c.OthersKeepUp none call.toLedger
  | .resume id true => ∀ r ledger, c.cursor = some ledger →
      (c.tasks id = some (r, .acquire (some true)) →
        ledger ≤ (c.replicas r).lastProcessedLedger) ∧
      ∀ call, c.tasks id = some (r, .rewindWrite call true) → ledger ≤ call.toLedger
  | .stream sid .cursorWrite => ∀ s ledger, c.streams sid = some s →
      s.callback = some (.writing ledger) → c.OthersKeepUp (some sid) ledger
  | _ => True

/-- Every loop keeps up with the row. -/
structure Ahead (c : Cluster ι) : Prop where
  row : ∀ ledger, c.cursor = some ledger → c.OthersKeepUp none ledger
  mirror : ∀ sid s next, c.streams sid = some s →
    (c.replicas s.owner).subscription = some sid → s.callback = some (.writing next) →
      next ≤ (c.replicas s.owner).lastProcessedLedger
  owner : ∀ sid s, c.streams sid = some s → (c.replicas s.owner).booted = true

end Cluster

section Loops

variable {ι : Type} {s : Stream ι} {old new : Replica} {sid ledger : Nat}

/-- A replica whose mirror has grown and that has taken up no loop. -/
theorem Stream.KeepsUp.mono (h : s.KeepsUp old sid ledger)
    (hsubscription : new.subscription = some sid → old.subscription = some sid)
    (hmirror : old.lastProcessedLedger ≤ new.lastProcessedLedger) :
    s.KeepsUp new sid ledger := by
  unfold Stream.KeepsUp at h ⊢
  split
  · simpa [*] using h
  · simp only [*] at h
    omega
  · simp only [*] at h
    omega
  · intro hactive
    split at h
    · simp_all
    · simp_all
    · simp_all
    · exact (h (hsubscription hactive)).trans hmirror

/-- A replica that is at or beyond the ledger, whatever its loops do, except
for a value that is already on its way to the database. -/
theorem Stream.keepsUp_of_mirror (hmirror : ledger ≤ new.lastProcessedLedger)
    (hwriting : ∀ next, s.callback = some (.writing next) → ledger ≤ next) :
    s.KeepsUp new sid ledger := by
  unfold Stream.KeepsUp
  split
  · exact hwriting _ ‹_›
  · omega
  · omega
  · exact fun _ => hmirror

theorem Stream.KeepsUp.writing {next : Nat} (h : s.KeepsUp old sid ledger)
    (hcallback : s.callback = some (.writing next)) : ledger ≤ next := by
  unfold Stream.KeepsUp at h
  simpa [hcallback] using h

/-- The value that the rest of the callback will persist. -/
theorem Stream.KeepsUp.event {event : RawEvent} {rest : List RawEvent}
    (h : s.KeepsUp old sid ledger) (hpage : s.page = event :: rest)
    (hcallback : s.callback = some .handling ∨ ∃ error, s.callback = some (.savingDlq error)) :
    ledger ≤ max old.lastProcessedLedger (event.ledger + 1) := by
  unfold Stream.KeepsUp at h
  rcases hcallback with hcallback | ⟨error, hcallback⟩
  · simpa only [hcallback, hpage] using h
  · simpa only [hcallback, hpage] using h

end Loops

namespace Cluster

variable {ι : Type} {c c' : Cluster ι}

section Transport

/-- A step that changes neither the row nor a loop, takes up no loop and lowers
no mirror. -/
theorem Ahead.mono (h : c.Ahead) (hcursor : c'.cursor = c.cursor)
    (hstreams : c'.streams = c.streams) (halive : ∀ r, c'.alive r = true → c.alive r = true)
    (hbooted : ∀ r, (c.replicas r).booted = true → (c'.replicas r).booted = true)
    (hsubscription : ∀ r sid, (c'.replicas r).subscription = some sid →
      (c.replicas r).subscription = some sid)
    (hmirror : ∀ r,
      (c.replicas r).lastProcessedLedger ≤ (c'.replicas r).lastProcessedLedger) : c'.Ahead where
  row ledger hledger sid s hother hstream hlive := by
    rw [hcursor] at hledger
    rw [hstreams] at hstream
    exact (h.row ledger hledger sid s hother hstream (halive _ hlive)).mono
      (hsubscription _ _) (hmirror _)
  mirror sid s next hstream hactive hcallback := by
    rw [hstreams] at hstream
    exact (h.mirror sid s next hstream (hsubscription _ _ hactive) hcallback).trans (hmirror _)
  owner sid s hstream := by
    rw [hstreams] at hstream
    exact hbooted _ (h.owner sid s hstream)

/-- A step that touches neither the row, nor a loop, nor a replica. -/
theorem Ahead.of_processes (h : c.Ahead) (hcursor : c'.cursor = c.cursor)
    (hstreams : c'.streams = c.streams) (hreplicas : c'.replicas = c.replicas) : c'.Ahead := by
  refine h.mono hcursor hstreams ?_ ?_ ?_ ?_
  · intro r
    unfold alive
    rw [hreplicas]
    exact id
  all_goals
    rw [hreplicas]
    simp

/-- A loop that goes on keeps up with the row, and an active one persists no
more than its mirror. -/
theorem Ahead.setStream (h : c.Ahead) {sid : Nat} {s s' : Stream ι}
    (hstream : c.streams sid = some s) (howner : s'.owner = s.owner)
    (hrow : ∀ ledger, c.cursor = some ledger → c.alive s.owner = true →
      s'.KeepsUp (c.replicas s.owner) sid ledger)
    (hmirror : ∀ next, (c.replicas s.owner).subscription = some sid →
      s'.callback = some (.writing next) → next ≤ (c.replicas s.owner).lastProcessedLedger) :
    (c.setStream sid s').Ahead where
  row ledger hledger other t hother htarget hlive := by
    by_cases heq : other = sid
    · subst heq
      obtain rfl : s' = t := by simpa [Cluster.setStream] using htarget
      rw [howner] at hlive ⊢
      exact hrow ledger hledger hlive
    · refine h.row ledger hledger other t hother ?_ hlive
      simpa [Cluster.setStream, heq] using htarget
  mirror other t next htarget hactive hcallback := by
    by_cases heq : other = sid
    · subst heq
      obtain rfl : s' = t := by simpa [Cluster.setStream] using htarget
      rw [howner] at hactive ⊢
      exact hmirror next hactive hcallback
    · refine h.mirror other t next ?_ hactive hcallback
      simpa [Cluster.setStream, heq] using htarget
  owner other t htarget := by
    by_cases heq : other = sid
    · subst heq
      obtain rfl : s' = t := by simpa [Cluster.setStream] using htarget
      rw [howner]
      exact h.owner other s hstream
    · exact h.owner other t (by simpa [Cluster.setStream, heq] using htarget)

/-- The row takes a value that every loop keeps up with. -/
theorem Ahead.setCursor (h : c.Ahead) {ledger : Nat} (hrow : c.OthersKeepUp none ledger) :
    { c with cursor := some ledger }.Ahead where
  row := by
    rintro _ ⟨rfl⟩
    exact hrow
  mirror := h.mirror
  owner := h.owner

variable [DecidableEq ι]

/-- A change to one replica. -/
theorem Ahead.setReplica (h : c.Ahead) (r : ι) {f : Replica → Replica}
    (hbooted : (f (c.replicas r)).booted = (c.replicas r).booted)
    (hcrashed : (f (c.replicas r)).crashed = (c.replicas r).crashed)
    (hsubscription : ∀ sid, (f (c.replicas r)).subscription = some sid →
      (c.replicas r).subscription = some sid)
    (hmirror : (c.replicas r).lastProcessedLedger ≤ (f (c.replicas r)).lastProcessedLedger) :
    (c.setReplica r f).Ahead := by
  refine h.mono rfl rfl ?_ ?_ ?_ ?_
  · intro q
    rw [alive_setReplica hbooted hcrashed]
    exact id
  · intro q hq
    by_cases heq : q = r
    · subst heq
      simpa [Cluster.setReplica, hbooted] using hq
    · simpa [Cluster.setReplica, heq] using hq
  · intro q sid hq
    by_cases heq : q = r
    · subst heq
      exact hsubscription sid (by simpa [Cluster.setReplica] using hq)
    · simpa [Cluster.setReplica, heq] using hq
  · intro q
    by_cases heq : q = r
    · subst heq
      simpa [Cluster.setReplica] using hmirror
    · simp [Cluster.setReplica, heq]

theorem Ahead.setLeader (h : c.Ahead) (r : ι) (isLeader : Bool) : (c.setLeader r isLeader).Ahead :=
  h.setReplica r rfl rfl (fun _ => id) (Nat.le_refl _)

theorem setLast_self (c : Cluster ι) (r : ι) :
    c.setLast r (c.replicas r).lastProcessedLedger = c := by
  unfold setLast Cluster.setReplica
  rw [Function.update_eq_self]

/-- A loop begins on a replica whose mirror is set to a ledger that is not
behind the row. The loops that the replica had before are no longer its
subscription. -/
theorem Ahead.startFrom (h : c.Ahead) (hwf : c.WellFormed) {r : ι} {first : Nat}
    (hbooted : (c.replicas r).booted = true)
    (hfirst : ∀ ledger, c.cursor = some ledger → ledger ≤ first) :
    ((c.setLast r first).startStreamSubscription r).Ahead := by
  have hfree : c.streams c.nextStream = none := hwf.streamFresh _ (Nat.le_refl _)
  have hself : ((c.setLast r first).startStreamSubscription r).replicas r =
      { c.replicas r with lastProcessedLedger := first, subscription := some c.nextStream } := by
    simp [Cluster.startStreamSubscription, setLast, Cluster.setReplica]
  have hother : ∀ q, q ≠ r →
      ((c.setLast r first).startStreamSubscription r).replicas q = c.replicas q := by
    intro q hq
    simp [Cluster.startStreamSubscription, setLast, Cluster.setReplica, hq]
  have halive : ∀ q, ((c.setLast r first).startStreamSubscription r).alive q = c.alive q := by
    intro q
    by_cases hq : q = r
    · subst hq
      simp [alive, hself]
    · simp [alive, hother q hq]
  -- a loop is either the new one or one from before
  have hloop : ∀ sid s, ((c.setLast r first).startStreamSubscription r).streams sid = some s →
      (sid = c.nextStream ∧ s = ⟨r, first, [], none⟩) ∨
        (sid ≠ c.nextStream ∧ c.streams sid = some s) := by
    intro sid s hstream
    by_cases heq : sid = c.nextStream
    · subst heq
      exact .inl ⟨rfl, by
        simpa [Cluster.startStreamSubscription, setLast, Cluster.setReplica] using hstream.symm⟩
    · exact .inr ⟨heq, by
        simpa [Cluster.startStreamSubscription, setLast, Cluster.setReplica, heq] using hstream⟩
  refine ⟨?_, ?_, ?_⟩
  · intro ledger hledger sid s _ hstream hlive
    rcases hloop sid s hstream with ⟨rfl, rfl⟩ | ⟨hne, hold⟩
    · intro _
      rw [hself]
      exact hfirst ledger hledger
    · rw [halive] at hlive
      have hbefore := h.row ledger hledger sid s (by rintro ⟨⟩) hold hlive
      by_cases howner : s.owner = r
      · rw [howner, hself]
        exact Stream.keepsUp_of_mirror (hfirst ledger hledger) fun next => hbefore.writing
      · rw [hother _ howner]
        exact hbefore
  · intro sid s next hstream hactive hcallback
    rcases hloop sid s hstream with ⟨rfl, rfl⟩ | ⟨hne, hold⟩
    · cases hcallback
    · by_cases howner : s.owner = r
      · rw [howner, hself] at hactive
        exact absurd (Option.some.inj hactive).symm hne
      · rw [hother _ howner] at hactive ⊢
        exact h.mirror sid s next hold hactive hcallback
  · intro sid s hstream
    rcases hloop sid s hstream with ⟨rfl, rfl⟩ | ⟨hne, hold⟩
    · rw [hself]
      exact hbooted
    · by_cases howner : s.owner = r
      · rw [howner, hself]
        exact hbooted
      · rw [hother _ howner]
        exact h.owner sid s hold

/-- The rest of a callback computes the value that the loop was bound to. -/
theorem Ahead.advance (h : c.Ahead) {sid : Nat} {s : Stream ι} {event : RawEvent}
    {rest : List RawEvent} (hstream : c.streams sid = some s) (hpage : s.page = event :: rest)
    (hcallback : s.callback = some .handling ∨ ∃ error, s.callback = some (.savingDlq error)) :
    (c.advance sid s event).Ahead := by
  have hgrown : (c.setLast s.owner
      (max (c.replicas s.owner).lastProcessedLedger (event.ledger + 1))).Ahead :=
    h.setReplica s.owner rfl rfl (fun _ => id) (Nat.le_max_left ..)
  refine hgrown.setStream hstream rfl ?_ ?_
  · intro ledger hledger hlive
    have hbefore : c.alive s.owner = true := by
      simpa [alive, setLast, Cluster.setReplica] using hlive
    exact (h.row ledger hledger sid s (by rintro ⟨⟩) hstream hbefore).event hpage hcallback
  · rintro next _ ⟨rfl⟩
    simp [setLast, Cluster.setReplica]

end Transport

section Steps

variable [DecidableEq ι] {log : ContractLog}

theorem ahead_resumed {id : Nat} {r : ι} {task : Task} {ok : Bool} (h : c.Ahead)
    (hwf : c.WellFormed) (haligned : c.Aligned (.resume id ok))
    (htask : c.tasks id = some (r, task)) (hresumed : Resumed c id r task ok c') : c'.Ahead := by
  have hbooted : (c.replicas r).booted = true := by
    have halive := hwf.caller id r task htask
    simp only [alive, Bool.and_eq_true] at halive
    exact halive.1
  cases hresumed with
  | ended => exact h.of_processes rfl rfl rfl
  | steppedDown =>
      have hstopped : (c.stopStreamSubscription r).Ahead :=
        h.setReplica r rfl rfl (by rintro _ ⟨⟩) (Nat.le_refl _)
      exact (hstopped.setLeader r false).of_processes rfl rfl rfl
  | elected =>
      have hmirror : ∀ ledger, c.cursor = some ledger →
          ledger ≤ ((c.setLeader r true).replicas r).lastProcessedLedger := by
        intro ledger hledger
        simpa [Cluster.setLeader, Cluster.setReplica] using (haligned r ledger hledger).1 htask
      have hleader := (h.setLeader r true).startFrom (r := r) (hwf.setLeader r true)
        (by simpa [Cluster.setLeader, Cluster.setReplica] using hbooted) hmirror
      rw [setLast_self] at hleader
      exact hleader.of_processes rfl rfl rfl
  | rewindElected call => exact (h.setLeader r true).of_processes rfl rfl rfl
  | rewindPlanned call previousLedger => exact h.of_processes rfl rfl rfl
  | rewindRestarted call =>
      -- the mirror may go back, but not behind the row
      have hrow : ∀ ledger, c.cursor = some ledger → ledger ≤ call.toLedger :=
        fun ledger hledger => (haligned r ledger hledger).2 call htask
      exact (h.startFrom hwf hbooted hrow).of_processes rfl rfl rfl
  | rewindFinished hkind =>
      unfold finishRewind
      split
      · exact h.of_processes rfl rfl rfl
      · unfold endRewind
        dsimp only
        split <;> exact h.of_processes rfl rfl rfl
  | rewindReleased call succeeded =>
      unfold endRewind
      dsimp only
      split <;> exact (h.setLeader r false).of_processes rfl rfl rfl
  | releaseFailed => exact h.of_processes rfl rfl rfl
  | destroyReleased => exact (h.setLeader r false).of_processes rfl rfl rfl

theorem ahead_streamed {sid : Nat} {s : Stream ι} {input : StreamInput} (h : c.Ahead)
    (haligned : c.Aligned (.stream sid input)) (hstream : c.streams sid = some s)
    (hstreamed : Streamed log c sid s input c') : c'.Ahead := by
  have hrow : ∀ ledger, c.cursor = some ledger → c.alive s.owner = true →
      s.KeepsUp (c.replicas s.owner) sid ledger :=
    fun ledger hledger hlive => h.row ledger hledger sid s (by rintro ⟨⟩) hstream hlive
  cases hstreamed with
  | fetched rpcOk tip hcallback =>
      refine h.setStream hstream rfl ?_ ?_
      · intro ledger hledger hlive
        simpa [Stream.KeepsUp, hcallback] using hrow ledger hledger hlive
      · intro next _ hwriting
        rw [hcallback] at hwriting
        cases hwriting
  | delivered hcallback hactive =>
      refine h.setStream hstream rfl ?_ (by rintro _ _ ⟨⟩)
      intro ledger hledger hlive
      have hbefore := hrow ledger hledger hlive
      have hmirror : ledger ≤ (c.replicas s.owner).lastProcessedLedger := by
        simpa [Stream.KeepsUp, hcallback, hactive] using hbefore
      exact Stream.keepsUp_of_mirror hmirror (by rintro _ ⟨⟩)
  | handled hcallback hpage hdb =>
      exact (h.advance hstream hpage (.inl hcallback)).of_processes rfl rfl rfl
  | failed error hcallback hpage hdb =>
      have hfailed : (c.setStream sid { s with callback := some (.savingDlq error) }).Ahead := by
        refine h.setStream hstream rfl ?_ (by rintro _ _ ⟨⟩)
        intro ledger hledger hlive
        simpa [Stream.KeepsUp, hpage] using (hrow ledger hledger hlive).event hpage (.inl hcallback)
      exact hfailed.of_processes rfl rfl rfl
  | stored hcallback hpage =>
      exact (h.advance hstream hpage (.inr ⟨_, hcallback⟩)).of_processes rfl rfl rfl
  | @persisted ledger hcallback =>
      have hmirror : (c.replicas s.owner).subscription = some sid →
          ledger ≤ (c.replicas s.owner).lastProcessedLedger :=
        fun hactive => h.mirror sid s ledger hstream hactive hcallback
      have hothers := haligned s ledger hstream hcallback
      have hwritten : (c.setStream sid { s with callback := some .written }).OthersKeepUp none
          ledger := by
        intro other t _ htarget hlive
        by_cases heq : other = sid
        · subst heq
          obtain rfl : { s with callback := some .written } = t := by
            simpa [Cluster.setStream] using htarget
          exact hmirror
        · refine hothers other t (by simpa using Ne.symm heq) ?_ hlive
          simpa [Cluster.setStream, heq] using htarget
      have hcleared : (c.setStream sid { s with callback := some .written }).Ahead := by
        refine h.setStream hstream rfl ?_ (by rintro _ _ ⟨⟩)
        intro old hold hlive hactive
        exact ((hrow old hold hlive).writing hcallback).trans (hmirror hactive)
      exact (hcleared.setCursor hwritten).of_processes rfl rfl rfl
  | finished hpage hcallback =>
      refine h.setStream hstream rfl ?_ (by rintro _ _ ⟨⟩)
      intro ledger hledger hlive hactive
      have hbefore := hrow ledger hledger hlive
      rcases hcallback with ⟨next, hwriting⟩ | hwritten
      · exact (hbefore.writing hwriting).trans (h.mirror sid s next hstream hactive hwriting)
      · simpa [Stream.KeepsUp, hwritten, hactive] using hbefore

theorem ahead_step {a : Action ι} (haligned : c.Aligned a) (hstep : c.step log a = some c')
    (hwf : c.WellFormed) (h : c.Ahead) : c'.Ahead := by
  cases step_cases hstep with
  | @booted r read ledger cursor hnew hkept _ hseeded =>
      -- a process that boots has no loop yet
      have hothers : ∀ sid s, c.streams sid = some s → s.owner ≠ r := by
        rintro sid s hstream rfl
        rw [h.owner sid s hstream] at hnew
        cases hnew
      have hsame : ∀ sid s, c.streams sid = some s →
          (c.setReplica r fun _ => { Replica.fresh with
            booted := true, lastProcessedLedger := ledger }).replicas s.owner =
              c.replicas s.owner := by
        intro sid s hstream
        simp [Cluster.setReplica, hothers sid s hstream]
      refine ⟨?_, ?_, ?_⟩
      · intro next hnext sid s _ hstream hlive
        have hlive' : c.alive s.owner = true := by
          simpa [alive, Cluster.setReplica, hothers sid s hstream] using hlive
        rw [hsame sid s hstream]
        cases hrow : c.cursor with
        | none =>
            obtain ⟨latestLedger, rfl, rfl⟩ := hseeded next hrow hnext
            exact haligned hrow sid s (by rintro ⟨⟩) hstream hlive'
        | some old =>
            rw [hkept (by simp [hrow])] at hnext
            exact h.row next hnext sid s (by rintro ⟨⟩) hstream hlive'
      · intro sid s next hstream hactive hcallback
        rw [hsame sid s hstream] at hactive ⊢
        exact h.mirror sid s next hstream hactive hcallback
      · intro sid s hstream
        rw [hsame sid s hstream]
        exact h.owner sid s hstream
  | crashed r =>
      refine h.mono rfl rfl ?_ ?_ ?_ ?_
      all_goals
        intro q
        by_cases hq : q = r
        · subst hq
          simp [Cluster.crash, Cluster.setReplica, alive]
        · simp [Cluster.crash, Cluster.setReplica, alive, hq]
  | expired => exact h.of_processes rfl rfl rfl
  | began => exact h.of_processes rfl rfl rfl
  | @destroyed r halive =>
      have hstopped : (c.setReplica r fun replica =>
          { replica with destroyed := true, subscription := none }).Ahead :=
        h.setReplica r rfl rfl (by rintro _ ⟨⟩) (Nat.le_refl _)
      unfold Cluster.destroy
      dsimp only
      split
      · exact hstopped.of_processes rfl rfl rfl
      · exact hstopped
  | answered hredis =>
      obtain ⟨r, old, new, lock, _, rfl, _⟩ := redis_frame hredis
      exact h.of_processes rfl rfl rfl
  | @upserted id r call htask =>
      exact (h.setCursor (haligned r call htask)).of_processes rfl rfl rfl
  | resumed htask hresumed => exact ahead_resumed h hwf haligned htask hresumed
  | streamed hstream hstreamed => exact ahead_streamed h haligned hstream hstreamed

omit [DecidableEq ι] in
theorem ahead_initial (db : Db) (cursor : Option Nat) :
    (initial db cursor : Cluster ι).Ahead where
  row _ _ _ _ _ hstream := by cases hstream
  mirror _ _ _ hstream := by cases hstream
  owner _ _ hstream := by cases hstream

theorem cursor_resumed {id : Nat} {r : ι} {task : Task} {ok : Bool}
    (hresumed : Resumed c id r task ok c') : c'.cursor = c.cursor := by
  cases hresumed with
  | rewindFinished =>
      unfold finishRewind endRewind
      dsimp only
      split
      · rfl
      · split <;> rfl
  | rewindReleased =>
      unfold endRewind
      dsimp only
      split <;> rfl
  | _ => rfl

/-- Only a callback's update, the upsert of a rewind and the first boot write
the row, and the last one only if there is none. -/
theorem cursor_step {a : Action ι} {ledger : Nat} (h : c.Ahead)
    (hstep : c.step log a = some c') (hrewind : ∀ id, a ≠ .database id)
    (hledger : c.cursor = some ledger) :
    ∃ ledger', c'.cursor = some ledger' ∧ ledger ≤ ledger' := by
  have hsame : c'.cursor = c.cursor → ∃ ledger', c'.cursor = some ledger' ∧ ledger ≤ ledger' :=
    fun hcursor => ⟨ledger, hcursor.trans hledger, Nat.le_refl _⟩
  cases step_cases hstep with
  | booted _ cursor _ hkept => exact hsame (hkept (by simp [hledger]))
  | upserted => exact absurd rfl (hrewind _)
  | answered hredis =>
      obtain ⟨_, _, _, _, _, rfl, _⟩ := redis_frame hredis
      exact hsame rfl
  | destroyed =>
      apply hsame
      unfold Cluster.destroy
      dsimp only
      split <;> rfl
  | resumed _ hresumed => exact hsame (cursor_resumed hresumed)
  | @streamed sid input s _ hstream hstreamed =>
      cases hstreamed with
      | @persisted next hcallback =>
          have hlive : c.alive s.owner = true := by
            by_contra hdead
            simp [step, stream, hstream, hdead] at hstep
          exact ⟨next, rfl, (h.row ledger hledger sid s (by rintro ⟨⟩) hstream hlive).writing hcallback⟩
      | _ => exact hsame rfl
  | _ => exact hsame rfl

end Steps

end Cluster

section Result

variable {ι : Type} [DecidableEq ι]

/-- In an aligned run no step but the upsert of a rewind takes the persisted
cursor back, for any number of replicas and any hand-over between them. -/
theorem cursor_never_decreases (log : ContractLog) (db : Db) (cursor : Option Nat)
    (c c' : Cluster ι) (a : Action ι) (ledger : Nat)
    (hrun : StepsAlong (Cluster.step log) Cluster.Aligned (Cluster.initial db cursor) c)
    (hstep : c.step log a = some c') (hrewind : ∀ id, a ≠ .database id)
    (hledger : c.cursor = some ledger) :
    ∃ ledger', c'.cursor = some ledger' ∧ ledger ≤ ledger' := by
  have hpreserved : ∀ (t : Cluster ι) (a : Action ι) (u : Cluster ι),
      t.Aligned a → t.step log a = some u → t.WellFormed ∧ t.Ahead → u.WellFormed ∧ u.Ahead :=
    fun _ _ _ haligned htaken hinv =>
      ⟨Cluster.wellFormed_step htaken hinv.1, Cluster.ahead_step haligned htaken hinv.1 hinv.2⟩
  have hinv := hrun.invariant hpreserved
    ⟨Cluster.wellFormed_initial db cursor, Cluster.ahead_initial db cursor⟩
  exact Cluster.cursor_step hinv.2 hstep hrewind hledger

end Result

/-- Events in the ledgers 10 and 20. -/
def twoLedgerLog : ContractLog where
  events := [proofEvent, confirmEvent]
  ordered := by simp [Ordered, proofEvent, confirmEvent]

/-- A leader that resumed from the row moves it forward. -/
theorem leader_moves_cursor_forward :
    ∃ c c' : Cluster Nat,
      StepsAlong (Cluster.step twoLedgerLog) Cluster.Aligned
        (Cluster.initial (Db.demo .pending) (some 10)) c ∧
      c.step twoLedgerLog (.stream 0 .cursorWrite) = some c' ∧ c.cursor = some 10 ∧
      ∃ ledger', c'.cursor = some ledger' ∧ 10 ≤ ledger' := by
  obtain ⟨asked, elected, c, c', hasked, helected, hc, hstep, hmirror, hcursor, htask, hlast⟩ :
      ∃ asked elected c c' : Cluster Nat,
        [Action.boot 0 .resumed, .tick 0, .redis 0].foldlM (Cluster.step twoLedgerLog)
          (Cluster.initial (Db.demo .pending) (some 10)) = some asked ∧
        asked.step twoLedgerLog (.resume 0 true) = some elected ∧
        [Action.stream 0 (.fetch true 20), .stream 0 .deliver,
          .stream 0 (.handle (.calm 1))].foldlM (Cluster.step twoLedgerLog) elected = some c ∧
        c.step twoLedgerLog (.stream 0 .cursorWrite) = some c' ∧
        (asked.replicas 0).lastProcessedLedger = 10 ∧ asked.cursor = some 10 ∧
        asked.tasks 0 = some (0, .acquire (some true)) ∧ c.cursor = some 10 :=
    ⟨_, _, _, _, rfl, rfl, rfl, rfl, rfl, rfl, rfl, rfl⟩
  have haligned : asked.Aligned (.resume 0 true) := by
    intro r ledger hledger
    rw [hcursor] at hledger
    cases hledger
    rw [htask]
    refine ⟨?_, nofun⟩
    rintro ⟨rfl⟩
    exact hmirror.ge
  have hrun : StepsAlong (Cluster.step twoLedgerLog) Cluster.Aligned
      (Cluster.initial (Db.demo .pending) (some 10)) c :=
    (StepsAlong.tail (.of_foldlM (by simp [Cluster.Aligned]) hasked) haligned helected).trans
      (.of_foldlM (by simp [Cluster.Aligned]) hc)
  exact ⟨c, c', hrun, hstep, hlast,
    cursor_never_decreases twoLedgerLog _ _ c c' _ 10 hrun hstep nofun hlast⟩

/-- A replica is elected and polls, with a follower that booted when it did. -/
def leaderAndFollower : List (Action Nat) :=
  [.boot 0 .resumed, .boot 1 .resumed, .tick 0, .redis 0, .resume 0 true,
    .stream 0 (.fetch true 20)]

/-- The callback of the next event on the page, to its end. -/
def callbackOf (sid : Nat) : List (Action Nat) :=
  [.stream sid .deliver, .stream sid (.handle (.calm 1)), .stream sid .cursorWrite,
    .stream sid .finish]

/-- The leader crashes and the follower is elected. -/
def handOver : List (Action Nat) :=
  [.crash 0, .expire, .tick 1, .redis 1, .resume 1 true, .stream 1 (.fetch true 20),
    .stream 1 .deliver, .stream 1 (.handle (.calm 2))]

/-- The follower takes over with the mirror it read when it booted, and its
first callback puts the row back from 21 to 11. -/
theorem late_leader_takes_cursor_back :
    ∃ c c' : Cluster Nat,
      StepsAlong (Cluster.step twoLedgerLog) (fun _ _ => True)
        (Cluster.initial (Db.demo .pending) (some 10)) c ∧
      c.step twoLedgerLog (.stream 1 .cursorWrite) = some c' ∧
      c.cursor = some 21 ∧ c'.cursor = some 11 := by
  obtain ⟨c, c', hc, hstep, hbefore, hafter⟩ : ∃ c c' : Cluster Nat,
      (leaderAndFollower ++ callbackOf 0 ++ callbackOf 0 ++ handOver).foldlM
        (Cluster.step twoLedgerLog) (Cluster.initial (Db.demo .pending) (some 10)) = some c ∧
      c.step twoLedgerLog (.stream 1 .cursorWrite) = some c' ∧
      c.cursor = some 21 ∧ c'.cursor = some 11 :=
    ⟨_, _, rfl, rfl, rfl, rfl⟩
  exact ⟨c, c', .of_foldlM (by simp) hc, hstep, hbefore, hafter⟩

end ChainSettle
