import ChainSettle.Semantics.Backfill

/-!
One iteration of the backfill loop: which events it passes to the handlers,
when it counts an error, where it goes on, and which events of its window it
leaves behind for good.
-/

namespace ChainSettle

open Lib Lib.Eff

variable (log : ContractLog) (toLedger : Nat)

/-- The page an iteration works on: an RPC failure looks like an empty one. -/
def pageOf (input : BatchInput) (currentLedger : Nat) : List RawEvent :=
  if input.rpcOk then log.getEvents currentLedger else []

/-- Some handler of the batch throws. -/
def SomeHandlerFails (envs : Nat → Env) : Nat → Db → List RawEvent → Prop
  | _, _, [] => False
  | position, db, event :: rest =>
      ¬ Succeeds (processEventForBackfill (envs position) event) db ∨
        SomeHandlerFails envs (position + 1)
          (after (processEventForBackfill (envs position) event) db) rest

def InWindow (toLedger currentLedger : Nat) (event : RawEvent) : Prop :=
  currentLedger ≤ event.ledger ∧ event.ledger ≤ batchEnd toLedger currentLedger

section Batch

variable (envs : Nat → Env) (position : Nat) (st : BackfillLoop) (events : List RawEvent)

@[simp] theorem passed_processBatch :
    (processBatch envs position st events).passed = st.passed ++ events := by
  induction events generalizing position st with
  | nil => simp [processBatch]
  | cons event rest ih =>
      simp only [processBatch, ih]
      split <;> simp

@[simp] theorem errorWindows_processBatch :
    (processBatch envs position st events).errorWindows = st.errorWindows := by
  induction events generalizing position st with
  | nil => rfl
  | cons event rest ih =>
      simp only [processBatch, ih]
      split <;> rfl

theorem errorCount_processBatch_ge :
    st.errorCount ≤ (processBatch envs position st events).errorCount := by
  induction events generalizing position st with
  | nil => exact le_rfl
  | cons event rest ih =>
      simp only [processBatch]
      refine le_trans ?_ (ih _ _)
      split
      · exact le_rfl
      · exact Nat.le_succ _

/-- The counter moves exactly when a handler throws. -/
theorem errorCount_processBatch_eq_iff :
    (processBatch envs position st events).errorCount = st.errorCount ↔
      ¬ SomeHandlerFails envs position st.db events := by
  induction events generalizing position st with
  | nil => simp [processBatch, SomeHandlerFails]
  | cons event rest ih =>
      simp only [processBatch, SomeHandlerFails, not_or, not_not]
      cases hrun : exec (processEventForBackfill (envs position) event) st.db with
      | mk outcome next =>
          cases outcome with
          | ok value =>
              have hok : Succeeds (processEventForBackfill (envs position) event) st.db :=
                ⟨value, congrArg Prod.fst hrun⟩
              simp only [hok, true_and, after, hrun]
              exact ih (position + 1) _
          | error error =>
              have hfails : ¬ Succeeds (processEventForBackfill (envs position) event) st.db := by
                rintro ⟨value, hvalue⟩
                rw [hrun] at hvalue
                cases hvalue
              simp only [hfails, false_and, iff_false]
              have hge := errorCount_processBatch_ge envs (position + 1)
                { st with
                  db := next
                  passed := st.passed ++ [event]
                  errorCount := st.errorCount + 1
                  errorSummary := st.errorSummary ++
                    [⟨event.ledger, event.txHash.getD "", extractEventName event, error⟩] } rest
              simp only at hge
              omega

end Batch

section Body

variable (st : BackfillLoop) (input : BatchInput)

/-- The state an iteration leaves, without its progress update. -/
def afterBatch : BackfillLoop := (runBatch log toLedger st input).1

/-- The events the iteration hands to the handlers. -/
def handedOver : List RawEvent :=
  batchEvents toLedger st.currentLedger (pageOf log input st.currentLedger)

theorem runBatch_eq : runBatch log toLedger st input = (afterBatch log toLedger st input, true) :=
  rfl

theorem afterBatch_eq :
    afterBatch log toLedger st input =
      st.noteWindow toLedger
        { processBatch input.envs 0 st (handedOver log toLedger st input) with
          currentLedger :=
            nextLedger toLedger st.currentLedger (pageOf log input st.currentLedger) } :=
  rfl

@[simp] theorem currentLedger_noteWindow (next : BackfillLoop) :
    (st.noteWindow toLedger next).currentLedger = next.currentLedger := by
  unfold BackfillLoop.noteWindow
  split <;> rfl

@[simp] theorem passed_noteWindow (next : BackfillLoop) :
    (st.noteWindow toLedger next).passed = next.passed := by
  unfold BackfillLoop.noteWindow
  split <;> rfl

@[simp] theorem currentLedger_afterBatch :
    (afterBatch log toLedger st input).currentLedger =
      nextLedger toLedger st.currentLedger (pageOf log input st.currentLedger) := by
  rw [afterBatch_eq, currentLedger_noteWindow]

@[simp] theorem passed_afterBatch :
    (afterBatch log toLedger st input).passed = st.passed ++ handedOver log toLedger st input := by
  rw [afterBatch_eq, passed_noteWindow, passed_processBatch]

theorem errorWindows_afterBatch :
    (SomeHandlerFails input.envs 0 st.db (handedOver log toLedger st input) ∧
      (afterBatch log toLedger st input).errorWindows =
        st.errorWindows ++ [(st.currentLedger, batchEnd toLedger st.currentLedger)]) ∨
    (¬ SomeHandlerFails input.envs 0 st.db (handedOver log toLedger st input) ∧
      (afterBatch log toLedger st input).errorWindows = st.errorWindows) := by
  have hcount := errorCount_processBatch_eq_iff input.envs 0 st (handedOver log toLedger st input)
  rw [afterBatch_eq, BackfillLoop.noteWindow]
  split
  · rename_i hsame
    exact .inr ⟨hcount.mp hsame, errorWindows_processBatch ..⟩
  · rename_i hmore
    refine .inl ⟨?_, by simp⟩
    by_contra hnone
    exact hmore (hcount.mpr hnone)

/-- One step of the loop while it is in range. -/
theorem backfillStep_looping (h : st.currentLedger ≤ toLedger) :
    backfillStep log toLedger (.looping st) input =
      if input.updateOk then .looping ((afterBatch log toLedger st input).persist toLedger)
      else .failed ((afterBatch log toLedger st input).fail (.unavailable .progressWrite)) := by
  simp only [backfillStep, h, ↓reduceIte, runBatch_eq]

end Body

section Advance

variable {toLedger} {currentLedger : Nat} {events : List RawEvent}

theorem mem_batchEvents {event : RawEvent} :
    event ∈ batchEvents toLedger currentLedger events ↔
      event ∈ events ∧ InWindow toLedger currentLedger event := by
  simp [batchEvents, InWindow]

theorem le_batchEnd (h : currentLedger ≤ toLedger) :
    currentLedger ≤ batchEnd toLedger currentLedger := by
  unfold batchEnd BATCH_SIZE
  omega

theorem batchEnd_le (toLedger currentLedger : Nat) :
    batchEnd toLedger currentLedger ≤ toLedger := by
  unfold batchEnd
  omega

/-- The two ways on. A full page whose last event in the window lies before
the window's end sends the loop back to that event's ledger. -/
theorem nextLedger_cases (toLedger currentLedger : Nat) (events : List RawEvent) :
    (PAGE_LIMIT ≤ events.length ∧ ∃ last ∈ events, InWindow toLedger currentLedger last ∧
      (∀ event ∈ events, event.ledger ≤ batchEnd toLedger currentLedger →
        currentLedger ≤ event.ledger → event.ledger ≤ last.ledger) ∧
      last.ledger < batchEnd toLedger currentLedger ∧
      nextLedger toLedger currentLedger events = last.ledger) ∨
    (nextLedger toLedger currentLedger events = batchEnd toLedger currentLedger + 1 ∧
      (events.length < PAGE_LIMIT ∨
        (∀ event ∈ events, ¬ InWindow toLedger currentLedger event) ∨
        ∃ last ∈ events, InWindow toLedger currentLedger last ∧
          last.ledger = batchEnd toLedger currentLedger)) := by
  unfold nextLedger
  cases hmax : ((batchEvents toLedger currentLedger events).map RawEvent.ledger).max? with
  | none =>
      refine .inr ⟨rfl, .inr (.inl ?_)⟩
      intro event hevent hwindow
      have hempty := List.max?_eq_none_iff.mp hmax
      have hmem := mem_batchEvents.mpr ⟨hevent, hwindow⟩
      rw [List.map_eq_nil_iff.mp hempty] at hmem
      cases hmem
  | some lastEventLedger =>
      obtain ⟨hlastMem, hlargest⟩ := List.max?_eq_some_iff.mp hmax
      obtain ⟨last, hlast, rfl⟩ := List.mem_map.mp hlastMem
      obtain ⟨hevents, hwindow⟩ := mem_batchEvents.mp hlast
      simp only
      split
      · rename_i hdense
        refine .inl ⟨hdense.1, last, hevents, hwindow, ?_, hdense.2, rfl⟩
        intro event hevent hend hstart
        exact hlargest _ (List.mem_map_of_mem (mem_batchEvents.mpr ⟨hevent, hstart, hend⟩))
      · rename_i hjump
        refine .inr ⟨rfl, ?_⟩
        rcases Nat.lt_or_ge events.length PAGE_LIMIT with hshort | hfull
        · exact .inl hshort
        · refine .inr (.inr ⟨last, hevents, hwindow, ?_⟩)
          have hnot : ¬ last.ledger < batchEnd toLedger currentLedger :=
            fun hlt => hjump ⟨hfull, hlt⟩
          have hle := hwindow.2
          omega

theorem le_nextLedger (events : List RawEvent) (h : currentLedger ≤ toLedger) :
    currentLedger ≤ nextLedger toLedger currentLedger events := by
  have hend := le_batchEnd h
  rcases nextLedger_cases toLedger currentLedger events with
    ⟨_, last, _, hwindow, _, _, hnext⟩ | ⟨hnext, _⟩
  · rw [hnext]
    exact hwindow.1
  · omega

theorem nextLedger_le (toLedger currentLedger : Nat) (events : List RawEvent) :
    nextLedger toLedger currentLedger events ≤ batchEnd toLedger currentLedger + 1 := by
  rcases nextLedger_cases toLedger currentLedger events with
    ⟨_, last, _, _, _, hlt, hnext⟩ | ⟨hnext, _⟩
  · omega
  · omega

end Advance

/-- The iteration leaves this event of its window behind: its fetch failed, or
its page reaches into the window's last ledger and is cut there. -/
def Skips (input : BatchInput) (currentLedger : Nat) (event : RawEvent) : Prop :=
  InWindow toLedger currentLedger event ∧
    (input.rpcOk = false ∨
      event.ledger = batchEnd toLedger currentLedger ∧
        event ∉ log.getEvents currentLedger ∧
        ∃ seen ∈ log.getEvents currentLedger, seen.ledger = batchEnd toLedger currentLedger)

/-- A page that only shows later ledgers has nothing to cut off before them. -/
theorem getEvents_of_beyond {log : ContractLog} {currentLedger : Nat} {event : RawEvent}
    (hlog : event ∈ log.events) (hstart : currentLedger ≤ event.ledger)
    (hbeyond : ∀ seen ∈ log.getEvents currentLedger, event.ledger < seen.ledger) :
    event ∈ log.getEvents currentLedger := by
  rcases Nat.lt_or_ge (log.getEvents currentLedger).length PAGE_LIMIT with hshort | hfull
  · exact mem_page_of_not_full hshort hlog hstart
  · have hpos : 0 < (log.getEvents currentLedger).length := lt_of_lt_of_le (by decide) hfull
    obtain ⟨seen, hseen⟩ := List.exists_mem_of_length_pos hpos
    exact mem_page_of_lt log.ordered hseen hlog hstart (hbeyond seen hseen)

/-- Exactly the skipped events lie behind the loop without having been passed. -/
theorem left_behind_iff {log : ContractLog} {toLedger : Nat} {input : BatchInput}
    {currentLedger : Nat} {event : RawEvent} (hlog : event ∈ log.events)
    (hstart : currentLedger ≤ event.ledger) :
    (event.ledger < nextLedger toLedger currentLedger (pageOf log input currentLedger) ∧
      event ∉ batchEvents toLedger currentLedger (pageOf log input currentLedger)) ↔
      Skips log toLedger input currentLedger event := by
  have hcases := nextLedger_cases toLedger currentLedger (pageOf log input currentLedger)
  rw [mem_batchEvents, Skips]
  cases hrpc : input.rpcOk with
  | false =>
      have hempty : pageOf log input currentLedger = [] := by simp [pageOf, hrpc]
      rw [hempty] at hcases ⊢
      rcases hcases with ⟨_, last, hlast, _⟩ | ⟨hnext, _⟩
      · cases hlast
      · simp only [hnext, List.not_mem_nil, false_and, not_false_eq_true, and_true, true_or]
        constructor
        · intro hlt
          exact ⟨hstart, by omega⟩
        · intro hwindow
          have hend := hwindow.2
          omega
  | true =>
      have hpage : pageOf log input currentLedger = log.getEvents currentLedger := by
        simp [pageOf, hrpc]
      rw [hpage] at hcases ⊢
      rcases hcases with ⟨_, last, hlast, hwindow, hlargest, hlt, hnext⟩ | ⟨hnext, hwhy⟩
      · constructor
        · -- everything before the last seen ledger is on the page
          rintro ⟨hbehind, hmissing⟩
          rw [hnext] at hbehind
          have hin := mem_page_of_lt log.ordered hlast hlog hstart hbehind
          have hend : event.ledger ≤ batchEnd toLedger currentLedger := by omega
          exact absurd ⟨hin, hstart, hend⟩ hmissing
        · rintro ⟨hin, hfailed | ⟨_, _, seen, hseen, hseenEnd⟩⟩
          · cases hfailed
          · have hstartSeen := (mem_log_of_mem_page hseen).2
            have hle := hlargest seen hseen (by omega) hstartSeen
            omega
      · constructor
        · rintro ⟨hbehind, hmissing⟩
          have hin : InWindow toLedger currentLedger event := ⟨hstart, by omega⟩
          have hoff : event ∉ log.getEvents currentLedger := fun hmem => hmissing ⟨hmem, hin⟩
          refine ⟨hin, .inr ?_⟩
          rcases hwhy with hshort | hnone | ⟨last, hlast, _, hend⟩
          · exact absurd (mem_page_of_not_full hshort hlog hstart) hoff
          · refine absurd (getEvents_of_beyond hlog hstart fun seen hseen => ?_) hoff
            have hseenStart := (mem_log_of_mem_page hseen).2
            have hbeyond : ¬ seen.ledger ≤ batchEnd toLedger currentLedger :=
              fun hle => hnone seen hseen ⟨hseenStart, hle⟩
            have hend := hin.2
            omega
          · have hledger : event.ledger = batchEnd toLedger currentLedger := by
              by_contra hne
              have hend' := hin.2
              exact hoff (mem_page_of_lt log.ordered hlast hlog hstart (by omega))
            exact ⟨hledger, hoff, last, hlast, hend⟩
        · rintro ⟨hin, hfailed | ⟨_, hoff, _⟩⟩
          · cases hfailed
          · have hend := hin.2
            exact ⟨by omega, fun hmem => hoff hmem.1⟩

end ChainSettle
