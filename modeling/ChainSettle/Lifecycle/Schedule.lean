import ChainSettle.Semantics.Database

/-!
What a milestone settles to when its events are attempted in some order. An
`Outcome` is what the chain has settled about a milestone, `Outcome.apply` is
what one event does to it, and a schedule is a list of attempts, of which a
failed one may or may not have had its effect.

For a path of the contract's state machine the order does not matter for the
proof hash and the payment. It matters for the status, which is the one that
the last attempt announces.
-/

namespace ChainSettle

/-- The status, the proof hash and the released payment of a milestone. -/
structure Outcome where
  status : MilestoneStatus
  proofHash : Option String
  paymentReleased : Option Int
deriving DecidableEq

/-- The contract events of one milestone. -/
inductive Move where
  | proofSubmitted
  | confirmed (amount : Option Int)
  | disputed
  | resolved (approved : Bool)
deriving DecidableEq

/-- The status the event announces. -/
def Move.target : Move → MilestoneStatus
  | .proofSubmitted => .proofSubmitted
  | .confirmed _ => .confirmed
  | .disputed => .disputed
  | .resolved approved => if approved then .resolved else .pending

/-- The contract's state machine. -/
def Move.Allowed (status : MilestoneStatus) : Move → Prop
  | .proofSubmitted => status = .pending
  | .confirmed _ => status = .proofSubmitted
  | .disputed => status = .pending ∨ status = .proofSubmitted
  | .resolved _ => status = .disputed

/-- A path of the contract's state machine. -/
def ContractPath : MilestoneStatus → List Move → Prop
  | _, [] => True
  | status, move :: rest => move.Allowed status ∧ ContractPath move.target rest

/-- What a handler that gets through does, whatever the status is. Only a
confirmation looks at it first. -/
def Outcome.apply (o : Outcome) : Move → Outcome
  | .proofSubmitted => { o with status := .proofSubmitted, proofHash := some "" }
  | .confirmed amount =>
      if o.status = .confirmed then o
      else { o with status := .confirmed, paymentReleased := amount }
  | move => { o with status := move.target }

section Schedules

/-- Attempts in the order in which they happen. The flag says whether the
attempt returned normally; one that failed may have had its effect before. -/
inductive Attempts : Outcome → List (Move × Bool) → Outcome → Prop where
  | nil (o : Outcome) : Attempts o [] o
  | effective {o final : Outcome} {move : Move} {ok : Bool} {rest : List (Move × Bool)} :
      Attempts (o.apply move) rest final → Attempts o ((move, ok) :: rest) final
  | lost {o final : Outcome} {move : Move} {rest : List (Move × Bool)} :
      Attempts o rest final → Attempts o ((move, false) :: rest) final

@[simp] theorem apply_status (o : Outcome) (move : Move) :
    (o.apply move).status = move.target := by
  cases move with
  | confirmed amount =>
      simp only [Outcome.apply]
      split
      · assumption
      · rfl
  | _ => rfl

theorem target_ne_confirmed {move : Move} (h : ∀ amount, move ≠ .confirmed amount) :
    move.target ≠ .confirmed := by
  cases move with
  | confirmed amount => exact absurd rfl (h amount)
  | proofSubmitted => nofun
  | disputed => nofun
  | resolved approved => cases approved <;> nofun

theorem apply_proofHash (o : Outcome) {move : Move} (h : move ≠ .proofSubmitted) :
    (o.apply move).proofHash = o.proofHash := by
  cases move with
  | proofSubmitted => exact absurd rfl h
  | confirmed amount =>
      simp only [Outcome.apply]
      split <;> rfl
  | disputed => rfl
  | resolved approved => rfl

theorem apply_paymentReleased (o : Outcome) {move : Move}
    (h : ∀ amount, move ≠ .confirmed amount) :
    (o.apply move).paymentReleased = o.paymentReleased := by
  cases move with
  | confirmed amount => exact absurd rfl (h amount)
  | proofSubmitted => rfl
  | disputed => rfl
  | resolved approved => rfl

/-- The last attempt decides the status. -/
theorem attempts_status {o final : Outcome} {trace : List (Move × Bool)} {last : Move}
    (h : Attempts o trace final) (hlast : trace.getLast? = some (last, true)) :
    final.status = last.target := by
  induction h with
  | nil => cases hlast
  | @effective o final move ok rest hrest ih =>
      cases rest with
      | nil =>
          cases hrest
          cases hlast
          exact apply_status o _
      | cons next rest => exact ih (by simpa using hlast)
  | @lost o final move rest hrest ih =>
      cases rest with
      | nil => cases hlast
      | cons next rest => exact ih (by simpa using hlast)

/-- Without a proof event the hash stays. -/
theorem attempts_hash_frame {o final : Outcome} {trace : List (Move × Bool)}
    (h : Attempts o trace final) (hnone : ∀ entry ∈ trace, entry.1 ≠ .proofSubmitted) :
    final.proofHash = o.proofHash := by
  induction h with
  | nil => rfl
  | @effective o final move ok rest _ ih =>
      rw [ih fun entry hentry => hnone entry (.tail _ hentry)]
      exact apply_proofHash o (hnone (move, ok) (.head _))
  | lost _ ih => exact ih fun entry hentry => hnone entry (.tail _ hentry)

theorem attempts_hash_kept {o final : Outcome} {trace : List (Move × Bool)}
    (h : Attempts o trace final) (ho : o.proofHash = some "") : final.proofHash = some "" := by
  induction h with
  | nil => exact ho
  | @effective o final move ok rest _ ih =>
      apply ih
      rcases eq_or_ne move .proofSubmitted with rfl | hother
      · rfl
      · exact (apply_proofHash o hother).trans ho
  | lost _ ih => exact ih ho

/-- A proof event that gets through leaves the empty hash for good. -/
theorem attempts_hash {o final : Outcome} {trace : List (Move × Bool)}
    (h : Attempts o trace final) (hproof : (.proofSubmitted, true) ∈ trace) :
    final.proofHash = some "" := by
  induction h with
  | nil => cases hproof
  | @effective o final move ok rest hrest ih =>
      rcases List.mem_cons.mp hproof with hhead | htail
      · cases hhead
        exact attempts_hash_kept hrest rfl
      · exact ih htail
  | lost _ ih =>
      rcases List.mem_cons.mp hproof with hhead | htail
      · cases hhead
      · exact ih htail

theorem attempts_payment_frame {o final : Outcome} {trace : List (Move × Bool)}
    (h : Attempts o trace final) (hnone : ∀ amount ok, (.confirmed amount, ok) ∉ trace) :
    final.paymentReleased = o.paymentReleased := by
  induction h with
  | nil => rfl
  | @effective o final move ok rest _ ih =>
      rw [ih fun amount ok hmem => hnone amount ok (.tail _ hmem)]
      apply apply_paymentReleased
      rintro amount rfl
      exact hnone amount ok (.head _)
  | lost _ ih => exact ih fun amount ok hmem => hnone amount ok (.tail _ hmem)

/-- When all confirmations carry one amount and a confirmed row already holds
it, a confirmation that gets through leaves that amount. -/
theorem attempts_payment {o final : Outcome} {trace : List (Move × Bool)} {amount : Option Int}
    (h : Attempts o trace final)
    (hone : ∀ other ok, (.confirmed other, ok) ∈ trace → other = amount)
    (hpaid : o.status = .confirmed → o.paymentReleased = amount)
    (hconfirmed : o.paymentReleased = amount ∨ (.confirmed amount, true) ∈ trace) :
    final.paymentReleased = amount := by
  induction h with
  | nil =>
      rcases hconfirmed with hheld | hmem
      · exact hheld
      · cases hmem
  | @effective o final move ok rest _ ih =>
      have hrest : ∀ other ok, (.confirmed other, ok) ∈ rest → other = amount :=
        fun other ok hmem => hone other ok (.tail _ hmem)
      by_cases hmove : ∃ other, move = .confirmed other
      · obtain ⟨other, rfl⟩ := hmove
        have hother : other = amount := hone other ok (.head _)
        have happlied : (o.apply (.confirmed other)).paymentReleased = amount := by
          simp only [Outcome.apply]
          split
          · rename_i hstatus
            exact hpaid hstatus
          · exact hother
        exact ih hrest (fun _ => happlied) (.inl happlied)
      · have hne : ∀ other, move ≠ .confirmed other := fun other heq => hmove ⟨other, heq⟩
        refine ih hrest ?_ ?_
        · intro hstatus
          rw [apply_status] at hstatus
          exact absurd hstatus (target_ne_confirmed hne)
        · rcases hconfirmed with hheld | hmem
          · exact .inl ((apply_paymentReleased o hne).trans hheld)
          · rcases List.mem_cons.mp hmem with hhead | htail
            · cases hhead
              exact absurd rfl (hne amount)
            · exact .inr htail
  | lost _ ih =>
      refine ih (fun other ok hmem => hone other ok (.tail _ hmem)) hpaid ?_
      rcases hconfirmed with hheld | hmem
      · exact .inl hheld
      · rcases List.mem_cons.mp hmem with hhead | htail
        · cases hhead
        · exact .inr htail

theorem path_of_confirmed {moves : List Move} (h : ContractPath .confirmed moves) :
    moves = [] := by
  cases moves with
  | nil => rfl
  | cons move rest =>
      have hallowed := h.1
      cases move <;> simp [Move.Allowed] at hallowed

/-- A path confirms at most once, at its end, and not from `CONFIRMED`. -/
theorem path_confirms_once {status : MilestoneStatus} {moves : List Move} {amount : Option Int}
    (h : ContractPath status moves) (hmem : .confirmed amount ∈ moves) :
    status ≠ .confirmed ∧ ∀ other, .confirmed other ∈ moves → other = amount := by
  have hstart : status ≠ .confirmed := by
    rintro rfl
    rw [path_of_confirmed h] at hmem
    cases hmem
  refine ⟨hstart, ?_⟩
  induction moves generalizing status with
  | nil => cases hmem
  | cons move rest ih =>
      intro other hother
      by_cases hmove : ∃ first, move = .confirmed first
      · obtain ⟨first, rfl⟩ := hmove
        have hnil : rest = [] := path_of_confirmed h.2
        subst hnil
        simp only [List.mem_singleton, Move.confirmed.injEq] at hmem hother
        rw [hmem, hother]
      · have hne : ∀ first, move ≠ .confirmed first := fun first heq => hmove ⟨first, heq⟩
        have hmem' : .confirmed amount ∈ rest :=
          (List.mem_cons.mp hmem).resolve_left fun heq => hne amount heq.symm
        have hother' : .confirmed other ∈ rest :=
          (List.mem_cons.mp hother).resolve_left fun heq => hne other heq.symm
        exact ih h.2 hmem' (target_ne_confirmed hne) other hother'

/-- A schedule that deals with every event: its attempts are attempts of the
given events, each of them gets through once, and so does the last attempt. -/
structure Complete (moves : List Move) (trace : List (Move × Bool)) : Prop where
  only : ∀ entry ∈ trace, entry.1 ∈ moves
  every : ∀ move ∈ moves, (move, true) ∈ trace
  last : ∀ entry, trace.getLast? = some entry → entry.2 = true

variable {o final final' : Outcome} {moves : List Move} {trace trace' : List (Move × Bool)}

/-- Two complete schedules of one path agree on the hash. -/
theorem complete_hash (ht : Complete moves trace) (ht' : Complete moves trace')
    (h : Attempts o trace final) (h' : Attempts o trace' final') :
    final.proofHash = final'.proofHash := by
  by_cases hproof : Move.proofSubmitted ∈ moves
  · rw [attempts_hash h (ht.every _ hproof), attempts_hash h' (ht'.every _ hproof)]
  · have hnone : ∀ {other : List (Move × Bool)}, Complete moves other →
        ∀ entry ∈ other, entry.1 ≠ .proofSubmitted := by
      intro other hother entry hentry heq
      exact hproof (heq ▸ hother.only entry hentry)
    rw [attempts_hash_frame h (hnone ht), attempts_hash_frame h' (hnone ht')]

theorem complete_payment (hpath : ContractPath o.status moves) (ht : Complete moves trace)
    (ht' : Complete moves trace') (h : Attempts o trace final) (h' : Attempts o trace' final') :
    final.paymentReleased = final'.paymentReleased := by
  by_cases hconfirmed : ∃ amount, Move.confirmed amount ∈ moves
  · obtain ⟨amount, hamount⟩ := hconfirmed
    obtain ⟨hstart, hone⟩ := path_confirms_once hpath hamount
    have hpaid : ∀ {other : List (Move × Bool)} {last : Outcome}, Complete moves other →
        Attempts o other last → last.paymentReleased = amount := by
      intro other last hother hrun
      exact attempts_payment hrun (fun b ok hmem => hone b (hother.only _ hmem))
        (fun hstatus => absurd hstatus hstart) (.inr (hother.every _ hamount))
    rw [hpaid ht h, hpaid ht' h']
  · have hnone : ∀ {other : List (Move × Bool)}, Complete moves other →
        ∀ amount ok, (Move.confirmed amount, ok) ∉ other := by
      intro other hother amount ok hmem
      exact hconfirmed ⟨amount, hother.only _ hmem⟩
    rw [attempts_payment_frame h (hnone ht), attempts_payment_frame h' (hnone ht')]

theorem complete_status (ht : Complete moves trace) (h : Attempts o trace final) :
    final.status = (trace.getLast?.map fun entry => entry.1.target).getD o.status := by
  cases hlast : trace.getLast? with
  | none =>
      obtain rfl : trace = [] := List.getLast?_eq_none_iff.mp hlast
      cases h
      rfl
  | some entry =>
      obtain ⟨last, ok⟩ := entry
      obtain rfl : ok = true := ht.last _ hlast
      exact attempts_status h hlast

theorem complete_nil_iff (ht : Complete moves trace) : trace = [] ↔ moves = [] := by
  constructor
  · rintro rfl
    cases moves with
    | nil => rfl
    | cons move rest => cases ht.every move (.head _)
  · rintro rfl
    cases trace with
    | nil => rfl
    | cons entry rest => cases ht.only entry (.head _)

/-- Two complete schedules of one path end alike exactly when their last
attempts announce the same status. -/
theorem complete_agree_iff (hpath : ContractPath o.status moves) (ht : Complete moves trace)
    (ht' : Complete moves trace') (h : Attempts o trace final) (h' : Attempts o trace' final') :
    final = final' ↔
      (trace.getLast?.map fun entry => entry.1.target) =
        trace'.getLast?.map fun entry => entry.1.target := by
  have hstatus : final.status = final'.status ↔
      (trace.getLast?.map fun entry => entry.1.target) =
        trace'.getLast?.map fun entry => entry.1.target := by
    rw [complete_status ht h, complete_status ht' h']
    have hnil : trace = [] ↔ trace' = [] := (complete_nil_iff ht).trans (complete_nil_iff ht').symm
    cases hlast : trace.getLast? with
    | none =>
        have htrace := List.getLast?_eq_none_iff.mp hlast
        rw [hnil.mp htrace]
        simp
    | some entry =>
        cases hlast' : trace'.getLast? with
        | none =>
            have htrace' := List.getLast?_eq_none_iff.mp hlast'
            rw [hnil.mpr htrace'] at hlast
            cases hlast
        | some entry' => simp
  rw [← hstatus]
  constructor
  · rintro rfl
    rfl
  · intro hsame
    cases final
    cases final'
    simp only [Outcome.mk.injEq]
    exact ⟨hsame, complete_hash ht ht' h h', complete_payment hpath ht ht' h h'⟩

end Schedules

end ChainSettle
