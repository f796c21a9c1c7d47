/-!
Fallible stateful programs. An `Eff ε σ` program either returns a value or
throws, and in both cases the state it reached is kept: an exception does not
roll back the writes made before it, unlike a `StateT` over `Except`.

`exec` runs a program; the simp lemmas below push it through the constructors
of the monad, so that a program is executed symbolically from its source text.
-/

namespace Lib

abbrev Eff (ε σ : Type) := ExceptT ε (StateM σ)

namespace Eff

variable {ε σ α β : Type}

/-- The outcome of a program and the state it leaves behind. -/
def exec (m : Eff ε σ α) (s : σ) : Except ε α × σ :=
  (ExceptT.run m).run s

/-- The state a program leaves behind, whether or not it threw. -/
def after (m : Eff ε σ α) (s : σ) : σ :=
  (exec m s).2

/-- The program returned normally. -/
def Succeeds (m : Eff ε σ α) (s : σ) : Prop :=
  ∃ value, (exec m s).1 = .ok value

instance (m : Eff ε σ α) (s : σ) : Decidable (Succeeds m s) :=
  match h : (exec m s).1 with
  | .ok value => isTrue ⟨value, h⟩
  | .error _ => isFalse fun ⟨_, hvalue⟩ => by
      rw [h] at hvalue
      cases hvalue

@[simp] theorem exec_pure (value : α) (s : σ) :
    exec (pure value : Eff ε σ α) s = (.ok value, s) := rfl

@[simp] theorem exec_throw (err : ε) (s : σ) :
    exec (throw err : Eff ε σ α) s = (.error err, s) := rfl

@[simp] theorem exec_get (s : σ) :
    exec (get : Eff ε σ σ) s = (.ok s, s) := rfl

@[simp] theorem exec_modify (f : σ → σ) (s : σ) :
    exec (modify f : Eff ε σ Unit) s = (.ok (), f s) := rfl

/-- Sequencing continues from the state the first program left. -/
theorem exec_bind (m : Eff ε σ α) (f : α → Eff ε σ β) (s : σ) :
    exec (m >>= f) s =
      match exec m s with
      | (.ok value, next) => exec (f value) next
      | (.error err, next) => (.error err, next) := by
  change (ExceptT.bind m f).run.run s = _
  unfold exec
  simp only [ExceptT.bind, ExceptT.run, ExceptT.mk]
  cases hrun : StateT.run m s with
  | mk outcome next =>
      cases outcome <;> simp [StateT.run_bind, hrun, ExceptT.bindCont] <;> rfl

theorem exec_ite (c : Prop) [Decidable c] (first second : Eff ε σ α) (s : σ) :
    exec (if c then first else second) s = if c then exec first s else exec second s := by
  split <;> rfl

/-- The handler of an exception starts in the state the body left. -/
theorem exec_tryCatch (m : Eff ε σ α) (handle : ε → Eff ε σ α) (s : σ) :
    exec (tryCatch m handle) s =
      match exec m s with
      | (.ok value, next) => (.ok value, next)
      | (.error err, next) => exec (handle err) next := by
  change (ExceptT.tryCatch m handle).run.run s = _
  unfold exec
  simp only [ExceptT.tryCatch, ExceptT.run, ExceptT.mk]
  cases hrun : StateT.run m s with
  | mk outcome next =>
      cases outcome <;> simp [StateT.run_bind, hrun] <;> rfl

theorem after_bind (m : Eff ε σ α) (f : α → Eff ε σ β) (s : σ) :
    after (m >>= f) s =
      match exec m s with
      | (.ok value, next) => after (f value) next
      | (.error _, next) => next := by
  unfold after
  rw [exec_bind]
  split <;> simp [*]

/-- A continuation that only reads does not show in the final state. -/
theorem after_bind_readOnly (m : Eff ε σ α) {f : α → Eff ε σ β}
    (hf : ∀ value next, after (f value) next = next) (s : σ) :
    after (m >>= f) s = after m s := by
  rw [after_bind]
  split
  · rename_i hrun
    rw [hf, after, hrun]
  · rename_i hrun
    rw [after, hrun]

/-- A program that begins by reading: what holds of the initial state and of
every continuation from it holds at the end. -/
theorem after_bind_reading {P : σ → Prop} {m : Eff ε σ α} {f : α → Eff ε σ β} {s : σ}
    (hread : after m s = s) (hstop : P s)
    (hcontinue : ∀ value, exec m s = (.ok value, s) → P (after (f value) s)) :
    P (after (m >>= f) s) := by
  rw [after_bind]
  cases hrun : exec m s with
  | mk outcome next =>
      have hnext : next = s := by
        rw [after, hrun] at hread
        exact hread
      subst hnext
      cases outcome with
      | ok value => exact hcontinue value hrun
      | error _ => exact hstop

/-- A check that throws: the rest of the program runs where it passed. -/
theorem after_guard {c : Prop} [Decidable c] {err : ε} {k : α → Eff ε σ β} {m : Eff ε σ β} {s : σ}
    (h : ¬ c → after m s = s) : after (if c then (throw err >>= k) else m) s = s := by
  by_cases hc : c
  · rw [if_pos hc]
    rfl
  · rw [if_neg hc]
    exact h hc

/-- A sequence returns normally when both parts do. -/
theorem succeeds_bind_iff (m : Eff ε σ α) (f : α → Eff ε σ β) (s : σ) :
    Succeeds (m >>= f) s ↔
      ∃ value next, exec m s = (.ok value, next) ∧ Succeeds (f value) next := by
  unfold Succeeds
  rw [exec_bind]
  constructor
  · rintro ⟨result, hresult⟩
    split at hresult
    · rename_i value next hrun
      exact ⟨value, next, hrun, result, hresult⟩
    · cases hresult
  · rintro ⟨value, next, hrun, hresult⟩
    rw [hrun]
    exact hresult

@[simp] theorem succeeds_pure (value : α) (s : σ) : Succeeds (pure value : Eff ε σ α) s :=
  ⟨value, rfl⟩

@[simp] theorem not_succeeds_throw (err : ε) (s : σ) : ¬ Succeeds (throw err : Eff ε σ α) s := by
  rintro ⟨value, hvalue⟩
  cases hvalue

/-- After a part that returned, the rest decides. -/
theorem succeeds_bind_of_ok {m : Eff ε σ α} {f : α → Eff ε σ β} {s next : σ} {value : α}
    (h : exec m s = (.ok value, next)) : Succeeds (m >>= f) s ↔ Succeeds (f value) next := by
  unfold Succeeds
  rw [exec_bind, h]

theorem not_succeeds_bind_of_error {m : Eff ε σ α} {f : α → Eff ε σ β} {s next : σ} {err : ε}
    (h : exec m s = (.error err, next)) : ¬ Succeeds (m >>= f) s := by
  unfold Succeeds
  rw [exec_bind, h]
  rintro ⟨value, hvalue⟩
  cases hvalue

/-- A check that throws lets the program succeed only where it passes. -/
theorem succeeds_guard_iff {c : Prop} [Decidable c] {err : ε} {k : α → Eff ε σ β} {m : Eff ε σ β}
    {s : σ} : Succeeds (if c then (throw err >>= k) else m) s ↔ ¬ c ∧ Succeeds m s := by
  by_cases hc : c
  · rw [if_pos hc]
    exact iff_of_false (not_succeeds_bind_of_error (exec_throw err s)) fun h => h.1 hc
  · rw [if_neg hc]
    exact (and_iff_right hc).symm

/-- A loop whose body always returns, and whose effect does not depend on the
accumulator. -/
theorem exec_foldlM {f : β → α → Eff ε σ β} {step : σ → α → σ}
    (h : ∀ acc item s, ∃ value, exec (f acc item) s = (.ok value, step s item)) (items : List α)
    (acc : β) (s : σ) :
    ∃ value, exec (items.foldlM f acc) s = (.ok value, items.foldl step s) := by
  induction items generalizing acc s with
  | nil => exact ⟨acc, rfl⟩
  | cons item rest ih =>
      obtain ⟨value, hvalue⟩ := h acc item s
      obtain ⟨result, hresult⟩ := ih value (step s item)
      refine ⟨result, ?_⟩
      rw [List.foldlM_cons, exec_bind, hvalue, List.foldl_cons]
      exact hresult

section ReadOnly

/-- The program leaves the state alone, and what it returns, if it returns,
meets `Q`. -/
def ReadOnly (m : Eff ε σ α) (s : σ) (Q : α → Prop) : Prop :=
  (∃ err, exec m s = (.error err, s)) ∨ ∃ value, exec m s = (.ok value, s) ∧ Q value

theorem readOnly_pure {value : α} {s : σ} {Q : α → Prop} (h : Q value) :
    ReadOnly (pure value : Eff ε σ α) s Q :=
  .inr ⟨value, rfl, h⟩

theorem readOnly_throw (err : ε) (s : σ) (Q : α → Prop) :
    ReadOnly (throw err : Eff ε σ α) s Q :=
  .inl ⟨err, rfl⟩

theorem readOnly_get (s : σ) : ReadOnly (get : Eff ε σ σ) s (· = s) :=
  .inr ⟨s, rfl, rfl⟩

theorem readOnly_bind {m : Eff ε σ α} {f : α → Eff ε σ β} {s : σ} {P : α → Prop} {Q : β → Prop}
    (hm : ReadOnly m s P) (hf : ∀ value, P value → ReadOnly (f value) s Q) :
    ReadOnly (m >>= f) s Q := by
  unfold ReadOnly
  rw [exec_bind]
  rcases hm with ⟨err, herr⟩ | ⟨value, hvalue, hp⟩
  · rw [herr]
    exact .inl ⟨err, rfl⟩
  · rw [hvalue]
    exact hf value hp

/-- A check that throws: the rest of the program runs where it passed. -/
theorem readOnly_guard {c : Prop} [Decidable c] {err : ε} {k : α → Eff ε σ β} {m : Eff ε σ β}
    {s : σ} {Q : β → Prop} (h : ¬ c → ReadOnly m s Q) :
    ReadOnly (if c then (throw err >>= k) else m) s Q := by
  by_cases hc : c
  · rw [if_pos hc]
    exact .inl ⟨err, rfl⟩
  · rw [if_neg hc]
    exact h hc

end ReadOnly

section Suspended

variable {κ : Type}

/-- One statement of a suspended program: the state after it and what is left of
the program, nothing if it threw. -/
def resume (m : Eff ε σ (Option κ)) (s : σ) : σ × Option κ :=
  match exec m s with
  | (.ok rest, next) => (next, rest)
  | (.error _, next) => (next, none)

/-- A suspended program to its end: at most so many statements, with nothing in
between. -/
def complete (statement : κ → Eff ε σ (Option κ)) : Nat → κ → σ → σ
  | 0, _, s => s
  | steps + 1, call, s =>
      match resume (statement call) s with
      | (next, none) => next
      | (next, some rest) => complete statement steps rest next

/-- The same as one program, with its outcome. -/
def whole (statement : κ → Eff ε σ (Option κ)) : Nat → κ → Eff ε σ Unit
  | 0, _ => pure ()
  | steps + 1, call => do
      match ← statement call with
      | none => return
      | some rest => whole statement steps rest

theorem resume_ok {m : Eff ε σ (Option κ)} {s next : σ} {rest : Option κ}
    (h : exec m s = (.ok rest, next)) : resume m s = (next, rest) := by
  simp only [resume, h]

theorem resume_error {m : Eff ε σ (Option κ)} {s next : σ} {err : ε}
    (h : exec m s = (.error err, next)) : resume m s = (next, none) := by
  simp only [resume, h]

/-- A statement that only reads ends the program or takes it on. -/
theorem ReadOnly.resume_cases {m : Eff ε σ (Option κ)} {s : σ} {Q : Option κ → Prop}
    (h : ReadOnly m s Q) : resume m s = (s, none) ∨ ∃ rest, resume m s = (s, rest) ∧ Q rest := by
  rcases h with ⟨err, herr⟩ | ⟨rest, hrest, hq⟩
  · exact .inl (resume_error herr)
  · exact .inr ⟨rest, resume_ok hrest, hq⟩

/-- What every statement of a program keeps, until one ends it, holds at the end
of the program. -/
theorem complete_rule {statement : κ → Eff ε σ (Option κ)} {P : κ → σ → Prop} {Q : σ → Prop}
    (hstop : ∀ call s, P call s → Q s)
    (hends : ∀ call s next, P call s → resume (statement call) s = (next, none) → Q next)
    (hgoes : ∀ call s next rest, P call s → resume (statement call) s = (next, some rest) →
      P rest next) (steps : Nat) {call : κ} {s : σ} (h : P call s) :
    Q (complete statement steps call s) := by
  induction steps generalizing call s with
  | zero => exact hstop call s h
  | succ steps ih =>
      unfold complete
      split
      · rename_i next hresume
        exact hends call s next h hresume
      · rename_i next rest hresume
        exact ih (hgoes call s next rest h hresume)

theorem resume_fst (m : Eff ε σ (Option κ)) (s : σ) : (resume m s).1 = after m s := by
  unfold resume after
  split <;> simp [*]

/-- The state in which the program ends. -/
theorem after_whole (statement : κ → Eff ε σ (Option κ)) (steps : Nat) (call : κ) (s : σ) :
    after (whole statement steps call) s = complete statement steps call s := by
  induction steps generalizing call s with
  | zero => rfl
  | succ steps ih =>
      unfold whole complete
      rw [after_bind]
      unfold resume
      cases exec (statement call) s with
      | mk outcome next =>
          cases outcome with
          | error err => rfl
          | ok rest =>
              cases rest with
              | none => rfl
              | some rest => exact ih rest next

/-- A program as part of a larger family of programs. -/
theorem resume_map {κ' : Type} (m : Eff ε σ (Option κ)) (g : κ → κ') (s : σ) :
    resume (m >>= fun rest => pure (rest.map g)) s =
      ((resume m s).1, (resume m s).2.map g) := by
  unfold resume
  rw [exec_bind]
  cases exec m s with
  | mk outcome next => cases outcome <;> rfl

/-- What every statement keeps, whatever the program is suspended before. -/
theorem complete_keeps {statement : κ → Eff ε σ (Option κ)} {P : σ → Prop}
    (hstep : ∀ call s, P s → P (after (statement call) s)) (steps : Nat) (call : κ) {s : σ}
    (h : P s) : P (complete statement steps call s) := by
  have hresume (call : κ) (s next : σ) (rest : Option κ) (hs : P s)
      (hnext : resume (statement call) s = (next, rest)) : P next := by
    have hthis := hstep call s hs
    rw [← resume_fst, hnext] at hthis
    exact hthis
  exact complete_rule (P := fun _ s => P s) (fun _ _ hs => hs)
    (fun call s next hs hnext => hresume call s next none hs hnext)
    (fun call s next rest hs hnext => hresume call s next (some rest) hs hnext) steps h

/-- A program of two statements. -/
theorem complete_two {statement : κ → Eff ε σ (Option κ)} {call next : κ} {m : Eff ε σ α}
    {m' : Eff ε σ β} (hfirst : statement call = m >>= fun _ => pure (some next))
    (hsecond : statement next = m' >>= fun _ => pure none) (s : σ) :
    complete statement 2 call s = after (m >>= fun _ => m') s := by
  rw [after_bind]
  simp only [complete, hfirst, resume, exec_bind]
  cases exec m s with
  | mk outcome mid =>
      cases outcome with
      | error err => rfl
      | ok value =>
          simp only [exec_pure, hsecond, exec_bind]
          rw [after]
          cases exec m' mid with
          | mk outcome last => cases outcome <;> rfl

end Suspended

section Focus

variable {τ : Type}

/-- A program on a part of the state. -/
def focus (get : σ → τ) (set : τ → σ → σ) (m : Eff ε τ α) : Eff ε σ α := fun s =>
  let (outcome, part) := exec m (get s)
  (outcome, set part s)

theorem exec_focus (get : σ → τ) (set : τ → σ → σ) (m : Eff ε τ α) (s : σ) :
    exec (focus get set m) s = ((exec m (get s)).1, set (exec m (get s)).2 s) := rfl

end Focus

end Eff

end Lib
