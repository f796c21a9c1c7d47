import Mathlib.Data.List.Induction

/-!
Runs of a transition system. Two kinds are used: a total step function, whose
run over a list of actions is `List.foldl`, and a partial one, where `none`
means that the action is not enabled.

`Along` and `StepsAlong` say that every action of a run meets a condition in
the state it is taken from. The rules below derive what holds of a whole run from what one
step does.
-/

namespace Lib

variable {σ α : Type}

section Total

variable (step : σ → α → σ)

/-- Every action of the run from `s` meets `P` in the state before it. -/
def Along (P : σ → α → Prop) : σ → List α → Prop
  | _, [] => True
  | s, a :: rest => P s a ∧ Along P (step s a) rest

variable {step}

instance {P : σ → α → Prop} [∀ s a, Decidable (P s a)] :
    (s : σ) → (actions : List α) → Decidable (Along step P s actions)
  | _, [] => inferInstanceAs (Decidable True)
  | s, a :: rest =>
      letI := instDecidableAlong (P := P) (step s a) rest
      inferInstanceAs (Decidable (P s a ∧ Along step P (step s a) rest))

/-- The same, action by action. -/
theorem along_iff_forall {P : σ → α → Prop} {s : σ} {actions : List α} :
    Along step P s actions ↔
      ∀ pre a post, actions = pre ++ a :: post → P (pre.foldl step s) a := by
  induction actions generalizing s with
  | nil =>
      refine ⟨fun _ pre a post hsplit => ?_, fun _ => trivial⟩
      cases pre <;> cases hsplit
  | cons b rest ih =>
      constructor
      · rintro ⟨hfirst, hrest⟩ pre a post hsplit
        cases pre with
        | nil =>
            cases hsplit
            exact hfirst
        | cons c pre =>
            cases hsplit
            exact ih.mp hrest pre a post rfl
      · intro h
        refine ⟨h [] b rest rfl, ih.mpr fun pre a post hsplit => ?_⟩
        exact h (b :: pre) a post (by rw [hsplit, List.cons_append])

theorem Along.and {P Q : σ → α → Prop} {s : σ} {actions : List α} (hP : Along step P s actions)
    (hQ : Along step Q s actions) : Along step (fun s a => P s a ∧ Q s a) s actions := by
  induction actions generalizing s with
  | nil => trivial
  | cons a rest ih => exact ⟨⟨hP.1, hQ.1⟩, ih hP.2 hQ.2⟩

/-- Invariant rule for total systems: what every allowed step keeps holds in
every state of an allowed run. -/
theorem Along.invariant {P : σ → α → Prop} {Inv : σ → Prop}
    (hstep : ∀ s a, Inv s → P s a → Inv (step s a)) {s : σ} {actions : List α}
    (h : Along step P s actions) (hinit : Inv s) :
    ∀ pre post, actions = pre ++ post → Inv (pre.foldl step s) := by
  induction actions generalizing s with
  | nil =>
      intro pre post hsplit
      obtain ⟨rfl, _⟩ := List.append_eq_nil_iff.mp hsplit.symm
      exact hinit
  | cons a rest ih =>
      intro pre post hsplit
      cases pre with
      | nil => exact hinit
      | cons b pre =>
          obtain ⟨rfl, hrestsplit⟩ : a = b ∧ rest = pre ++ post := by
            simpa using hsplit
          exact ih h.2 (hstep s a hinit h.1) pre post hrestsplit

/-- When a step from an invariant state keeps the invariant exactly if it is
allowed, a run stays in the invariant exactly if all its steps are allowed. -/
theorem along_iff_invariant {P : σ → α → Prop} {Inv : σ → Prop}
    (hstep : ∀ s a, Inv s → (Inv (step s a) ↔ P s a)) {s : σ} (hinit : Inv s)
    (actions : List α) :
    (∀ pre post, actions = pre ++ post → Inv (pre.foldl step s)) ↔ Along step P s actions := by
  refine ⟨fun h => ?_, fun h => h.invariant (fun s a hs => (hstep s a hs).mpr) hinit⟩
  induction actions generalizing s with
  | nil => trivial
  | cons a rest ih =>
      have hnext : Inv (step s a) := h [a] rest rfl
      refine ⟨(hstep s a hinit).mp hnext, ih hnext fun pre post hsplit => ?_⟩
      exact h (a :: pre) post (by rw [hsplit, List.cons_append])

/-- The same for a property that is decided step by step in the states of an
invariant of all runs. -/
theorem along_iff_property {P : σ → α → Prop} {Inv Good : σ → Prop}
    (hinv : ∀ s a, Inv s → Inv (step s a))
    (hstep : ∀ s a, Inv s → Good s → (Good (step s a) ↔ P s a)) {s : σ} (hinit : Inv s)
    (hgood : Good s) (actions : List α) :
    (∀ pre post, actions = pre ++ post → Good (pre.foldl step s)) ↔ Along step P s actions := by
  have hboth (s : σ) (a : α) (h : Inv s ∧ Good s) :
      (Inv (step s a) ∧ Good (step s a)) ↔ P s a := by
    rw [and_iff_right (hinv s a h.1)]
    exact hstep s a h.1 h.2
  have hreached (pre : List α) : Inv (pre.foldl step s) :=
    List.foldlRecOn pre step hinit fun s hs a _ => hinv s a hs
  rw [← along_iff_invariant hboth ⟨hinit, hgood⟩ actions]
  exact forall₃_congr fun pre _ _ => (and_iff_right (hreached pre)).symm

/-- A reflexive and transitive relation holds between any two states of a run,
in run order, exactly when every single step of the run satisfies it. -/
theorem along_iff_between {R : σ → σ → Prop} (hrefl : ∀ s, R s s)
    (htrans : ∀ s t u, R s t → R t u → R s u) (s : σ) (actions : List α) :
    (∀ pre mid post, actions = pre ++ mid ++ post →
        R (pre.foldl step s) ((pre ++ mid).foldl step s)) ↔
      Along step (fun t a => R t (step t a)) s actions := by
  induction actions generalizing s with
  | nil =>
      refine ⟨fun _ => trivial, ?_⟩
      intro _ pre mid post hsplit
      have hboth := List.append_eq_nil_iff.mp hsplit.symm
      have hnil := List.append_eq_nil_iff.mp hboth.1
      simp [hnil.1, hnil.2, hrefl]
  | cons a rest ih =>
      constructor
      · intro h
        refine ⟨h [] [a] rest rfl, (ih (step s a)).mp ?_⟩
        intro pre mid post hsplit
        simpa using h (a :: pre) mid post (by simp [hsplit])
      · rintro ⟨hhead, htail⟩ pre mid post hsplit
        have hrest := (ih (step s a)).mpr htail
        cases pre with
        | cons b pre =>
            obtain ⟨rfl, hrestsplit⟩ : a = b ∧ rest = pre ++ mid ++ post := by
              simpa using hsplit
            simpa using hrest pre mid post hrestsplit
        | nil =>
            cases mid with
            | nil => exact hrefl s
            | cons b mid =>
                obtain ⟨rfl, hrestsplit⟩ : a = b ∧ rest = mid ++ post := by
                  simpa using hsplit
                have hlater := hrest [] mid post (by simpa using hrestsplit)
                exact htrans _ _ _ hhead (by simpa using hlater)

variable (step) in
/-- An action of the run from `s` has met `P` in the state before it. -/
def Happened (P : σ → α → Prop) (s : σ) (actions : List α) : Prop :=
  ∃ early a late, actions = early ++ a :: late ∧ P (early.foldl step s) a

theorem Happened.append {P : σ → α → Prop} {s : σ} {actions : List α}
    (h : Happened step P s actions) (more : List α) : Happened step P s (actions ++ more) := by
  obtain ⟨early, a, late, rfl, ha⟩ := h
  exact ⟨early, a, late ++ more, by simp, ha⟩

theorem happened_last {P : σ → α → Prop} {s : σ} {actions : List α} {a : α}
    (h : P (actions.foldl step s) a) : Happened step P s (actions ++ [a]) :=
  ⟨actions, a, [], rfl, h⟩

/-- Invariant rule for properties that speak of the run so far. -/
theorem history_invariant {Inv : List α → σ → Prop} {s : σ} (hinit : Inv [] s)
    (hstep : ∀ pre a, Inv pre (pre.foldl step s) → Inv (pre ++ [a]) (step (pre.foldl step s) a))
    (actions : List α) : Inv actions (actions.foldl step s) := by
  induction actions using List.reverseRecOn with
  | nil => exact hinit
  | append_singleton pre a ih =>
      rw [List.foldl_append]
      exact hstep pre a ih

end Total

section Partial

variable {step : σ → α → Option σ}

/-- A run of a partial system whose every action meets `P` in the state
before it. -/
inductive StepsAlong (step : σ → α → Option σ) (P : σ → α → Prop) : σ → σ → Prop where
  | refl (s : σ) : StepsAlong step P s s
  | tail {s t u : σ} {a : α} :
      StepsAlong step P s t → P t a → step t a = some u → StepsAlong step P s u

/-- Invariant rule for partial systems. -/
theorem StepsAlong.invariant {P : σ → α → Prop} {Inv : σ → Prop}
    (hstep : ∀ s a t, P s a → step s a = some t → Inv s → Inv t)
    {s t : σ} (h : StepsAlong step P s t) (hinit : Inv s) : Inv t := by
  induction h with
  | refl => exact hinit
  | tail _ hallowed htaken ih => exact hstep _ _ _ hallowed htaken ih

theorem StepsAlong.trans {P : σ → α → Prop} {s t u : σ} (h : StepsAlong step P s t)
    (h' : StepsAlong step P t u) : StepsAlong step P s u := by
  induction h' with
  | refl => exact h
  | tail _ hallowed htaken ih => exact .tail ih hallowed htaken

/-- Actions that are allowed in every state and enabled one after the other. -/
theorem StepsAlong.of_foldlM {P : σ → α → Prop} {actions : List α} {s t : σ}
    (hallowed : ∀ a ∈ actions, ∀ u, P u a) (h : actions.foldlM step s = some t) :
    StepsAlong step P s t := by
  induction actions generalizing s with
  | nil =>
      cases h
      exact .refl _
  | cons a rest ih =>
      obtain ⟨u, hfirst, hrest⟩ := Option.bind_eq_some_iff.mp h
      have htail := ih (fun b hb => hallowed b (.tail _ hb)) hrest
      exact (StepsAlong.tail (.refl s) (hallowed a (.head _) s) hfirst).trans htail

/-- Actions that are enabled and meet a decidable condition, one after the
other. -/
theorem StepsAlong.of_guarded {P : σ → α → Prop} [∀ s a, Decidable (P s a)] {actions : List α}
    {s t : σ}
    (h : actions.foldlM (fun u a => if P u a then step u a else none) s = some t) :
    StepsAlong step P s t := by
  induction actions generalizing s with
  | nil =>
      cases h
      exact .refl _
  | cons a rest ih =>
      obtain ⟨u, hfirst, hrest⟩ := Option.bind_eq_some_iff.mp h
      dsimp only at hfirst
      split at hfirst
      · rename_i hallowed
        exact (StepsAlong.tail (.refl s) hallowed hfirst).trans (ih hrest)
      · cases hfirst

end Partial

end Lib
