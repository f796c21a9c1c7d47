import ChainSettle.Lib.Effect
import Mathlib.Data.List.Basic

/-!
A batch against a loop. The loop makes a call for each item, one after the other,
each on the state that the calls before it have left; a call that throws leaves the
state alone. A batch looks at all items in the first state. The two agree as long as
no item that succeeds blocks a later one.
-/

namespace Lib.Eff

variable {ε σ ι ν : Type} (call : ι → Eff ε σ ν)

/-- A call for each item, with the outcome of each. -/
def each : List ι → σ → List (Except ε ν) × σ
  | [], s => ([], s)
  | item :: rest, s =>
      let (outcome, next) := exec (call item) s
      let (outcomes, last) := each rest next
      (outcome :: outcomes, last)

/-- What a call returns, if it does. -/
def result? (m : Eff ε σ ν) (s : σ) : Option ν :=
  (exec m s).1.toOption

theorem result?_isSome_iff {m : Eff ε σ ν} {s : σ} : (result? m s).isSome ↔ Succeeds m s := by
  unfold result? Succeeds
  cases (exec m s).1 <;> simp [Except.toOption]

theorem result?_eq_none {m : Eff ε σ ν} {s : σ} (h : ¬ Succeeds m s) : result? m s = none :=
  Option.not_isSome_iff_eq_none.mp fun hsome => h (result?_isSome_iff.mp hsome)

theorem length_each (items : List ι) (s : σ) : (each call items s).1.length = items.length := by
  induction items generalizing s with
  | nil => rfl
  | cons item rest ih => exact congrArg (· + 1) (ih _)

theorem each_cons (item : ι) (rest : List ι) (s : σ) :
    each call (item :: rest) s =
      ((exec (call item) s).1 :: (each call rest (exec (call item) s).2).1,
        (each call rest (exec (call item) s).2).2) := rfl

/-- A program that keeps what it has read at the start for the value it returns. -/
theorem exec_keeping (m : Eff ε σ ν) {ω : Type} (f : σ → ω) (s : σ) :
    exec (do
      let before ← get
      let _ ← m
      return f before : Eff ε σ ω) s =
      match exec m s with
      | (.ok _, next) => (.ok (f s), next)
      | (.error err, next) => (.error err, next) := by
  rw [exec_bind, exec_get]
  dsimp only
  rw [exec_bind]
  rcases exec m s with ⟨_ | _, _⟩ <;> rfl

/-- A loop of calls that all throw. -/
theorem each_of_error {err : ε} {items : List ι} {s : σ}
    (h : ∀ item ∈ items, exec (call item) s = (.error err, s)) :
    each call items s = (items.map fun _ => .error err, s) := by
  induction items with
  | nil => rfl
  | cons item rest ih =>
      obtain ⟨hitem, hrest⟩ := List.forall_mem_cons.mp h
      simp only [each, hitem, ih hrest, List.map_cons]

theorem exists_mem_zip {α β γ : Type} {f : α → γ} {g : β → γ} {l : List α} {l' : List β}
    (h : l.map f = l'.map g) {b : β} (hmem : b ∈ l') : ∃ a, (b, a) ∈ l'.zip l ∧ f a = g b := by
  induction l' generalizing l with
  | nil => cases hmem
  | cons first rest ih =>
      obtain ⟨a, as, rfl, hfirst, hrest⟩ := List.map_eq_cons_iff.mp h
      rcases List.mem_cons.mp hmem with rfl | hlater
      · exact ⟨a, .head _, hfirst⟩
      · obtain ⟨other, hzip, hother⟩ := ih hrest hlater
        exact ⟨other, .tail _ hzip, hother⟩

/-- When calls get in each other's way: an item blocks a later one if the later one fails
for good once the item has succeeded; otherwise success does not change what the later
one returns. -/
structure Interference (call : ι → Eff ε σ ν) (Blocks : ι → ι → Prop) (Dead : σ → ι → Prop) :
    Prop where
  quiet : ∀ s item, ¬ Succeeds (call item) s → after (call item) s = s
  blocks : ∀ s item later, Blocks item later → Succeeds (call item) s →
    Dead (after (call item) s) later
  dead : ∀ s item, Dead s item → ¬ Succeeds (call item) s
  stays : ∀ s item other, Dead s other → Succeeds (call item) s → Dead (after (call item) s) other
  independent : ∀ s item later, ¬ Blocks item later → Succeeds (call item) s →
    result? (call later) (after (call item) s) = result? (call later) s

variable {call} {Blocks : ι → ι → Prop} {Dead : σ → ι → Prop}

namespace Interference

variable (h : Interference call Blocks Dead)

include h

/-- An item that is dead fails, whatever comes before it. -/
theorem each_of_dead {items : List ι} {s : σ} {item : ι} {result : Except ε ν} (hdead : Dead s item)
    (hmem : (item, result) ∈ items.zip (each call items s).1) : result.toOption = none := by
  induction items generalizing s with
  | nil => cases hmem
  | cons first rest ih =>
      simp only [each, List.zip_cons_cons, List.mem_cons, Prod.mk.injEq] at hmem
      rcases hmem with ⟨rfl, rfl⟩ | hlater
      · exact result?_eq_none (h.dead s item hdead)
      · by_cases hfirst : Succeeds (call first) s
        · exact ih (h.stays s first item hdead hfirst) hlater
        · rw [show (exec (call first) s).2 = s from h.quiet s first hfirst] at hlater
          exact ih hdead hlater

/-- After an item that succeeds the later ones that it does not block return the same. -/
theorem result?_after {items : List ι} {s : σ} {item : ι} (hitem : Succeeds (call item) s)
    (hpair : ∀ later ∈ items, Succeeds (call later) s → ¬ Blocks item later) :
    ∀ later ∈ items, result? (call later) (after (call item) s) = result? (call later) s := by
  intro later hmem
  by_cases hblocks : Blocks item later
  · have hnow : ¬ Succeeds (call later) s := fun hlater => hpair later hmem hlater hblocks
    rw [result?_eq_none hnow]
    exact result?_eq_none (h.dead _ later (h.blocks s item later hblocks hitem))
  · exact h.independent s item later hblocks hitem

end Interference

/-- The items whose calls succeed in a state. -/
def succeeding (call : ι → Eff ε σ ν) (items : List ι) (s : σ) : List ι :=
  items.filter fun item => decide (Succeeds (call item) s)

theorem mem_succeeding {items : List ι} {s : σ} {item : ι} :
    item ∈ succeeding call items s ↔ item ∈ items ∧ Succeeds (call item) s := by
  simp [succeeding]

theorem succeeding_congr {items : List ι} {s s' : σ}
    (h : ∀ item ∈ items, result? (call item) s' = result? (call item) s) :
    succeeding call items s' = succeeding call items s := by
  refine List.filter_congr fun item hmem => ?_
  rw [decide_eq_decide, ← result?_isSome_iff, ← result?_isSome_iff, h item hmem]

theorem succeeding_cons_of_pos {item : ι} {rest : List ι} {s : σ} (h : Succeeds (call item) s) :
    succeeding call (item :: rest) s = item :: succeeding call rest s :=
  List.filter_cons_of_pos (decide_eq_true h)

theorem succeeding_cons_of_neg {item : ι} {rest : List ι} {s : σ} (h : ¬ Succeeds (call item) s) :
    succeeding call (item :: rest) s = succeeding call rest s :=
  List.filter_cons_of_neg (fun hdecide => h (of_decide_eq_true hdecide))

namespace Interference

variable (h : Interference call Blocks Dead)

include h

/-- A loop in which nothing is blocked: every call returns what it returns in the first
state, and those that succeed there have their effect in order. -/
theorem each_eq {perform : σ → ι → σ}
    (hperform : ∀ s item, Succeeds (call item) s → after (call item) s = perform s item)
    {items : List ι} {s : σ}
    (hpair : (succeeding call items s).Pairwise fun item later => ¬ Blocks item later) :
    (each call items s).1.map Except.toOption = items.map (fun item => result? (call item) s) ∧
      (each call items s).2 = (succeeding call items s).foldl perform s := by
  induction items generalizing s with
  | nil => exact ⟨rfl, rfl⟩
  | cons item rest ih =>
      by_cases hitem : Succeeds (call item) s
      · rw [succeeding_cons_of_pos hitem] at hpair ⊢
        obtain ⟨hfirst, hrest⟩ := List.pairwise_cons.mp hpair
        have hpair : ∀ later ∈ rest, Succeeds (call later) s → ¬ Blocks item later :=
          fun later hmem hlater => hfirst later (mem_succeeding.mpr ⟨hmem, hlater⟩)
        have hsame := h.result?_after hitem hpair
        have hkept := succeeding_congr hsame
        obtain ⟨houtcomes, hlast⟩ := ih (s := after (call item) s) (by rwa [hkept])
        refine ⟨?_, hlast.trans (by rw [hkept, List.foldl_cons, hperform s item hitem])⟩
        rw [List.map_cons, ← List.map_congr_left hsame, ← houtcomes]
        rfl
      · rw [succeeding_cons_of_neg hitem] at hpair ⊢
        obtain ⟨houtcomes, hlast⟩ := ih hpair
        have hsame : (exec (call item) s).2 = s := h.quiet s item hitem
        simp only [each, List.map_cons, hsame, houtcomes, hlast]
        exact ⟨rfl, trivial⟩

omit h in
/-- What a loop reports, when every call returns what it returns in the first state. -/
theorem reports_of_each {items : List ι} {s : σ} {value : ι → ν}
    (hresults : (each call items s).1.map Except.toOption =
      items.map fun item => result? (call item) s)
    (hvalue : ∀ item, Succeeds (call item) s → result? (call item) s = some (value item)) :
    (each call items s).1.map (·.toOption.isSome) =
        items.map (fun item => decide (Succeeds (call item) s)) ∧
      (each call items s).1.filterMap Except.toOption = (succeeding call items s).map value ∧
      (each call items s).1.countP (·.toOption.isSome) = (succeeding call items s).length ∧
      (each call items s).1.countP (·.toOption.isNone) =
        items.length - (succeeding call items s).length := by
  have hsome (item : ι) : (result? (call item) s).isSome = decide (Succeeds (call item) s) :=
    Bool.eq_iff_iff.mpr (by rw [result?_isSome_iff, decide_eq_true_iff])
  have hsuccesses : (each call items s).1.map (·.toOption.isSome) =
      items.map (fun item => decide (Succeeds (call item) s)) := by
    simpa [Function.comp_def, hsome] using congrArg (List.map Option.isSome) hresults
  have hcount : (each call items s).1.countP (·.toOption.isSome) =
      (succeeding call items s).length := by
    have hboth := congrArg (List.countP id) hsuccesses
    rw [List.countP_map, List.countP_map] at hboth
    exact hboth.trans List.countP_eq_length_filter
  refine ⟨hsuccesses, ?_, hcount, ?_⟩
  · have hkept : (each call items s).1.filterMap Except.toOption =
        items.filterMap fun item => result? (call item) s := by
      simpa [Function.comp_def] using congrArg (List.filterMap id) hresults
    rw [hkept, succeeding, ← List.filterMap_eq_map, List.filterMap_filter]
    refine List.filterMap_congr fun item _ => ?_
    by_cases hitem : Succeeds (call item) s
    · simp [hitem, hvalue item hitem]
    · simp [hitem, result?_eq_none hitem]
  · have hall := List.length_eq_countP_add_countP (fun outcome => outcome.toOption.isSome)
      (l := (each call items s).1)
    rw [length_each, hcount] at hall
    simp only [Bool.not_eq_true, Option.isSome_eq_false_iff] at hall
    simp only [hall, Bool.decide_eq_true, Nat.add_sub_cancel_left]

/-- A loop whose successes are those of the first state: nothing was blocked. -/
theorem pairwise_of_each {items : List ι} {s : σ}
    (hsame : (each call items s).1.map (·.toOption.isSome) =
      items.map (fun item => (result? (call item) s).isSome)) :
    (succeeding call items s).Pairwise fun item later => ¬ Blocks item later := by
  induction items generalizing s with
  | nil => exact .nil
  | cons item rest ih =>
      rw [each_cons] at hsame
      obtain ⟨-, hrest⟩ := List.cons.inj hsame
      by_cases hitem : Succeeds (call item) s
      · have hpair : ∀ later ∈ rest, Succeeds (call later) s → ¬ Blocks item later := by
          intro later hmem hlater hblocks
          obtain ⟨outcome, hzip, houtcome⟩ := exists_mem_zip hrest hmem
          have hnone := h.each_of_dead (h.blocks s item later hblocks hitem) hzip
          rw [result?_isSome_iff.mpr hlater, hnone] at houtcome
          cases houtcome
        have hkept := h.result?_after hitem hpair
        rw [succeeding_cons_of_pos hitem]
        refine List.pairwise_cons.mpr ⟨fun later hmem => ?_, ?_⟩
        · obtain ⟨hmem, hlater⟩ := mem_succeeding.mp hmem
          exact hpair later hmem hlater
        · rw [← succeeding_congr hkept]
          refine ih (hrest.trans (List.map_congr_left fun later hmem => ?_))
          rw [hkept later hmem]
      · rw [succeeding_cons_of_neg hitem]
        have hsame : (exec (call item) s).2 = s := h.quiet s item hitem
        rw [hsame] at hrest
        exact ih hrest

/-- A loop without successes: no call succeeds in the first state either. -/
theorem not_succeeds_of_each {items : List ι} {s : σ}
    (hnone : ∀ outcome ∈ (each call items s).1, outcome.toOption.isSome = false) :
    ∀ item ∈ items, ¬ Succeeds (call item) s := by
  induction items with
  | nil => nofun
  | cons first rest ih =>
      rw [each_cons] at hnone
      obtain ⟨hfirst, hrest⟩ := List.forall_mem_cons.mp hnone
      have hfails : ¬ Succeeds (call first) s := fun hfirst' => by
        rw [← result?_isSome_iff, result?, hfirst] at hfirst'
        cases hfirst'
      rw [show (exec (call first) s).2 = s from h.quiet s first hfails] at hrest
      exact List.forall_mem_cons.mpr ⟨hfails, ih hrest⟩

end Interference

end Lib.Eff
