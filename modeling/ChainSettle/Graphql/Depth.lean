import ChainSettle.Semantics.Graphql
import Mathlib.Logic.Relation

/-!
The depth of an operation is that of its fields when every fragment is written where it is
spread. The names that have been seen on the way only matter where a fragment spreads itself, so
they hide nothing in a document without such a cycle.
-/

namespace ChainSettle

open Lib Relation

section Inlining

/-- A field with the fields in it, where nothing is left to be inlined. -/
inductive FieldTree where
  | node (name : String) (children : List FieldTree)

mutual

/-- The number of nested fields; introspection is not counted. -/
def FieldTree.depth : FieldTree → Nat
  | .node name children => if isIntrospection name then 0 else forestDepth children + 1

def forestDepth : List FieldTree → Nat
  | [] => 0
  | tree :: rest => max tree.depth (forestDepth rest)

end

theorem forestDepth_append (a b : List FieldTree) :
    forestDepth (a ++ b) = max (forestDepth a) (forestDepth b) := by
  induction a with
  | nil => rw [List.nil_append, forestDepth, Nat.zero_max]
  | cons tree rest ih =>
      rw [List.cons_append, forestDepth, forestDepth, ih]
      omega

/-- The fields of a selection set after its fragments are inlined. -/
inductive Inlines (fragments : Fragments) : List Selection → List FieldTree → Prop where
  | nil : Inlines fragments [] []
  | field {name : String} {selectionSet rest : List Selection} {children trees : List FieldTree}
      (hset : Inlines fragments selectionSet children) (hrest : Inlines fragments rest trees) :
      Inlines fragments (.field name selectionSet :: rest) (.node name children :: trees)
  | inlineFragment {selectionSet rest : List Selection} {inner trees : List FieldTree}
      (hset : Inlines fragments selectionSet inner) (hrest : Inlines fragments rest trees) :
      Inlines fragments (.inlineFragment selectionSet :: rest) (inner ++ trees)
  | fragmentSpread {name : String} {selectionSet rest : List Selection}
      {inner trees : List FieldTree} (hfound : Fields.get? fragments name = some selectionSet)
      (hset : Inlines fragments selectionSet inner) (hrest : Inlines fragments rest trees) :
      Inlines fragments (.fragmentSpread name :: rest) (inner ++ trees)
  | undefined {name : String} {rest : List Selection} {trees : List FieldTree}
      (hfound : Fields.get? fragments name = none) (hrest : Inlines fragments rest trees) :
      Inlines fragments (.fragmentSpread name :: rest) trees

theorem Inlines.unique {fragments : Fragments} {selections : List Selection}
    {trees others : List FieldTree} (h : Inlines fragments selections trees)
    (h' : Inlines fragments selections others) : trees = others := by
  induction h generalizing others with
  | nil =>
      cases h'
      rfl
  | field hset hrest ihset ihrest =>
      cases h' with
      | field hset' hrest' => rw [ihset hset', ihrest hrest']
  | inlineFragment hset hrest ihset ihrest =>
      cases h' with
      | inlineFragment hset' hrest' => rw [ihset hset', ihrest hrest']
  | fragmentSpread hfound hset hrest ihset ihrest =>
      cases h' with
      | fragmentSpread hfound' hset' hrest' =>
          obtain rfl := Option.some.inj (hfound.symm.trans hfound')
          rw [ihset hset', ihrest hrest']
      | undefined hfound' => exact absurd (hfound.symm.trans hfound') nofun
  | undefined hfound hrest ihrest =>
      cases h' with
      | fragmentSpread hfound' => exact absurd (hfound.symm.trans hfound') nofun
      | undefined hfound' hrest' => exact ihrest hrest'

end Inlining

section Spreads

/-- The fragments that are spread in a selection set, at any depth. -/
def spreads : List Selection → List String
  | [] => []
  | .field _ selectionSet :: rest => spreads selectionSet ++ spreads rest
  | .inlineFragment selectionSet :: rest => spreads selectionSet ++ spreads rest
  | .fragmentSpread name :: rest => name :: spreads rest

/-- One fragment spreads another. -/
def Spreads (fragments : Fragments) (outer inner : String) : Prop :=
  ∃ selectionSet, Fields.get? fragments outer = some selectionSet ∧ inner ∈ spreads selectionSet

/-- No fragment spreads itself, directly or through others. -/
def Acyclic (fragments : Fragments) : Prop := ∀ name, ¬ TransGen (Spreads fragments) name name

/-- Every fragment that has been seen leads to those that are spread here. -/
def LeadsTo (fragments : Fragments) (seen : List String) (selections : List Selection) : Prop :=
  ∀ outer ∈ seen, ∀ inner ∈ spreads selections, TransGen (Spreads fragments) outer inner

theorem leadsTo_append {fragments : Fragments} {seen : List String} {selections a b : List Selection}
    (hspreads : spreads selections = spreads a ++ spreads b)
    (h : LeadsTo fragments seen selections) : LeadsTo fragments seen a ∧ LeadsTo fragments seen b := by
  unfold LeadsTo at h ⊢
  rw [hspreads] at h
  exact ⟨fun outer houter inner hinner => h outer houter inner (List.mem_append_left _ hinner),
    fun outer houter inner hinner => h outer houter inner (List.mem_append_right _ hinner)⟩

theorem LeadsTo.field {fragments : Fragments} {seen : List String} {name : String}
    {selectionSet rest : List Selection}
    (h : LeadsTo fragments seen (.field name selectionSet :: rest)) :
    LeadsTo fragments seen selectionSet ∧ LeadsTo fragments seen rest :=
  leadsTo_append (by rw [spreads]) h

theorem LeadsTo.inlineFragment {fragments : Fragments} {seen : List String}
    {selectionSet rest : List Selection}
    (h : LeadsTo fragments seen (.inlineFragment selectionSet :: rest)) :
    LeadsTo fragments seen selectionSet ∧ LeadsTo fragments seen rest :=
  leadsTo_append (by rw [spreads]) h

theorem LeadsTo.fragmentSpread {fragments : Fragments} {seen : List String} {name : String}
    {rest : List Selection} (h : LeadsTo fragments seen (.fragmentSpread name :: rest)) :
    (∀ outer ∈ seen, TransGen (Spreads fragments) outer name) ∧ LeadsTo fragments seen rest := by
  unfold LeadsTo at h ⊢
  rw [spreads] at h
  exact ⟨fun outer houter => h outer houter name (.head _),
    fun outer houter inner hinner => h outer houter inner (.tail _ hinner)⟩

/-- Where a fragment is entered, it leads to what it spreads, and so does what led to it. -/
theorem LeadsTo.enter {fragments : Fragments} {seen : List String} {name : String}
    {selectionSet rest : List Selection} (h : LeadsTo fragments seen (.fragmentSpread name :: rest))
    (hfound : Fields.get? fragments name = some selectionSet) :
    LeadsTo fragments (name :: seen) selectionSet := by
  intro outer houter inner hinner
  have hspreads : Spreads fragments name inner := ⟨selectionSet, hfound, hinner⟩
  rcases List.mem_cons.mp houter with rfl | hseen
  · exact .single hspreads
  · exact .tail (h.fragmentSpread.1 outer hseen) hspreads

/-- In a document without a cycle, a fragment is spread where it has not been seen. -/
theorem LeadsTo.not_mem {fragments : Fragments} {seen : List String} {name : String}
    {rest : List Selection} (h : LeadsTo fragments seen (.fragmentSpread name :: rest))
    (hacyclic : Acyclic fragments) : name ∉ seen :=
  fun hseen => hacyclic name (h.fragmentSpread.1 name hseen)

/-- Induction over a selection set and the fragments in it, which are entered one time each. -/
theorem selections_induction (fragments : Fragments)
    {motive : List Selection → List String → Prop}
    (nil : ∀ seen, motive [] seen)
    (field : ∀ name selectionSet rest seen, motive selectionSet seen → motive rest seen →
      motive (.field name selectionSet :: rest) seen)
    (inlineFragment : ∀ selectionSet rest seen, motive selectionSet seen → motive rest seen →
      motive (.inlineFragment selectionSet :: rest) seen)
    (fragmentSpread : ∀ name rest seen,
      (∀ selectionSet, name ∉ seen → Fields.get? fragments name = some selectionSet →
        motive selectionSet (name :: seen)) →
      motive rest seen → motive (.fragmentSpread name :: rest) seen)
    (selections : List Selection) (seen : List String) : motive selections seen := by
  match selections with
  | [] => exact nil seen
  | .field name selectionSet :: rest =>
      exact field name selectionSet rest seen
        (selections_induction fragments nil field inlineFragment fragmentSpread selectionSet seen)
        (selections_induction fragments nil field inlineFragment fragmentSpread rest seen)
  | .inlineFragment selectionSet :: rest =>
      exact inlineFragment selectionSet rest seen
        (selections_induction fragments nil field inlineFragment fragmentSpread selectionSet seen)
        (selections_induction fragments nil field inlineFragment fragmentSpread rest seen)
  | .fragmentSpread name :: rest =>
      refine fragmentSpread name rest seen (fun selectionSet hseen hfound => ?_)
        (selections_induction fragments nil field inlineFragment fragmentSpread rest seen)
      have := length_unseen_cons_lt hseen hfound
      exact selections_induction fragments nil field inlineFragment fragmentSpread selectionSet
        (name :: seen)
termination_by ((unseen fragments seen).length, sizeOf selections)

end Spreads

section Measure

variable {fragments : Fragments}

theorem exists_inlines (hacyclic : Acyclic fragments) (selections : List Selection)
    (seen : List String) (hleads : LeadsTo fragments seen selections) :
    ∃ trees, Inlines fragments selections trees := by
  induction selections, seen using selections_induction fragments with
  | nil seen => exact ⟨[], .nil⟩
  | field name selectionSet rest seen ihset ihrest =>
      obtain ⟨children, hset⟩ := ihset hleads.field.1
      obtain ⟨trees, hrest⟩ := ihrest hleads.field.2
      exact ⟨_, .field hset hrest⟩
  | inlineFragment selectionSet rest seen ihset ihrest =>
      obtain ⟨inner, hset⟩ := ihset hleads.inlineFragment.1
      obtain ⟨trees, hrest⟩ := ihrest hleads.inlineFragment.2
      exact ⟨_, .inlineFragment hset hrest⟩
  | fragmentSpread name rest seen ihset ihrest =>
      obtain ⟨trees, hrest⟩ := ihrest hleads.fragmentSpread.2
      cases hfound : Fields.get? fragments name with
      | none => exact ⟨_, .undefined hfound hrest⟩
      | some selectionSet =>
          obtain ⟨inner, hset⟩ :=
            ihset selectionSet (hleads.not_mem hacyclic) hfound (hleads.enter hfound)
          exact ⟨_, .fragmentSpread hfound hset hrest⟩

/-- What is measured is the depth of the fields, below the depth they are at. -/
theorem measureFrom_eq (hacyclic : Acyclic fragments) {selections : List Selection}
    {trees : List FieldTree} (h : Inlines fragments selections trees) {depth : Nat}
    {seen : List String} (hleads : LeadsTo fragments seen selections) {deepest : Nat}
    (hdeepest : depth ≤ deepest) :
    measureFrom fragments selections depth seen deepest =
      max deepest (depth + forestDepth trees) := by
  induction h generalizing depth seen deepest with
  | nil =>
      rw [measureFrom, forestDepth]
      omega
  | @field name selectionSet rest children trees hset hrest ihset ihrest =>
      obtain ⟨hleadsSet, hleadsRest⟩ := hleads.field
      rw [measureFrom, forestDepth, FieldTree.depth]
      split
      · rw [ihrest hleadsRest hdeepest]
        omega
      · rw [ihset hleadsSet (Nat.le_refl _), ihrest hleadsRest (by omega)]
        omega
  | @inlineFragment selectionSet rest inner trees hset hrest ihset ihrest =>
      obtain ⟨hleadsSet, hleadsRest⟩ := hleads.inlineFragment
      rw [measureFrom, ihset hleadsSet (Nat.le_refl _), ihrest hleadsRest (by omega),
        forestDepth_append]
      omega
  | @fragmentSpread name selectionSet rest inner trees hfound hset hrest ihset ihrest =>
      have hleadsRest := hleads.fragmentSpread.2
      rw [measureFrom, dif_neg (hleads.not_mem hacyclic)]
      split
      · rename_i hnone
        exact absurd (hfound.symm.trans hnone) (by rintro ⟨⟩)
      · rename_i other hsome
        obtain rfl := Option.some.inj (hfound.symm.trans hsome)
        rw [ihset (hleads.enter hfound) (Nat.le_refl _), ihrest hleadsRest (by omega),
          forestDepth_append]
        omega
  | @undefined name rest trees hfound hrest ihrest =>
      have hleadsRest := hleads.fragmentSpread.2
      rw [measureFrom, dif_neg (hleads.not_mem hacyclic)]
      split
      · exact ihrest hleadsRest hdeepest
      · rename_i other hsome
        exact absurd (hfound.symm.trans hsome) (by rintro ⟨⟩)

theorem mem_depthLimitRule_iff {maxDepth : Int} {document : List Definition}
    {operation : OperationDefinition} (hmem : operation ∈ operationsOf document) :
    (∃ error ∈ depthLimitRule maxDepth document, error.node = operation) ↔
      maxDepth < measure (fragmentsOf document) operation.selectionSet 0 [] := by
  unfold depthLimitRule
  constructor
  · rintro ⟨error, herror, rfl⟩
    obtain ⟨node, -, hnode⟩ := List.mem_filterMap.mp herror
    obtain ⟨hdeep, hnode⟩ := Option.ite_none_right_eq_some.mp hnode
    cases hnode
    exact hdeep
  · intro hdeep
    exact ⟨_, List.mem_filterMap.mpr ⟨operation, hmem, if_pos hdeep⟩, rfl⟩

/-- Where no fragment spreads itself, every operation has one form with nothing left to inline, and
what is measured is the depth of that form. An error is reported for exactly the operations that
are deeper than allowed. -/
theorem depth_limit_exact (document : List Definition) (hacyclic : Acyclic (fragmentsOf document))
    (operation : OperationDefinition) (hmem : operation ∈ operationsOf document) (maxDepth : Int) :
    ∃ trees, (∀ others, Inlines (fragmentsOf document) operation.selectionSet others ↔
        others = trees) ∧
      measure (fragmentsOf document) operation.selectionSet 0 [] = forestDepth trees ∧
      ((∃ error ∈ depthLimitRule maxDepth document, error.node = operation) ↔
        maxDepth < forestDepth trees) := by
  have hleads : LeadsTo (fragmentsOf document) [] operation.selectionSet := nofun
  obtain ⟨trees, htrees⟩ := exists_inlines hacyclic operation.selectionSet [] hleads
  have hmeasure : measure (fragmentsOf document) operation.selectionSet 0 [] =
      forestDepth trees := by
    rw [measure, measureFrom_eq hacyclic htrees hleads (Nat.le_refl 0)]
    omega
  refine ⟨trees, fun others => ⟨fun h => h.unique htrees, ?_⟩, hmeasure, ?_⟩
  · rintro rfl
    exact htrees
  · rw [mem_depthLimitRule_iff hmem, hmeasure]

/-- `milestone { ...F shipment { milestones { ...F __typename } } }` -/
def twiceOperation : OperationDefinition :=
  ⟨[.field "milestone" [.fragmentSpread "F",
    .field "shipment" [.field "milestones" [.fragmentSpread "F", .field "__typename" []]]]]⟩

/-- With `fragment F on Milestone { shipment { id } }`. -/
def twiceSpread : List Definition :=
  [.fragment "F" [.field "shipment" [.field "id" []]], .operation twiceOperation]

theorem twiceSpread_acyclic : Acyclic (fragmentsOf twiceSpread) := by
  have hfragments : fragmentsOf twiceSpread = [("F", [.field "shipment" [.field "id" []]])] := rfl
  have hnone {outer inner : String} : ¬ Spreads (fragmentsOf twiceSpread) outer inner := by
    rintro ⟨selectionSet, hfound, hinner⟩
    have hentry := Fields.mem_of_get? hfound
    rw [hfragments, List.mem_singleton] at hentry
    cases hentry
    simp [spreads] at hinner
  intro name hcycle
  cases hcycle with
  | single hspreads => exact hnone hspreads
  | tail _ hspreads => exact hnone hspreads

/-- The fragment counts at each place where it is spread. -/
theorem twice_spread_measured :
    (∃ error ∈ depthLimitRule 4 twiceSpread, error.node = twiceOperation) ∧
      ¬ ∃ error ∈ depthLimitRule 5 twiceSpread, error.node = twiceOperation := by
  have hmem : twiceOperation ∈ operationsOf twiceSpread := .head _
  have hfound : Fields.get? (fragmentsOf twiceSpread) "F" =
      some [.field "shipment" [.field "id" []]] := rfl
  have hspread : Inlines (fragmentsOf twiceSpread) [.field "shipment" [.field "id" []]]
      [.node "shipment" [.node "id" []]] := .field (.field .nil .nil) .nil
  have hinlines : Inlines (fragmentsOf twiceSpread) twiceOperation.selectionSet
      [.node "milestone" [.node "shipment" [.node "id" []], .node "shipment" [.node "milestones"
        [.node "shipment" [.node "id" []], .node "__typename" []]]]] :=
    .field (.fragmentSpread hfound hspread
      (.field (.field (.fragmentSpread hfound hspread (.field .nil .nil)) .nil) .nil)) .nil
  obtain ⟨trees, hunique, -, hshallow⟩ :=
    depth_limit_exact twiceSpread twiceSpread_acyclic twiceOperation hmem 4
  obtain ⟨others, hunique', -, hdeep⟩ :=
    depth_limit_exact twiceSpread twiceSpread_acyclic twiceOperation hmem 5
  obtain rfl := (hunique _).mp hinlines
  obtain rfl := (hunique' _).mp hinlines
  rw [hshallow, hdeep]
  decide

end Measure

end ChainSettle
