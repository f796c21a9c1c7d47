import ChainSettle.Lib.Answer
import ChainSettle.Semantics.Database

/-!
The limit on the depth of GraphQL operations, and the loaders of the children of shipments and
milestones. A document is what the parser returns; a field without a selection set has an empty
one, which the grammar has no other use for.
-/

namespace ChainSettle

open Lib

section Documents

inductive Selection where
  | field (name : String) (selectionSet : List Selection)
  | inlineFragment (selectionSet : List Selection)
  | fragmentSpread (name : String)

structure OperationDefinition where
  selectionSet : List Selection

inductive Definition where
  | operation (node : OperationDefinition)
  | fragment (name : String) (selectionSet : List Selection)
  /-- a definition of a type system -/
  | other

abbrev Fragments := Fields String (List Selection)

/-- Of fragments with the same name the last one is kept. -/
def fragmentsOf (document : List Definition) : Fragments :=
  document.foldl
    (fun fragments definition =>
      match definition with
      | .fragment name selectionSet => Fields.set fragments name selectionSet
      | _ => fragments) []

def operationsOf (document : List Definition) : List OperationDefinition :=
  document.filterMap fun definition =>
    match definition with
    | .operation node => some node
    | _ => none

/-- `startsWith('__')` -/
def isIntrospection (name : String) : Bool := ['_', '_'].isPrefixOf name.toList

end Documents

section Depth

/-- The names of fragments that are not seen yet. -/
def unseen (fragments : Fragments) (seen : List String) : List String :=
  (fragments.map Prod.fst).filter fun name => name ∉ seen

theorem length_unseen_cons_lt {fragments : Fragments} {seen : List String} {name : String}
    (hname : name ∉ seen) {selectionSet : List Selection}
    (h : Fields.get? fragments name = some selectionSet) :
    (unseen fragments (name :: seen)).length < (unseen fragments seen).length := by
  have hmem : name ∈ unseen fragments seen := by
    rw [unseen, List.mem_filter]
    exact ⟨List.mem_map_of_mem (Fields.mem_of_get? h), decide_eq_true hname⟩
  have hfilter : unseen fragments (name :: seen) =
      (unseen fragments seen).filter fun other => other ≠ name := by
    unfold unseen
    rw [List.filter_filter]
    refine List.filter_congr fun other _ => ?_
    simp [not_or]
  rw [hfilter]
  exact List.length_filter_lt_length_iff_exists.mpr ⟨name, hmem, by simp⟩

/-- The loop over the selections of a set, from the greatest depth so far. -/
def measureFrom (fragments : Fragments) (selections : List Selection) (depth : Nat)
    (seen : List String) (deepest : Nat) : Nat :=
  match selections with
  | [] => deepest
  | .field name selectionSet :: rest =>
    if isIntrospection name then measureFrom fragments rest depth seen deepest
    else
      measureFrom fragments rest depth seen
        (max deepest (measureFrom fragments selectionSet (depth + 1) seen (depth + 1)))
  | .inlineFragment selectionSet :: rest =>
    measureFrom fragments rest depth seen
      (max deepest (measureFrom fragments selectionSet depth seen depth))
  | .fragmentSpread name :: rest =>
    if hseen : name ∈ seen then measureFrom fragments rest depth seen deepest
    else
      match hfound : Fields.get? fragments name with
      | none => measureFrom fragments rest depth seen deepest
      | some selectionSet =>
        have := length_unseen_cons_lt hseen hfound
        measureFrom fragments rest depth seen
          (max deepest (measureFrom fragments selectionSet depth (name :: seen) depth))
termination_by ((unseen fragments seen).length, sizeOf selections)

def measure (fragments : Fragments) (selectionSet : List Selection) (depth : Nat)
    (seen : List String) : Nat :=
  measureFrom fragments selectionSet depth seen depth

structure DepthError where
  message : String
  node : OperationDefinition
  depth : Nat
  maxDepth : Int

/-- The errors that are reported for a document, in the order of its operations. -/
def depthLimitRule (maxDepth : Int) (document : List Definition) : List DepthError :=
  let fragments := fragmentsOf document
  (operationsOf document).filterMap fun node =>
    let depth := measure fragments node.selectionSet 0 []
    if maxDepth < depth then
      some ⟨s!"Query depth {depth} exceeds the maximum allowed depth of {maxDepth}", node, depth,
        maxDepth⟩
    else none

end Depth

section Loaders

/-- A proof as the loader reads it. -/
structure ProofRow extends ProofSubmission where
  id : String
  createdAt : Nat
deriving DecidableEq

def groupBy {ρ : Type} (keys : List String) (rows : List ρ) (key : ρ → String) :
    List (Option (List ρ)) :=
  groupRows keys rows key

/-- The `where` of a query for the milestones of some shipments. -/
def milestoneWhere (shipmentIds : List String) (m : Milestone) : Bool :=
  m.shipmentId ∈ shipmentIds && m.deletedAt.isNone

/-- `orderBy: { milestoneIndex: 'asc' }` -/
def byMilestoneIndex (a b : Milestone) : Prop := a.milestoneIndex ≤ b.milestoneIndex

def proofWhere (milestoneIds : List String) (row : ProofRow) : Bool :=
  row.milestoneId ∈ milestoneIds

/-- `orderBy: { createdAt: 'asc' }` -/
def byCreatedAt (a b : ProofRow) : Prop := a.createdAt ≤ b.createdAt

/-- A loader's batch function, over the answers of the query. -/
def milestonesByShipment (findMany : List String → List Milestone) (shipmentIds : List String) :
    List (Option (List Milestone)) :=
  groupBy shipmentIds (findMany shipmentIds) Milestone.shipmentId

def proofsByMilestone (findMany : List String → List ProofRow) (milestoneIds : List String) :
    List (Option (List ProofRow)) :=
  groupBy milestoneIds (findMany milestoneIds) fun row => row.milestoneId

end Loaders

end ChainSettle
