import ChainSettle.Lib.Calendar
import ChainSettle.Lib.JsonTree
import Mathlib.Algebra.Order.Field.Rat
import Mathlib.Algebra.Order.Ring.NNRat
import Mathlib.Order.Basic

/-!
The middleware that reads request bodies: the depth of what has been parsed, found with a stack
of the values that are still to be looked at, and the answers to what is not let through. The
parsers and the choice of the limit are before it.

The depth guard for request bodies. The loop looks at the values with a stack, in any order, and
may stop at the first one that is too deep. What the depth found so far and the stack still come
to does not change on the way.
-/

namespace ChainSettle

open Lib

variable {ν : Type}

/-- In which order `Object.values` lists the values in a value. -/
structure ValueOrder (ν : Type) where
  values : JsonTree ν → List (JsonTree ν)
  perm : ∀ v, (values v).Perm v.children

/-- A bound on a number that is not negative; `Infinity` is `none`. -/
abbrev Bound := Option ℚ≥0

def exceeds (n : Nat) (max : Bound) : Bool := max.any fun m => decide (m < (n : ℚ≥0))

section JsonDepth

variable (order : ValueOrder ν)

/-- What is pushed for the values in a node, the last of them on top. -/
def ValueOrder.pushed (node : JsonTree ν) (d : Nat) : List (JsonTree ν × Nat) :=
  ((order.values node).map fun child => (child, d)).reverse

theorem ValueOrder.mem_pushed {node : JsonTree ν} {d : Nat} {entry : JsonTree ν × Nat} :
    entry ∈ order.pushed node d ↔ entry.1 ∈ node.children ∧ entry.2 = d := by
  rw [pushed, List.mem_reverse, List.mem_map]
  constructor
  · rintro ⟨child, hmem, rfl⟩
    exact ⟨(order.perm node).mem_iff.mp hmem, rfl⟩
  · rintro ⟨hmem, rfl⟩
    exact ⟨entry.1, (order.perm node).mem_iff.mpr hmem, rfl⟩

/-- The values that are still to be looked at, with all that is in them. -/
def pendingNodes (stack : List (JsonTree ν × Nat)) : Nat :=
  (stack.map fun entry => entry.1.nodes).sum

/-- A node is replaced by the values in it. -/
theorem pendingNodes_pushed (node : JsonTree ν) (d : Nat) (stack : List (JsonTree ν × Nat)) :
    pendingNodes (order.pushed node d ++ stack) + 1 = node.nodes + pendingNodes stack := by
  have hchildren : ((order.values node).map JsonTree.nodes).sum + 1 = node.nodes := by
    rw [node.nodes_eq, ((order.perm node).map _).sum_nat]
  rw [← hchildren, pendingNodes, pendingNodes, ValueOrder.pushed, List.map_append, List.sum_append,
    List.map_reverse, List.sum_reverse, List.map_map]
  exact Nat.add_right_comm _ _ _

/-- The loop of `jsonDepth`. -/
def visit (max : Bound) (deepest : Nat) (stack : List (JsonTree ν × Nat)) : Nat :=
  match stack with
  | [] => deepest
  | (node, depth) :: stack =>
      if node.isNested then
        let d := depth + 1
        let deepest := if deepest < d then d else deepest
        if exceeds deepest max then deepest
        else visit max deepest (order.pushed node d ++ stack)
      else visit max deepest stack
termination_by pendingNodes stack
decreasing_by
  · have hpushed := pendingNodes_pushed order node (depth + 1) stack
    have hcons : pendingNodes ((node, depth) :: stack) = node.nodes + pendingNodes stack := rfl
    omega
  · have hnode := node.nodes_eq
    have hcons : pendingNodes ((node, depth) :: stack) = node.nodes + pendingNodes stack := rfl
    omega

/-- The nesting depth of a parsed JSON value (scalars are depth 0). -/
def jsonDepth (value : JsonTree ν) (max : Bound) : Nat := visit order max 0 [(value, 0)]

end JsonDepth

section Middleware

structure BodyLimitOptions where
  maxDepth : Bound

/-- What a parser fails with. -/
structure ParserError where
  type : Option String
  status : Option Nat
  message : Option String
deriving DecidableEq

structure ErrorBody where
  success : Bool
  statusCode : Nat
  timestamp : String
  path : String
  message : String
deriving DecidableEq

/-- `now` is in milliseconds. -/
def buildErrorBody (now : Int) (status : Nat) (path message : String) : ErrorBody where
  success := false
  statusCode := status
  timestamp := String.ofList (isoTextOf now)
  path := path
  message := message

inductive BodyAnswer where
  | next
  | sent (status : Nat) (body : ErrorBody)
deriving DecidableEq

/-- A request as far as the middleware answers it. -/
structure BodyRequest where
  path : String
  /-- the limit of its route, e.g. `100kb` -/
  limit : String
deriving DecidableEq

def sendError (now : Int) (req : BodyRequest) (status : Nat) (message : String) : BodyAnswer :=
  .sent status (buildErrorBody now status req.path message)

/-- `numberText` is how a bound is written. -/
def onParsed (order : ValueOrder ν) (numberText : Bound → String) (options : BodyLimitOptions)
    (now : Int) (req : BodyRequest) : Except ParserError (Option (JsonTree ν)) → BodyAnswer
  | .error err =>
      if err.type = some "entity.too.large" ∨ err.status = some 413 then
        sendError now req 413 s!"Request body exceeds the {req.limit} limit"
      else sendError now req (err.status.getD 400) (err.message.getD "Invalid request body")
  | .ok body =>
      if body.any fun value => value.isNested &&
          exceeds (jsonDepth order value options.maxDepth) options.maxDepth then
        sendError now req 400 s!"JSON nesting depth exceeds {numberText options.maxDepth}"
      else .next

end Middleware

variable (order : ValueOrder ν)

section Loop

theorem exceeds_mono {m n : Nat} (hle : m ≤ n) {max : Bound} (h : exceeds m max = true) :
    exceeds n max = true := by
  cases max with
  | none => cases h
  | some bound => exact decide_eq_true (lt_of_lt_of_le (of_decide_eq_true h) (Nat.cast_le.mpr hle))

/-- What a loop comes to that has found a depth and goes on with a stack. -/
def reach (deepest : Nat) (stack : List (JsonTree ν × Nat)) : Nat :=
  stack.foldr (fun entry m => max (entry.2 + entry.1.depth) m) deepest

theorem reach_le_iff {deepest n : Nat} {stack : List (JsonTree ν × Nat)} :
    reach deepest stack ≤ n ↔ deepest ≤ n ∧ ∀ entry ∈ stack, entry.2 + entry.1.depth ≤ n := by
  induction stack with
  | nil => simp [reach]
  | cons entry stack ih =>
      have hcons : reach deepest (entry :: stack) =
          max (entry.2 + entry.1.depth) (reach deepest stack) := rfl
      rw [hcons, Nat.max_le, ih, List.forall_mem_cons]
      exact and_left_comm

theorem le_reach (deepest : Nat) (stack : List (JsonTree ν × Nat)) : deepest ≤ reach deepest stack :=
  (reach_le_iff.mp (Nat.le_refl _)).1

/-- A scalar adds nothing to the depth of what it is in. -/
theorem reach_scalar {deepest depth : Nat} {node : JsonTree ν} (hnode : node.isNested = false)
    (hcounted : depth ≤ deepest) (stack : List (JsonTree ν × Nat)) :
    reach deepest ((node, depth) :: stack) = reach deepest stack := by
  refine eq_of_forall_ge_iff fun n => ?_
  rw [reach_le_iff, reach_le_iff, List.forall_mem_cons, JsonTree.depth_of_not_isNested hnode]
  constructor
  · rintro ⟨hdeepest, -, hstack⟩
    exact ⟨hdeepest, hstack⟩
  · rintro ⟨hdeepest, hstack⟩
    exact ⟨hdeepest, Nat.le_trans hcounted hdeepest, hstack⟩

/-- An array or object is one level, and the values in it are left. -/
theorem reach_nested {deepest depth : Nat} {node : JsonTree ν} (hnode : node.isNested = true)
    (stack : List (JsonTree ν × Nat)) :
    reach deepest ((node, depth) :: stack) =
      reach (if deepest < depth + 1 then depth + 1 else deepest)
        (order.pushed node (depth + 1) ++ stack) := by
  refine eq_of_forall_ge_iff fun n => ?_
  rw [reach_le_iff, reach_le_iff, List.forall_mem_cons, List.forall_mem_append,
    JsonTree.depth_of_isNested hnode]
  have hlevel : (if deepest < depth + 1 then depth + 1 else deepest) ≤ n ↔
      deepest ≤ n ∧ depth + 1 ≤ n := by
    split <;> omega
  have hpushed : (∀ entry ∈ order.pushed node (depth + 1), entry.2 + entry.1.depth ≤ n) ↔
      ∀ child ∈ node.children, depth + 1 + child.depth ≤ n := by
    constructor
    · intro h child hchild
      exact h (child, depth + 1) (order.mem_pushed.mpr ⟨hchild, rfl⟩)
    · intro h entry hentry
      obtain ⟨hchild, hdepth⟩ := order.mem_pushed.mp hentry
      rw [hdepth]
      exact h entry.1 hchild
  have hchildren : depth + (JsonTree.depthOfItems node.children + 1) ≤ n ↔
      depth + 1 ≤ n ∧ ∀ child ∈ node.children, depth + 1 + child.depth ≤ n := by
    constructor
    · intro h
      refine ⟨by omega, fun child hchild => ?_⟩
      have hle := JsonTree.depthOfItems_le_iff.mp (Nat.le_refl _) child hchild
      omega
    · rintro ⟨hself, h⟩
      have hle : JsonTree.depthOfItems node.children ≤ n - (depth + 1) :=
        JsonTree.depthOfItems_le_iff.mpr fun child hchild => by
          have hchildDepth := h child hchild
          omega
      omega
  rw [hlevel, hpushed, hchildren]
  exact ⟨fun ⟨hd, ⟨hself, hin⟩, hrest⟩ => ⟨⟨hd, hself⟩, hin, hrest⟩,
    fun ⟨⟨hd, hself⟩, hin, hrest⟩ => ⟨hd, ⟨hself, hin⟩, hrest⟩⟩

/-- The loop ends with what it comes to, or with something else that is too deep as well. -/
theorem visit_spec (max : Bound) (deepest : Nat) (stack : List (JsonTree ν × Nat))
    (hcounted : ∀ entry ∈ stack, entry.2 ≤ deepest) :
    (exceeds (reach deepest stack) max = false → visit order max deepest stack = reach deepest stack) ∧
      (exceeds (reach deepest stack) max = true → exceeds deepest max = false →
        exceeds (visit order max deepest stack) max = true) := by
  fun_induction visit order max deepest stack with
  | case1 deepest => exact ⟨fun _ => rfl, fun h _ => h⟩
  | case2 deepest node depth stack hnode d deepest' hexceeds =>
      rw [reach_nested order hnode]
      refine ⟨fun hwithin => ?_, fun _ _ => hexceeds⟩
      have hreach := exceeds_mono (le_reach deepest' (order.pushed node d ++ stack)) hexceeds
      exact absurd (hreach.symm.trans hwithin) nofun
  | case3 deepest node depth stack hnode d deepest' hwithin ih =>
      have hcounted' : ∀ entry ∈ order.pushed node d ++ stack, entry.2 ≤ deepest' := by
        have hgrown : d ≤ deepest' ∧ deepest ≤ deepest' := by
          change d ≤ (if deepest < d then d else deepest) ∧
            deepest ≤ (if deepest < d then d else deepest)
          split <;> omega
        refine List.forall_mem_append.mpr ⟨fun entry hentry => ?_, fun entry hentry => ?_⟩
        · rw [(order.mem_pushed.mp hentry).2]
          exact hgrown.1
        · exact Nat.le_trans (hcounted entry (.tail _ hentry)) hgrown.2
      rw [reach_nested order hnode]
      obtain ⟨hexact, hdeeper⟩ := ih hcounted'
      exact ⟨hexact, fun hreach _ => hdeeper hreach (eq_false_of_ne_true hwithin)⟩
  | case4 deepest node depth stack hnode ih =>
      obtain ⟨hhead, htail⟩ := List.forall_mem_cons.mp hcounted
      rw [reach_scalar (eq_false_of_ne_true hnode) hhead]
      exact ih htail

theorem jsonDepth_spec (value : JsonTree ν) (max : Bound) :
    (exceeds value.depth max = false → jsonDepth order value max = value.depth) ∧
      exceeds (jsonDepth order value max) max = exceeds value.depth max := by
  have hreach : reach 0 [(value, 0)] = value.depth := by simp [reach]
  have hspec := visit_spec order max 0 [(value, 0)]
    (List.forall_mem_singleton.mpr (Nat.le_refl 0))
  rw [hreach] at hspec
  obtain ⟨hexact, hdeeper⟩ := hspec
  -- nothing is less than zero
  have hzero : exceeds 0 max = false := by
    cases max with
    | none => rfl
    | some bound => simp [exceeds]
  refine ⟨hexact, ?_⟩
  cases hdepth : exceeds value.depth max with
  | false => exact (congrArg (exceeds · max) (hexact hdepth)).trans hdepth
  | true => exact hdeeper hdepth hzero

end Loop

section Guard

/-- Without a bound the loop finds the depth; with one it finds a depth beyond the bound exactly
if the value is too deep; and the bodies that are refused, of those that were parsed, are the ones
nested deeper than the middleware allows. All this in every order of the values. -/
theorem depth_guard_exact (order : ValueOrder ν) (value : JsonTree ν) :
    jsonDepth order value none = value.depth ∧
      (∀ max, exceeds (jsonDepth order value max) max = true ↔ exceeds value.depth max = true) ∧
      ∀ (numberText : Bound → String) (options : BodyLimitOptions) (now : Int) (req : BodyRequest)
        (body : Option (JsonTree ν)), onParsed order numberText options now req (.ok body) =
          if body.any fun value => exceeds value.depth options.maxDepth then
            .sent 400 (buildErrorBody now 400 req.path
              s!"JSON nesting depth exceeds {numberText options.maxDepth}")
          else .next := by
  refine ⟨(jsonDepth_spec order value none).1 rfl, fun max => ?_, ?_⟩
  · rw [(jsonDepth_spec order value max).2]
  · intro numberText options now req body
    have hguard (v : JsonTree ν) :
        (v.isNested && exceeds (jsonDepth order v options.maxDepth) options.maxDepth) =
          exceeds v.depth options.maxDepth := by
      rw [(jsonDepth_spec order v options.maxDepth).2]
      cases hnested : v.isNested with
      | true => rfl
      | false =>
          rw [JsonTree.depth_of_not_isNested hnested]
          cases options.maxDepth with
          | none => rfl
          | some bound => simp [exceeds]
    simp only [onParsed, hguard]
    rfl

end Guard

end ChainSettle
