import ChainSettle.Semantics.Graphql

/-!
A loader answers for each key what the query for that key alone answers. The milestones of a
shipment have no ties; proofs that were created at the same time are in the order in which the
query for all keys has them.
-/

namespace ChainSettle

open Lib

/-- Part of the answer for many keys is the answer for one. -/
theorem answers_of_batch {ρ : Type} {rows answer : List ρ} {p single : ρ → Bool}
    {before : ρ → ρ → Prop} {q : ρ → Bool} (h : Answers rows p before answer)
    (hsingle : ∀ row ∈ rows, (q row && p row) = single row) :
    Answers rows single before (answer.filter q) :=
  (h.filter q).congr hsingle

section Milestones

variable {table : Table Milestone.key} {findMany : List String → List Milestone}

theorem milestonesByShipment_eq (h : ∀ shipmentIds,
      Answers table.rows (milestoneWhere shipmentIds) byMilestoneIndex (findMany shipmentIds))
    (shipmentIds : List String) :
    milestonesByShipment findMany shipmentIds =
      shipmentIds.map fun shipmentId => some (findMany [shipmentId]) := by
  rw [milestonesByShipment, groupBy, groupRows_eq]
  refine List.map_congr_left fun shipmentId hmem => congrArg some ?_
  have hsingle : Answers table.rows (milestoneWhere [shipmentId]) byMilestoneIndex
      ((findMany shipmentIds).filter fun row => decide (row.shipmentId = shipmentId)) := by
    refine answers_of_batch (h shipmentIds) fun row _ => ?_
    unfold milestoneWhere
    by_cases hrow : row.shipmentId = shipmentId
    · simp [hrow, hmem]
    · simp [hrow]
  refine hsingle.unique (h [shipmentId]) fun a ha b hb hab hba => ?_
  -- milestones of one shipment with the same index are one row
  obtain ⟨harow, haid⟩ := List.mem_filter.mp ha
  obtain ⟨hbrow, hbid⟩ := List.mem_filter.mp hb
  have hindex : a.milestoneIndex = b.milestoneIndex := Int.le_antisymm hab hba
  have hkey : Milestone.key a = Milestone.key b := by
    unfold Milestone.key
    rw [of_decide_eq_true haid, of_decide_eq_true hbid, hindex]
  exact List.inj_on_of_nodup_map table.nodup ((h shipmentIds).mem_iff.mp harow).1
    ((h shipmentIds).mem_iff.mp hbrow).1 hkey

end Milestones

section Proofs

variable {table : Table ProofRow.id} {findMany : List String → List ProofRow}

theorem proofsByMilestone_eq (h : ∀ milestoneIds,
      Answers table.rows (proofWhere milestoneIds) byCreatedAt (findMany milestoneIds))
    {milestoneIds : List String} (hties : ∀ milestoneId ∈ milestoneIds,
      (findMany [milestoneId]).Pairwise (BeforeIn ProofRow.createdAt (findMany milestoneIds))) :
    proofsByMilestone findMany milestoneIds =
      milestoneIds.map fun milestoneId => some (findMany [milestoneId]) := by
  rw [proofsByMilestone, groupBy, groupRows_eq]
  refine List.map_congr_left fun milestoneId hmem => congrArg some ?_
  have hnodup : (findMany milestoneIds).Nodup := by
    rw [(h milestoneIds).perm.nodup_iff]
    exact (List.Nodup.of_map _ table.nodup).filter _
  have hbatch : Answers table.rows (proofWhere milestoneIds)
      (BeforeIn ProofRow.createdAt (findMany milestoneIds)) (findMany milestoneIds) :=
    ⟨(h milestoneIds).perm, pairwise_beforeIn (List.Sublist.refl _) (h milestoneIds).ordered⟩
  have hpart : Answers table.rows (proofWhere [milestoneId])
      (BeforeIn ProofRow.createdAt (findMany milestoneIds))
      ((findMany milestoneIds).filter fun row => decide (row.milestoneId = milestoneId)) := by
    refine answers_of_batch hbatch fun row _ => ?_
    unfold proofWhere
    by_cases hrow : row.milestoneId = milestoneId
    · simp [hrow, hmem]
    · simp [hrow]
  have hsingle : Answers table.rows (proofWhere [milestoneId])
      (BeforeIn ProofRow.createdAt (findMany milestoneIds)) (findMany [milestoneId]) :=
    ⟨(h [milestoneId]).perm, hties milestoneId hmem⟩
  exact hpart.unique hsingle fun a _ b _ hab hba => eq_of_beforeIn hnodup hab hba

end Proofs

/-- Batched loading is individual loading, for milestones and for proofs. -/
theorem batched_loading_individual (milestones : Table Milestone.key) (proofs : Table ProofRow.id)
    (findMilestones : List String → List Milestone) (findProofs : List String → List ProofRow)
    (hmilestones : ∀ shipmentIds, Answers milestones.rows (milestoneWhere shipmentIds)
      byMilestoneIndex (findMilestones shipmentIds))
    (hproofs : ∀ milestoneIds, Answers proofs.rows (proofWhere milestoneIds) byCreatedAt
      (findProofs milestoneIds)) :
    (∀ shipmentIds, milestonesByShipment findMilestones shipmentIds =
      shipmentIds.map fun shipmentId => some (findMilestones [shipmentId])) ∧
    ∀ milestoneIds, (∀ milestoneId ∈ milestoneIds,
        (findProofs [milestoneId]).Pairwise
          (BeforeIn ProofRow.createdAt (findProofs milestoneIds))) →
      proofsByMilestone findProofs milestoneIds =
        milestoneIds.map fun milestoneId => some (findProofs [milestoneId]) :=
  ⟨milestonesByShipment_eq hmilestones, fun _ => proofsByMilestone_eq hproofs⟩

section Example

def loadedMilestone (id shipmentId : String) (milestoneIndex : Int) : Milestone where
  id := id
  shipmentId := shipmentId
  milestoneIndex := milestoneIndex
  proofHash := none
  status := .pending
  paymentReleased := none
  confirmedAt := none
  disputedAt := none
  deletedAt := none
  name := id
  paymentPercent := 50
  dueAt := none
  overdueNotifiedAt := none
  overdueReminder3dAt := none
  disputeEscalatedAt := none

def loadedMilestones : Table Milestone.key :=
  ⟨[loadedMilestone "s1-m1" "s1" 1, loadedMilestone "s2-m0" "s2" 0, loadedMilestone "s1-m0" "s1" 0],
    by decide⟩

def loadedProof (id milestoneId : String) (createdAt : Nat) : ProofRow :=
  ⟨⟨milestoneId, "Qm", "GSUPPLIER", "", 0⟩, id, createdAt⟩

/-- Two proofs of one milestone that were created at the same time. -/
def loadedProofs : Table ProofRow.id :=
  ⟨[loadedProof "p2" "s1-m0" 7, loadedProof "p1" "s1-m0" 5, loadedProof "p3" "s1-m0" 5], by decide⟩

def sortedMilestones (shipmentIds : List String) : List Milestone :=
  (loadedMilestones.rows.filter (milestoneWhere shipmentIds)).insertionSort
    fun a b => a.milestoneIndex ≤ b.milestoneIndex

def sortedProofs (milestoneIds : List String) : List ProofRow :=
  (loadedProofs.rows.filter (proofWhere milestoneIds)).insertionSort
    fun a b => a.createdAt ≤ b.createdAt

theorem loaded_batches :
    milestonesByShipment sortedMilestones ["s1", "s2", "s3"] =
        [some [loadedMilestone "s1-m0" "s1" 0, loadedMilestone "s1-m1" "s1" 1],
          some [loadedMilestone "s2-m0" "s2" 0], some []] ∧
      proofsByMilestone sortedProofs ["s1-m0", "s1-m1"] =
        [some [loadedProof "p1" "s1-m0" 5, loadedProof "p3" "s1-m0" 5,
          loadedProof "p2" "s1-m0" 7], some []] := by
  obtain ⟨hmilestones, hproofs⟩ := batched_loading_individual loadedMilestones loadedProofs
    sortedMilestones sortedProofs (fun _ => answers_insertionSort _ _ _)
    (fun _ => answers_insertionSort _ _ _)
  exact ⟨hmilestones ["s1", "s2", "s3"], hproofs ["s1-m0", "s1-m1"] (by decide)⟩

end Example

end ChainSettle
