import ChainSettle.Lib.Fields
import Mathlib.Data.Set.Image
import Mathlib.Data.Set.Lattice
import Mathlib.Order.CompletePartialOrder

/-!
Signatures under a key that only some parties have. The others can hand on a signature that was
made, or hand in something that is the signature of no message. So what a signature is accepted
for was signed, and two kinds of messages that are never the same may share a key.
-/

namespace Lib

variable {μ σ : Type} (sign : μ → σ)

/-- What is handed in by someone without the key, who has seen the signatures of some messages. -/
def Keyless (signed : Set μ) (signature : σ) : Prop :=
  signature ∈ Set.image sign signed ∨ signature ∉ Set.range sign

variable {sign}

theorem keyless_sign_iff (hsign : Function.Injective sign) {signed : Set μ} {message : μ} :
    Keyless sign signed (sign message) ↔ message ∈ signed := by
  constructor
  · rintro (himage | hrange)
    · exact hsign.mem_set_image.mp himage
    · exact absurd (Set.mem_range_self message) hrange
  · intro hmem
    exact .inl (Set.mem_image_of_mem sign hmem)

/-- Where no message is of both kinds, the signatures of one kind are not accepted for the
other. -/
theorem ne_sign_of_keyless (hsign : Function.Injective sign) {signed other : Set μ}
    (hdisjoint : Disjoint signed other) {signature : σ} (h : Keyless sign signed signature)
    {message : μ} (hmessage : message ∈ other) : signature ≠ sign message := by
  rintro rfl
  exact Set.disjoint_left.mp hdisjoint ((keyless_sign_iff hsign).mp h) hmessage

/-- A signature that has prescribed values for some messages. -/
def prescribed [DecidableEq μ] (entries : Fields μ σ) (sign : μ → σ) (message : μ) : σ :=
  (entries.get? message).getD (sign message)

theorem prescribed_injective [DecidableEq μ] (hsign : Function.Injective sign)
    {entries : Fields μ σ} (hnodup : (entries.map Prod.snd).Nodup)
    (hfresh : ∀ entry ∈ entries, ∀ message, entry.2 ≠ sign message) :
    Function.Injective (prescribed entries sign) := by
  intro a b h
  unfold prescribed at h
  cases ha : entries.get? a with
  | some s =>
      have hmem := Fields.mem_of_get? ha
      cases hb : entries.get? b with
      | some t =>
          rw [ha, hb] at h
          have hsame := List.inj_on_of_nodup_map hnodup hmem (Fields.mem_of_get? hb) h
          exact congrArg Prod.fst hsame
      | none =>
          rw [ha, hb] at h
          exact absurd h (hfresh _ hmem b)
  | none =>
      cases hb : entries.get? b with
      | some t =>
          rw [ha, hb] at h
          exact absurd h.symm (hfresh _ (Fields.mem_of_get? hb) a)
      | none =>
          rw [ha, hb] at h
          exact hsign h

end Lib
