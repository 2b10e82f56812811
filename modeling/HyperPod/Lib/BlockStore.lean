import HyperPod.Lib.Bytes
import Mathlib.Logic.Function.Basic

/-!
# A store of numbered blocks, and its layout in a list

A store maps each of `n` block numbers to a block of `B` cells.  A list holds a
store when block `i` is its `B` cells from `i * B` on; writing a block there is
an update of the store, and what follows the last block does not matter.
-/

namespace BlockStore

open Bytes

variable {α : Type} {B n : Nat}

abbrev Block (α : Type) (B : Nat) := { l : List α // l.length = B }

abbrev Store (α : Type) (B n : Nat) := Fin n → Block α B

/-- The blocks of a list, from its start on. -/
def ofList (l : List α) (h : n * B ≤ l.length) : Store α B n := fun i =>
  ⟨slice l (i * B) B, length_slice (by
    have hi : (i.val + 1) * B ≤ n * B := Nat.mul_le_mul_right B i.isLt
    rw [Nat.add_mul, Nat.one_mul] at hi
    omega)⟩

/-- `l` holds the blocks of `m`. -/
structure Holds (l : List α) (m : Store α B n) : Prop where
  fits : n * B ≤ l.length
  block : ∀ i : Fin n, slice l (i * B) B = (m i).val

theorem holds_ofList (l : List α) (h : n * B ≤ l.length) : Holds l (ofList l h) :=
  ⟨h, fun _ => rfl⟩

theorem Holds.append {l : List α} {m : Store α B n} (h : Holds l m) (t : List α) :
    Holds (l ++ t) m := by
  refine ⟨by rw [List.length_append]; exact Nat.le_add_right_of_le h.fits, fun i => ?_⟩
  have hi : (i.val + 1) * B ≤ n * B := Nat.mul_le_mul_right B i.isLt
  rw [Nat.add_mul, Nat.one_mul] at hi
  rw [slice_append_left (Nat.le_trans hi h.fits), h.block]

/-- Distinct blocks do not overlap. -/
theorem blocks_disjoint {i j : Nat} (h : i ≠ j) : j * B + B ≤ i * B ∨ i * B + B ≤ j * B := by
  rcases Nat.lt_or_gt_of_ne h with h | h
  · right
    have : (i + 1) * B ≤ j * B := Nat.mul_le_mul_right B h
    rwa [Nat.add_mul, Nat.one_mul] at this
  · left
    have : (j + 1) * B ≤ i * B := Nat.mul_le_mul_right B h
    rwa [Nat.add_mul, Nat.one_mul] at this

/-- Writing a block in the list updates the store. -/
theorem Holds.write {l : List α} {m : Store α B n} (h : Holds l m) (i : Fin n) (d : Block α B) :
    Holds (splice l (i * B) d.val) (Function.update m i d) := by
  have hi : (i.val + 1) * B ≤ n * B := Nat.mul_le_mul_right B i.isLt
  rw [Nat.add_mul, Nat.one_mul] at hi
  have hfits := h.fits
  refine ⟨by rw [length_splice (by rw [d.property]; omega)]; exact hfits, fun j => ?_⟩
  by_cases hj : j = i
  · subst hj
    have hself := slice_splice_self d.val (l := l) (show j * B ≤ l.length by omega)
    rw [d.property] at hself
    rw [Function.update_self, hself]
  · rw [Function.update_of_ne hj, ← h.block j]
    have hne : i.val ≠ j.val := fun e => hj (Fin.ext e.symm)
    apply slice_splice_disjoint (by omega)
    rw [d.property]
    exact blocks_disjoint hne

end BlockStore
