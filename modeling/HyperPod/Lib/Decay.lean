import Mathlib.Order.Iterate
import Mathlib.Order.Monotone.Basic

/-!
# A distance that loses a part of itself

`decay k h` is the distance `h` less its `k`-th part, and less one at least.  It never grows
and it is monotone, so what is left of a distance after some steps is bounded by what is left
of a longer one after fewer (`iterate_decay_le`).
-/

namespace Decay

variable {k h h' m n : Nat}

def decay (k h : Nat) : Nat := h - max (h / k) 1

theorem decay_le (k h : Nat) : decay k h ≤ h := Nat.sub_le _ _

/-- The `k`-th part grows no faster than the distance. -/
theorem decay_mono (k : Nat) : Monotone (decay k) := by
  refine monotone_nat_of_le_succ fun h => ?_
  have hpart : (h + 1) / k ≤ h / k + 1 := by
    rcases Nat.eq_zero_or_pos k with rfl | hk
    · simp
    · calc (h + 1) / k ≤ (h + k) / k := Nat.div_le_div_right (by omega)
        _ = h / k + 1 := Nat.add_div_right h hk
  unfold decay
  omega

theorem iterate_decay_le (h : n ≤ m) (hle : h' ≤ k) (j : Nat) :
    (decay j)^[m] h' ≤ (decay j)^[n] k :=
  ((decay_mono j).antitone_iterate_of_map_le (decay_le j h') h).trans
    ((decay_mono j).iterate n hle)

end Decay
