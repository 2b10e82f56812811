import Mathlib.Algebra.Order.Floor.Semiring
import Mathlib.Algebra.Order.Ring.Abs
import Mathlib.Data.Nat.Log
import Mathlib.Data.Rat.Floor
import Mathlib.Tactic.FieldSimp
import Mathlib.Tactic.Linarith
import Mathlib.Tactic.Positivity

/-!
# The grid of floating point numbers

In units of the least positive one, the numbers of a format with `p` bits of fraction are the
naturals below `2 ^ (p + 1)`, then the multiples of two below `2 ^ (p + 2)`, and so on:
`point p m` is the `m`-th of them, and `m` is what an IEEE format stores, exponent field
before fraction.  `nearest p y` rounds `y` to the nearest, ties to even.  It is monotone
(`nearest_mono`) and keeps the points of the grid (`nearest_point`), so a bound on `y` by a
point is one on its rounding; above the subnormal numbers its error is relative
(`point_nearest_relative_error`).
-/

namespace FloatGrid

variable {p m n k : ℕ} {y z : ℚ}

/-! ## Rounding to an integer -/

/-- The nearest integer, and of two equally near the even one. -/
def roundEven (z : ℚ) : ℕ :=
  let f := ⌊z⌋₊
  if z < f + 1 / 2 then f else if f + 1 / 2 < z then f + 1 else f + f % 2

theorem roundEven_natCast (n : ℕ) : roundEven n = n := by
  unfold roundEven
  rw [Nat.floor_natCast]
  exact if_pos (by linarith)

theorem floor_le_roundEven (z : ℚ) : ⌊z⌋₊ ≤ roundEven z := by
  simp only [roundEven]
  split_ifs <;> omega

theorem roundEven_le_floor_add_one (z : ℚ) : roundEven z ≤ ⌊z⌋₊ + 1 := by
  simp only [roundEven]
  split_ifs <;> omega

theorem roundEven_mono (h : y ≤ z) : roundEven y ≤ roundEven z := by
  rcases Nat.lt_or_ge ⌊y⌋₊ ⌊z⌋₊ with hlt | hge
  · exact (roundEven_le_floor_add_one y).trans (le_trans hlt (floor_le_roundEven z))
  · have hfloor : ⌊y⌋₊ = ⌊z⌋₊ := le_antisymm (Nat.floor_mono h) hge
    simp only [roundEven, hfloor]
    split_ifs with h1 h2 h3 h4 h5 h6 <;> first | omega | linarith

theorem roundEven_error (h : 0 ≤ z) : |(roundEven z : ℚ) - z| ≤ 1 / 2 := by
  have hle := Nat.floor_le h
  have hlt := Nat.lt_floor_add_one z
  rw [abs_le]
  simp only [roundEven]
  split_ifs with h1 h2
  · exact ⟨by linarith, by linarith⟩
  · push_cast
    exact ⟨by linarith, by linarith⟩
  · have hmod : ((⌊z⌋₊ % 2 : ℕ) : ℚ) ≤ 1 := by
      exact_mod_cast Nat.lt_succ_iff.mp (Nat.mod_lt _ (by decide))
    have hmod' : (0 : ℚ) ≤ ((⌊z⌋₊ % 2 : ℕ) : ℚ) := Nat.cast_nonneg _
    rw [Nat.cast_add]
    exact ⟨by linarith, by linarith⟩

/-! ## The grid -/

/-- The binade of the `m`-th number: the exponent of the distance to the next one. -/
def binade (p m : ℕ) : ℕ := m / 2 ^ p - 1

def point (p m : ℕ) : ℕ := (m - binade p m * 2 ^ p) * 2 ^ binade p m

/-- The exponent of the distance between the numbers around `y`. -/
def exponent (p : ℕ) (y : ℚ) : ℕ := Nat.log2 ⌊y⌋₊ - p

def nearest (p : ℕ) (y : ℚ) : ℕ :=
  exponent p y * 2 ^ p + roundEven (y / 2 ^ exponent p y)

/-- A significand in the `k`-th binade, or at its end. -/
structure InBinade (p k n : ℕ) : Prop where
  le : n ≤ 2 ^ (p + 1)
  ge : k = 0 ∨ 2 ^ p ≤ n

theorem point_add (h : InBinade p k n) : point p (k * 2 ^ p + n) = n * 2 ^ k := by
  have hpos : 0 < 2 ^ p := Nat.two_pow_pos p
  have hle := h.le
  rw [Nat.pow_succ] at hle
  have hdiv : (k * 2 ^ p + n) / 2 ^ p = k + n / 2 ^ p := by
    rw [Nat.add_comm, Nat.add_mul_div_right _ _ hpos, Nat.add_comm]
  unfold point binade
  rw [hdiv]
  rcases Nat.lt_or_ge n (2 ^ p) with hlt | hge
  · obtain rfl : k = 0 := by
      rcases h.ge with h0 | hge
      · exact h0
      · omega
    rw [Nat.div_eq_of_lt hlt]
    simp
  · rcases Nat.lt_or_ge n (2 ^ p * 2) with hlt | hge'
    · have hone : n / 2 ^ p = 1 := Nat.div_eq_of_lt_le (by omega) (by omega)
      rw [hone, Nat.add_sub_cancel, Nat.add_sub_cancel_left]
    · obtain rfl : n = 2 ^ p * 2 := le_antisymm hle hge'
      rw [Nat.mul_div_cancel_left 2 hpos, show k + 2 - 1 = k + 1 by omega,
        show k * 2 ^ p + 2 ^ p * 2 - (k + 1) * 2 ^ p = 2 ^ p by rw [Nat.add_mul]; omega,
        Nat.pow_succ, Nat.mul_assoc, Nat.mul_comm 2 (2 ^ k)]

/-- Every number is a significand in its binade. -/
theorem exists_inBinade (p m : ℕ) :
    ∃ n, m = binade p m * 2 ^ p + n ∧ InBinade p (binade p m) n ∧ n < 2 ^ (p + 1) := by
  have hpos : 0 < 2 ^ p := Nat.two_pow_pos p
  have hmod := Nat.div_add_mod m (2 ^ p)
  have hlt := Nat.mod_lt m hpos
  have hsucc : 2 ^ (p + 1) = 2 ^ p + 2 ^ p := by rw [Nat.pow_succ]; omega
  unfold binade
  rcases Nat.eq_zero_or_pos (m / 2 ^ p) with h0 | hpos'
  · rw [h0, Nat.mul_zero] at hmod
    exact ⟨m, by rw [h0]; simp, ⟨by omega, Or.inl (by rw [h0])⟩, by omega⟩
  · refine ⟨2 ^ p + m % 2 ^ p, ?_, ⟨by omega, Or.inr (by omega)⟩, by omega⟩
    obtain ⟨e, he⟩ := Nat.exists_eq_succ_of_ne_zero hpos'.ne'
    rw [he] at hmod ⊢
    rw [Nat.succ_sub_one]
    rw [Nat.mul_succ, Nat.mul_comm] at hmod
    omega

/-! ## Rounding to the grid -/

theorem exponent_mono (h : y ≤ z) : exponent p y ≤ exponent p z := by
  unfold exponent
  rw [Nat.log2_eq_log_two, Nat.log2_eq_log_two]
  exact Nat.sub_le_sub_right (Nat.log_mono_right (Nat.floor_mono h)) p

theorem lt_exponent (p : ℕ) (y : ℚ) : y < 2 ^ (p + 1) * 2 ^ exponent p y := by
  have hfloor : ⌊y⌋₊ < 2 ^ (p + 1 + exponent p y) := by
    refine Nat.lt_log2_self.trans_le (Nat.pow_le_pow_right (by decide) ?_)
    unfold exponent
    omega
  rw [← pow_add]
  exact_mod_cast Nat.lt_of_floor_lt hfloor

theorem exponent_le (h : exponent p y ≠ 0) : 2 ^ p * 2 ^ exponent p y ≤ y := by
  have hlog : p + exponent p y = Nat.log2 ⌊y⌋₊ := by
    unfold exponent at h ⊢
    omega
  have hfloor : ⌊y⌋₊ ≠ 0 := by
    intro h0
    rw [h0, Nat.log2_zero] at hlog
    omega
  rw [← pow_add, hlog]
  have hle := (Nat.le_floor_iff' (Nat.two_pow_pos _).ne').mp (Nat.log2_self_le hfloor)
  exact_mod_cast hle

theorem inBinade_roundEven (p : ℕ) (y : ℚ) :
    InBinade p (exponent p y) (roundEven (y / 2 ^ exponent p y)) := by
  have hpos : (0 : ℚ) < 2 ^ exponent p y := by positivity
  constructor
  · rw [← roundEven_natCast (2 ^ (p + 1))]
    refine roundEven_mono ?_
    rw [div_le_iff₀ hpos]
    exact_mod_cast (lt_exponent p y).le
  · by_cases h : exponent p y = 0
    · exact Or.inl h
    · refine Or.inr ?_
      rw [← roundEven_natCast (2 ^ p)]
      refine roundEven_mono ?_
      rw [le_div_iff₀ hpos]
      exact_mod_cast exponent_le h

theorem point_nearest (p : ℕ) (y : ℚ) : point p (nearest p y) =
    roundEven (y / 2 ^ exponent p y) * 2 ^ exponent p y :=
  point_add (inBinade_roundEven p y)

/-- **Rounding is monotone.**  In one binade it rounds multiples of one number; the end of a
binade is the start of the next. -/
theorem nearest_mono (h : y ≤ z) : nearest p y ≤ nearest p z := by
  unfold nearest
  rcases (exponent_mono (p := p) h).eq_or_lt with heq | hlt
  · rw [heq]
    refine Nat.add_le_add_left (roundEven_mono ?_) _
    exact div_le_div_of_nonneg_right h (by positivity)
  · have hy := (inBinade_roundEven p y).le
    have hz : 2 ^ p ≤ roundEven (z / 2 ^ exponent p z) :=
      (inBinade_roundEven p z).ge.resolve_left (by omega)
    calc exponent p y * 2 ^ p + roundEven (y / 2 ^ exponent p y)
        ≤ exponent p y * 2 ^ p + 2 ^ (p + 1) := Nat.add_le_add_left hy _
      _ = (exponent p y + 1) * 2 ^ p + 2 ^ p := by rw [Nat.pow_succ, Nat.add_mul]; omega
      _ ≤ exponent p z * 2 ^ p + roundEven (z / 2 ^ exponent p z) :=
        Nat.add_le_add (Nat.mul_le_mul_right _ hlt) hz

/-- The numbers of the grid stay. -/
theorem nearest_point (p m : ℕ) : nearest p (point p m) = m := by
  obtain ⟨n, hm, hbinade, hlt⟩ := exists_inBinade p m
  have hpoint : point p m = n * 2 ^ binade p m := by
    conv_lhs => rw [hm]
    exact point_add hbinade
  have hexp : exponent p (point p m : ℕ) = binade p m := by
    unfold exponent
    rw [Nat.floor_natCast, hpoint]
    rcases hbinade.ge with h0 | hge
    · rw [h0, Nat.pow_zero, Nat.mul_one]
      rcases Nat.eq_zero_or_pos n with rfl | hpos
      · rw [Nat.log2_zero, Nat.zero_sub]
      · have hlog := (Nat.log2_lt hpos.ne').mpr hlt
        omega
    · have hpos : 0 < n := (Nat.two_pow_pos p).trans_le hge
      have hlog : Nat.log2 (n * 2 ^ binade p m) = p + binade p m := by
        rw [Nat.log2_eq_iff (Nat.mul_pos hpos (Nat.two_pow_pos _)).ne', Nat.pow_add,
          Nat.add_right_comm, Nat.pow_add]
        exact ⟨Nat.mul_le_mul_right _ hge, Nat.mul_lt_mul_of_pos_right hlt (Nat.two_pow_pos _)⟩
      rw [hlog, Nat.add_sub_cancel_left]
  unfold nearest
  rw [hexp, hpoint, Nat.cast_mul, Nat.cast_pow, Nat.cast_two,
    mul_div_cancel_right₀ _ (by positivity), roundEven_natCast]
  exact hm.symm

theorem point_mono (h : m ≤ n) : point p m ≤ point p n := by
  by_contra hlt
  have hle : n ≤ m := by
    rw [← nearest_point p m, ← nearest_point p n]
    exact nearest_mono (by exact_mod_cast (not_le.mp hlt).le)
  exact hlt (le_antisymm h hle ▸ le_refl _)

/-- The error is at most half the distance of two neighbours, -/
theorem point_nearest_error (h : 0 ≤ y) :
    |(point p (nearest p y) : ℚ) - y| ≤ 2 ^ exponent p y / 2 := by
  have hpos : (0 : ℚ) < 2 ^ exponent p y := by positivity
  have herror := roundEven_error (z := y / 2 ^ exponent p y) (by positivity)
  rw [point_nearest]
  push_cast
  calc |(roundEven (y / 2 ^ exponent p y) : ℚ) * 2 ^ exponent p y - y|
      = |((roundEven (y / 2 ^ exponent p y) : ℚ) - y / 2 ^ exponent p y) * 2 ^ exponent p y| := by
        rw [sub_mul, div_mul_cancel₀ _ hpos.ne']
    _ = |(roundEven (y / 2 ^ exponent p y) : ℚ) - y / 2 ^ exponent p y| * 2 ^ exponent p y := by
        rw [abs_mul, abs_of_pos hpos]
    _ ≤ 1 / 2 * 2 ^ exponent p y := mul_le_mul_of_nonneg_right herror hpos.le
    _ = 2 ^ exponent p y / 2 := by ring

/-- and so a small part of the number, where it is not among the subnormal ones. -/
theorem point_nearest_relative_error (h : 2 ^ p ≤ y) :
    |(point p (nearest p y) : ℚ) - y| ≤ y / 2 ^ (p + 1) := by
  have hpow : (0 : ℚ) < 2 ^ p := by positivity
  refine (point_nearest_error (hpow.le.trans h)).trans ?_
  have hexp : 2 ^ p * 2 ^ exponent p y ≤ y := by
    by_cases h0 : exponent p y = 0
    · rw [h0, pow_zero, mul_one]
      exact h
    · exact exponent_le h0
  rw [pow_succ, div_le_div_iff₀ (by positivity) (by positivity)]
  linarith

end FloatGrid
