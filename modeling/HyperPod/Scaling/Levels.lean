import HyperPod.Scaling.Convergence
import HyperPod.Scaling.Probes

/-!
# What the monitor makes of a reading

The monitor compares a reading with two thresholds, and acts on the `level` that this gives.
Rounding does not mislead it: the level is that of the counters in exact arithmetic, on
Windows in windows of up to `2 ^ 52` units of time (`level_cpuLoad`), on Linux unless the load
average is just the high threshold (`level_averageLoad`).
-/

namespace HyperPod

open Machine Binary64

inductive Level where
  | high
  | low
  | between
deriving Repr, DecidableEq

/-- What the monitor makes of a reading. -/
def level (policy : ScalingPolicy) (load : Binary64) : Level :=
  if load ≥ policy.highLoadThreshold then .high
  else if load ≤ policy.lowLoadThreshold then .low
  else .between

/-- The level of a window in exact arithmetic; one in which no time passed counts as idle. -/
def cpuLevel (didle dtotal : Nat) : Level :=
  if 0 < dtotal ∧ 5 * didle ≤ dtotal then .high
  else if 4 * dtotal ≤ 5 * didle then .low
  else .between

/-- The level of a load average, given in hundredths, in exact arithmetic. -/
def averageLevel (hundredths numCpus : Nat) : Level :=
  if 80 * numCpus ≤ hundredths then .high
  else if hundredths ≤ 20 * numCpus then .low
  else .between

/-! ## What rounding does to the level -/

/-- The magnitudes of the thresholds. -/
def highMagnitude : Nat := 0x3fe999999999999a
def lowMagnitude : Nat := 0x3fc999999999999a

section
variable {l : Limits} {didle dtotal : Nat} {q : ℚ}

/-- and rounded once only where the window is not too long. -/
theorem quotient_eq (htotal : dtotal ≤ 2 ^ 52) (h : didle ≤ dtotal) :
    valueOf (nearest didle) / valueOf (nearest dtotal) = (didle : ℚ) / dtotal := by
  rw [(valueOf_nearest_natCast (n := didle) (by omega)).2,
    (valueOf_nearest_natCast (n := dtotal) (by omega)).2]

theorem one_le_quotient (h0 : dtotal ≠ 0) (h : dtotal ≤ didle) :
    1 ≤ valueOf (nearest didle) / valueOf (nearest dtotal) := by
  have hone := one_le_valueOf_nearest h0
  rw [le_div_iff₀ (by linarith), one_mul]
  exact valueOf_mono (nearest_mono (by exact_mod_cast h))

theorem fifth_le_valueOf : 1 / 5 ≤ valueOf lowMagnitude := by decide +kernel

theorem nearest_one_sub_low : nearest (valueOf one.magnitude - valueOf lowMagnitude) =
    highMagnitude := by decide +kernel

/-- In a window of up to `2 ^ 52` units, a fraction over a fifth is so by enough to be seen. -/
theorem low_succ_le_nearest (htotal : dtotal ≤ 2 ^ 52) (h0 : dtotal ≠ 0)
    (h : dtotal + 1 ≤ 5 * didle) (hq : (didle : ℚ) / dtotal ≤ q) :
    lowMagnitude + 1 ≤ nearest q := by
  have hpos : (0 : ℚ) < dtotal := by exact_mod_cast Nat.pos_of_ne_zero h0
  refine le_nearest (by decide) (le_trans ?_ hq)
  have hstep : valueOf (lowMagnitude + 1) ≤ 1 / 5 + 1 / (5 * 2 ^ 52) := by decide +kernel
  have hsmall : (dtotal : ℚ) / 2 ^ 52 ≤ 1 :=
    (div_le_one (by positivity)).mpr (by exact_mod_cast htotal)
  have h' : (dtotal : ℚ) + 1 ≤ 5 * didle := by exact_mod_cast h
  rw [le_div_iff₀ hpos]
  calc valueOf (lowMagnitude + 1) * dtotal
      ≤ (1 / 5 + 1 / (5 * 2 ^ 52)) * dtotal := mul_le_mul_of_nonneg_right hstep hpos.le
    _ = dtotal / 5 + dtotal / 2 ^ 52 / 5 := by ring
    _ ≤ didle := by linarith

/-- A fraction under four fifths is so by enough as well. -/
theorem nearest_le_high_pred (htotal : dtotal ≤ 2 ^ 52) (h0 : dtotal ≠ 0)
    (h : 5 * didle + 1 ≤ 4 * dtotal) : nearest ((didle : ℚ) / dtotal) ≤ highMagnitude - 1 := by
  have hpos : (0 : ℚ) < dtotal := by exact_mod_cast Nat.pos_of_ne_zero h0
  have hstep : nearest (4 / 5 - 1 / (5 * 2 ^ 52)) ≤ highMagnitude - 1 := by decide +kernel
  refine (nearest_mono ?_).trans hstep
  have hsmall : (dtotal : ℚ) / 2 ^ 52 ≤ 1 :=
    (div_le_one (by positivity)).mpr (by exact_mod_cast htotal)
  have h' : 5 * (didle : ℚ) + 1 ≤ 4 * dtotal := by exact_mod_cast h
  rw [div_le_iff₀ hpos]
  calc (didle : ℚ) ≤ 4 * dtotal / 5 - dtotal / 2 ^ 52 / 5 := by linarith
    _ = (4 / 5 - 1 / (5 * 2 ^ 52)) * dtotal := by ring

theorem high_cpuLoad_iff (hidle : didle < 2 ^ 64) (htotal : dtotal ≤ 2 ^ 52) (h0 : dtotal ≠ 0) :
    cpuLoad didle dtotal ≥ (ScalingPolicy.fromLimits l).highLoadThreshold ↔
      5 * didle ≤ dtotal := by
  obtain ⟨m, hm, hdiv, hq⟩ := exists_div_eq hidle (by omega) h0
  unfold cpuLoad
  rw [if_neg h0, hdiv, one_eq]
  change ofMagnitude false highMagnitude ≤ _ ↔ _
  rw [le_clamp_iff (isNan_sub (by decide) hm) (by decide) (by decide)]
  show (highMagnitude : Int) ≤ _ ↔ _
  constructor
  · intro hkey
    by_contra hlt
    have hlow : lowMagnitude + 1 ≤ m := by
      rw [hq]
      rcases le_total didle dtotal with hle | hge
      · exact low_succ_le_nearest htotal h0 (by omega) (quotient_eq htotal hle).ge
      · exact le_nearest (by decide)
          (le_trans (by decide +kernel) (one_le_quotient h0 hge))
    have hle := key_sub_le (m := one.magnitude) (by decide) hm (valueOf_mono hlow)
    have hstep : nearest (valueOf one.magnitude - valueOf (lowMagnitude + 1)) < highMagnitude := by
      decide +kernel
    exact absurd (hkey.trans hle) (by exact_mod_cast not_le.mpr hstep)
  · intro h
    have hlow : m ≤ lowMagnitude := by
      rw [hq, quotient_eq htotal (by omega)]
      have hpos : (0 : ℚ) < dtotal := by exact_mod_cast Nat.pos_of_ne_zero h0
      refine nearest_le (by decide) (le_trans ?_ fifth_le_valueOf)
      rw [div_le_div_iff₀ hpos (by norm_num)]
      exact_mod_cast (by omega : didle * 5 ≤ 1 * dtotal)
    have hle := le_key_sub (m := one.magnitude) (by decide) hm (valueOf_mono hlow)
      (by decide +kernel)
    rwa [nearest_one_sub_low] at hle

theorem low_cpuLoad_iff (hidle : didle < 2 ^ 64) (htotal : dtotal ≤ 2 ^ 52) (h0 : dtotal ≠ 0) :
    cpuLoad didle dtotal ≤ (ScalingPolicy.fromLimits l).lowLoadThreshold ↔
      4 * dtotal ≤ 5 * didle := by
  obtain ⟨m, hm, hdiv, hq⟩ := exists_div_eq hidle (by omega) h0
  unfold cpuLoad
  rw [if_neg h0, hdiv, one_eq]
  change _ ≤ ofMagnitude false lowMagnitude ↔ _
  rw [clamp_le_iff (isNan_sub (by decide) hm) (by decide) (by decide)]
  show _ ≤ (lowMagnitude : Int) ↔ _
  constructor
  · intro hkey
    by_contra hlt
    have hhigh : m ≤ highMagnitude - 1 := by
      rw [hq, quotient_eq htotal (by omega)]
      exact nearest_le_high_pred htotal h0 (by omega)
    have hle := le_key_sub (m := one.magnitude) (by decide) hm (valueOf_mono hhigh)
      (by decide +kernel)
    have hstep : lowMagnitude < nearest (valueOf one.magnitude - valueOf (highMagnitude - 1)) := by
      decide +kernel
    exact absurd (hle.trans hkey) (by exact_mod_cast not_le.mpr hstep)
  · intro h
    have hhigh : highMagnitude ≤ m := by
      have hfifths : highMagnitude ≤ nearest (4 / 5) := by decide +kernel
      rw [hq]
      refine hfifths.trans (nearest_mono ?_)
      rcases le_total didle dtotal with hle | hge
      · have hpos : (0 : ℚ) < dtotal := by exact_mod_cast Nat.pos_of_ne_zero h0
        rw [quotient_eq htotal hle, div_le_div_iff₀ (by norm_num) hpos]
        exact_mod_cast (by omega : 4 * dtotal ≤ didle * 5)
      · exact le_trans (by norm_num) (one_le_quotient h0 hge)
    have hle := key_sub_le (m := one.magnitude) (by decide) hm (valueOf_mono hhigh)
    have hstep : nearest (valueOf one.magnitude - valueOf highMagnitude) ≤ lowMagnitude := by
      decide +kernel
    exact hle.trans (by exact_mod_cast hstep)

/-- **Rounding does not change the level** in a window of up to `2 ^ 52` units of time. -/
theorem level_cpuLoad (hidle : didle < 2 ^ 64) (htotal : dtotal ≤ 2 ^ 52) :
    level (.fromLimits l) (cpuLoad didle dtotal) = cpuLevel didle dtotal := by
  unfold level cpuLevel
  by_cases h0 : dtotal = 0
  · have hzero : cpuLoad didle dtotal = zero := if_pos h0
    have hhigh : ¬ zero ≥ (ScalingPolicy.fromLimits l).highLoadThreshold :=
      (by decide : ¬ ofMagnitude false highMagnitude ≤ zero)
    have hlow : zero ≤ (ScalingPolicy.fromLimits l).lowLoadThreshold :=
      (by decide : zero ≤ ofMagnitude false lowMagnitude)
    rw [hzero, if_neg hhigh, if_pos hlow, if_neg fun h => h.1.ne' h0, if_pos (by omega)]
  · simp only [high_cpuLoad_iff hidle htotal h0, low_cpuLoad_iff hidle htotal h0,
      Nat.pos_of_ne_zero h0, true_and]

/-- In a longer window an idle time a little over a fifth is taken for a fifth. -/
example : level (.fromLimits ⟨1, 1, 1, 1⟩) (cpuLoad 1601279867509510 8006399337547549) = .high ∧
    cpuLevel 1601279867509510 8006399337547549 = .between := by
  decide +kernel

end

/-! ## The load average -/

section
variable {hundredths numCpus : Nat} {l : Limits} {q : ℚ}

/-- Rounding a number that is not too small or too large. -/
theorem valueOf_nearest_bounds (hlo : 1 / 100 ≤ q) (hhi : nearest q < infinite) :
    q - q / 2 ^ 53 ≤ valueOf (nearest q) ∧ valueOf (nearest q) ≤ q + q / 2 ^ 53 := by
  have hlo' : 1 / 2 ^ 1022 ≤ q := le_trans (by decide +kernel) hlo
  have herror := abs_le.mp (valueOf_nearest_error hlo' hhi)
  exact ⟨by linarith, by linarith⟩

/-- The magnitude of the quotient that the probe computes lies above what is surely less, and
under what is surely more. -/
theorem exists_average_eq (h0 : numCpus ≠ 0) (hcpus : numCpus ≤ 2 ^ 32) (hundredths : Nat) :
    ∃ m, m ≤ infinite ∧
      div (Binary64.round false (hundredths / 100)) (ofNat numCpus) = ofMagnitude false m ∧
      (∀ r c, r ≤ (hundredths / 100 : ℚ) → c ≤ infinite →
        valueOf c * numCpus ≤ valueOf (nearest r) → c ≤ m) ∧
      ∀ r c, (hundredths / 100 : ℚ) ≤ r → nearest r < infinite →
        nearest (valueOf (nearest r) / numCpus) ≤ c → m ≤ c := by
  have hpos : (0 : ℚ) < numCpus := by exact_mod_cast Nat.pos_of_ne_zero h0
  obtain ⟨hfinite, hvalue⟩ := valueOf_nearest_natCast (n := numCpus) (by omega)
  have hne := nearest_natCast_ne_zero h0
  rcases (nearest_le_infinite (hundredths / 100 : ℚ)).eq_or_lt with hinf | hlt
  · refine ⟨infinite, le_refl _, ?_, fun _ _ _ hc _ => hc, ?_⟩
    · show div (ofMagnitude false (nearest _)) _ = _
      rw [hinf]
      exact div_infinite hfinite
    · intro r c hr hr' _
      exact absurd (hinf ▸ nearest_mono hr) (not_le.mpr hr')
  · refine ⟨_, nearest_le_infinite _, div_eq_round hlt hfinite hne, ?_, ?_⟩
    · intro r c hr hc hle
      rw [hvalue]
      refine le_nearest hc ?_
      rw [le_div_iff₀ hpos]
      exact hle.trans (valueOf_mono (nearest_mono hr))
    · intro r c hr _ hle
      rw [hvalue]
      refine le_trans (nearest_mono ?_) hle
      exact div_le_div_of_nonneg_right (valueOf_mono (nearest_mono hr)) hpos.le

/-- A hundredth over a threshold of the load is seen on up to `2 ^ 32` CPUs, -/
theorem le_of_hundredth_over {c k : Nat} (h0 : numCpus ≠ 0) (hcpus : numCpus ≤ 2 ^ 32) (hk : k ≤ 80)
    (hc : valueOf c ≤ k / 100 + 1 / 2 ^ 54) :
    valueOf c * numCpus ≤ valueOf (nearest ((k * numCpus + 1) / 100)) := by
  have hpos : (1 : ℚ) ≤ numCpus := by exact_mod_cast Nat.one_le_iff_ne_zero.mpr h0
  have hcpus' : (numCpus : ℚ) ≤ 2 ^ 32 := by exact_mod_cast hcpus
  have hk' : (k : ℚ) ≤ 80 := by exact_mod_cast hk
  have hk0 : (0 : ℚ) ≤ k := Nat.cast_nonneg k
  have hle : (k * numCpus + 1 : ℚ) / 100 ≤ 2 ^ 32 := by nlinarith
  have hfinite : nearest ((k * numCpus + 1 : ℚ) / 100) < infinite :=
    (nearest_mono hle).trans_lt (by decide +kernel)
  have hlo : 1 / 100 ≤ (k * numCpus + 1 : ℚ) / 100 := by
    rw [div_le_div_iff_of_pos_right (by norm_num)]
    nlinarith
  refine le_trans ?_ (valueOf_nearest_bounds hlo hfinite).1
  calc valueOf c * numCpus ≤ (k / 100 + 1 / 2 ^ 54) * numCpus :=
        mul_le_mul_of_nonneg_right hc (by linarith)
    _ = k * numCpus / 100 + numCpus / 2 ^ 54 := by ring
    _ ≤ k * numCpus / 100 + 1 / 2 ^ 22 := by
        rw [add_le_add_iff_left, div_le_div_iff₀ (by positivity) (by positivity)]
        linarith
    _ ≤ (k * numCpus + 1) / 100 - 2 ^ 32 / 2 ^ 53 := by
        have hgap : (1 : ℚ) / 2 ^ 22 ≤ 1 / 100 - 2 ^ 32 / 2 ^ 53 := by norm_num
        rw [add_div]
        linarith
    _ ≤ (k * numCpus + 1) / 100 - (k * numCpus + 1) / 100 / 2 ^ 53 := by
        rw [sub_le_sub_iff_left]
        exact div_le_div_of_nonneg_right hle (by positivity)

/-- and one under the high threshold as well; -/
theorem nearest_le_of_hundredth_under (h0 : numCpus ≠ 0) (hcpus : numCpus ≤ 2 ^ 32) :
    nearest ((80 * numCpus - 1 : ℚ) / 100) < infinite ∧
      nearest (valueOf (nearest ((80 * numCpus - 1) / 100)) / numCpus) ≤ highMagnitude - 1 := by
  have hpos : (1 : ℚ) ≤ numCpus := by exact_mod_cast Nat.one_le_iff_ne_zero.mpr h0
  have hcpus' : (numCpus : ℚ) ≤ 2 ^ 32 := by exact_mod_cast hcpus
  have hle : (80 * numCpus - 1 : ℚ) / 100 ≤ 2 ^ 32 := by linarith
  have hfinite : nearest ((80 * numCpus - 1 : ℚ) / 100) < infinite :=
    (nearest_mono hle).trans_lt (by decide +kernel)
  have hstep : nearest (4 / 5 - 1 / 2 ^ 52) ≤ highMagnitude - 1 := by decide +kernel
  refine ⟨hfinite, (nearest_mono ?_).trans hstep⟩
  rw [div_le_iff₀ (by linarith)]
  have hrelative : (80 * numCpus - 1 : ℚ) / 100 / 2 ^ 53 ≤ 2 ^ 32 / 2 ^ 53 :=
    div_le_div_of_nonneg_right hle (by positivity)
  have hgap : (numCpus : ℚ) / 2 ^ 52 ≤ 2 ^ 32 / 2 ^ 52 :=
    div_le_div_of_nonneg_right hcpus' (by positivity)
  have hsum : (2 : ℚ) ^ 32 / 2 ^ 53 + 2 ^ 32 / 2 ^ 52 ≤ 1 / 100 := by norm_num
  calc valueOf (nearest ((80 * numCpus - 1) / 100))
      ≤ (80 * numCpus - 1) / 100 + (80 * numCpus - 1) / 100 / 2 ^ 53 :=
        (valueOf_nearest_bounds (by linarith) hfinite).2
    _ ≤ 4 / 5 * numCpus - numCpus / 2 ^ 52 := by linarith
    _ = (4 / 5 - 1 / 2 ^ 52) * numCpus := by ring

/-- at the low threshold itself rounding does no harm. -/
theorem nearest_le_of_low (h0 : numCpus ≠ 0) (hcpus : numCpus ≤ 2 ^ 32) :
    nearest ((numCpus : ℚ) / 5) < infinite ∧
      nearest (valueOf (nearest ((numCpus : ℚ) / 5)) / numCpus) ≤ lowMagnitude := by
  have hpos : (1 : ℚ) ≤ numCpus := by exact_mod_cast Nat.one_le_iff_ne_zero.mpr h0
  have hcpus' : (numCpus : ℚ) ≤ 2 ^ 32 := by exact_mod_cast hcpus
  have hfinite : nearest ((numCpus : ℚ) / 5) < infinite := by
    have hle : (numCpus : ℚ) / 5 ≤ 2 ^ 32 := by linarith
    exact (nearest_mono hle).trans_lt (by decide +kernel)
  have hstep : nearest (1 / 5 + 1 / 5 / 2 ^ 53) ≤ lowMagnitude := by decide +kernel
  refine ⟨hfinite, (nearest_mono ?_).trans hstep⟩
  rw [div_le_iff₀ (by linarith)]
  calc valueOf (nearest ((numCpus : ℚ) / 5)) ≤ numCpus / 5 + numCpus / 5 / 2 ^ 53 :=
        (valueOf_nearest_bounds (by linarith) hfinite).2
    _ = (1 / 5 + 1 / 5 / 2 ^ 53) * numCpus := by ring

/-- **Rounding does not change the level** of a load average, unless it is just the high
threshold. -/
theorem level_averageLoad (h0 : numCpus ≠ 0) (hcpus : numCpus ≤ 2 ^ 32)
    (hne : hundredths ≠ 80 * numCpus) :
    level (.fromLimits l) (averageLoad (Binary64.round false (hundredths / 100)) numCpus) =
      averageLevel hundredths numCpus := by
  obtain ⟨m, hm, hdiv, hover, hunder⟩ := exists_average_eq h0 hcpus hundredths
  have hlt : m < 2 ^ 63 := Nat.lt_of_le_of_lt hm (by decide)
  have hkey : (ofMagnitude false m).key = m := key_ofMagnitude hlt
  have hhigh : averageLoad (Binary64.round false (hundredths / 100)) numCpus ≥
      (ScalingPolicy.fromLimits l).highLoadThreshold ↔ 80 * numCpus ≤ hundredths := by
    unfold averageLoad
    rw [hdiv]
    change ofMagnitude false highMagnitude ≤ _ ↔ _
    rw [le_clamp_iff (isNan_ofMagnitude hm) (by decide) (by decide), hkey]
    show (highMagnitude : Int) ≤ m ↔ _
    constructor
    · intro hle
      by_contra hlt
      have hr : (hundredths : ℚ) / 100 ≤ (80 * numCpus - 1) / 100 := by
        rw [div_le_div_iff_of_pos_right (by norm_num), le_sub_iff_add_le]
        exact_mod_cast (by omega : hundredths + 1 ≤ 80 * numCpus)
      obtain ⟨hfinite, hnear⟩ := nearest_le_of_hundredth_under h0 hcpus
      have hmle := hunder _ _ hr hfinite hnear
      unfold highMagnitude at hle hmle
      omega
    · intro hle
      have hr : ((80 : ℕ) * numCpus + 1 : ℚ) / 100 ≤ hundredths / 100 := by
        rw [div_le_div_iff_of_pos_right (by norm_num)]
        exact_mod_cast (by omega : 80 * numCpus + 1 ≤ hundredths)
      exact_mod_cast hover _ _ hr (by decide)
        (le_of_hundredth_over h0 hcpus (le_refl 80) (by decide +kernel))
  have hlow : averageLoad (Binary64.round false (hundredths / 100)) numCpus ≤
      (ScalingPolicy.fromLimits l).lowLoadThreshold ↔ hundredths ≤ 20 * numCpus := by
    unfold averageLoad
    rw [hdiv]
    change _ ≤ ofMagnitude false lowMagnitude ↔ _
    rw [clamp_le_iff (isNan_ofMagnitude hm) (by decide) (by decide), hkey]
    show (m : Int) ≤ lowMagnitude ↔ _
    constructor
    · intro hle
      by_contra hlt
      have hr : ((20 : ℕ) * numCpus + 1 : ℚ) / 100 ≤ hundredths / 100 := by
        rw [div_le_div_iff_of_pos_right (by norm_num)]
        exact_mod_cast (by omega : 20 * numCpus + 1 ≤ hundredths)
      have hmle := hover _ (lowMagnitude + 1) hr (by decide)
        (le_of_hundredth_over h0 hcpus (by decide) (by decide +kernel))
      omega
    · intro hle
      have hr : (hundredths : ℚ) / 100 ≤ numCpus / 5 := by
        rw [div_le_div_iff₀ (by norm_num) (by norm_num)]
        exact_mod_cast (by omega : hundredths * 5 ≤ numCpus * 100)
      obtain ⟨hfinite, hnear⟩ := nearest_le_of_low h0 hcpus
      exact_mod_cast hunder _ _ hr hfinite hnear
  unfold level averageLevel
  simp only [hhigh, hlow]

/-- On three CPUs a load average of 2.40 is not seen as the high load that it is. -/
example : level (.fromLimits ⟨1, 1, 1, 1⟩)
      (averageLoad (Binary64.round false (240 / 100)) 3) = .between ∧
    averageLevel 240 3 = .high := by
  decide +kernel

end

end HyperPod
