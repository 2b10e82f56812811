import HyperPod.Lib.Binary64
import HyperPod.Lib.FloatGrid
import Mathlib.Data.UInt

/-!
# Arithmetic on binary64 numbers

The operations of IEEE 754 under the default rounding: the exact result rounded to nearest,
ties to even (`round`), with its rules for zeros, infinities and NaNs.  A bound on the exact
result by a number of the format is one on the result (`le_nearest`, `nearest_le`).
-/

namespace Binary64

/-- The magnitude of the infinities. -/
def infinite : Nat := 0x7ff0000000000000

def isNeg (x : Binary64) : Bool := 2 ^ 63 ≤ x.bits.toNat

def isInf (x : Binary64) : Bool := x.magnitude = infinite

def isZero (x : Binary64) : Bool := x.magnitude = 0

def ofMagnitude (neg : Bool) (m : Nat) : Binary64 :=
  ⟨UInt64.ofNat (if neg then 2 ^ 63 + m else m)⟩

def nan : Binary64 := ⟨0x7ff8000000000000⟩
def zero : Binary64 := ⟨0⟩
def one : Binary64 := ⟨0x3ff0000000000000⟩

/-- The value of a magnitude; it is a multiple of the least positive one. -/
def valueOf (m : Nat) : ℚ := FloatGrid.point 52 m / 2 ^ 1074

/-- The value of a finite number. -/
def toRat (x : Binary64) : ℚ := if x.isNeg then -valueOf x.magnitude else valueOf x.magnitude

/-- The magnitude nearest to `q`; halfway past the largest finite number infinity begins. -/
def nearest (q : ℚ) : Nat := min (FloatGrid.nearest 52 (q * 2 ^ 1074)) infinite

/-- The number nearest to `q` or, if `neg`, to `-q`. -/
def round (neg : Bool) (q : ℚ) : Binary64 := ofMagnitude neg (nearest q)

def ofNat (n : Nat) : Binary64 := round false n

def div (x y : Binary64) : Binary64 :=
  let neg := x.isNeg != y.isNeg
  if x.isNan || y.isNan then nan
  else if x.isInf then if y.isInf then nan else ofMagnitude neg infinite
  else if y.isInf then ofMagnitude neg 0
  else if y.isZero then if x.isZero then nan else ofMagnitude neg infinite
  else round neg (|x.toRat| / |y.toRat|)

def sub (x y : Binary64) : Binary64 :=
  if x.isNan || y.isNan then nan
  else if x.isInf then if y.isInf && x.isNeg == y.isNeg then nan else x
  else if y.isInf then ofMagnitude (!y.isNeg) infinite
  else
    let d := x.toRat - y.toRat
    -- of equal numbers the difference is the positive zero, but for `-0.0 - 0.0`
    if d = 0 then ofMagnitude (x.isNeg && !y.isNeg) 0 else round (d < 0) |d|

instance : LT Binary64 := ⟨fun x y => x.isNan = false ∧ y.isNan = false ∧ x.key < y.key⟩

instance (x y : Binary64) : Decidable (x < y) := inferInstanceAs (Decidable (_ ∧ _))

/-- `x` brought between `lo` and `hi`; a NaN stays. -/
def clamp (x lo hi : Binary64) : Binary64 := if x < lo then lo else if hi < x then hi else x

example : div (ofNat 1) (ofNat 5) = ⟨0x3fc999999999999a⟩ := by decide +kernel

/-! ## Bits -/

section
variable {neg : Bool} {m n : Nat}

theorem toNat_bits_ofMagnitude (h : m < 2 ^ 63) :
    (ofMagnitude neg m).bits.toNat = if neg then 2 ^ 63 + m else m := by
  unfold ofMagnitude
  rw [UInt64.toNat_ofNat', Nat.mod_eq_of_lt]
  split <;> omega

theorem magnitude_ofMagnitude (h : m < 2 ^ 63) : (ofMagnitude neg m).magnitude = m := by
  unfold magnitude
  rw [toNat_bits_ofMagnitude h]
  split
  · rw [Nat.add_mod_left, Nat.mod_eq_of_lt h]
  · exact Nat.mod_eq_of_lt h

theorem isNeg_ofMagnitude (h : m < 2 ^ 63) : (ofMagnitude neg m).isNeg = neg := by
  unfold isNeg
  rw [toNat_bits_ofMagnitude h]
  cases neg with
  | true => exact decide_eq_true (Nat.le_add_right _ _)
  | false => exact decide_eq_false (Nat.not_le.mpr h)

theorem key_ofMagnitude (h : m < 2 ^ 63) :
    (ofMagnitude neg m).key = if neg then -(m : Int) else m := by
  unfold key
  rw [magnitude_ofMagnitude h, toNat_bits_ofMagnitude h]
  cases neg with
  | true => exact if_neg (Nat.not_lt.mpr (Nat.le_add_right _ _))
  | false => exact if_pos h

/-- Up to infinity a magnitude is that of a number. -/
theorem isNan_ofMagnitude (h : m ≤ infinite) : (ofMagnitude neg m).isNan = false := by
  unfold isNan
  rw [magnitude_ofMagnitude (Nat.lt_of_le_of_lt h (by decide))]
  exact decide_eq_false (Nat.not_lt.mpr h)

theorem isInf_ofMagnitude (h : m < infinite) : (ofMagnitude neg m).isInf = false := by
  unfold isInf
  rw [magnitude_ofMagnitude (Nat.lt_trans h (by decide))]
  exact decide_eq_false h.ne

theorem isZero_ofMagnitude (h : m < 2 ^ 63) (h0 : m ≠ 0) : (ofMagnitude neg m).isZero = false := by
  unfold isZero
  rw [magnitude_ofMagnitude h]
  exact decide_eq_false h0

theorem toRat_ofMagnitude (h : m < 2 ^ 63) :
    (ofMagnitude neg m).toRat = if neg then -valueOf m else valueOf m := by
  unfold toRat
  rw [magnitude_ofMagnitude h, isNeg_ofMagnitude h]

theorem one_eq : one = ofMagnitude false 0x3ff0000000000000 := rfl

end

/-! ## Rounding -/

section
variable {neg : Bool} {m n : Nat} {q r : ℚ}

theorem valueOf_nonneg (m : Nat) : 0 ≤ valueOf m := by
  unfold valueOf
  positivity

theorem valueOf_mono (h : m ≤ n) : valueOf m ≤ valueOf n := by
  unfold valueOf
  exact div_le_div_of_nonneg_right (by exact_mod_cast FloatGrid.point_mono h) (by positivity)

theorem nearest_le_infinite (q : ℚ) : nearest q ≤ infinite := Nat.min_le_right _ _

theorem nearest_mono (h : q ≤ r) : nearest q ≤ nearest r := by
  refine min_le_min_right _ (FloatGrid.nearest_mono ?_)
  exact mul_le_mul_of_nonneg_right h (by positivity)

theorem nearest_valueOf (h : m ≤ infinite) : nearest (valueOf m) = m := by
  unfold nearest valueOf
  rw [div_mul_cancel₀ _ (by positivity), FloatGrid.nearest_point]
  exact Nat.min_eq_left h

theorem le_nearest (hm : m ≤ infinite) (h : valueOf m ≤ q) : m ≤ nearest q := by
  rw [← nearest_valueOf hm]
  exact nearest_mono h

theorem nearest_le (hm : m ≤ infinite) (h : q ≤ valueOf m) : nearest q ≤ m := by
  rw [← nearest_valueOf hm]
  exact nearest_mono h

theorem isNan_round (neg : Bool) (q : ℚ) : (round neg q).isNan = false :=
  isNan_ofMagnitude (nearest_le_infinite q)

theorem key_round (neg : Bool) (q : ℚ) :
    (round neg q).key = if neg then -(nearest q : Int) else nearest q :=
  key_ofMagnitude (Nat.lt_of_le_of_lt (nearest_le_infinite q) (by decide))

/-- The error is relative for a number that is neither subnormal nor too large. -/
theorem valueOf_nearest_error (hlo : 1 / 2 ^ 1022 ≤ q) (hhi : nearest q < infinite) :
    |valueOf (nearest q) - q| ≤ q / 2 ^ 53 := by
  have hpos : (0 : ℚ) < 2 ^ 1074 := by positivity
  have hgrid : nearest q = FloatGrid.nearest 52 (q * 2 ^ 1074) :=
    min_eq_left (min_lt_iff.mp hhi |>.resolve_right (lt_irrefl _)).le
  have hlarge : 2 ^ 52 ≤ q * 2 ^ 1074 := by
    have hscale : (2 : ℚ) ^ 1074 = 2 ^ 1022 * 2 ^ 52 := pow_add 2 1022 52
    rw [div_le_iff₀ (by positivity)] at hlo
    rw [hscale, ← mul_assoc]
    exact le_mul_of_one_le_left (by positivity) hlo
  have herror := FloatGrid.point_nearest_relative_error hlarge
  rw [← hgrid] at herror
  unfold valueOf
  calc |(FloatGrid.point 52 (nearest q) : ℚ) / 2 ^ 1074 - q|
      = |(FloatGrid.point 52 (nearest q) : ℚ) - q * 2 ^ 1074| / 2 ^ 1074 := by
        conv_rhs => rw [← abs_of_pos hpos, ← abs_div]
        rw [sub_div, abs_of_pos hpos, mul_div_cancel_right₀ _ hpos.ne']
    _ ≤ q * 2 ^ 1074 / 2 ^ (52 + 1) / 2 ^ 1074 := div_le_div_of_nonneg_right herror hpos.le
    _ = q / 2 ^ 53 := by
        rw [div_right_comm, mul_div_cancel_right₀ _ hpos.ne']

theorem nearest_natCast_lt (h : n < 2 ^ 64) : nearest n < infinite := by
  have hle : nearest n ≤ nearest (2 ^ 64) := nearest_mono (by exact_mod_cast h.le)
  exact hle.trans_lt (by decide +kernel)

theorem one_le_valueOf_nearest (h : n ≠ 0) : 1 ≤ valueOf (nearest n) := by
  have hle : nearest 1 ≤ nearest n :=
    nearest_mono (by exact_mod_cast Nat.one_le_iff_ne_zero.mpr h)
  have hone : valueOf (nearest 1) = 1 := by decide +kernel
  rw [← hone]
  exact valueOf_mono hle

theorem nearest_natCast_ne_zero (h : n ≠ 0) : nearest n ≠ 0 := by
  intro hzero
  have hone := one_le_valueOf_nearest h
  rw [hzero] at hone
  exact absurd hone (by decide +kernel)

/-- Naturals of 53 bits are numbers of the format. -/
theorem valueOf_nearest_natCast (h : n < 2 ^ 53) :
    nearest n < infinite ∧ valueOf (nearest n) = n := by
  rcases Nat.eq_zero_or_pos n with rfl | hpos
  · exact ⟨by decide +kernel, by decide +kernel⟩
  · have hlog : Nat.log2 n ≤ 52 := Nat.lt_succ_iff.mp ((Nat.log2_lt hpos.ne').mpr h)
    have hlo := Nat.log2_self_le hpos.ne'
    have hhi := Nat.lt_log2_self (n := n)
    generalize Nat.log2 n = k at hlog hlo hhi
    have hbinade : FloatGrid.InBinade 52 (1022 + k) (n * 2 ^ (52 - k)) := by
      constructor
      · calc n * 2 ^ (52 - k) ≤ 2 ^ (k + 1) * 2 ^ (52 - k) := Nat.mul_le_mul_right _ hhi.le
          _ = 2 ^ (52 + 1) := by rw [← Nat.pow_add]; congr 1; omega
      · refine Or.inr ?_
        calc 2 ^ 52 = 2 ^ k * 2 ^ (52 - k) := by rw [← Nat.pow_add]; congr 1; omega
          _ ≤ n * 2 ^ (52 - k) := Nat.mul_le_mul_right _ hlo
    have hpoint := FloatGrid.point_add hbinade
    have hvalue : valueOf ((1022 + k) * 2 ^ 52 + n * 2 ^ (52 - k)) = n := by
      have hsum : 52 - k + (1022 + k) = 1074 := by omega
      unfold valueOf
      rw [hpoint, Nat.mul_assoc, ← Nat.pow_add, Nat.cast_mul, Nat.cast_pow, Nat.cast_two, hsum,
        mul_div_cancel_right₀ _ (pow_ne_zero _ two_ne_zero)]
    have hlt : (1022 + k) * 2 ^ 52 + n * 2 ^ (52 - k) < infinite := by
      have hle := hbinade.le
      unfold infinite
      omega
    rw [← hvalue, nearest_valueOf hlt.le]
    exact ⟨hlt, rfl⟩

end

/-! ## The operations on numbers that are not negative -/

section
variable {m n : Nat} {x lo hi c : Binary64}

theorem div_eq_round (hm : m < infinite) (hn : n < infinite) (h0 : n ≠ 0) :
    div (ofMagnitude false m) (ofMagnitude false n) = round false (valueOf m / valueOf n) := by
  have hlt : infinite < 2 ^ 63 := by decide
  have hm' := hm.trans hlt
  have hn' := hn.trans hlt
  unfold div
  rw [isNan_ofMagnitude hm.le, isNan_ofMagnitude hn.le, isInf_ofMagnitude hm,
    isInf_ofMagnitude hn, isZero_ofMagnitude hn' h0, isNeg_ofMagnitude hm',
    isNeg_ofMagnitude hn', toRat_ofMagnitude hm', toRat_ofMagnitude hn']
  simp only [bne_self_eq_false, Bool.or_self, Bool.false_eq_true, if_false,
    abs_of_nonneg (valueOf_nonneg _)]

/-- An infinite number stays infinite when it is divided. -/
theorem div_infinite (hn : n < infinite) :
    div (ofMagnitude false infinite) (ofMagnitude false n) = ofMagnitude false infinite := by
  have hlt : infinite < 2 ^ 63 := by decide
  have hinf : (ofMagnitude false infinite).isInf = true := by decide
  unfold div
  rw [isNan_ofMagnitude (le_refl infinite), isNan_ofMagnitude hn.le, hinf, isInf_ofMagnitude hn,
    isNeg_ofMagnitude hlt, isNeg_ofMagnitude (hn.trans hlt)]
  rfl

/-- A quotient is a number, when the dividend is and the divisor is neither zero nor infinite. -/
theorem isNan_div (hx : x.isNan = false) (hn : n < infinite) (h0 : n ≠ 0) :
    (div x (ofMagnitude false n)).isNan = false := by
  unfold div
  rw [hx, isNan_ofMagnitude hn.le, isInf_ofMagnitude hn,
    isZero_ofMagnitude (hn.trans (by decide)) h0]
  simp only [Bool.or_self, Bool.false_eq_true, if_false]
  split_ifs
  · exact isNan_ofMagnitude (le_refl _)
  · exact isNan_round _ _

/-- A difference is rounded too, whichever number is the larger. -/
theorem sub_eq_round (hm : m < infinite) (hn : n < infinite) :
    sub (ofMagnitude false m) (ofMagnitude false n) =
      if valueOf n < valueOf m then round false (valueOf m - valueOf n)
      else if valueOf m < valueOf n then round true (valueOf n - valueOf m) else zero := by
  have hlt : infinite < 2 ^ 63 := by decide
  have hm' := hm.trans hlt
  have hn' := hn.trans hlt
  unfold sub
  rw [isNan_ofMagnitude hm.le, isNan_ofMagnitude hn.le, isInf_ofMagnitude hm,
    isInf_ofMagnitude hn, isNeg_ofMagnitude hm', isNeg_ofMagnitude hn', toRat_ofMagnitude hm',
    toRat_ofMagnitude hn']
  simp only [Bool.or_self, Bool.false_eq_true, if_false]
  rcases lt_trichotomy (valueOf n) (valueOf m) with h | h | h
  · have hpos := sub_pos.mpr h
    rw [if_neg hpos.ne', if_pos h, abs_of_pos hpos, decide_eq_false (not_lt.mpr hpos.le)]
  · rw [h, if_pos (sub_self _), if_neg (lt_irrefl _), if_neg (lt_irrefl _)]
    rfl
  · have hneg := sub_neg.mpr h
    rw [if_neg hneg.ne, if_neg (not_lt.mpr h.le), if_pos h, abs_of_neg hneg, neg_sub,
      decide_eq_true hneg]

theorem isNan_sub (hm : m < infinite) (hn : n < infinite) :
    (sub (ofMagnitude false m) (ofMagnitude false n)).isNan = false := by
  rw [sub_eq_round hm hn]
  split_ifs
  · exact isNan_round _ _
  · exact isNan_round _ _
  · rfl

/-- A difference is at most what is left when less is taken, -/
theorem key_sub_le {v : ℚ} (hm : m < infinite) (hn : n < infinite) (hv : v ≤ valueOf n) :
    (sub (ofMagnitude false m) (ofMagnitude false n)).key ≤ nearest (valueOf m - v) := by
  rw [sub_eq_round hm hn]
  split_ifs
  · rw [key_round, if_neg Bool.false_ne_true]
    exact_mod_cast nearest_mono (sub_le_sub_left hv _)
  · rw [key_round, if_pos rfl]
    omega
  · exact Int.natCast_nonneg _

/-- and at least what is left when more is. -/
theorem le_key_sub {v : ℚ} (hm : m < infinite) (hn : n < infinite) (hv : valueOf n ≤ v)
    (hlt : v < valueOf m) :
    (nearest (valueOf m - v) : Int) ≤ (sub (ofMagnitude false m) (ofMagnitude false n)).key := by
  rw [sub_eq_round hm hn, if_pos (hv.trans_lt hlt), key_round, if_neg Bool.false_ne_true]
  exact_mod_cast nearest_mono (sub_le_sub_left hv _)

/-- What is clamped lies between the bounds. -/
theorem clamp_mem (hx : x.isNan = false) (hlo : lo ≤ hi) :
    lo ≤ clamp x lo hi ∧ clamp x lo hi ≤ hi := by
  obtain ⟨hnlo, hnhi, hkey⟩ := hlo
  unfold clamp
  split_ifs with h1 h2
  · exact ⟨⟨hnlo, hnlo, le_refl _⟩, hnlo, hnhi, hkey⟩
  · exact ⟨⟨hnlo, hnhi, hkey⟩, hnhi, hnhi, le_refl _⟩
  · have hle : lo.key ≤ x.key := not_lt.mp fun h => h1 ⟨hx, hnlo, h⟩
    have hge : x.key ≤ hi.key := not_lt.mp fun h => h2 ⟨hnhi, hx, h⟩
    exact ⟨⟨hnlo, hx, hle⟩, hx, hnhi, hge⟩

/-- Clamping keeps the order with a number above the lower bound, -/
theorem le_clamp_iff (hx : x.isNan = false) (hlo : lo < c) (hhi : c ≤ hi) :
    c ≤ clamp x lo hi ↔ c.key ≤ x.key := by
  obtain ⟨hnlo, hnc, hkey⟩ := hlo
  obtain ⟨-, hnhi, hkey'⟩ := hhi
  unfold clamp
  split_ifs with h1 h2
  · constructor
    · exact fun h => absurd h.2.2 (not_le.mpr hkey)
    · exact fun h => absurd (h1.2.2.trans (hkey.trans_le h)) (lt_irrefl _)
  · constructor
    · exact fun _ => hkey'.trans h2.2.2.le
    · exact fun _ => ⟨hnc, hnhi, hkey'⟩
  · constructor
    · exact fun h => h.2.2
    · exact fun h => ⟨hnc, hx, h⟩

/-- and with one below the upper bound. -/
theorem clamp_le_iff (hx : x.isNan = false) (hlo : lo ≤ c) (hhi : c < hi) :
    clamp x lo hi ≤ c ↔ x.key ≤ c.key := by
  obtain ⟨hnlo, hnc, hkey⟩ := hlo
  obtain ⟨-, hnhi, hkey'⟩ := hhi
  unfold clamp
  split_ifs with h1 h2
  · constructor
    · exact fun _ => (h1.2.2.trans_le hkey).le
    · exact fun _ => ⟨hnlo, hnc, hkey⟩
  · constructor
    · exact fun h => absurd h.2.2 (not_le.mpr hkey')
    · exact fun h => absurd (h2.2.2.trans_le h) (lt_asymm hkey')
  · constructor
    · exact fun h => h.2.2
    · exact fun h => ⟨hx, hnc, h⟩

end

end Binary64
