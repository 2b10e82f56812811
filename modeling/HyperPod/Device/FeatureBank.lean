import HyperPod.Device.RegisterFile

/-!
# The banks of the feature registers

`DEVICE_FEATURES` shows bits 0..31 under selector 0, bits 32..63 under selector 1, and no
bit under any other (`exposes_iff`).  `DRIVER_FEATURES` takes every selector but 0 for
selector 1: a write under selector 2 lands in bits that the selector does not show.  So
the writes of a run stay in the banks they select exactly when those under a higher
selector repeat what the high bank holds, and the accepted bits are then the last words
written under selectors 0 and 1 (`writes_stay_in_bank_iff`).
-/

namespace HyperPod
namespace VirtioMmio

/-- Bit `i` of the device features shows in what `DEVICE_FEATURES` reads under selector `s`. -/
def Exposes (s : UInt32) (i : Nat) : Prop :=
  ∃ j < 32, ∀ d : VirtioMmio, d.state.deviceFeaturesSel = s →
    (d.read32 Reg.deviceFeatures.offset).toNat.testBit j = d.deviceFeatures.toNat.testBit i

/-- A write to `DRIVER_FEATURES` changes no bit that its selector does not expose. -/
def StaysInBank (d : VirtioMmio) (w : MmioWrite) : Prop :=
  Reg.ofOffset w.1 = some .driverFeatures →
    ∀ i < 64, ¬ Exposes d.state.driverFeaturesSel i →
      (d.step w).2.state.driverFeatures.toNat.testBit i = d.state.driverFeatures.toNat.testBit i

/-! ## Bits and halves -/

theorem testBit_lowHalf (a : UInt64) {i : Nat} (hi : i < 32) :
    (lowHalf a).toNat.testBit i = a.toNat.testBit i := by
  unfold lowHalf
  rw [UInt64.toNat_toUInt32, Nat.testBit_mod_two_pow]
  simp [hi]

theorem testBit_highHalf (a : UInt64) {i : Nat} (hi : i < 32) :
    (highHalf a).toNat.testBit i = a.toNat.testBit (32 + i) := by
  unfold highHalf
  rw [UInt64.toNat_toUInt32, Nat.testBit_mod_two_pow, UInt64.toNat_shiftRight]
  show (decide (i < 32) && (a.toNat >>> 32).testBit i) = _
  rw [Nat.testBit_shiftRight]
  simp [hi]

theorem word_ext {v w : UInt32} (h : ∀ i < 32, v.toNat.testBit i = w.toNat.testBit i) :
    v = w := by
  apply UInt32.toBitVec_inj.mp
  apply BitVec.eq_of_getLsbD_eq
  exact h

theorem testBit_of_lowHalf_eq {a b : UInt64} (h : lowHalf a = lowHalf b) {i : Nat} (hi : i < 32) :
    a.toNat.testBit i = b.toNat.testBit i := by
  rw [← testBit_lowHalf a hi, h, testBit_lowHalf b hi]

theorem testBit_of_highHalf_eq {a b : UInt64} (h : highHalf a = highHalf b) {i : Nat}
    (hle : 32 ≤ i) (hi : i < 64) : a.toNat.testBit i = b.toNat.testBit i := by
  obtain ⟨j, rfl⟩ := Nat.exists_eq_add_of_le hle
  have hj : j < 32 := by omega
  rw [← testBit_highHalf a hj, h, testBit_highHalf b hj]

/-! ## What a selector exposes -/

theorem read32_deviceFeatures (d : VirtioMmio) :
    d.read32 Reg.deviceFeatures.offset =
      offeredWord d.deviceFeatures d.state.deviceFeaturesSel := rfl

/-- A device that offers bit `i` alone and is asked for the bank `s`. -/
def offersOnly (i : Nat) (s : UInt32) : VirtioMmio :=
  (new 0 0 (UInt64.ofNat (2 ^ i)) []).mutateState fun st => { st with deviceFeaturesSel := s }

theorem testBit_offersOnly {i : Nat} (hi : i < 64) (s : UInt32) (j : Nat) :
    (offersOnly i s).deviceFeatures.toNat.testBit j = decide (i = j) := by
  show (UInt64.ofNat (2 ^ i)).toNat.testBit j = _
  rw [UInt64.toNat_ofNat', Nat.mod_eq_of_lt (Nat.pow_lt_pow_right (by decide) hi),
    Nat.testBit_two_pow]

/-- `DEVICE_FEATURES` shows the low bank under selector 0, the high bank under selector 1 and
nothing under any other. -/
theorem exposes_iff {s : UInt32} {i : Nat} (hi : i < 64) :
    Exposes s i ↔ s = 0 ∧ i < 32 ∨ s = 1 ∧ 32 ≤ i := by
  constructor
  · rintro ⟨j, hj, hshows⟩
    have hone := hshows (offersOnly i s) rfl
    rw [read32_deviceFeatures, testBit_offersOnly hi, decide_eq_true rfl] at hone
    change (offeredWord _ s).toNat.testBit j = true at hone
    unfold offeredWord at hone
    split at hone
    case isTrue h0 =>
      rw [testBit_lowHalf _ hj, testBit_offersOnly hi] at hone
      have hij : i = j := of_decide_eq_true hone
      exact Or.inl ⟨h0, by omega⟩
    case isFalse =>
      split at hone
      case isTrue h1 =>
        rw [testBit_highHalf _ hj, testBit_offersOnly hi] at hone
        have hij : i = 32 + j := of_decide_eq_true hone
        exact Or.inr ⟨h1, by omega⟩
      case isFalse =>
        rw [show (0 : UInt32).toNat = 0 from rfl, Nat.zero_testBit] at hone
        exact absurd hone (by decide)
  · rintro (⟨rfl, hlow⟩ | ⟨rfl, hhigh⟩)
    · refine ⟨i, hlow, fun d hsel => ?_⟩
      rw [read32_deviceFeatures, hsel]
      exact testBit_lowHalf _ hlow
    · refine ⟨i - 32, by omega, fun d hsel => ?_⟩
      rw [read32_deviceFeatures, hsel]
      show (highHalf d.deviceFeatures).toNat.testBit (i - 32) = _
      rw [testBit_highHalf _ (by omega), Nat.add_sub_cancel' hhigh]

/-! ## What a write reaches -/

/-- Under a selector that exposes nothing, the high bank may only be repeated. -/
theorem high_kept_iff {s : UInt32} (h0 : s ≠ 0) (h1 : s ≠ 1) {a : UInt64} {v : UInt32} :
    (∀ i < 64, ¬ Exposes s i → (setHigh a v).toNat.testBit i = a.toNat.testBit i) ↔
      v = highHalf a := by
  have hhidden : ∀ i < 64, ¬ Exposes s i := by
    intro i hi
    rw [exposes_iff hi]
    simp [h0, h1]
  constructor
  · intro hkept
    apply word_ext
    intro i hi
    have hbit : 32 + i < 64 := by omega
    rw [← highHalf_setHigh a v, testBit_highHalf _ hi, testBit_highHalf _ hi]
    exact hkept (32 + i) hbit (hhidden (32 + i) hbit)
  · intro hsame i hi _
    by_cases hlt : i < 32
    · exact testBit_of_lowHalf_eq (lowHalf_setHigh _ _) hlt
    · refine testBit_of_highHalf_eq ?_ (Nat.not_lt.mp hlt) hi
      rw [highHalf_setHigh, hsame]

/-- **One write stays in its bank** exactly when it selects one or changes nothing. -/
theorem staysInBank_iff (d : VirtioMmio) (w : MmioWrite) : StaysInBank d w ↔ SelectsBank d w := by
  unfold StaysInBank SelectsBank
  by_cases hreg : Reg.ofOffset w.1 = some .driverFeatures
  case neg => simp [hreg]
  rw [forall_prop_of_true hreg, forall_prop_of_true hreg]
  show (∀ i < 64, ¬ Exposes d.state.driverFeaturesSel i →
    (d.write32 w.1 w.2).2.state.driverFeatures.toNat.testBit i = _) ↔ _
  rw [driverFeatures_write32, if_pos hreg]
  by_cases h0 : d.state.driverFeaturesSel = 0
  · rw [if_pos h0]
    refine iff_of_true ?_ (Or.inl h0)
    intro i hi hhidden
    rw [exposes_iff hi] at hhidden
    have hle : 32 ≤ i := Nat.not_lt.mp fun hlt => hhidden (Or.inl ⟨h0, hlt⟩)
    exact testBit_of_highHalf_eq (highHalf_setLow _ _) hle hi
  · rw [if_neg h0]
    by_cases h1 : d.state.driverFeaturesSel = 1
    · refine iff_of_true ?_ (Or.inr (Or.inl h1))
      intro i hi hhidden
      rw [exposes_iff hi] at hhidden
      have hlt : i < 32 := Nat.not_le.mp fun hle => hhidden (Or.inr ⟨h1, hle⟩)
      exact testBit_of_lowHalf_eq (lowHalf_setHigh _ _) hlt
    · rw [high_kept_iff h0 h1]
      simp [h0, h1]

theorem along_staysInBank_iff (d : VirtioMmio) (writes : List MmioWrite) :
    Run.Along step StaysInBank d writes ↔ Run.Along step SelectsBank d writes := by
  rw [show StaysInBank = SelectsBank from
    funext fun d => funext fun w => propext (staysInBank_iff d w)]

/-- **The banks the selectors expose are the banks they write,** and the accepted bits the
last words written under selectors 0 and 1, in exactly the runs whose writes to
`DRIVER_FEATURES` are made under these selectors or repeat the high bank. -/
theorem writes_stay_in_bank_iff (deviceId vendorId : UInt32) (deviceFeatures : UInt64)
    (queueSizes : List UInt32) (writes : List MmioWrite) :
    let start := new deviceId vendorId deviceFeatures queueSizes
    let accepted :=
      (reached deviceId vendorId deviceFeatures queueSizes writes).state.driverFeatures
    let bank := fun i => (acceptedUnder (fun s => s == i) 0 writes).getLastD 0
    (∀ s, ∀ i < 64, Exposes s i ↔ s = 0 ∧ i < 32 ∨ s = 1 ∧ 32 ≤ i) ∧
    (Run.Along step StaysInBank start writes ∧
        accepted.toNat = (bank 1).toNat * 2 ^ 32 + (bank 0).toNat ↔
      Run.Along step SelectsBank start writes) := by
  intro start accepted bank
  refine ⟨fun s i hi => exposes_iff hi, ?_⟩
  rw [along_staysInBank_iff, and_iff_left_iff_imp]
  intro hsel
  obtain ⟨hlow, hhigh⟩ := accepted_of_selectsBank hsel
  rw [toNat_halves, hlow, hhigh]

/-- A word written under selector 2, which exposes nothing, lands in the bank of selector 1. -/
theorem selector_two_writes_high_bank :
    ¬ Run.Along step StaysInBank (new 2 0x1af4 0 [])
      [(Reg.driverFeaturesSel.offset, 2), (Reg.driverFeatures.offset, 1)] ∧
    (acceptedUnder (fun s => s == 0) 0
      [(Reg.driverFeaturesSel.offset, 2), (Reg.driverFeatures.offset, 1)]) = [] ∧
    (acceptedUnder (fun s => s == 1) 0
      [(Reg.driverFeaturesSel.offset, 2), (Reg.driverFeatures.offset, 1)]) = [] ∧
    (reached 2 0x1af4 0 []
      [(Reg.driverFeaturesSel.offset, 2), (Reg.driverFeatures.offset, 1)]).state.driverFeatures =
        0x100000000 := by
  rw [along_staysInBank_iff]
  decide

end VirtioMmio
end HyperPod
