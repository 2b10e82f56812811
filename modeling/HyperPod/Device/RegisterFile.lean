import HyperPod.Device.Mmio

/-!
# The register file behind the selectors

`QUEUE_SEL` and `DRIVER_FEATURES_SEL` say which copy of a register a write goes to.  Each
queue sees exactly the writes made while it was selected (`getElem?_queues_run`), and each
half of an address, like each bank of `driver_features`, holds the last word written to it
(`registers_of_run`, `driverFeatures_of_run`).  Nothing is checked on the way in: what the
driver accepts is not masked with what the device offers.
-/

namespace HyperPod

abbrev MmioWrite := UInt64 × UInt32

/-! ## The last word written to a register -/

/-- The writes made while the selector register `sel` holds a value in `c`; it starts at `s`. -/
def whileSelected (sel : Reg) (c : UInt32 → Bool) : UInt32 → List MmioWrite → List MmioWrite
  | _, [] => []
  | s, w :: writes =>
    let rest := whileSelected sel c (if Reg.ofOffset w.1 = some sel then w.2 else s) writes
    if c s then w :: rest else rest

/-- The words written to a register, oldest first. -/
def wordsTo (r : Reg) (writes : List MmioWrite) : List UInt32 :=
  writes.filterMap fun w => if Reg.ofOffset w.1 = some r then some w.2 else none

/-- The last word written to a register, 0 if there is none. -/
def lastWord (r : Reg) (writes : List MmioWrite) : UInt32 := (wordsTo r writes).getLastD 0

theorem getLastD_wordsTo_cons (r : Reg) (w : MmioWrite) (writes : List MmioWrite) (v : UInt32) :
    (wordsTo r (w :: writes)).getLastD v =
      (wordsTo r writes).getLastD (if Reg.ofOffset w.1 = some r then w.2 else v) := by
  unfold wordsTo
  by_cases h : Reg.ofOffset w.1 = some r
  · rw [List.filterMap_cons_some (by rw [if_pos h]), if_pos h, List.getLastD_cons]
  · rw [List.filterMap_cons_none (by rw [if_neg h]), if_neg h]

/-! ## The two halves of a 64-bit register -/

def lowHalf (a : UInt64) : UInt32 := a.toUInt32

def highHalf (a : UInt64) : UInt32 := (a >>> 32).toUInt32

theorem toNat_halves (a : UInt64) :
    a.toNat = (highHalf a).toNat * 2 ^ 32 + (lowHalf a).toNat := by
  have hlt := a.toNat_lt
  have hhigh : (highHalf a).toNat = a.toNat / 2 ^ 32 % 2 ^ 32 := by
    unfold highHalf
    rw [UInt64.toNat_toUInt32, UInt64.toNat_shiftRight, Nat.shiftRight_eq_div_pow]
    rfl
  have hlow : (lowHalf a).toNat = a.toNat % 2 ^ 32 := UInt64.toNat_toUInt32 a
  rw [hhigh, hlow]
  omega

theorem lowHalf_setLow (a : UInt64) (v : UInt32) : lowHalf (setLow a v) = v := by
  unfold lowHalf setLow low32
  apply UInt32.toBitVec_inj.mp
  simp

theorem highHalf_setLow (a : UInt64) (v : UInt32) : highHalf (setLow a v) = highHalf a := by
  have hmask : ∀ i < 32, (18446744069414584320#64).getLsbD (32 + i) = true := by decide
  unfold highHalf setLow low32
  apply UInt32.toBitVec_inj.mp
  apply BitVec.eq_of_getLsbD_eq
  intro i hi
  simp [hmask i hi]

theorem lowHalf_setHigh (a : UInt64) (v : UInt32) : lowHalf (setHigh a v) = lowHalf a := by
  have hmask : ∀ i < 32, (4294967295#32).getLsbD i = true := by decide
  unfold lowHalf setHigh low32
  apply UInt32.toBitVec_inj.mp
  apply BitVec.eq_of_getLsbD_eq
  intro i hi
  simp [hmask i hi]

theorem highHalf_setHigh (a : UInt64) (v : UInt32) : highHalf (setHigh a v) = v := by
  have hmask : ∀ i, (h : i < 32) → (4294967295#64)[32 + i] = false := by decide
  unfold highHalf setHigh low32
  apply UInt32.toBitVec_inj.mp
  apply BitVec.eq_of_getLsbD_eq
  intro i hi
  have h64 : 32 + i < 64 := by omega
  have hi64 : i < 64 := by omega
  have hge : ¬ 32 + i < 32 := by omega
  simp [hmask i hi, hi, h64, hi64, hge]

theorem eq_zero_iff_halves {a : UInt64} : a = 0 ↔ lowHalf a = 0 ∧ highHalf a = 0 := by
  constructor
  · rintro rfl
    exact ⟨rfl, rfl⟩
  · rintro ⟨hlow, hhigh⟩
    apply UInt64.toNat_inj.mp
    rw [toNat_halves, hlow, hhigh]
    rfl

theorem lowHalf_and_not (a b : UInt64) : lowHalf (a &&& ~~~b) = lowHalf a &&& ~~~lowHalf b := by
  unfold lowHalf
  rw [UInt64.toUInt32_and, UInt64.toUInt32_not]

theorem highHalf_and_not (a b : UInt64) :
    highHalf (a &&& ~~~b) = highHalf a &&& ~~~highHalf b := by
  unfold highHalf
  apply UInt32.toBitVec_inj.mp
  apply BitVec.eq_of_getLsbD_eq
  intro i hi
  have h64 : 32 + i < 64 := by omega
  simp [hi, h64]

namespace VirtioMmio

/-- The device after the writes `writes`. -/
def reached (deviceId vendorId : UInt32) (deviceFeatures : UInt64) (queueSizes : List UInt32)
    (writes : List MmioWrite) : VirtioMmio :=
  Run.final step (new deviceId vendorId deviceFeatures queueSizes) writes

/-! ## The queue registers -/

/-- A write that has reached the queue it is for. -/
def applyWrite (q : VirtQueue) (w : MmioWrite) : VirtQueue :=
  queueWrite (Reg.ofOffset w.1) w.2 q

/-- **Each queue sees exactly the writes made while it was selected.** -/
theorem getElem?_queues_run (d : VirtioMmio) (writes : List MmioWrite) (i : Nat) :
    (Run.final step d writes).queues[i]? =
      d.queues[i]?.map fun q =>
        (whileSelected .queueSel (fun s => s.toNat == i) d.state.queueSel writes).foldl
          applyWrite q := by
  induction writes generalizing d with
  | nil =>
    rw [Run.final_nil]
    cases d.queues[i]? <;> rfl
  | cons w writes ih =>
    rw [Run.final_cons, ih]
    show ((d.write32 w.1 w.2).2.queues[i]?).map _ = _
    rw [getElem?_queues_write32]
    show Option.map (fun q => (whileSelected _ _ (d.write32 w.1 w.2).2.state.queueSel _).foldl
      applyWrite q) _ = _
    rw [queueSel_write32, whileSelected]
    by_cases hi : d.state.queueSel.toNat = i
    · rw [if_pos hi, if_pos (beq_iff_eq.mpr hi)]
      cases d.queues[i]? <;> rfl
    · rw [if_neg hi, if_neg (fun h => hi (beq_iff_eq.mp h))]

/-- The number of queues never changes. -/
theorem length_queues_run (d : VirtioMmio) (writes : List (UInt64 × UInt32)) :
    (Run.final step d writes).queues.length = d.queues.length :=
  Run.final_invariant (I := fun d' : VirtioMmio => d'.queues.length = d.queues.length)
    (fun d' w h => by
      show (d'.write32 w.1 w.2).2.queues.length = d.queues.length
      rw [queues_write32, List.length_modify, h]) rfl writes

/-- Field `f` of a queue shows, as `g`, the last word written to register `r`. -/
def Tracks {α : Type} (r : Reg) (g : UInt32 → α) (f : VirtQueue → α) : Prop :=
  ∀ reg val q, f (queueWrite reg val q) = if reg = some r then g val else f q

theorem Tracks.foldl {α : Type} {r : Reg} {g : UInt32 → α} {f : VirtQueue → α}
    (h : Tracks r g f) (writes : List MmioWrite) {q : VirtQueue} {v : UInt32} (h0 : f q = g v) :
    f (writes.foldl applyWrite q) = g ((wordsTo r writes).getLastD v) := by
  induction writes generalizing q v with
  | nil => exact h0
  | cons w writes ih =>
    rw [List.foldl_cons, getLastD_wordsTo_cons]
    apply ih
    unfold applyWrite
    rw [h, h0]
    split
    · rfl
    · rfl

/-- What a queue holds after the writes `ws` that were made to it. -/
structure Programmed (ws : List MmioWrite) (q : VirtQueue) : Prop where
  descAddr : q.descAddr.toNat =
    (lastWord .queueDescHigh ws).toNat * 2 ^ 32 + (lastWord .queueDescLow ws).toNat
  availAddr : q.availAddr.toNat =
    (lastWord .queueAvailHigh ws).toNat * 2 ^ 32 + (lastWord .queueAvailLow ws).toNat
  usedAddr : q.usedAddr.toNat =
    (lastWord .queueUsedHigh ws).toNat * 2 ^ 32 + (lastWord .queueUsedLow ws).toNat
  ready : q.ready = decide (lastWord .queueReady ws ≠ 0)

/-- Registers `low` and `high` write the halves of the address `f`. -/
def Halves (low high : Reg) (f : VirtQueue → UInt64) : Prop :=
  ∀ reg val q, f (queueWrite reg val q) =
    if reg = some low then setLow (f q) val
    else if reg = some high then setHigh (f q) val
    else f q

theorem Halves.tracks_low {low high : Reg} {f : VirtQueue → UInt64} (h : Halves low high f) :
    Tracks low id fun q => lowHalf (f q) := by
  intro reg val q
  show lowHalf (f (queueWrite reg val q)) = if reg = some low then val else lowHalf (f q)
  rw [h]
  by_cases hlow : reg = some low
  · rw [if_pos hlow, if_pos hlow, lowHalf_setLow]
  · rw [if_neg hlow, if_neg hlow]
    by_cases hhigh : reg = some high
    · rw [if_pos hhigh, lowHalf_setHigh]
    · rw [if_neg hhigh]

theorem Halves.tracks_high {low high : Reg} {f : VirtQueue → UInt64} (h : Halves low high f)
    (hne : high ≠ low) : Tracks high id fun q => highHalf (f q) := by
  intro reg val q
  show highHalf (f (queueWrite reg val q)) = if reg = some high then val else highHalf (f q)
  rw [h]
  by_cases hhigh : reg = some high
  · have hlow : ¬ reg = some low := fun hlow => hne (Option.some.inj (hhigh.symm.trans hlow))
    rw [if_neg hlow, if_pos hhigh, if_pos hhigh, highHalf_setHigh]
  · rw [if_neg hhigh, if_neg hhigh]
    by_cases hlow : reg = some low
    · rw [if_pos hlow, highHalf_setLow]
    · rw [if_neg hlow]

/-- **The two registers of an address, in any order,** give the address. -/
theorem Halves.toNat_foldl {low high : Reg} {f : VirtQueue → UInt64} (h : Halves low high f)
    (hne : high ≠ low) (writes : List MmioWrite) {q : VirtQueue} (h0 : f q = 0) :
    (f (writes.foldl applyWrite q)).toNat =
      (lastWord high writes).toNat * 2 ^ 32 + (lastWord low writes).toNat := by
  have hlow : lowHalf (f (writes.foldl applyWrite q)) = lastWord low writes :=
    h.tracks_low.foldl writes (by rw [h0]; rfl)
  have hhigh : highHalf (f (writes.foldl applyWrite q)) = lastWord high writes :=
    (h.tracks_high hne).foldl writes (by rw [h0]; rfl)
  rw [toNat_halves, hlow, hhigh]

theorem halves_descAddr : Halves .queueDescLow .queueDescHigh VirtQueue.descAddr := by
  rintro (_ | r) val q
  · rfl
  · cases r <;> rfl

theorem halves_availAddr : Halves .queueAvailLow .queueAvailHigh VirtQueue.availAddr := by
  rintro (_ | r) val q
  · rfl
  · cases r <;> rfl

theorem halves_usedAddr : Halves .queueUsedLow .queueUsedHigh VirtQueue.usedAddr := by
  rintro (_ | r) val q
  · rfl
  · cases r <;> rfl

theorem tracks_ready : Tracks .queueReady (fun v => decide (v ≠ 0)) VirtQueue.ready := by
  rintro (_ | r) val q
  · rfl
  · cases r <;> rfl

theorem programmed_foldl (n : UInt32) (writes : List MmioWrite) :
    Programmed writes (writes.foldl applyWrite (VirtQueue.new n)) where
  descAddr := halves_descAddr.toNat_foldl (by decide) writes rfl
  availAddr := halves_availAddr.toNat_foldl (by decide) writes rfl
  usedAddr := halves_usedAddr.toNat_foldl (by decide) writes rfl
  ready := tracks_ready.foldl writes rfl

theorem sizeMax_queueWrite (reg : Option Reg) (val : UInt32) (q : VirtQueue) :
    (queueWrite reg val q).sizeMax = q.sizeMax := by
  cases reg with
  | none => rfl
  | some r => cases r <;> rfl

theorem sizeMax_foldl (writes : List MmioWrite) (q : VirtQueue) :
    (writes.foldl applyWrite q).sizeMax = q.sizeMax := by
  induction writes generalizing q with
  | nil => rfl
  | cons w writes ih =>
    rw [List.foldl_cons, ih]
    exact sizeMax_queueWrite _ _ _

theorem queueSel_run (d : VirtioMmio) (writes : List MmioWrite) :
    (Run.final step d writes).state.queueSel =
      (wordsTo .queueSel writes).getLastD d.state.queueSel := by
  induction writes generalizing d with
  | nil => rfl
  | cons w writes ih =>
    rw [Run.final_cons, ih, getLastD_wordsTo_cons]
    show List.getLastD _ (d.write32 w.1 w.2).2.state.queueSel = _
    rw [queueSel_write32]

/-- **The register file.**  In every reachable state each queue holds what was last written
to its registers while it was selected; a selector out of range reaches no queue, and the
readable registers answer for the selected queue. -/
theorem registers_of_run (deviceId vendorId : UInt32) (deviceFeatures : UInt64)
    (queueSizes : List UInt32) (writes : List MmioWrite) :
    let d := reached deviceId vendorId deviceFeatures queueSizes writes
    let madeTo := fun i => whileSelected .queueSel (fun s => s.toNat == i) 0 writes
    d.queues.length = queueSizes.length ∧
    (∀ i q, d.queues[i]? = some q → Programmed (madeTo i) q) ∧
    d.state.queueSel = lastWord .queueSel writes ∧
    (∀ offset val, queueSizes.length ≤ d.state.queueSel.toNat →
      (d.write32 offset val).2.queues = d.queues) ∧
    d.read32 Reg.queueReady.offset =
      (if d.state.queueSel.toNat < queueSizes.length ∧
          lastWord .queueReady (madeTo d.state.queueSel.toNat) ≠ 0 then 1 else 0) ∧
    d.read32 Reg.queueNumMax.offset = queueSizes[d.state.queueSel.toNat]?.getD 0 := by
  intro d madeTo
  have hget : ∀ i, d.queues[i]? =
      queueSizes[i]?.map fun n => (madeTo i).foldl applyWrite (VirtQueue.new n) := by
    intro i
    have h := getElem?_queues_run (new deviceId vendorId deviceFeatures queueSizes) writes i
    rw [new, List.getElem?_map, Option.map_map] at h
    exact h
  have hlen : d.queues.length = queueSizes.length := by
    show (Run.final step _ writes).queues.length = _
    rw [length_queues_run, new, List.length_map]
  refine ⟨hlen, ?_, queueSel_run _ writes, ?_, ?_, ?_⟩
  · intro i q hq
    rw [hget] at hq
    obtain ⟨n, -, rfl⟩ := Option.map_eq_some_iff.mp hq
    exact programmed_foldl n (madeTo i)
  · intro offset val hout
    rw [queues_write32, List.modify_eq_self (hlen ▸ hout)]
  · show (d.selectedQueue _).getD 0 = _
    unfold selectedQueue
    rw [hget]
    by_cases hin : d.state.queueSel.toNat < queueSizes.length
    · rw [List.getElem?_eq_getElem hin]
      show (if ((madeTo d.state.queueSel.toNat).foldl applyWrite (VirtQueue.new _)).ready
        then (1 : UInt32) else 0) = _
      rw [(programmed_foldl _ _).ready]
      simp only [hin, true_and, decide_eq_true_eq]
    · rw [List.getElem?_eq_none (Nat.not_lt.mp hin), if_neg (fun h => hin h.1)]
      rfl
  · show (d.selectedQueue _).getD 0 = _
    unfold selectedQueue
    rw [hget, Option.map_map]
    congr 1
    cases queueSizes[d.state.queueSel.toNat]? with
    | none => rfl
    | some n => exact congrArg some (sizeMax_foldl _ _)

/-- Two queues programmed in turn, one of them in halves that are far apart. -/
example : (reached 2 0x1af4 0 [256, 64]
    [(Reg.queueDescHigh.offset, 1), (Reg.queueSel.offset, 1), (Reg.queueDescHigh.offset, 7),
      (Reg.queueSel.offset, 2), (Reg.queueDescLow.offset, 5), (Reg.queueSel.offset, 0),
      (Reg.queueDescLow.offset, 0x1000)]).queues.map VirtQueue.descAddr =
    [0x100001000, 0x700000000] := by decide

/-! ## The feature bits the driver accepts -/

theorem driverFeaturesSel_write32 (d : VirtioMmio) (offset : UInt64) (val : UInt32) :
    (d.write32 offset val).2.state.driverFeaturesSel =
      if Reg.ofOffset offset = some .driverFeaturesSel then val
      else d.state.driverFeaturesSel := by
  unfold write32
  cases Reg.ofOffset offset with
  | none => rfl
  | some r => cases r <;> rfl

/-- A write to `DRIVER_FEATURES` replaces one bank. -/
theorem driverFeatures_write32 (d : VirtioMmio) (offset : UInt64) (val : UInt32) :
    (d.write32 offset val).2.state.driverFeatures =
      if Reg.ofOffset offset = some .driverFeatures then
        if d.state.driverFeaturesSel = 0 then setLow d.state.driverFeatures val
        else setHigh d.state.driverFeatures val
      else d.state.driverFeatures := by
  unfold write32
  cases Reg.ofOffset offset with
  | none => rfl
  | some r =>
    cases r <;> try rfl
    show (d.state.driverFeatures &&&
        ~~~(low32 <<< (if d.state.driverFeaturesSel = 0 then 0 else 32))) |||
      (val.toUInt64 <<< (if d.state.driverFeaturesSel = 0 then 0 else 32)) = _
    rw [if_pos rfl]
    by_cases hsel : d.state.driverFeaturesSel = 0
    · simp only [if_pos hsel]
      unfold setLow
      simp
    · simp only [if_neg hsel]
      rfl

/-- The words the driver accepted under a selector in `c`. -/
def acceptedUnder (c : UInt32 → Bool) (s : UInt32) (writes : List MmioWrite) : List UInt32 :=
  wordsTo .driverFeatures (whileSelected .driverFeaturesSel c s writes)

theorem acceptedUnder_cons (c : UInt32 → Bool) (s : UInt32) (w : MmioWrite)
    (writes : List MmioWrite) :
    acceptedUnder c s (w :: writes) =
      (if Reg.ofOffset w.1 = some .driverFeatures ∧ c s then [w.2] else []) ++
        acceptedUnder c (if Reg.ofOffset w.1 = some .driverFeaturesSel then w.2 else s) writes := by
  unfold acceptedUnder wordsTo
  rw [whileSelected]
  by_cases hc : c s
  · by_cases hreg : Reg.ofOffset w.1 = some .driverFeatures
    · simp [hc, hreg]
    · simp [hc, hreg]
  · simp [hc]

theorem getLastD_acceptedUnder_cons (c : UInt32 → Bool) (s : UInt32) (w : MmioWrite)
    (writes : List MmioWrite) (v : UInt32) :
    (acceptedUnder c s (w :: writes)).getLastD v =
      (acceptedUnder c (if Reg.ofOffset w.1 = some .driverFeaturesSel then w.2 else s)
        writes).getLastD (if Reg.ofOffset w.1 = some .driverFeatures ∧ c s then w.2 else v) := by
  rw [acceptedUnder_cons]
  split
  · rw [List.singleton_append, List.getLastD_cons]
  · rw [List.nil_append]

/-- The banks hold the last words accepted under selector 0 and under the other selectors. -/
theorem banks_run (d : VirtioMmio) (writes : List MmioWrite) :
    lowHalf (Run.final step d writes).state.driverFeatures =
      (acceptedUnder (fun s => s == 0) d.state.driverFeaturesSel writes).getLastD
        (lowHalf d.state.driverFeatures) ∧
    highHalf (Run.final step d writes).state.driverFeatures =
      (acceptedUnder (fun s => s != 0) d.state.driverFeaturesSel writes).getLastD
        (highHalf d.state.driverFeatures) := by
  induction writes generalizing d with
  | nil => exact ⟨rfl, rfl⟩
  | cons w writes ih =>
    obtain ⟨hlow, hhigh⟩ := ih (d.step w).2
    rw [Run.final_cons, getLastD_acceptedUnder_cons, getLastD_acceptedUnder_cons, hlow, hhigh]
    show List.getLastD (acceptedUnder _ (d.write32 w.1 w.2).2.state.driverFeaturesSel _)
        (lowHalf (d.write32 w.1 w.2).2.state.driverFeatures) = _ ∧
      List.getLastD (acceptedUnder _ (d.write32 w.1 w.2).2.state.driverFeaturesSel _)
        (highHalf (d.write32 w.1 w.2).2.state.driverFeatures) = _
    rw [driverFeaturesSel_write32, driverFeatures_write32]
    by_cases hreg : Reg.ofOffset w.1 = some .driverFeatures
    · by_cases hsel : d.state.driverFeaturesSel = 0
      · simp [hreg, hsel, lowHalf_setLow, highHalf_setLow]
      · simp [hreg, hsel, lowHalf_setHigh, highHalf_setHigh]
    · simp [hreg]

/-- The word the device offers under selector `s`. -/
def offeredWord (deviceFeatures : UInt64) (s : UInt32) : UInt32 :=
  if s = 0 then lowHalf deviceFeatures
  else if s = 1 then highHalf deviceFeatures
  else 0

theorem deviceFeatures_write32 (d : VirtioMmio) (offset : UInt64) (val : UInt32) :
    (d.write32 offset val).2.deviceFeatures = d.deviceFeatures := by
  unfold write32
  cases Reg.ofOffset offset with
  | none => rfl
  | some r => cases r <;> rfl

/-- The write accepts only bits that are offered under the same selector. -/
def AcceptsOffered (d : VirtioMmio) (w : MmioWrite) : Prop :=
  Reg.ofOffset w.1 = some .driverFeatures →
    w.2 &&& ~~~offeredWord d.deviceFeatures d.state.driverFeaturesSel = 0

instance (d : VirtioMmio) (w : MmioWrite) : Decidable (AcceptsOffered d w) :=
  inferInstanceAs (Decidable (_ → _))

/-- A write to `DRIVER_FEATURES` is made under a selector that names a bank. -/
def NamesBank (d : VirtioMmio) (w : MmioWrite) : Prop :=
  Reg.ofOffset w.1 = some .driverFeatures →
    d.state.driverFeaturesSel = 0 ∨ d.state.driverFeaturesSel = 1

instance (d : VirtioMmio) (w : MmioWrite) : Decidable (NamesBank d w) :=
  inferInstanceAs (Decidable (_ → _))

/-- A write to `DRIVER_FEATURES` is made under selector 0 or 1, or repeats what the high
bank holds. -/
def SelectsBank (d : VirtioMmio) (w : MmioWrite) : Prop :=
  Reg.ofOffset w.1 = some .driverFeatures →
    d.state.driverFeaturesSel = 0 ∨ d.state.driverFeaturesSel = 1 ∨
      w.2 = highHalf d.state.driverFeatures

instance (d : VirtioMmio) (w : MmioWrite) : Decidable (SelectsBank d w) :=
  inferInstanceAs (Decidable (_ → _))

theorem NamesBank.selects {d : VirtioMmio} {w : MmioWrite} (h : NamesBank d w) :
    SelectsBank d w :=
  fun hreg => (h hreg).imp_right Or.inl

/-- While the writes select their banks, the high bank holds the last word written under
selector 1. -/
theorem highBank_of_selectsBank {d : VirtioMmio} {writes : List MmioWrite}
    (h : Run.Along step SelectsBank d writes) :
    highHalf (Run.final step d writes).state.driverFeatures =
      (acceptedUnder (fun s => s == 1) d.state.driverFeaturesSel writes).getLastD
        (highHalf d.state.driverFeatures) := by
  induction writes generalizing d with
  | nil => rfl
  | cons w writes ih =>
    rw [Run.final_cons, ih h.2, getLastD_acceptedUnder_cons]
    show List.getLastD (acceptedUnder _ (d.write32 w.1 w.2).2.state.driverFeaturesSel _)
      (highHalf (d.write32 w.1 w.2).2.state.driverFeatures) = _
    rw [driverFeaturesSel_write32, driverFeatures_write32]
    by_cases hreg : Reg.ofOffset w.1 = some .driverFeatures
    · by_cases h0 : d.state.driverFeaturesSel = 0
      · simp [hreg, h0, highHalf_setLow]
      · by_cases h1 : d.state.driverFeaturesSel = 1
        · simp [hreg, h1, highHalf_setHigh]
        · -- the word repeats the bank, and is not counted as written under selector 1
          have hsame : w.2 = highHalf d.state.driverFeatures := by
            rcases h.1 hreg with hsel | hsel | hsame
            · exact absurd hsel h0
            · exact absurd hsel h1
            · exact hsame
          simp [hreg, h0, h1, highHalf_setHigh, hsame]
    · simp [hreg]

theorem accepted_of_selectsBank {deviceId vendorId : UInt32} {deviceFeatures : UInt64}
    {queueSizes : List UInt32} {writes : List MmioWrite}
    (h : Run.Along step SelectsBank (new deviceId vendorId deviceFeatures queueSizes) writes) :
    let accepted :=
      (reached deviceId vendorId deviceFeatures queueSizes writes).state.driverFeatures
    lowHalf accepted = (acceptedUnder (fun s => s == 0) 0 writes).getLastD 0 ∧
      highHalf accepted = (acceptedUnder (fun s => s == 1) 0 writes).getLastD 0 := by
  have hlow := (banks_run (new deviceId vendorId deviceFeatures queueSizes) writes).1
  have hhigh := highBank_of_selectsBank h
  have hstart : (new deviceId vendorId deviceFeatures queueSizes).state.driverFeatures = 0 := rfl
  obtain ⟨hlow0, hhigh0⟩ := eq_zero_iff_halves.mp hstart
  rw [hlow0] at hlow
  rw [hhigh0] at hhigh
  exact ⟨hlow, hhigh⟩

theorem subset_iff_halves {driver device : UInt64} :
    driver &&& ~~~device = 0 ↔
      lowHalf driver &&& ~~~lowHalf device = 0 ∧ highHalf driver &&& ~~~highHalf device = 0 := by
  rw [eq_zero_iff_halves, lowHalf_and_not, highHalf_and_not]

/-- One write of offered bits keeps the accepted bits offered. -/
theorem subset_step {d : VirtioMmio} {w : MmioWrite} (hw : AcceptsOffered d w)
    (h : d.state.driverFeatures &&& ~~~d.deviceFeatures = 0) :
    (d.step w).2.state.driverFeatures &&& ~~~(d.step w).2.deviceFeatures = 0 := by
  show (d.write32 w.1 w.2).2.state.driverFeatures &&& ~~~(d.write32 w.1 w.2).2.deviceFeatures = 0
  rw [driverFeatures_write32, deviceFeatures_write32]
  by_cases hreg : Reg.ofOffset w.1 = some .driverFeatures
  · have hoffered := hw hreg
    obtain ⟨hlow, hhigh⟩ := subset_iff_halves.mp h
    rw [if_pos hreg, subset_iff_halves]
    unfold offeredWord at hoffered
    by_cases h0 : d.state.driverFeaturesSel = 0
    · rw [if_pos h0] at hoffered
      rw [if_pos h0, lowHalf_setLow, highHalf_setLow]
      exact ⟨hoffered, hhigh⟩
    · rw [if_neg h0] at hoffered
      rw [if_neg h0, lowHalf_setHigh, highHalf_setHigh]
      refine ⟨hlow, ?_⟩
      by_cases h1 : d.state.driverFeaturesSel = 1
      · rw [if_pos h1] at hoffered
        exact hoffered
      · -- under any other selector nothing is offered
        rw [if_neg h1] at hoffered
        have hzero : w.2 = 0 := by simpa using hoffered
        rw [hzero, UInt32.zero_and]
  · rw [if_neg hreg]
    exact h

/-- **The accepted bits in every reachable state** are the words the driver wrote, as it
wrote them: they are offered bits when the driver writes only such, and exactly when the
last word for each bank is. -/
theorem driverFeatures_of_run (deviceId vendorId : UInt32) (deviceFeatures : UInt64)
    (queueSizes : List UInt32) (writes : List MmioWrite) :
    let start := new deviceId vendorId deviceFeatures queueSizes
    let accepted :=
      (reached deviceId vendorId deviceFeatures queueSizes writes).state.driverFeatures
    let bank := fun i => (acceptedUnder (fun s => s == i) 0 writes).getLastD 0
    (Run.Along step AcceptsOffered start writes → accepted &&& ~~~deviceFeatures = 0) ∧
    (Run.Along step NamesBank start writes →
      accepted.toNat = (bank 1).toNat * 2 ^ 32 + (bank 0).toNat ∧
      (accepted &&& ~~~deviceFeatures = 0 ↔
        bank 0 &&& ~~~lowHalf deviceFeatures = 0 ∧
          bank 1 &&& ~~~highHalf deviceFeatures = 0)) := by
  intro start accepted bank
  constructor
  · intro hoffered
    have hrun := Run.final_of_along (I := fun d : VirtioMmio =>
        d.deviceFeatures = deviceFeatures ∧ d.state.driverFeatures &&& ~~~d.deviceFeatures = 0)
      (fun d w hw ⟨hdev, hsub⟩ =>
        ⟨(deviceFeatures_write32 d w.1 w.2).trans hdev, subset_step hw hsub⟩)
      ⟨rfl, UInt64.zero_and⟩ hoffered
    rw [hrun.1] at hrun
    exact hrun.2
  · intro hbank
    have hsel : Run.Along step SelectsBank start writes :=
      Run.along_of_along (I := fun _ => True) (fun _ _ _ _ => trivial)
        (fun _ _ hnames _ => hnames.selects) trivial hbank
    obtain ⟨hlow, hhigh⟩ := accepted_of_selectsBank hsel
    constructor
    · rw [toNat_halves, hlow, hhigh]
    · rw [subset_iff_halves, hlow, hhigh]

/-- A driver that accepts bit 0 of the low bank and bit 0 of the high bank of a device that
offers both. -/
theorem driverFeatures_of_run_both :
    (Run.Along step AcceptsOffered (new 2 0x1af4 0x100000001 [])
      [(Reg.driverFeatures.offset, 1), (Reg.driverFeaturesSel.offset, 1),
        (Reg.driverFeatures.offset, 1)]) ∧
    (Run.final step (new 2 0x1af4 0x100000001 [])
      [(Reg.driverFeatures.offset, 1), (Reg.driverFeaturesSel.offset, 1),
        (Reg.driverFeatures.offset, 1)]).state.driverFeatures &&& ~~~0x100000001 = 0 :=
  have hoffered : Run.Along step AcceptsOffered (new 2 0x1af4 0x100000001 [])
      [(Reg.driverFeatures.offset, 1), (Reg.driverFeaturesSel.offset, 1),
        (Reg.driverFeatures.offset, 1)] := by decide
  ⟨hoffered, (driverFeatures_of_run 2 0x1af4 0x100000001 []
    [(Reg.driverFeatures.offset, 1), (Reg.driverFeaturesSel.offset, 1),
      (Reg.driverFeatures.offset, 1)]).1 hoffered⟩

/-- A driver may accept what is not offered. -/
theorem accepts_not_offered :
    ¬ ∀ deviceId vendorId deviceFeatures queueSizes writes,
      (reached deviceId vendorId deviceFeatures queueSizes writes).state.driverFeatures &&&
        ~~~deviceFeatures = 0 := by
  intro h
  have h1 := h 2 0x1af4 0 [] [(Reg.driverFeatures.offset, 1)]
  revert h1
  decide

end VirtioMmio
end HyperPod
