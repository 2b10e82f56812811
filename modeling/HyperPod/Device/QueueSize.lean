import HyperPod.Device.RegisterFile
import HyperPod.Lib.WrapRing

/-!
# The size of a queue

`QUEUE_NUM` stores whatever the guest writes: in every reachable state a queue's size is
the last value written while the queue was selected (`programmedSize`), so it respects
`size_max` and is a power of two exactly when that value does (`queueSize_of_run`).  Such a
size bounds the walk of `pop` and, up to `2 ^ 16`, keeps its slots in step when
`last_avail_idx` wraps.
-/

namespace HyperPod

open Machine WrapRing

/-! ## Slots along a run of pops -/

namespace VirtQueue

theorem size_advance_iterate (q : VirtQueue) (k : Nat) : (advance^[k] q).size = q.size := by
  induction k generalizing q with
  | zero => rfl
  | succ k ih => exact ih q.advance

theorem lastAvailIdx_iterate (q : VirtQueue) (k : Nat) :
    (advance^[k] q).lastAvailIdx.toNat = (q.lastAvailIdx.toNat + k) % 2 ^ 16 := by
  induction k generalizing q with
  | zero => exact (Nat.mod_eq_of_lt q.lastAvailIdx.toNat_lt).symm
  | succ k ih =>
    have hnext : q.advance.lastAvailIdx.toNat = (q.lastAvailIdx.toNat + 1) % 2 ^ 16 :=
      UInt16.toNat_add ..
    rw [Function.iterate_succ_apply, ih, hnext, Nat.mod_add_mod]
    congr 1
    omega

/-- A size that divides `2 ^ 16` keeps the slots in step across the wrap. -/
theorem nextSlot_iterate {q : VirtQueue} (h : q.size.toNat ∣ 2 ^ 16) (k : Nat) :
    (advance^[k] q).nextSlot = (q.lastAvailIdx.toNat + k) % q.size.toNat := by
  unfold nextSlot
  rw [size_advance_iterate, lastAvailIdx_iterate]
  exact slot_of_wrapped h _

end VirtQueue

/-- A size the transport should see in a queue that offers `sizeMax` entries. -/
def SizeValid (sizeMax size : UInt32) : Prop :=
  size ≤ sizeMax ∧ (size = 0 ∨ ∃ k, size.toNat = 2 ^ k)

theorem SizeValid.dvd {sizeMax size : UInt32} (h : SizeValid sizeMax size) (h0 : size ≠ 0)
    (hle : size.toNat ≤ 2 ^ 16) : size.toNat ∣ 2 ^ 16 := by
  rcases h.2 with hz | ⟨k, hk⟩
  · exact absurd hz h0
  · rw [hk] at hle ⊢
    exact Nat.pow_dvd_pow 2 ((Nat.pow_le_pow_iff_right (by decide)).mp hle)

namespace VirtioMmio

/-- The last value written to `QUEUE_NUM` while queue `i` was selected, from a state with
the selector at `sel` and the size at `size`. -/
def programmedSize (i : Nat) : UInt32 → UInt32 → List (UInt64 × UInt32) → UInt32
  | _, size, [] => size
  | sel, size, (offset, val) :: writes =>
    match Reg.ofOffset offset with
    | some .queueSel => programmedSize i val size writes
    | some .queueNum => programmedSize i sel (if sel.toNat = i then val else size) writes
    | _ => programmedSize i sel size writes

/-- It is what the register file says of `QUEUE_NUM`. -/
theorem programmedSize_eq (i : Nat) (sel size : UInt32) (writes : List (UInt64 × UInt32)) :
    programmedSize i sel size writes =
      (wordsTo .queueNum (whileSelected .queueSel (fun s => s.toNat == i) sel writes)).getLastD
        size := by
  induction writes generalizing sel size with
  | nil => rfl
  | cons w writes ih =>
    obtain ⟨offset, val⟩ := w
    rw [whileSelected, programmedSize]
    by_cases hi : sel.toNat = i
    · rw [if_pos (beq_iff_eq.mpr hi), getLastD_wordsTo_cons, ← ih, if_pos hi]
      cases Reg.ofOffset offset with
      | none => rfl
      | some r => cases r <;> rfl
    · rw [if_neg (fun h => hi (beq_iff_eq.mp h)), ← ih, if_neg hi]
      cases Reg.ofOffset offset with
      | none => rfl
      | some r => cases r <;> rfl

theorem tracks_size : Tracks .queueNum id VirtQueue.size := by
  rintro (_ | r) val q
  · rfl
  · cases r <;> rfl

theorem size_run {d : VirtioMmio} {i : Nat} {q : VirtQueue} (hq : d.queues[i]? = some q)
    (writes : List (UInt64 × UInt32)) :
    ∃ q', (Run.final step d writes).queues[i]? = some q' ∧ q'.sizeMax = q.sizeMax ∧
      q'.size = programmedSize i d.state.queueSel q.size writes := by
  have hget := getElem?_queues_run d writes i
  rw [hq] at hget
  refine ⟨_, hget, sizeMax_foldl _ q, ?_⟩
  rw [programmedSize_eq]
  exact tracks_size.foldl _ rfl

/-- What `pop` may rely on in a queue of a valid size. -/
structure Bounded (q : VirtQueue) : Prop where
  /-- the loop of `pop` pushes at most `size_max` descriptors, whatever it returns -/
  pushed : ∀ p ram head, DescriptorChain.pushed p ram q q.size.toNat head ≤ q.sizeMax.toNat
  chain : ∀ p ram c, ((DescriptorChain.pop p ram).run q).1 = .ok (some c) →
    c.descriptors.length ≤ q.sizeMax.toNat
  inStep : q.size ≠ 0 → q.size.toNat ≤ 2 ^ 16 → ∀ k,
    (VirtQueue.advance^[k] q).nextSlot = (q.lastAvailIdx.toNat + k) % q.size.toNat

theorem bounded_of_sizeValid {q : VirtQueue} (h : SizeValid q.sizeMax q.size) : Bounded q := by
  have hmax : q.size.toNat ≤ q.sizeMax.toNat := UInt32.le_iff_toNat_le.mp h.1
  refine ⟨?_, ?_, ?_⟩
  · intro p ram head
    exact Nat.le_trans (DescriptorChain.pushed_le _ _) hmax
  · intro p ram c hc
    rcases hrun : (DescriptorChain.pop p ram).run q with ⟨r, q'⟩
    rw [hrun] at hc
    cases hc
    obtain ⟨rfl, hlen⟩ := DescriptorChain.pop_eq_ok_some hrun
    rw [hlen]
    exact Nat.le_trans (DescriptorChain.pushed_le _ _) hmax
  · intro h0 hle k
    exact VirtQueue.nextSlot_iterate (h.dvd h0 hle) k

/-- **The size of every queue in every reachable state** is the one last programmed; where
that is valid, `pop` may rely on it. -/
theorem queueSize_of_run (deviceId vendorId : UInt32) (deviceFeatures : UInt64)
    (queueSizes : List UInt32) (writes : List (UInt64 × UInt32)) (i : Nat) (q : VirtQueue)
    (hq : (Run.final step (new deviceId vendorId deviceFeatures queueSizes) writes).queues[i]? =
      some q) :
    queueSizes[i]? = some q.sizeMax ∧ q.size = programmedSize i 0 0 writes ∧
      (SizeValid q.sizeMax q.size → Bounded q) := by
  have hi := (List.getElem?_eq_some_iff.mp hq).1
  rw [length_queues_run, new, List.length_map] at hi
  have hstart : (new deviceId vendorId deviceFeatures queueSizes).queues[i]? =
      some (VirtQueue.new queueSizes[i]) := by
    rw [new, List.getElem?_map, List.getElem?_eq_getElem hi]
    rfl
  obtain ⟨q', hq', hmax, hsize⟩ := size_run hstart writes
  rw [hq] at hq'
  cases hq'
  refine ⟨?_, hsize, bounded_of_sizeValid⟩
  rw [hmax]
  exact List.getElem?_eq_getElem hi

/-- A driver that sets up 64 of 256 entries. -/
theorem queueSize_of_run_64 :
    ([256] : List UInt32)[0]? = some 256 ∧
    64 = programmedSize 0 0 0
      [(Reg.queueSel.offset, 0), (Reg.queueNum.offset, 64), (Reg.queueReady.offset, 1)] ∧
    (SizeValid 256 64 → Bounded ⟨256, 64, true, 0, 0, 0, 0⟩) :=
  queueSize_of_run 2 0x1af4 0 [256]
    [(Reg.queueSel.offset, 0), (Reg.queueNum.offset, 64), (Reg.queueReady.offset, 1)] 0
    ⟨256, 64, true, 0, 0, 0, 0⟩ rfl

/-- `QUEUE_NUM` takes a size that is no power of two, and a power of two beyond `2 ^ 16`
makes the ring jump when the index wraps. -/
theorem not_sizeValid_always :
    (¬ ∀ writes, ∀ q ∈ (Run.final step (new 2 0x1af4 0 [256]) writes).queues,
      SizeValid q.sizeMax q.size) ∧
    ¬ ∀ q : VirtQueue, q.size ≠ 0 → SizeValid q.sizeMax q.size →
      q.advance.nextSlot = (q.nextSlot + 1) % q.size.toNat := by
  constructor
  · intro h
    obtain ⟨-, h0 | ⟨k, hk⟩⟩ := h [(Reg.queueNum.offset, 3)] ⟨256, 3, false, 0, 0, 0, 0⟩ (.head _)
    · cases h0
    · have hpow : 3 = 2 ^ k := hk
      cases k with
      | zero => cases hpow
      | succ k => omega
  · intro h
    have hjump := h ⟨131072, 131072, true, 0, 0, 0, 65535⟩ (by decide)
      ⟨by decide, Or.inr ⟨17, rfl⟩⟩
    revert hjump
    decide

end VirtioMmio
end HyperPod
