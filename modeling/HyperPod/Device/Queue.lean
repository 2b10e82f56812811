import HyperPod.Ram

/-!
# Walking a virtqueue: `DescriptorChain::pop`

`pop` first takes the next head off the available ring (`takeHead`), which is the only
step that moves `last_avail_idx`, and then follows the chain from it (`walk`) for at
most `size` descriptors.  Guest-physical addresses are sums in `u64`, under the
arithmetic of the build profile.
-/

namespace HyperPod

open Machine Bytes

structure VirtQueue where
  sizeMax : UInt32
  size : UInt32
  ready : Bool
  descAddr : UInt64
  availAddr : UInt64
  usedAddr : UInt64
  lastAvailIdx : UInt16
deriving Repr, DecidableEq

structure Descriptor where
  addr : UInt64
  len : UInt32
  flags : UInt16
  next : UInt16
deriving Repr, DecidableEq

/-- A walked descriptor chain from the available ring. -/
structure DescriptorChain where
  headIndex : UInt16
  descriptors : List Descriptor
deriving Repr, DecidableEq

def vringDescFNext : UInt16 := 1
def descSize : Nat := 16
def availRingHdr : Nat := 4

def readDescriptor (p : Profile) (ram : GuestRam) (base : Nat) : Result Descriptor := do
  let addr ← ram.readObj base
  let len ← ram.readObj (← fit p 64 (base + 8))
  let flags ← ram.readObj (← fit p 64 (base + 12))
  let next ← ram.readObj (← fit p 64 (base + 14))
  return { addr, len, flags, next }

namespace DescriptorChain

/-- The part of `pop` up to the advance of `last_avail_idx`. -/
def takeHead (p : Profile) (ram : GuestRam) : Act VirtQueue (Option UInt16) := do
  let queue ← Act.get
  if !queue.ready || queue.size == 0 then
    return none
  let availIdx : UInt16 ← Act.lift (do
    let addr ← fit p 64 (queue.availAddr.toNat + 2)
    ram.readObj addr)
  if availIdx == queue.lastAvailIdx then
    return none
  let slot := queue.lastAvailIdx.toNat % queue.size.toNat
  let headIndex : UInt16 ← Act.lift (do
    let ring ← fit p 64 (queue.availAddr.toNat + availRingHdr)
    let addr ← fit p 64 (ring + slot * 2)
    ram.readObj addr)
  Act.set { queue with lastAvailIdx := queue.lastAvailIdx + 1 }
  return some headIndex

/-- The loop of `pop`, with the iterations left. -/
def walk (p : Profile) (ram : GuestRam) (queue : VirtQueue) (headIndex : UInt16) :
    Nat → UInt16 → List Descriptor → Result DescriptorChain
  | 0, _, _ => .err (.msg s!"descriptor chain longer than queue size {queue.size}")
  | left + 1, idx, descriptors =>
    if idx.toNat ≥ queue.size.toNat then
      .err (.msg s!"descriptor index {idx} out of range {queue.size}")
    else do
      let base ← fit p 64 (queue.descAddr.toNat + idx.toNat * descSize)
      let d ← readDescriptor p ram base
      if d.flags &&& vringDescFNext = 0 then
        return { headIndex, descriptors := descriptors ++ [d] }
      else
        walk p ram queue headIndex left d.next (descriptors ++ [d])

/-- How many descriptors `walk` pushes, whatever it returns. -/
def pushed (p : Profile) (ram : GuestRam) (queue : VirtQueue) : Nat → UInt16 → Nat
  | 0, _ => 0
  | left + 1, idx =>
    if idx.toNat ≥ queue.size.toNat then 0
    else
      match (do
        let base ← fit p 64 (queue.descAddr.toNat + idx.toNat * descSize)
        readDescriptor p ram base : Result Descriptor) with
      | .ok d =>
        if d.flags &&& vringDescFNext = 0 then 1 else pushed p ram queue left d.next + 1
      | _ => 0

/-- Walks the next descriptor chain from the available ring, advancing the queue's
`last_avail_idx`; `none` when no new requests are pending. -/
def pop (p : Profile) (ram : GuestRam) : Act VirtQueue (Option DescriptorChain) := do
  match ← takeHead p ram with
  | none => return none
  | some headIndex =>
    let queue ← Act.get
    let chain ← Act.lift (walk p ram queue headIndex queue.size.toNat headIndex [])
    return some chain

end DescriptorChain

/-! ## The ring a queue is given -/

namespace VirtQueue

/-- The index the driver has published. -/
def availIdx (q : VirtQueue) (ram : GuestRam) : UInt16 :=
  Pod.ofBytes (window ram.mem (q.availAddr.toNat + 2) 2)

/-- The guest-physical address of a slot of the available ring. -/
def slotAddr (q : VirtQueue) (slot : Nat) : Nat := q.availAddr.toNat + availRingHdr + slot * 2

def ringSlot (q : VirtQueue) (ram : GuestRam) (slot : Nat) : UInt16 :=
  Pod.ofBytes (window ram.mem (q.slotAddr slot) 2)

/-- The slot of the next entry. -/
def nextSlot (q : VirtQueue) : Nat := q.lastAvailIdx.toNat % q.size.toNat

/-- The available ring lies in guest RAM. -/
def RingInside (q : VirtQueue) (ram : GuestRam) : Prop :=
  q.availAddr.toNat + availRingHdr + q.size.toNat * 2 ≤ ram.size

instance (q : VirtQueue) (ram : GuestRam) : Decidable (q.RingInside ram) :=
  inferInstanceAs (Decidable (_ ≤ _))

def advance (q : VirtQueue) : VirtQueue := { q with lastAvailIdx := q.lastAvailIdx + 1 }

theorem size_ne_zero_iff {q : VirtQueue} : q.size ≠ 0 ↔ 0 < q.size.toNat := by
  rw [Nat.pos_iff_ne_zero, Ne, Ne, ← UInt32.toNat_inj]
  rfl

end VirtQueue

namespace DescriptorChain

/-- The read of the published index. -/
def readAvailIdx (p : Profile) (ram : GuestRam) (q : VirtQueue) : Result UInt16 := do
  let addr ← fit p 64 (q.availAddr.toNat + 2)
  ram.readObj addr

/-- The read of the head in the next slot. -/
def readHead (p : Profile) (ram : GuestRam) (q : VirtQueue) : Result UInt16 := do
  let ring ← fit p 64 (q.availAddr.toNat + availRingHdr)
  let addr ← fit p 64 (ring + q.nextSlot * 2)
  ram.readObj addr

variable {p : Profile} {ram : GuestRam} {q : VirtQueue}

theorem run_takeHead_idle (h : q.ready = false ∨ q.size = 0) :
    (takeHead p ram).run q = (.ok none, q) := by
  have hc : (!q.ready || q.size == 0) = true := by
    rcases h with h | h
    · rw [h]
      rfl
    · rw [h]
      simp
  unfold takeHead
  rw [Act.run_get_bind, if_pos hc]
  rfl

theorem not_idle (hready : q.ready = true) (hsize : q.size ≠ 0) :
    ¬ (!q.ready || q.size == 0) = true := by
  rw [hready]
  simpa using hsize

/-- **What taking a head does**, on its two reads. -/
theorem run_takeHead_eq (p : Profile) (ram : GuestRam) (hready : q.ready = true)
    (hsize : q.size ≠ 0) :
    (takeHead p ram).run q =
      match readAvailIdx p ram q with
      | .ok idx =>
        if idx = q.lastAvailIdx then (.ok none, q)
        else
          match readHead p ram q with
          | .ok head => (.ok (some head), q.advance)
          | .err e => (.err e, q)
          | .panic => (.panic, q)
      | .err e => (.err e, q)
      | .panic => (.panic, q) := by
  have htake : (takeHead p ram).run q =
      (do
        let availIdx ← Act.lift (readAvailIdx p ram q)
        if availIdx == q.lastAvailIdx then return none
        let head ← Act.lift (readHead p ram q)
        Act.set q.advance
        return some head : Act VirtQueue (Option UInt16)).run q := by
    -- the two reads are what the names say
    unfold takeHead
    rw [Act.run_get_bind, if_neg (not_idle hready hsize)]
    rfl
  rw [htake]
  cases hidx : readAvailIdx p ram q with
  | ok idx =>
    rw [Act.run_lift_ok_bind]
    by_cases heq : idx = q.lastAvailIdx
    · simp only [heq, BEq.rfl, if_true]
      rfl
    · have hbeq : ¬ (idx == q.lastAvailIdx) = true := fun h => heq (beq_iff_eq.mp h)
      simp only [if_neg heq, if_neg hbeq]
      cases hhead : readHead p ram q with
      | ok head => rfl
      | err e => rfl
      | panic => rfl
  | err e => rfl
  | panic => rfl

/-- The two reads where they are inside guest RAM: the published index, -/
theorem readAvailIdx_inside (hin : q.availAddr.toNat + availRingHdr ≤ ram.size) :
    readAvailIdx p ram q = .ok (q.availIdx ram) := by
  have hlt := ram.size_lt
  unfold availRingHdr at hin
  unfold readAvailIdx
  rw [fit_eq_ok (by omega), Outcome.ok_bind]
  exact GuestRam.readObj_eq_ok.mpr ⟨by rw [size_uint16]; omega, rfl⟩

/-- and the head in the next slot. -/
theorem readHead_inside (hin : q.slotAddr q.nextSlot + 2 ≤ ram.size) :
    readHead p ram q = .ok (q.ringSlot ram q.nextSlot) := by
  have hlt := ram.size_lt
  unfold VirtQueue.slotAddr at hin
  unfold readHead
  rw [fit_eq_ok (by omega), Outcome.ok_bind, fit_eq_ok (by omega), Outcome.ok_bind]
  exact GuestRam.readObj_eq_ok.mpr ⟨by rw [size_uint16]; exact hin, rfl⟩

/-- The published index is the queue's own. -/
theorem run_takeHead_seen (hready : q.ready = true) (hsize : q.size ≠ 0)
    (hin : q.availAddr.toNat + availRingHdr ≤ ram.size) (hseen : q.availIdx ram = q.lastAvailIdx) :
    (takeHead p ram).run q = (.ok none, q) := by
  rw [run_takeHead_eq p ram hready hsize, readAvailIdx_inside hin]
  exact if_pos hseen

/-- What taking a head does where both reads are inside guest RAM: nothing when the
published index is the queue's own, else it hands out the next slot's head. -/
theorem run_takeHead_inside (hready : q.ready = true) (hsize : q.size ≠ 0)
    (hin : q.availAddr.toNat + availRingHdr ≤ ram.size)
    (hslot : q.slotAddr q.nextSlot + 2 ≤ ram.size) :
    (takeHead p ram).run q =
      if q.availIdx ram = q.lastAvailIdx then (.ok none, q)
      else (.ok (some (q.ringSlot ram q.nextSlot)), q.advance) := by
  rw [run_takeHead_eq p ram hready hsize, readAvailIdx_inside hin, readHead_inside hslot]

/-- On a ring that lies in guest RAM both reads do. -/
theorem run_takeHead (hready : q.ready = true) (hsize : q.size ≠ 0) (hin : q.RingInside ram) :
    (takeHead p ram).run q =
      if q.availIdx ram = q.lastAvailIdx then (.ok none, q)
      else (.ok (some (q.ringSlot ram q.nextSlot)), q.advance) := by
  have hslot : q.nextSlot < q.size.toNat :=
    Nat.mod_lt _ (VirtQueue.size_ne_zero_iff.mp hsize)
  unfold VirtQueue.RingInside at hin
  apply run_takeHead_inside hready hsize
  · omega
  · unfold VirtQueue.slotAddr
    omega

/-- The loop pushes at most as many descriptors as iterations were left. -/
theorem pushed_le (left : Nat) (idx : UInt16) : pushed p ram q left idx ≤ left := by
  induction left generalizing idx with
  | zero => exact Nat.le_refl 0
  | succ left ih =>
    rw [pushed]
    split
    · exact Nat.zero_le _
    · split
      · next d _ =>
        split
        · omega
        · exact Nat.succ_le_succ (ih d.next)
      · exact Nat.zero_le _

/-- A chain that was walked starts at its head and holds what the loop pushed. -/
theorem walk_eq_ok {head : UInt16} {c : DescriptorChain} (left : Nat) (idx : UInt16)
    (descs : List Descriptor) (h : walk p ram q head left idx descs = .ok c) :
    c.headIndex = head ∧ c.descriptors.length = descs.length + pushed p ram q left idx := by
  induction left generalizing idx descs with
  | zero => cases h
  | succ left ih =>
    rw [walk] at h
    rw [pushed]
    split at h
    · cases h
    · next hidx =>
      obtain ⟨base, hbase, h⟩ := Outcome.bind_eq_ok.mp h
      obtain ⟨d, hd, h⟩ := Outcome.bind_eq_ok.mp h
      rw [if_neg hidx, hbase, Outcome.ok_bind, hd]
      split at h
      · next hlast =>
        cases h
        refine ⟨rfl, ?_⟩
        simp only [if_pos hlast, List.length_append, List.length_singleton]
      · next hmore =>
        obtain ⟨hhead, hlen⟩ := ih d.next (descs ++ [d]) h
        refine ⟨hhead, ?_⟩
        rw [List.length_append, List.length_singleton] at hlen
        simp only [if_neg hmore]
        omega

theorem run_pop_none {q' : VirtQueue} (h : (takeHead p ram).run q = (.ok none, q')) :
    (pop p ram).run q = (.ok none, q') := by
  unfold pop
  rw [Act.run_bind_ok h]
  rfl

theorem run_pop_some {q' : VirtQueue} {head : UInt16}
    (h : (takeHead p ram).run q = (.ok (some head), q')) :
    (pop p ram).run q =
      ((walk p ram q' head q'.size.toNat head []).map some, q') := by
  unfold pop
  rw [Act.run_bind_ok h]
  show ((Act.get : Act VirtQueue VirtQueue) >>= _).run q' = _
  rw [Act.run_get_bind, Act.run_bind_pure, Act.run_lift]

theorem run_pop_err {q' : VirtQueue} {e : Error} (h : (takeHead p ram).run q = (.err e, q')) :
    (pop p ram).run q = (.err e, q') := by
  unfold pop
  rw [Act.run_bind, h]

theorem run_pop_panic {q' : VirtQueue} (h : (takeHead p ram).run q = (.panic, q')) :
    (pop p ram).run q = (.panic, q') := by
  unfold pop
  rw [Act.run_bind, h]

/-- Whatever the ring is, a head that was taken has advanced the queue. -/
theorem takeHead_eq_ok_some {q' : VirtQueue} {head : UInt16}
    (h : (takeHead p ram).run q = (.ok (some head), q')) : q' = q.advance := by
  by_cases hidle : q.ready = false ∨ q.size = 0
  · rw [run_takeHead_idle hidle] at h
    cases h
  · obtain ⟨hready, hsize⟩ := not_or.mp hidle
    rw [run_takeHead_eq p ram (eq_true_of_ne_false hready) hsize] at h
    split at h
    · split at h
      · cases h
      · split at h
        · cases h
          rfl
        · cases h
        · cases h
    · cases h
    · cases h

/-- A chain that `pop` returns is what its loop pushed. -/
theorem pop_eq_ok_some {c : DescriptorChain} {q' : VirtQueue}
    (h : (pop p ram).run q = (.ok (some c), q')) :
    q' = q.advance ∧ c.descriptors.length = pushed p ram q' q'.size.toNat c.headIndex := by
  unfold pop at h
  obtain ⟨o, s, htake, h⟩ := Act.run_bind_eq_ok.mp h
  cases o with
  | none => cases h
  | some head =>
    have hs := takeHead_eq_ok_some htake
    rw [Act.run_get_bind, Act.run_bind_pure, Act.run_lift] at h
    obtain ⟨hmap, hq⟩ := Prod.mk.inj h
    obtain ⟨c', hwalk, hc⟩ := Outcome.map_eq_ok.mp hmap
    cases hc
    subst hq
    obtain ⟨hhead, hlen⟩ := walk_eq_ok _ _ _ hwalk
    refine ⟨hs, ?_⟩
    rw [hhead, hlen, List.length_nil, Nat.zero_add]

end DescriptorChain
end HyperPod
