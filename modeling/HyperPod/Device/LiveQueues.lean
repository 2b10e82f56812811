import HyperPod.Device.ChainHandover
import HyperPod.Device.Concurrent
import HyperPod.Device.Reset

/-!
# All the queues of a device at work

The queues of a `VirtioMmio` share its registers and the guest's RAM.  `LiveDevice` is the
transport with some queues in service: the driver offers and publishes chains on each of
them, the device pops from each, and the guest goes on with register accesses and writes to
RAM.  What one queue does is a guest write like any other for the rest, because its ring lies
clear of theirs, and no register access reaches a queue that the driver leaves alone; so
each of them hands over its chains as if it were alone (`queues_hand_over`).
-/

namespace HyperPod

open Machine Bytes LinkWalk AvailRing

/-- What the driver and the device have done with one queue. -/
structure QueueUse where
  drvIdx : UInt16
  staged : Option UInt16
  heads : List UInt16
  popped : List UInt16
  offered : Option Offer
  published : List Offer
  delivered : List DescriptorChain

namespace QueueUse

def fresh (q : VirtQueue) : QueueUse := ⟨q.lastAvailIdx, none, [], [], none, [], []⟩

def inRam (u : QueueUse) (ram : GuestRam) (q : VirtQueue) : ChainRing :=
  ⟨⟨ram, q, u.drvIdx, u.staged, u.heads, u.popped⟩, u.offered, u.published, u.delivered⟩

end QueueUse

namespace ChainRing

def use (s : ChainRing) : QueueUse :=
  ⟨s.ring.drvIdx, s.ring.staged, s.ring.published, s.ring.popped, s.offered, s.published,
    s.delivered⟩

def withRam (s : ChainRing) (ram : GuestRam) : ChainRing := { s with ring := { s.ring with ram } }

end ChainRing

/-- A move of the driver or the device on one queue. -/
inductive QueueMove where
  | offer (head : UInt16)
  | publish
  | pop

def QueueMove.chainMove : QueueMove → ChainMove
  | .offer head => .offer head
  | .publish => .publish
  | .pop => .pop

inductive DeviceMove where
  /-- a register access of the guest -/
  | access (a : MmioAccess)
  | write (gpa : Nat) (data : List UInt8)
  | onQueue (i : Nat) (move : QueueMove)

/-- The transport, the RAM, and what has been done with each queue. -/
structure LiveDevice where
  mmio : VirtioMmio
  ram : GuestRam
  uses : Nat → QueueUse

/-- The ring of `q` lies clear of the ring and of the descriptor table of `q'`. -/
def RingApart (q q' : VirtQueue) : Prop :=
  ClearOfRing q' (q.availAddr.toNat + 2) (q.size.toNat * 2 + 2) ∧
    ClearOfRing q q'.descAddr.toNat (q'.size.toNat * descSize)

instance (q q' : VirtQueue) : Decidable (RingApart q q') :=
  inferInstanceAs (Decidable (_ ∧ _))

namespace LiveDevice

def start (mmio : VirtioMmio) (ram : GuestRam) : LiveDevice :=
  ⟨mmio, ram, fun i => .fresh (mmio.queues[i]?.getD (.new 0))⟩

/-- Queue `i` at work. -/
def ring (d : LiveDevice) (i : Nat) : Option ChainRing :=
  d.mmio.queues[i]?.map ((d.uses i).inRam d.ram)

/-- Queue `i` has moved to `s`. -/
def moved (d : LiveDevice) (i : Nat) (s : ChainRing) : LiveDevice where
  mmio := { d.mmio with queues := d.mmio.queues.set i s.ring.queue }
  ram := s.ring.ram
  uses := Function.update d.uses i s.use

/-- No register of a queue in service is written. -/
def SparesLive (live : List Nat) (mmio : VirtioMmio) : MmioAccess → Prop
  | .read _ => True
  | .write offset val => (MmioAccess.write offset val).onSelectedQueue = true →
    mmio.state.queueSel.toNat ∉ live

instance (live : List Nat) (mmio : VirtioMmio) : DecidablePred (SparesLive live mmio)
  | .read _ => isTrue trivial
  | .write _ _ => inferInstanceAs (Decidable (_ → _))

/-- One move, and what a pop returned.  A move of the guest that is not enabled does
nothing. -/
def step (p : Profile) (live : List Nat) (d : LiveDevice) :
    DeviceMove → Option (Result (Option DescriptorChain)) × LiveDevice
  | .access a =>
    if SparesLive live d.mmio a then (none, { d with mmio := (d.mmio.access a).2 }) else (none, d)
  | .write gpa data =>
    if ∀ i ∈ live, ∀ s ∈ d.ring i, s.MayWrite gpa data.length then
      (none, { d with ram := d.ram.put gpa data })
    else (none, d)
  | .onQueue i move =>
    match if i ∈ live then d.ring i else none with
    | some s => ((s.step p move.chainMove).1, d.moved i (s.step p move.chainMove).2)
    | none => (none, d)

end LiveDevice

/-! ## One queue's move, seen from the others -/

namespace ChainRing

variable {p : Profile} {base : Nat} {s : ChainRing} {q : VirtQueue} {gpa n : Nat}

/-- A write inside the ring of another queue is one that this queue allows. -/
theorem Intact.mayWrite_of_ringApart (h : Intact base s) (hapart : RingApart q s.ring.queue)
    (hlo : q.availAddr.toNat + 2 ≤ gpa) (hhi : gpa + n ≤ q.slotAddr q.size.toNat) :
    s.MayWrite gpa n := by
  obtain ⟨hring, htable⟩ := hapart
  unfold ClearOfRing at hring htable
  unfold VirtQueue.slotAddr availRingHdr at *
  constructor
  · unfold ClearOfRing VirtQueue.slotAddr availRingHdr
    omega
  · intro o ho e he
    have hidx := VirtQueue.toNat_lt_of_table ((h.walks o ho).isSome_of_mem he)
    unfold ClearOfDescriptor VirtQueue.descriptorGpa
    unfold descSize at *
    omega

/-- What a move on a queue can do to RAM and to the queue. -/
structure StaysInRing (s s' : ChainRing) : Prop where
  ram : s'.ring.ram = s.ring.ram ∨ ∃ gpa data, s'.ring.ram = s.ring.ram.put gpa data ∧
    s.ring.queue.availAddr.toNat + 2 ≤ gpa ∧
      gpa + data.length ≤ s.ring.queue.slotAddr s.ring.queue.size.toNat
  queue : ∃ idx, s'.ring.queue = { s.ring.queue with lastAvailIdx := idx }

theorem staysInRing_refl : StaysInRing s s := ⟨Or.inl rfl, s.ring.queue.lastAvailIdx, rfl⟩

theorem Intact.staysInRing (h : Intact base s) (p : Profile) (move : QueueMove) :
    StaysInRing s (s.step p move.chainMove).2 := by
  cases move with
  | offer head =>
    show StaysInRing s (s.step p (.offer head)).2
    cases hdescribed : s.described head with
    | none =>
      simp only [ChainRing.step, hdescribed]
      exact staysInRing_refl
    | some walk =>
      by_cases hroom : s.ring.HasRoom
      · simp only [ChainRing.step, hdescribed, if_pos hroom]
        obtain ⟨hlo, hhi⟩ := h.drvSlot_inside
        exact ⟨Or.inr ⟨_, _, rfl, hlo, hhi⟩, s.ring.queue.lastAvailIdx, rfl⟩
      · simp only [ChainRing.step, hdescribed, if_neg hroom]
        exact staysInRing_refl
  | publish =>
    show StaysInRing s (s.step p .publish).2
    cases hoffered : s.offered with
    | none =>
      simp only [ChainRing.step, hoffered]
      exact staysInRing_refl
    | some o =>
      simp only [ChainRing.step, hoffered]
      refine ⟨Or.inr ⟨_, _, rfl, Nat.le_refl _, ?_⟩, s.ring.queue.lastAvailIdx, rfl⟩
      have hpos := h.linked.queue.pos
      unfold VirtQueue.slotAddr availRingHdr
      rw [Pod.length_toBytes, size_uint16]
      omega
  | pop =>
    show StaysInRing s (s.step p .pop).2
    rcases h.pop_cases p with ⟨-, hstep⟩ | ⟨o, -, hstep⟩
    · simp only [ChainRing.step, hstep]
      exact ⟨Or.inl rfl, s.ring.queue.lastAvailIdx, rfl⟩
    · simp only [ChainRing.step, hstep]
      exact ⟨Or.inl rfl, _, rfl⟩

end ChainRing

/-! ## The invariant -/

namespace LiveDevice

open ChainRing

variable {p : Profile} {live : List Nat} {layout : Nat → VirtQueue} {d : LiveDevice} {i j : Nat}
  {s s' : ChainRing}

theorem ram_of_ring (h : d.ring i = some s) : s.ring.ram = d.ram := by
  obtain ⟨q, -, rfl⟩ := Option.map_eq_some_iff.mp h
  rfl

theorem ring_moved_self (h : d.ring i = some s) (s' : ChainRing) :
    (d.moved i s').ring i = some s' := by
  obtain ⟨q, hq, -⟩ := Option.map_eq_some_iff.mp h
  obtain ⟨hlt, -⟩ := List.getElem?_eq_some_iff.mp hq
  show (d.mmio.queues.set i s'.ring.queue)[i]?.map
    ((Function.update d.uses i s'.use i).inRam s'.ring.ram) = some s'
  rw [List.getElem?_set_self hlt, Function.update_self]
  rfl

/-- Of the move of another queue a queue sees the new RAM. -/
theorem ring_moved_ne (hij : i ≠ j) (s' : ChainRing) :
    (d.moved i s').ring j = (d.ring j).map (·.withRam s'.ring.ram) := by
  show (d.mmio.queues.set i s'.ring.queue)[j]?.map
    ((Function.update d.uses i s'.use j).inRam s'.ring.ram) = _
  rw [List.getElem?_set_ne hij, Function.update_of_ne hij.symm]
  unfold ring
  rw [Option.map_map]
  rfl

/-- Every queue in service is intact and lies where it was laid out. -/
structure Serving (live : List Nat) (layout : Nat → VirtQueue) (d : LiveDevice) : Prop where
  each : ∀ i ∈ live, ∃ s, d.ring i = some s ∧ Intact (layout i).lastAvailIdx.toNat s ∧
    ∃ idx, s.ring.queue = { layout i with lastAvailIdx := idx }

/-- A register access that spares the queues in service leaves them as they are. -/
theorem getElem?_queues_access {mmio : VirtioMmio} {a : MmioAccess} (h : SparesLive live mmio a)
    (hi : i ∈ live) : (mmio.access a).2.queues[i]? = mmio.queues[i]? := by
  by_cases hsel : a.onSelectedQueue = true
  · cases a with
    | read offset => rfl
    | write offset val =>
      have hne : mmio.state.queueSel.toNat ≠ i := fun heq => h hsel (heq ▸ hi)
      show (mmio.write32 offset val).2.queues[i]? = _
      rw [VirtioMmio.getElem?_queues_write32, if_neg hne]
  · rw [VirtioMmio.queues_access (Bool.eq_false_of_not_eq_true hsel)]

section

variable (h : Serving live layout d)

include h

theorem Serving.access {a : MmioAccess} (ha : SparesLive live d.mmio a) :
    Serving live layout { d with mmio := (d.mmio.access a).2 } := by
  refine ⟨fun i hi => ?_⟩
  obtain ⟨s, hs, hrest⟩ := h.each i hi
  refine ⟨s, ?_, hrest⟩
  show ((d.mmio.access a).2.queues[i]?).map _ = some s
  rw [getElem?_queues_access ha hi]
  exact hs

theorem Serving.write {gpa : Nat} {data : List UInt8}
    (hmay : ∀ i ∈ live, ∀ s ∈ d.ring i, s.MayWrite gpa data.length) :
    Serving live layout { d with ram := d.ram.put gpa data } := by
  refine ⟨fun i hi => ?_⟩
  obtain ⟨s, hs, hintact, hlayout⟩ := h.each i hi
  refine ⟨s.guestWrite gpa data, ?_, hintact.write (hmay i hi s hs), hlayout⟩
  obtain ⟨q, hq, rfl⟩ := Option.map_eq_some_iff.mp hs
  exact congrArg (Option.map _) hq

/-- **One queue moves**: it stays intact, and so do the others, whose RAM changed in its ring
at most. -/
theorem Serving.onQueue (hapart : ∀ i ∈ live, ∀ j ∈ live, i ≠ j → RingApart (layout i) (layout j))
    (hi : i ∈ live) (hs : d.ring i = some s) (p : Profile) (move : QueueMove) :
    Serving live layout (d.moved i (s.step p move.chainMove).2) := by
  obtain ⟨s₀, hs₀, hintact, idx, hlayout⟩ := h.each i hi
  obtain rfl : s₀ = s := Option.some.inj (hs₀.symm.trans hs)
  have hmoved := hintact.staysInRing p move
  refine ⟨fun j hj => ?_⟩
  by_cases hij : i = j
  · subst hij
    obtain ⟨idx', hqueue⟩ := hmoved.queue
    refine ⟨_, ring_moved_self hs _, hintact.step p move.chainMove, idx', ?_⟩
    rw [hqueue, hlayout]
  · obtain ⟨t, ht, htintact, tidx, htlayout⟩ := h.each j hj
    refine ⟨t.withRam (s₀.step p move.chainMove).2.ring.ram, ?_, ?_, tidx, htlayout⟩
    · rw [ring_moved_ne hij, ht]
      rfl
    · have hsame : t.ring.ram = s₀.ring.ram := (ram_of_ring ht).trans (ram_of_ring hs).symm
      rcases hmoved.ram with hram | ⟨gpa, data, hram, hlo, hhi⟩
      · rw [hram, ← hsame]
        exact htintact
      · rw [hram, ← hsame]
        refine htintact.write (htintact.mayWrite_of_ringApart (q := layout i) ?_ ?_ ?_)
        · rw [htlayout]
          exact hapart i hi j hj hij
        · rw [hlayout] at hlo
          exact hlo
        · rw [hlayout] at hhi
          exact hhi

theorem Serving.step (hapart : ∀ i ∈ live, ∀ j ∈ live, i ≠ j → RingApart (layout i) (layout j))
    (p : Profile) (move : DeviceMove) : Serving live layout (d.step p live move).2 := by
  cases move with
  | access a =>
    by_cases ha : SparesLive live d.mmio a
    · simp only [LiveDevice.step, if_pos ha]
      exact h.access ha
    · simp only [LiveDevice.step, if_neg ha]
      exact h
  | write gpa data =>
    by_cases hmay : ∀ i ∈ live, ∀ s ∈ d.ring i, s.MayWrite gpa data.length
    · simp only [LiveDevice.step, if_pos hmay]
      exact h.write hmay
    · simp only [LiveDevice.step, if_neg hmay]
      exact h
  | onQueue i move =>
    by_cases hi : i ∈ live
    · obtain ⟨s, hs, -⟩ := h.each i hi
      simp only [LiveDevice.step, if_pos hi, hs]
      exact h.onQueue hapart hi hs p move
    · simp only [LiveDevice.step, if_neg hi]
      exact h

end

/-! ## Every run -/

/-- Queues that a device may serve: each of a layout it can pop from, with nothing pending,
and each ring clear of the rings and tables of the others. -/
structure InService (live : List Nat) (mmio : VirtioMmio) (ram : GuestRam) : Prop where
  each : ∀ i ∈ live, ∃ q, mmio.queues[i]? = some q ∧ Serviceable q ram ∧
    q.availIdx ram = q.lastAvailIdx ∧ TableApart q
  apart : ∀ i ∈ live, ∀ j ∈ live, i ≠ j →
    RingApart (mmio.queues[i]?.getD (.new 0)) (mmio.queues[j]?.getD (.new 0))

theorem serving_start {mmio : VirtioMmio} {ram : GuestRam} (h : InService live mmio ram) :
    Serving live (fun i => mmio.queues[i]?.getD (.new 0)) (start mmio ram) := by
  refine ⟨fun i hi => ?_⟩
  obtain ⟨q, hq, hservice, hidx, hapart⟩ := h.each i hi
  have hget : mmio.queues[i]?.getD (.new 0) = q := by
    rw [hq]
    rfl
  have huse : (start mmio ram).uses i = .fresh q := congrArg QueueUse.fresh hget
  refine ⟨ChainRing.start ram q, ?_, ?_, q.lastAvailIdx, ?_⟩
  · show mmio.queues[i]?.map (((start mmio ram).uses i).inRam ram) = _
    rw [hq, huse]
    rfl
  · rw [hget]
    exact intact_start hservice hidx hapart
  · rw [hget]
    rfl

/-- A pop on a queue in service is `DescriptorChain::pop` on that queue of the transport. -/
theorem step_pop (hi : i ∈ live) (hs : d.ring i = some s) :
    (d.step p live (.onQueue i .pop)).1 = (d.mmio.popQueue p i d.ram).1 ∧
      (d.step p live (.onQueue i .pop)).2.mmio = (d.mmio.popQueue p i d.ram).2 := by
  obtain ⟨q, hq, heq⟩ := Option.map_eq_some_iff.mp hs
  unfold VirtioMmio.popQueue
  simp only [LiveDevice.step, if_pos hi, hs, hq]
  rw [← heq]
  exact ⟨rfl, rfl⟩

/-- What a move on queue `i`, which is `q`, may do to the device: beside that queue it changes
RAM in the ring of `q` at most. -/
structure StaysInQueue (i : Nat) (q : VirtQueue) (d d' : LiveDevice) : Prop where
  ram : d'.ram = d.ram ∨ ∃ gpa data, d'.ram = d.ram.put gpa data ∧
    q.availAddr.toNat + 2 ≤ gpa ∧ gpa + data.length ≤ q.slotAddr q.size.toNat
  registers : ∃ queues, d'.mmio = { d.mmio with queues }
  queues : ∀ j, j ≠ i → d'.mmio.queues[j]? = d.mmio.queues[j]?
  uses : ∀ j, j ≠ i → d'.uses j = d.uses j

theorem staysInQueue_step (hi : i ∈ live) (hs : d.ring i = some s) {base : Nat}
    (hintact : Intact base s) (p : Profile) (move : QueueMove) :
    StaysInQueue i s.ring.queue d (d.step p live (.onQueue i move)).2 := by
  have hmoved := hintact.staysInRing p move
  simp only [LiveDevice.step, if_pos hi, hs]
  refine ⟨?_, ⟨_, rfl⟩, fun j hj => ?_, fun j hj => Function.update_of_ne hj _ _⟩
  · rw [← ram_of_ring hs]
    exact hmoved.ram
  · exact List.getElem?_set_ne hj.symm

/-- **Every queue hands over its chains.**  However the traffic on the queues in service, the
register accesses that spare them and the guest's writes interleave, on each of these queues
no pop fails and the published chains are delivered whole, in order and once; and a move on
one of them reaches the others only through its own ring. -/
theorem queues_hand_over (p : Profile) (live : List Nat) (mmio : VirtioMmio) (ram : GuestRam)
    (hservice : InService live mmio ram) (moves : List DeviceMove) (i : Nat) (hi : i ∈ live) :
    let d := Run.final (step p live) (start mmio ram) moves
    ∃ s, d.ring i = some s ∧ HandsOver p s ∧
      (d.mmio.popQueue p i d.ram).1 =
        some (.ok (s.published[s.delivered.length]?.map Offer.chain)) ∧
      ∀ move, StaysInQueue i s.ring.queue d (d.step p live (.onQueue i move)).2 := by
  intro d
  have hserving : Serving live (fun i => mmio.queues[i]?.getD (.new 0)) d :=
    Run.final_invariant (fun _ move h => h.step hservice.apart p move) (serving_start hservice)
      moves
  obtain ⟨s, hs, hintact, -⟩ := hserving.each i hi
  have hover := hintact.handsOver p
  refine ⟨s, hs, hover, ?_, staysInQueue_step hi hs hintact p⟩
  rw [← (step_pop (p := p) hi hs).1]
  simp only [LiveDevice.step, if_pos hi, hs]
  exact congrArg some hover.next

/-- The register writes of a driver that sets up queue `i` with four entries. -/
def setUpQueue (i descAddr availAddr : UInt32) : List MmioWrite :=
  [(Reg.queueSel.offset, i), (Reg.queueNum.offset, 4), (Reg.queueDescLow.offset, descAddr),
    (Reg.queueAvailLow.offset, availAddr), (Reg.queueReady.offset, 1)]

def twoQueues : VirtioMmio :=
  Run.final VirtioMmio.step (.new 2 0x1af4 0 [8, 8])
    (setUpQueue 0 0x1000 0x2000 ++ setUpQueue 1 0x4000 0x5000)

/-- Traffic on two queues, a register write to one of them that is refused, and one that
selects the other. -/
def mixedTraffic : List DeviceMove :=
  [.onQueue 0 (.offer 3), .write 0x4000 [7], .onQueue 1 (.offer 0), .onQueue 1 .publish,
    .access (.write Reg.queueReady.offset 0), .access (.write Reg.queueSel.offset 0),
    .onQueue 0 .publish, .onQueue 1 .pop, .onQueue 0 .pop, .onQueue 0 .pop]

theorem inService_twoQueues : InService [0, 1] twoQueues (DescriptorChain.ramOf []) := by
  refine ⟨?_, by decide⟩
  intro i hi
  rcases List.mem_cons.mp hi with rfl | hi
  · exact ⟨⟨8, 4, true, 0x1000, 0x2000, 0, 0⟩, by decide, ⟨rfl, ⟨2, by decide, rfl⟩, by decide⟩,
      by decide, by decide⟩
  · obtain rfl := List.mem_singleton.mp hi
    exact ⟨⟨8, 4, true, 0x4000, 0x5000, 0, 0⟩, by decide, ⟨rfl, ⟨2, by decide, rfl⟩, by decide⟩,
      by decide, by decide⟩

theorem queues_hand_over_two :
    let d := Run.final (step .debug [0, 1]) (start twoQueues (DescriptorChain.ramOf []))
      mixedTraffic
    ∃ s, d.ring 1 = some s ∧ HandsOver .debug s ∧
      (d.mmio.popQueue .debug 1 d.ram).1 =
        some (.ok (s.published[s.delivered.length]?.map Offer.chain)) ∧
      ∀ move, StaysInQueue 1 s.ring.queue d (d.step .debug [0, 1] (.onQueue 1 move)).2 :=
  queues_hand_over .debug [0, 1] twoQueues (DescriptorChain.ramOf []) inService_twoQueues
    mixedTraffic 1 (by decide)

example : ((Run.final (step .debug [0, 1]) (start twoQueues (DescriptorChain.ramOf []))
    mixedTraffic).ring 1).map ChainRing.delivered = some [⟨0, [⟨7, 0, 0, 0⟩]⟩] := by
  decide

end LiveDevice
end HyperPod
