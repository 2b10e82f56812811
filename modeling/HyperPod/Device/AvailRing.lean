import HyperPod.Device.Queue
import HyperPod.Lib.WrapRing
import HyperPod.Lib.Run

/-!
# The available ring between a driver and the device

`AvailRing.step` interleaves the driver's two stores, guest writes elsewhere in RAM and
`DescriptorChain::pop`.  `published` and `popped` log the heads made visible by the
driver and the heads taken by `pop`.  The invariant `Linked` ties the two wrapping
`u16` indices to the lengths of the logs and the ring slots to the entries between
them; from it, in every run, `pop` hands out the published heads in order, each once
(`pop_in_order`).
-/

namespace HyperPod

open Machine Bytes WrapRing

structure AvailRing where
  ram : GuestRam
  queue : VirtQueue
  /-- the driver's own index -/
  drvIdx : UInt16
  /-- the head in the driver's slot, once stored and until it is published -/
  staged : Option UInt16
  published : List UInt16
  popped : List UInt16

inductive RingMove where
  /-- the driver stores a head in its slot -/
  | store (head : UInt16)
  /-- the driver stores the next index -/
  | publish
  /-- the guest writes outside the ring -/
  | elsewhere (gpa : Nat) (data : List UInt8)
  | pop

namespace AvailRing

def start (ram : GuestRam) (queue : VirtQueue) : AvailRing :=
  ⟨ram, queue, queue.lastAvailIdx, none, [], []⟩

def slots (s : AvailRing) : Nat := s.queue.size.toNat

/-- The driver's slot. -/
def drvSlot (s : AvailRing) : Nat := s.drvIdx.toNat % s.slots

/-- Fewer than `size` published entries wait. -/
def HasRoom (s : AvailRing) : Prop := s.published.length < s.popped.length + s.slots

instance (s : AvailRing) : Decidable s.HasRoom := inferInstanceAs (Decidable (_ < _))

/-- `[gpa, gpa + n)` is clear of the index and the slots of the ring. -/
def ClearOfRing (q : VirtQueue) (gpa n : Nat) : Prop :=
  gpa + n ≤ q.availAddr.toNat + 2 ∨ q.slotAddr q.size.toNat ≤ gpa

instance (q : VirtQueue) (gpa n : Nat) : Decidable (ClearOfRing q gpa n) :=
  inferInstanceAs (Decidable (_ ∨ _))

/-- The heads taken once `pop` has run. -/
def taken (p : Profile) (s : AvailRing) : List UInt16 :=
  match ((DescriptorChain.takeHead p s.ram).run s.queue).1 with
  | .ok (some head) => s.popped ++ [head]
  | _ => s.popped

def driverStore (s : AvailRing) (head : UInt16) : AvailRing :=
  { s with
    ram := s.ram.put (s.queue.slotAddr s.drvSlot) (Pod.toBytes head)
    staged := some head }

def driverPublish (s : AvailRing) (head : UInt16) : AvailRing :=
  { s with
    ram := s.ram.put (s.queue.availAddr.toNat + 2) (Pod.toBytes (s.drvIdx + 1))
    drvIdx := s.drvIdx + 1
    staged := none
    published := s.published ++ [head] }

/-- One move, and what `pop` returned.  A driver's move that is not enabled does nothing. -/
def step (p : Profile) (s : AvailRing) :
    RingMove → Option (Result (Option DescriptorChain)) × AvailRing
  | .store head => if s.HasRoom then (none, s.driverStore head) else (none, s)
  | .publish =>
    match s.staged with
    | some head => (none, s.driverPublish head)
    | none => (none, s)
  | .elsewhere gpa data =>
    if ClearOfRing s.queue gpa data.length then (none, { s with ram := s.ram.put gpa data })
    else (none, s)
  | .pop =>
    let r := (DescriptorChain.pop p s.ram).run s.queue
    (some r.1, { s with queue := r.2, popped := s.taken p })

/-! ## Writes and the ring -/

variable {p : Profile} {ram : GuestRam} {q : VirtQueue} {gpa : Nat} {data : List UInt8}

/-- A write elsewhere changes no slot, -/
theorem ringSlot_put_apart {i : Nat}
    (h : q.slotAddr i + 2 ≤ gpa ∨ gpa + data.length ≤ q.slotAddr i) :
    q.ringSlot (ram.put gpa data) i = q.ringSlot ram i := by
  unfold VirtQueue.ringSlot
  rw [GuestRam.mem_put, window_overlay_disjoint h]

/-- and not the published index. -/
theorem availIdx_put_apart
    (h : q.availAddr.toNat + 4 ≤ gpa ∨ gpa + data.length ≤ q.availAddr.toNat + 2) :
    q.availIdx (ram.put gpa data) = q.availIdx ram := by
  unfold VirtQueue.availIdx
  rw [GuestRam.mem_put, window_overlay_disjoint h]

theorem ringSlot_put_clear (h : ClearOfRing q gpa data.length) {i : Nat} (hi : i < q.size.toNat) :
    q.ringSlot (ram.put gpa data) i = q.ringSlot ram i := by
  apply ringSlot_put_apart
  unfold ClearOfRing at h
  unfold VirtQueue.slotAddr availRingHdr at *
  omega

theorem availIdx_put_clear (h : ClearOfRing q gpa data.length) :
    q.availIdx (ram.put gpa data) = q.availIdx ram := by
  apply availIdx_put_apart
  unfold ClearOfRing VirtQueue.slotAddr availRingHdr at h
  omega

theorem ringSlot_put_self (i : Nat) (head : UInt16) :
    q.ringSlot (ram.put (q.slotAddr i) (Pod.toBytes head)) i = head :=
  ofBytes_window_overlay_self ram.mem (q.slotAddr i) head

theorem ringSlot_put_slot {i j : Nat} (h : i ≠ j) (head : UInt16) :
    q.ringSlot (ram.put (q.slotAddr j) (Pod.toBytes head)) i = q.ringSlot ram i := by
  apply ringSlot_put_apart
  unfold VirtQueue.slotAddr
  rw [Pod.length_toBytes, size_uint16]
  omega

theorem availIdx_put_slot (j : Nat) (head : UInt16) :
    q.availIdx (ram.put (q.slotAddr j) (Pod.toBytes head)) = q.availIdx ram := by
  apply availIdx_put_apart
  unfold VirtQueue.slotAddr availRingHdr
  omega

theorem availIdx_put_self (idx : UInt16) :
    q.availIdx (ram.put (q.availAddr.toNat + 2) (Pod.toBytes idx)) = idx :=
  ofBytes_window_overlay_self ram.mem (q.availAddr.toNat + 2) idx

theorem ringSlot_put_idx (i : Nat) (idx : UInt16) :
    q.ringSlot (ram.put (q.availAddr.toNat + 2) (Pod.toBytes idx)) i = q.ringSlot ram i := by
  apply ringSlot_put_apart
  unfold VirtQueue.slotAddr availRingHdr
  rw [Pod.length_toBytes, size_uint16]
  omega

/-! ## The invariant -/

/-- A queue the device may pop from: ready, of a size a split ring allows, its available
ring in guest RAM. -/
structure Serviceable (q : VirtQueue) (ram : GuestRam) : Prop where
  ready : q.ready = true
  size : ∃ k, k ≤ 15 ∧ q.size.toNat = 2 ^ k
  inside : q.RingInside ram

theorem Serviceable.pos (h : Serviceable q ram) : 0 < q.size.toNat := by
  obtain ⟨k, -, hk⟩ := h.size
  rw [hk]
  exact Nat.two_pow_pos k

theorem Serviceable.size_ne_zero (h : Serviceable q ram) : q.size ≠ 0 :=
  VirtQueue.size_ne_zero_iff.mpr h.pos

theorem Serviceable.le (h : Serviceable q ram) : q.size.toNat ≤ 2 ^ 15 := by
  obtain ⟨k, hk, heq⟩ := h.size
  rw [heq]
  exact Nat.pow_le_pow_right (by decide) hk

theorem Serviceable.dvd (h : Serviceable q ram) : q.size.toNat ∣ 2 ^ 16 := by
  obtain ⟨k, hk, heq⟩ := h.size
  rw [heq]
  exact Nat.pow_dvd_pow 2 (by omega)

/-- The state of a run whose indices started at `base`. -/
structure Linked (base : Nat) (s : AvailRing) : Prop where
  queue : Serviceable s.queue s.ram
  consumer : s.queue.lastAvailIdx.toNat = (base + s.popped.length) % 2 ^ 16
  producer : s.drvIdx.toNat = (base + s.published.length) % 2 ^ 16
  visible : s.queue.availIdx s.ram = s.drvIdx
  pending : Pending s.slots base s.popped.length s.published (s.queue.ringSlot s.ram)
  inOrder : s.popped = s.published.take s.popped.length
  staged : ∀ head, s.staged = some head →
    s.HasRoom ∧ s.queue.ringSlot s.ram s.drvSlot = head

theorem toNat_succ {i : UInt16} {m : Nat} (h : i.toNat = m % 2 ^ 16) :
    (i + 1).toNat = (m + 1) % 2 ^ 16 := by
  rw [UInt16.toNat_add, h]
  exact Nat.mod_add_mod m (2 ^ 16) 1

theorem linked_start (hq : Serviceable q ram) (hidx : q.availIdx ram = q.lastAvailIdx) :
    Linked q.lastAvailIdx.toNat (start ram q) := by
  have hlt := q.lastAvailIdx.toNat_lt
  refine ⟨hq, ?_, ?_, hidx, pending_refl _, rfl, fun head h => nomatch h⟩
  · exact (Nat.mod_eq_of_lt hlt).symm
  · exact (Nat.mod_eq_of_lt hlt).symm

section
variable {base : Nat} {s : AvailRing} (h : Linked base s)

include h

theorem Linked.drvSlot_eq : s.drvSlot = (base + s.published.length) % s.slots := by
  unfold drvSlot
  rw [h.producer]
  exact slot_of_wrapped h.queue.dvd _

theorem Linked.nextSlot_eq : s.queue.nextSlot = (base + s.popped.length) % s.slots := by
  unfold VirtQueue.nextSlot
  rw [h.consumer]
  exact slot_of_wrapped h.queue.dvd _

theorem Linked.drvSlot_lt : s.drvSlot < s.slots := Nat.mod_lt _ h.queue.pos

/-- The indices agree exactly when nothing waits. -/
theorem Linked.idle_iff :
    s.queue.availIdx s.ram = s.queue.lastAvailIdx ↔ s.popped.length = s.published.length := by
  have hle := h.pending.le
  have hroom := h.pending.room
  have hn : s.slots ≤ 2 ^ 15 := h.queue.le
  rw [h.visible, ← UInt16.toNat_inj, h.producer, h.consumer, @eq_comm _ (_ % _),
    wrapped_eq_iff (by omega) (by omega)]
  omega

/-! ## What each move keeps -/

theorem Linked.store (hroom : s.HasRoom) (head : UInt16) :
    Linked base (s.driverStore head) := by
  refine ⟨⟨h.queue.ready, h.queue.size, h.queue.inside⟩, h.consumer, h.producer, ?_, ?_,
    h.inOrder, ?_⟩
  · exact (availIdx_put_slot _ head).trans h.visible
  · refine h.pending.fill hroom ?_
    intro i _ hne
    rw [← h.drvSlot_eq] at hne
    exact ringSlot_put_slot hne head
  · intro head' heq
    cases heq
    exact ⟨hroom, ringSlot_put_self _ head⟩

theorem Linked.publish {head : UInt16} (hstaged : s.staged = some head) :
    Linked base (s.driverPublish head) := by
  obtain ⟨hroom, hslot⟩ := h.staged head hstaged
  refine ⟨⟨h.queue.ready, h.queue.size, h.queue.inside⟩, h.consumer, ?_, ?_, ?_, ?_,
    fun head h => nomatch h⟩
  · show (s.drvIdx + 1).toNat = (base + (s.published ++ [head]).length) % 2 ^ 16
    rw [List.length_append]
    exact toNat_succ h.producer
  · exact availIdx_put_self _
  · have hsame : s.queue.ringSlot (s.driverPublish head).ram = s.queue.ringSlot s.ram := by
      funext i
      exact ringSlot_put_idx i _
    show Pending s.slots base s.popped.length (s.published ++ [head])
      (s.queue.ringSlot (s.driverPublish head).ram)
    rw [hsame]
    exact h.pending.push hroom (by rw [← h.drvSlot_eq, hslot])
  · show s.popped = (s.published ++ [head]).take s.popped.length
    rw [List.take_append_of_le_length h.pending.le]
    exact h.inOrder

theorem Linked.elsewhere (hclear : ClearOfRing s.queue gpa data.length) :
    Linked base { s with ram := s.ram.put gpa data } := by
  refine ⟨⟨h.queue.ready, h.queue.size, h.queue.inside⟩, h.consumer, h.producer, ?_, ?_,
    h.inOrder, ?_⟩
  · exact (availIdx_put_clear hclear).trans h.visible
  · refine ⟨h.pending.le, h.pending.room, ?_⟩
    intro k hlo hk
    rw [h.pending.stored k hlo hk]
    exact congrArg some (ringSlot_put_clear hclear (Nat.mod_lt _ h.queue.pos)).symm
  · intro head hstaged
    obtain ⟨hroom, hslot⟩ := h.staged head hstaged
    exact ⟨hroom, (ringSlot_put_clear hclear h.drvSlot_lt).trans hslot⟩

/-- What taking a head does in a linked state. -/
theorem Linked.run_takeHead :
    s.popped.length = s.published.length ∧
        (DescriptorChain.takeHead p s.ram).run s.queue = (.ok none, s.queue) ∨
      ∃ head, s.published[s.popped.length]? = some head ∧
        (DescriptorChain.takeHead p s.ram).run s.queue = (.ok (some head), s.queue.advance) := by
  have hrun := DescriptorChain.run_takeHead (p := p) h.queue.ready h.queue.size_ne_zero
    h.queue.inside
  by_cases hidle : s.popped.length = s.published.length
  · rw [if_pos (h.idle_iff.mpr hidle)] at hrun
    exact Or.inl ⟨hidle, hrun⟩
  · have hle := h.pending.le
    rw [if_neg (fun heq => hidle (h.idle_iff.mp heq))] at hrun
    refine Or.inr ⟨_, ?_, hrun⟩
    rw [h.nextSlot_eq]
    exact h.pending.head (by omega)

theorem Linked.pop : Linked base (s.step p .pop).2 := by
  rcases h.run_takeHead (p := p) with ⟨-, hrun⟩ | ⟨head, hhead, hrun⟩
  · simp only [step, taken, hrun, DescriptorChain.run_pop_none hrun]
    exact h
  · have hlt := (List.getElem?_eq_some_iff.mp hhead).1
    simp only [step, taken, hrun, DescriptorChain.run_pop_some hrun]
    refine ⟨⟨h.queue.ready, h.queue.size, h.queue.inside⟩, ?_, h.producer, h.visible, ?_, ?_, ?_⟩
    · show (s.queue.lastAvailIdx + 1).toNat = (base + (s.popped ++ [head]).length) % 2 ^ 16
      rw [List.length_append]
      exact toNat_succ h.consumer
    · show Pending s.slots base (s.popped ++ [head]).length s.published (s.queue.ringSlot s.ram)
      rw [List.length_append]
      exact h.pending.pop hlt
    · show s.popped ++ [head] = s.published.take (s.popped ++ [head]).length
      rw [List.length_append, List.length_singleton, List.take_add_one, hhead, ← h.inOrder]
      rfl
    · intro head' hstaged
      obtain ⟨hroom, hslot⟩ := h.staged head' hstaged
      refine ⟨?_, hslot⟩
      show s.published.length < (s.popped ++ [head]).length + s.slots
      unfold HasRoom at hroom
      rw [List.length_append]
      omega

theorem Linked.step (move : RingMove) : Linked base (s.step p move).2 := by
  cases move with
  | store head =>
    show Linked base (if s.HasRoom then (none, s.driverStore head) else (none, s)).2
    by_cases hroom : s.HasRoom
    · rw [if_pos hroom]
      exact h.store hroom head
    · rw [if_neg hroom]
      exact h
  | publish =>
    cases hstaged : s.staged with
    | none =>
      simp only [AvailRing.step, hstaged]
      exact h
    | some head =>
      simp only [AvailRing.step, hstaged]
      exact h.publish hstaged
  | elsewhere gpa data =>
    show Linked base (if ClearOfRing s.queue gpa data.length then
      (none, { s with ram := s.ram.put gpa data }) else (none, s)).2
    by_cases hclear : ClearOfRing s.queue gpa data.length
    · rw [if_pos hclear]
      exact h.elsewhere hclear
    · rw [if_neg hclear]
      exact h
  | pop => exact h.pop

end

/-! ## Every run -/

theorem linked_run (hq : Serviceable q ram) (hidx : q.availIdx ram = q.lastAvailIdx)
    (moves : List RingMove) :
    Linked q.lastAvailIdx.toNat (Run.final (step p) (start ram q) moves) :=
  Run.final_invariant (fun _ move h => h.step move) (linked_start hq hidx) moves

/-- The heads taken are the first ones published, `last_avail_idx` has moved once for
each of them, and the next `pop` takes the first that waits, or none when none does. -/
structure TakesInOrder (p : Profile) (base : UInt16) (s : AvailRing) : Prop where
  inOrder : s.popped = s.published.take s.popped.length
  index : s.queue.lastAvailIdx.toNat = (base.toNat + s.popped.length) % 2 ^ 16
  idle : ((DescriptorChain.pop p s.ram).run s.queue).1 = .ok none ↔ s.popped = s.published
  next : s.popped ≠ s.published → ∃ head, s.published[s.popped.length]? = some head ∧
    s.taken p = s.popped ++ [head] ∧
    ((DescriptorChain.pop p s.ram).run s.queue).2 = s.queue.advance ∧
    ∀ c, ((DescriptorChain.pop p s.ram).run s.queue).1 = .ok (some c) → c.headIndex = head

theorem Linked.takesInOrder {base : UInt16} {s : AvailRing} (h : Linked base.toNat s) :
    TakesInOrder p base s := by
  have hall : s.popped = s.published ↔ s.popped.length = s.published.length := by
    constructor
    · intro heq
      rw [heq]
    · intro heq
      rw [h.inOrder, heq, List.take_length]
  rcases h.run_takeHead (p := p) with ⟨hidle, hrun⟩ | ⟨head, hhead, hrun⟩
  · refine ⟨h.inOrder, h.consumer, ?_, fun hne => absurd (hall.mpr hidle) hne⟩
    rw [DescriptorChain.run_pop_none hrun, hall]
    exact iff_of_true rfl hidle
  · have hlt := (List.getElem?_eq_some_iff.mp hhead).1
    have hpop := DescriptorChain.run_pop_some hrun
    refine ⟨h.inOrder, h.consumer, ?_, fun _ => ⟨head, hhead, ?_, by rw [hpop], ?_⟩⟩
    · rw [hpop, hall]
      refine iff_of_false ?_ (by omega)
      intro heq
      obtain ⟨c, -, hc⟩ := Outcome.map_eq_ok.mp heq
      cases hc
    · unfold taken
      rw [hrun]
    · intro c heq
      rw [hpop] at heq
      obtain ⟨c', hwalk, hc⟩ := Outcome.map_eq_ok.mp heq
      cases hc
      exact (DescriptorChain.walk_eq_ok _ _ _ hwalk).1

/-- **First in, first out, each once.**  In every interleaving of the driver's stores,
guest writes elsewhere and pops, however often the two indices wrap, `pop` takes the
published heads in order. -/
theorem pop_in_order (p : Profile) (ram : GuestRam) (q : VirtQueue) (hq : Serviceable q ram)
    (hidx : q.availIdx ram = q.lastAvailIdx) (moves : List RingMove) :
    TakesInOrder p q.lastAvailIdx (Run.final (step p) (start ram q) moves) :=
  (linked_run hq hidx moves).takesInOrder

/-- A queue of four entries whose indices are about to wrap. -/
def wrapQueue : VirtQueue := ⟨8, 4, true, 0x1000, 0x2000, 0x3000, 65535⟩

def wrapRam : GuestRam :=
  GuestRam.put ⟨0x10000, fun _ => 0, by decide⟩ 0x2002 (Pod.toBytes (65535 : UInt16))

theorem pop_in_order_wrap :
    TakesInOrder .debug 65535 (Run.final (step .debug) (start wrapRam wrapQueue)
      [.store 3, .publish, .store 1, .publish, .pop, .elsewhere 0x1000 [7], .pop, .pop]) :=
  pop_in_order .debug wrapRam wrapQueue ⟨rfl, ⟨2, by decide, rfl⟩, by decide⟩
    (availIdx_put_self 65535) _

end AvailRing
end HyperPod
