import HyperPod.Device.AvailRing
import HyperPod.Device.ChainWalk

/-!
# Descriptor chains on their way to the device

`AvailRing` says in which order heads are taken, `ChainWalk` what one walk finds in a RAM
that stands still.  `ChainRing` puts the two together: the driver describes chains in the
table, offers and publishes them, and goes on writing to RAM between the pops.  It keeps
off the ring and off the descriptors of the chains that are still to be taken, and nothing
else.  In every run no `pop` fails, and the device gets the published chains in order, each
with the descriptors that it was offered with (`chains_handed_over`).
-/

namespace HyperPod

open Machine Bytes LinkWalk AvailRing

/-- A chain that the driver offers: its head, and its descriptors with their indices. -/
structure Offer where
  head : UInt16
  walk : List (UInt16 × Descriptor)
deriving Repr, DecidableEq

/-- The chain as the device is to get it. -/
def Offer.chain (o : Offer) : DescriptorChain := ⟨o.head, o.walk.map Prod.snd⟩

structure ChainRing where
  ring : AvailRing
  /-- the chain whose head is in the driver's slot, until it is published -/
  offered : Option Offer
  published : List Offer
  delivered : List DescriptorChain

inductive ChainMove where
  /-- the driver stores the head of a chain that the table holds -/
  | offer (head : UInt16)
  /-- the driver stores the next index -/
  | publish
  /-- the guest writes where it may -/
  | write (gpa : Nat) (data : List UInt8)
  | pop

/-- The descriptor table lies clear of the index and the slots of the available ring. -/
def TableApart (q : VirtQueue) : Prop :=
  ClearOfRing q q.descAddr.toNat (q.size.toNat * descSize)

instance (q : VirtQueue) : Decidable (TableApart q) := inferInstanceAs (Decidable (ClearOfRing ..))

/-- `[gpa, gpa + n)` is clear of a descriptor. -/
def ClearOfDescriptor (q : VirtQueue) (idx : UInt16) (gpa n : Nat) : Prop :=
  q.descriptorGpa idx + descSize ≤ gpa ∨ gpa + n ≤ q.descriptorGpa idx

instance (q : VirtQueue) (idx : UInt16) (gpa n : Nat) : Decidable (ClearOfDescriptor q idx gpa n) :=
  inferInstanceAs (Decidable (_ ∨ _))

namespace ChainRing

def start (ram : GuestRam) (queue : VirtQueue) : ChainRing :=
  ⟨AvailRing.start ram queue, none, [], []⟩

/-- The chains that are still to be taken. -/
def inUse (s : ChainRing) : List Offer :=
  s.published.drop s.delivered.length ++ s.offered.toList

def MayWrite (s : ChainRing) (gpa n : Nat) : Prop :=
  ClearOfRing s.ring.queue gpa n ∧
    ∀ o ∈ s.inUse, ∀ e ∈ o.walk, ClearOfDescriptor s.ring.queue e.1 gpa n

instance (s : ChainRing) (gpa n : Nat) : Decidable (s.MayWrite gpa n) :=
  inferInstanceAs (Decidable (_ ∧ _))

/-- The walk from a head through the table as it is. -/
def described (s : ChainRing) (head : UInt16) : Option (List (UInt16 × Descriptor)) :=
  follow (s.ring.queue.table s.ring.ram) s.ring.queue.size.toNat head

def driverOffer (s : ChainRing) (o : Offer) : ChainRing :=
  { s with ring := s.ring.driverStore o.head, offered := some o }

def driverPublish (s : ChainRing) (o : Offer) : ChainRing :=
  { s with
    ring := s.ring.driverPublish o.head
    offered := none
    published := s.published ++ [o] }

def guestWrite (s : ChainRing) (gpa : Nat) (data : List UInt8) : ChainRing :=
  { s with ring := { s.ring with ram := s.ring.ram.put gpa data } }

/-- The chains delivered once `pop` has answered. -/
def received (s : ChainRing) : Option (Result (Option DescriptorChain)) → List DescriptorChain
  | some (.ok (some c)) => s.delivered ++ [c]
  | _ => s.delivered

/-- One move, and what `pop` returned.  A move of the guest that is not enabled does
nothing. -/
def step (p : Profile) (s : ChainRing) :
    ChainMove → Option (Result (Option DescriptorChain)) × ChainRing
  | .offer head =>
    match s.described head with
    | some walk => if s.ring.HasRoom then (none, s.driverOffer ⟨head, walk⟩) else (none, s)
    | none => (none, s)
  | .publish =>
    match s.offered with
    | some o => (none, s.driverPublish o)
    | none => (none, s)
  | .write gpa data =>
    if s.MayWrite gpa data.length then (none, s.guestWrite gpa data) else (none, s)
  | .pop =>
    let r := s.ring.step p .pop
    (r.1, { s with ring := r.2, delivered := s.received r.1 })

end ChainRing

/-! ## Writes and the table -/

variable {p : Profile} {ram : GuestRam} {q : VirtQueue} {gpa : Nat} {data : List UInt8}
  {idx : UInt16}

theorem descriptorAt_put_clear (h : ClearOfDescriptor q idx gpa data.length) :
    VirtQueue.descriptorAt (ram.put gpa data) (q.descriptorGpa idx) =
      VirtQueue.descriptorAt ram (q.descriptorGpa idx) := by
  unfold ClearOfDescriptor descSize at h
  unfold VirtQueue.descriptorAt
  rw [GuestRam.mem_put, window_overlay_disjoint (by omega), window_overlay_disjoint (by omega),
    window_overlay_disjoint (by omega), window_overlay_disjoint (by omega)]

theorem table_put_clear (h : ClearOfDescriptor q idx gpa data.length) :
    q.table (ram.put gpa data) idx = q.table ram idx := by
  unfold VirtQueue.table
  rw [descriptorAt_put_clear h, GuestRam.size_put]

/-- A walk survives a write that is clear of its descriptors. -/
theorem walk_put_clear {head : UInt16} {l : List (UInt16 × Descriptor)}
    (hw : Walk (q.table ram) head l)
    (h : ∀ e ∈ l, ClearOfDescriptor q e.1 gpa data.length) :
    Walk (q.table (ram.put gpa data)) head l :=
  hw.congr fun e he => table_put_clear (h e he)

/-- What is inside the ring is clear of the descriptors in the table. -/
theorem clearOfDescriptor_of_ring {n : Nat} (hapart : TableApart q)
    (hidx : idx.toNat < q.size.toNat) (hlo : q.availAddr.toNat + 2 ≤ gpa)
    (hhi : gpa + n ≤ q.slotAddr q.size.toNat) : ClearOfDescriptor q idx gpa n := by
  unfold TableApart ClearOfRing at hapart
  unfold ClearOfDescriptor VirtQueue.descriptorGpa descSize at *
  omega

/-- A write inside the ring keeps every walk through the table. -/
theorem walk_put_ring {head : UInt16} {l : List (UInt16 × Descriptor)} (hapart : TableApart q)
    (hw : Walk (q.table ram) head l) (hlo : q.availAddr.toNat + 2 ≤ gpa)
    (hhi : gpa + data.length ≤ q.slotAddr q.size.toNat) :
    Walk (q.table (ram.put gpa data)) head l := by
  apply walk_put_clear hw
  intro e he
  exact clearOfDescriptor_of_ring hapart (VirtQueue.toNat_lt_of_table (hw.isSome_of_mem he)) hlo hhi

namespace ChainRing

/-! ## The invariant -/

/-- The state of a run whose indices started at `base`: the ring is in order, and each chain
that is still to be taken is a walk of the table. -/
structure Intact (base : Nat) (s : ChainRing) : Prop where
  linked : Linked base s.ring
  apart : TableApart s.ring.queue
  heads : s.ring.published = s.published.map Offer.head
  staged : s.ring.staged = s.offered.map Offer.head
  taken : s.ring.popped.length = s.delivered.length
  inOrder : s.delivered = (s.published.take s.delivered.length).map Offer.chain
  walks : ∀ o ∈ s.inUse, Walk (s.ring.queue.table s.ring.ram) o.head o.walk

variable {base : Nat} {s : ChainRing} {o : Offer} {head : UInt16}

theorem described_eq_some {l : List (UInt16 × Descriptor)} :
    s.described head = some l ↔ Walk (s.ring.queue.table s.ring.ram) head l :=
  follow_eq_some_of_lt VirtQueue.toNat_injective fun _ => VirtQueue.toNat_lt_of_table

theorem intact_start (hq : Serviceable q ram) (hidx : q.availIdx ram = q.lastAvailIdx)
    (hapart : TableApart q) : Intact q.lastAvailIdx.toNat (start ram q) := by
  refine ⟨linked_start hq hidx, hapart, rfl, rfl, rfl, rfl, ?_⟩
  intro o ho
  cases ho

section

variable (h : Intact base s)

include h

theorem Intact.delivered_le : s.delivered.length ≤ s.published.length := by
  have hle := h.linked.pending.le
  rw [h.heads, List.length_map, h.taken] at hle
  exact hle

/-- Publishing changes nothing of what is still to be taken. -/
theorem Intact.inUse_publish (hoffered : s.offered = some o) :
    (s.driverPublish o).inUse = s.inUse := by
  show (s.published ++ [o]).drop s.delivered.length ++ [] = s.published.drop s.delivered.length ++
    s.offered.toList
  rw [hoffered, List.drop_append_of_le_length h.delivered_le, List.append_nil]
  rfl

/-- The slot that the driver stores to lies in the ring. -/
theorem Intact.drvSlot_inside : s.ring.queue.availAddr.toNat + 2 ≤
      s.ring.queue.slotAddr s.ring.drvSlot ∧
    s.ring.queue.slotAddr s.ring.drvSlot + 2 ≤
      s.ring.queue.slotAddr s.ring.queue.size.toNat := by
  have hlt : s.ring.drvSlot < s.ring.queue.size.toNat := h.linked.drvSlot_lt
  unfold VirtQueue.slotAddr availRingHdr
  omega

/-! ## What each move keeps -/

theorem Intact.offer (hroom : s.ring.HasRoom)
    (hwalk : Walk (s.ring.queue.table s.ring.ram) o.head o.walk) :
    Intact base (s.driverOffer o) := by
  obtain ⟨hlo, hhi⟩ := h.drvSlot_inside
  refine ⟨h.linked.store hroom o.head, h.apart, h.heads, rfl, h.taken, h.inOrder, ?_⟩
  intro o' ho'
  have hold : Walk (s.ring.queue.table s.ring.ram) o'.head o'.walk := by
    rcases List.mem_append.mp ho' with hwaits | hnew
    · exact h.walks o' (List.mem_append_left _ hwaits)
    · obtain rfl := List.mem_singleton.mp hnew
      exact hwalk
  exact walk_put_ring h.apart hold hlo hhi

theorem Intact.publish (hoffered : s.offered = some o) : Intact base (s.driverPublish o) := by
  have hstaged : s.ring.staged = some o.head := by
    rw [h.staged, hoffered]
    rfl
  refine ⟨h.linked.publish hstaged, h.apart, ?_, rfl, h.taken, ?_, ?_⟩
  · show s.ring.published ++ [o.head] = (s.published ++ [o]).map Offer.head
    rw [h.heads, List.map_append]
    rfl
  · show s.delivered = ((s.published ++ [o]).take s.delivered.length).map Offer.chain
    rw [List.take_append_of_le_length h.delivered_le]
    exact h.inOrder
  · intro o' ho'
    rw [h.inUse_publish hoffered] at ho'
    apply walk_put_ring h.apart (h.walks o' ho')
    · exact Nat.le_refl _
    · show s.ring.queue.availAddr.toNat + 2 + 2 ≤ s.ring.queue.slotAddr s.ring.queue.size.toNat
      unfold VirtQueue.slotAddr availRingHdr
      omega

theorem Intact.write (hmay : s.MayWrite gpa data.length) : Intact base (s.guestWrite gpa data) :=
  ⟨h.linked.elsewhere hmay.1, h.apart, h.heads, h.staged, h.taken, h.inOrder,
    fun o ho => walk_put_clear (h.walks o ho) (hmay.2 o ho)⟩

/-- **What `pop` returns**: the first chain that waits, as it was offered, or none. -/
theorem Intact.pop_cases (p : Profile) :
    s.published[s.delivered.length]? = none ∧ s.ring.step p .pop = (some (.ok none), s.ring) ∨
      ∃ o, s.published[s.delivered.length]? = some o ∧
        s.ring.step p .pop = (some (.ok (some o.chain)),
          { s.ring with queue := s.ring.queue.advance, popped := s.ring.popped ++ [o.head] }) := by
  rcases h.linked.run_takeHead (p := p) with ⟨hidle, hrun⟩ | ⟨head, hhead, hrun⟩
  · left
    rw [h.heads, List.length_map, h.taken] at hidle
    refine ⟨List.getElem?_eq_none_iff.mpr (Nat.le_of_eq hidle.symm), ?_⟩
    simp only [AvailRing.step, AvailRing.taken, hrun, DescriptorChain.run_pop_none hrun]
  · right
    rw [h.heads, h.taken, List.getElem?_map] at hhead
    obtain ⟨o, ho, rfl⟩ := Option.map_eq_some_iff.mp hhead
    have hwaits : o ∈ s.published.drop s.delivered.length :=
      List.mem_of_getElem? (i := 0) (by rw [List.getElem?_drop]; exact ho)
    have hfollow := described_eq_some.mpr (h.walks o (List.mem_append_left _ hwaits))
    have hwalk : DescriptorChain.walk p s.ring.ram s.ring.queue.advance o.head
        s.ring.queue.advance.size.toNat o.head [] = .ok o.chain :=
      DescriptorChain.walk_of_follow_eq_some (q := s.ring.queue.advance) hfollow []
    refine ⟨o, ho, ?_⟩
    simp only [AvailRing.step, AvailRing.taken, hrun, DescriptorChain.run_pop_some hrun, hwalk]
    rfl

theorem Intact.pop (p : Profile) : Intact base (s.step p .pop).2 := by
  have hlinked := h.linked.pop (p := p)
  rcases h.pop_cases p with ⟨-, hstep⟩ | ⟨o, ho, hstep⟩
  · simp only [ChainRing.step, hstep]
    exact h
  · rw [hstep] at hlinked
    simp only [ChainRing.step, hstep]
    have htake : s.published.take (s.delivered ++ [o.chain]).length =
        s.published.take s.delivered.length ++ [o] := by
      rw [List.length_append, List.length_singleton, List.take_add_one, ho]
      rfl
    refine ⟨hlinked, h.apart, h.heads, h.staged, ?_, ?_, ?_⟩
    · show (s.ring.popped ++ [o.head]).length = (s.delivered ++ [o.chain]).length
      rw [List.length_append, List.length_append, h.taken]
      rfl
    · show s.delivered ++ [o.chain] =
        (s.published.take (s.delivered ++ [o.chain]).length).map Offer.chain
      rw [htake, List.map_append, ← h.inOrder]
      rfl
    · intro o' ho'
      refine h.walks o' ?_
      rcases List.mem_append.mp ho' with hwaits | hoffered
      · have hle : s.delivered.length ≤ (s.delivered ++ [o.chain]).length := by
          rw [List.length_append]
          omega
        exact List.mem_append_left _ (List.drop_subset_drop_left s.published hle hwaits)
      · exact List.mem_append_right _ hoffered

theorem Intact.step (p : Profile) (move : ChainMove) : Intact base (s.step p move).2 := by
  cases move with
  | offer head =>
    cases hdescribed : s.described head with
    | none =>
      simp only [ChainRing.step, hdescribed]
      exact h
    | some walk =>
      by_cases hroom : s.ring.HasRoom
      · simp only [ChainRing.step, hdescribed, if_pos hroom]
        exact h.offer hroom (described_eq_some.mp hdescribed)
      · simp only [ChainRing.step, hdescribed, if_neg hroom]
        exact h
  | publish =>
    cases hoffered : s.offered with
    | none =>
      simp only [ChainRing.step, hoffered]
      exact h
    | some o =>
      simp only [ChainRing.step, hoffered]
      exact h.publish hoffered
  | write gpa data =>
    by_cases hmay : s.MayWrite gpa data.length
    · simp only [ChainRing.step, if_pos hmay]
      exact h.write hmay
    · simp only [ChainRing.step, if_neg hmay]
      exact h
  | pop => exact h.pop p

end

/-! ## Every run -/

/-- What was delivered is what was published first, and the next `pop` returns the chain
after it, or none when there is none. -/
structure HandsOver (p : Profile) (s : ChainRing) : Prop where
  delivered : s.delivered = (s.published.take s.delivered.length).map Offer.chain
  next : ((DescriptorChain.pop p s.ring.ram).run s.ring.queue).1 =
    .ok (s.published[s.delivered.length]?.map Offer.chain)

theorem Intact.handsOver (h : Intact base s) (p : Profile) : HandsOver p s := by
  refine ⟨h.inOrder, ?_⟩
  have hanswer : (s.ring.step p .pop).1 =
      some ((DescriptorChain.pop p s.ring.ram).run s.ring.queue).1 := rfl
  apply Option.some.inj
  rw [← hanswer]
  rcases h.pop_cases p with ⟨hnone, hstep⟩ | ⟨o, ho, hstep⟩
  · rw [hstep, hnone]
    rfl
  · rw [hstep, ho]
    rfl

/-- **Chains arrive whole, in order, each once.**  In every interleaving of the driver, of
guest writes that keep off the ring and off what waits, and of pops, `pop` never fails and
returns the published chains in order, with the descriptors that they were offered with. -/
theorem chains_handed_over (p : Profile) (ram : GuestRam) (q : VirtQueue)
    (hq : Serviceable q ram) (hidx : q.availIdx ram = q.lastAvailIdx) (hapart : TableApart q)
    (moves : List ChainMove) : HandsOver p (Run.final (step p) (start ram q) moves) :=
  (Run.final_invariant (fun _ move h => h.step p move)
    (intact_start hq hidx hapart) moves).handsOver p

/-- A chain of two descriptors and one of one, over indices that wrap; the first is described
anew once it is taken. -/
def twoChains : List ChainMove :=
  [.write 0x1000 [7], .write 0x100c [1, 0, 1, 0], .offer 0, .publish, .write 0x100c [0],
    .write 0x1020 [9], .offer 2, .publish, .pop, .write 0x100c [0], .pop, .pop]

theorem chains_handed_over_two :
    HandsOver .debug (Run.final (step .debug) (start wrapRam wrapQueue) twoChains) :=
  chains_handed_over .debug wrapRam wrapQueue ⟨rfl, ⟨2, by decide, rfl⟩, by decide⟩
    (availIdx_put_self 65535) (by decide) twoChains

/-- The write to a descriptor that waits was not enabled, the one after the pop was. -/
example : (Run.final (step .debug) (start wrapRam wrapQueue) twoChains).delivered =
    [⟨0, [⟨7, 0, 1, 1⟩, ⟨0, 0, 0, 0⟩]⟩, ⟨2, [⟨9, 0, 0, 0⟩]⟩] := by
  decide

end ChainRing
end HyperPod
