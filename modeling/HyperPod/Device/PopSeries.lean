import HyperPod.Device.ChainWalk
import HyperPod.Lib.Run

/-!
# Series of pops over an unchanged memory

`pop` moves `last_avail_idx` between its two reads and the walk of the chain
(`Popped`).  A failed `pop` has therefore either changed nothing or consumed one head
(`queue_of_pop_err`).

The index the guest published is compared for equality only, so a series of pops
hands out as many chains as it is ahead of `last_avail_idx`, modulo `2 ^ 16`
(`chains_le_pending`), whatever the size of the queue.
-/

namespace HyperPod

open Machine Bytes

namespace DescriptorChain

variable {p : Profile} {ram : GuestRam} {q q' : VirtQueue}

/-- Everything a `pop` can do: the answer and the queue after it. -/
inductive Popped (p : Profile) (ram : GuestRam) (q : VirtQueue) :
    Result (Option DescriptorChain) × VirtQueue → Prop where
  | idle (h : q.ready = false ∨ q.size = 0 ∨ readAvailIdx p ram q = .ok q.lastAvailIdx) :
    Popped p ram q (.ok none, q)
  | unread (e : Error) (h : readAvailIdx p ram q = .err e ∨ readHead p ram q = .err e) :
    Popped p ram q (.err e, q)
  | panicked : Popped p ram q (.panic, q)
  /-- the head is consumed before its chain is walked -/
  | taken (idx head : UInt16) (hidx : readAvailIdx p ram q = .ok idx)
    (hnew : idx ≠ q.lastAvailIdx) (hhead : readHead p ram q = .ok head) :
    Popped p ram q ((walk p ram q.advance head q.size.toNat head []).map some, q.advance)

theorem popped (p : Profile) (ram : GuestRam) (q : VirtQueue) :
    Popped p ram q ((pop p ram).run q) := by
  by_cases hidle : q.ready = false ∨ q.size = 0
  · rw [run_pop_none (run_takeHead_idle hidle)]
    exact .idle (by tauto)
  · obtain ⟨hready, hsize⟩ := not_or.mp hidle
    have htake := run_takeHead_eq p ram
      (Bool.eq_true_of_not_eq_false hready) hsize
    cases hidx : readAvailIdx p ram q with
    | ok idx =>
      by_cases heq : idx = q.lastAvailIdx
      · simp only [hidx, if_pos heq] at htake
        rw [run_pop_none htake]
        exact .idle (Or.inr (Or.inr (by rw [hidx, heq])))
      · simp only [hidx, if_neg heq] at htake
        cases hhead : readHead p ram q with
        | ok head =>
          simp only [hhead] at htake
          rw [run_pop_some htake]
          exact .taken idx head hidx heq hhead
        | err e =>
          simp only [hhead] at htake
          rw [run_pop_err htake]
          exact .unread e (Or.inr hhead)
        | panic =>
          simp only [hhead] at htake
          rw [run_pop_panic htake]
          exact .panicked
    | err e =>
      simp only [hidx] at htake
      rw [run_pop_err htake]
      exact .unread e (Or.inl hidx)
    | panic =>
      simp only [hidx] at htake
      rw [run_pop_panic htake]
      exact .panicked

/-! ## A failed pop -/

/-- **What a failed `pop` leaves.**  Where the published index or the head could not be
read, the queue as it was; where a head was pending and its walk failed, the queue past it. -/
theorem queue_of_pop_err (p : Profile) (ram : GuestRam) (q q' : VirtQueue) (e : Error)
    (h : (pop p ram).run q = (.err e, q')) :
    (readAvailIdx p ram q = .err e ∨ readHead p ram q = .err e) ∧ q' = q ∨
      ∃ idx head, readAvailIdx p ram q = .ok idx ∧ idx ≠ q.lastAvailIdx ∧
        readHead p ram q = .ok head ∧ walk p ram q.advance head q.size.toNat head [] = .err e ∧
        q' = { q with lastAvailIdx := q.lastAvailIdx + 1 } := by
  have hp := popped p ram q
  rw [h] at hp
  generalize hr : ((.err e, q') : Result (Option DescriptorChain) × VirtQueue) = r at hp
  cases hp with
  | idle _ => cases hr
  | unread e' hread =>
    cases hr
    exact Or.inl ⟨hread, rfl⟩
  | panicked => cases hr
  | taken idx head hidx hnew hhead =>
    obtain ⟨hwalk, hq⟩ := Prod.mk.inj hr
    exact Or.inr ⟨idx, head, hidx, hnew, hhead, Outcome.map_eq_err.mp hwalk.symm, hq⟩

/-- Head 5 in a queue of two descriptors: it is read, and consumed. -/
theorem queue_of_pop_err_bad_head :
    let ram := ramOf [(0x2002, 1), (0x2004, 5)]
    let q : VirtQueue := ⟨2, 2, true, 0x1000, 0x2000, 0x3000, 0⟩
    ∃ e q', (readAvailIdx .debug ram q = .err e ∨ readHead .debug ram q = .err e) ∧ q' = q ∨
      ∃ idx head, readAvailIdx .debug ram q = .ok idx ∧ idx ≠ q.lastAvailIdx ∧
        readHead .debug ram q = .ok head ∧
        walk .debug ram q.advance head q.size.toNat head [] = .err e ∧
        q' = { q with lastAvailIdx := q.lastAvailIdx + 1 } :=
  ⟨_, _, queue_of_pop_err .debug (ramOf [(0x2002, 1), (0x2004, 5)])
    ⟨2, 2, true, 0x1000, 0x2000, 0x3000, 0⟩ _ _ rfl⟩

/-- A head out of range: the pop fails and the head is gone. -/
theorem bad_head_is_consumed :
    ¬ ∀ (p : Profile) (ram : GuestRam) (q q' : VirtQueue) (e : Error),
      (pop p ram).run q = (.err e, q') → q' = q := by
  intro h
  have hpop : ∃ e, (pop .debug (ramOf [(0x2002, 1), (0x2004, 5)])).run
      ⟨2, 2, true, 0x1000, 0x2000, 0x3000, 0⟩ =
        (.err e, ⟨2, 2, true, 0x1000, 0x2000, 0x3000, 1⟩) := ⟨_, rfl⟩
  obtain ⟨e, he⟩ := hpop
  have heq := h _ _ _ _ _ he
  exact absurd heq (by decide)

/-! ## A series of pops -/

/-- One of a series of pops. -/
def popCall (p : Profile) (ram : GuestRam) (q : VirtQueue) (_ : Unit) :
    Result (Option DescriptorChain) × VirtQueue :=
  (pop p ram).run q

/-- The answers of `k` pops, one after the other. -/
def popSeries (p : Profile) (ram : GuestRam) (q : VirtQueue) (k : Nat) :
    List (Result (Option DescriptorChain)) :=
  Run.answers (popCall p ram) q (List.replicate k ())

def isChain : Result (Option DescriptorChain) → Bool
  | .ok (some _) => true
  | _ => false

def isOk : Result (Option DescriptorChain) → Bool
  | .ok _ => true
  | _ => false

/-- A walk that does not fail is a chain handed out. -/
theorem isOk_map_some (r : Result DescriptorChain) : isOk (r.map some) = isChain (r.map some) := by
  cases r <;> rfl

/-- How far the published index is ahead of `last_avail_idx`, modulo `2 ^ 16`. -/
def pending (p : Profile) (ram : GuestRam) (q : VirtQueue) : Nat :=
  match readAvailIdx p ram q with
  | .ok idx => (idx - q.lastAvailIdx).toNat
  | _ => 0

theorem pending_of_read {idx : UInt16} (h : readAvailIdx p ram q = .ok idx) :
    pending p ram q = (idx - q.lastAvailIdx).toNat := by
  unfold pending
  rw [h]

/-- Consuming a head brings the index one closer. -/
theorem pending_advance {idx : UInt16} (h : readAvailIdx p ram q = .ok idx)
    (hnew : idx ≠ q.lastAvailIdx) : pending p ram q.advance + 1 = pending p ram q := by
  have hadv : readAvailIdx p ram q.advance = .ok idx := h
  rw [pending_of_read h, pending_of_read hadv]
  show (idx - (q.lastAvailIdx + 1)).toNat + 1 = (idx - q.lastAvailIdx).toNat
  have hsucc : idx - q.lastAvailIdx = idx - (q.lastAvailIdx + 1) + 1 := by grind
  have hne : (idx - q.lastAvailIdx).toNat ≠ 0 := by
    intro hz
    have hzero : idx - q.lastAvailIdx = 0 := UInt16.toNat_inj.mp hz
    exact hnew (by grind)
  have hlt := (idx - (q.lastAvailIdx + 1)).toNat_lt
  rw [hsucc, UInt16.toNat_add] at hne ⊢
  have hone : (1 : UInt16).toNat = 1 := rfl
  omega

/-- **One pop**: it hands out nothing and keeps the queue, or it consumes one pending entry. -/
theorem pop_keeps_or_consumes (p : Profile) (ram : GuestRam) (q : VirtQueue) :
    isChain ((pop p ram).run q).1 = false ∧ ((pop p ram).run q).2 = q ∨
      ((pop p ram).run q).2 = q.advance ∧ pending p ram q.advance + 1 = pending p ram q := by
  have hp := popped p ram q
  generalize (pop p ram).run q = r at hp ⊢
  cases hp with
  | idle _ => exact Or.inl ⟨rfl, rfl⟩
  | unread e _ => exact Or.inl ⟨rfl, rfl⟩
  | panicked => exact Or.inl ⟨rfl, rfl⟩
  | taken idx head hidx hnew _ => exact Or.inr ⟨rfl, pending_advance hidx hnew⟩

/-- One pop that does not fail: it hands out a chain as long as entries are pending. -/
theorem pop_of_isOk (hready : q.ready = true) (hsize : q.size ≠ 0)
    (hok : isOk ((pop p ram).run q).1 = true) :
    pending p ram q = 0 ∧ (pop p ram).run q = (.ok none, q) ∨
      isChain ((pop p ram).run q).1 = true ∧ ((pop p ram).run q).2 = q.advance ∧
        pending p ram q.advance + 1 = pending p ram q := by
  have hp := popped p ram q
  generalize (pop p ram).run q = r at hp hok ⊢
  cases hp with
  | idle h =>
    refine Or.inl ⟨?_, rfl⟩
    rcases h with hfalse | hzero | hsame
    · rw [hready] at hfalse
      cases hfalse
    · exact absurd hzero hsize
    · rw [pending_of_read hsame, UInt16.sub_self]
      rfl
  | unread e _ => cases hok
  | panicked => cases hok
  | taken idx head hidx hnew _ =>
    rw [isOk_map_some] at hok
    exact Or.inr ⟨hok, rfl, pending_advance hidx hnew⟩

theorem popSeries_succ (k : Nat) :
    popSeries p ram q (k + 1) =
      ((pop p ram).run q).1 :: popSeries p ram ((pop p ram).run q).2 k := rfl

/-- In any series of pops, whatever fails in it, chains are paid for by pending entries. -/
theorem countP_isChain_le (p : Profile) (ram : GuestRam) (q : VirtQueue) (k : Nat) :
    (popSeries p ram q k).countP isChain ≤ pending p ram q := by
  induction k generalizing q with
  | zero => exact Nat.zero_le _
  | succ k ih =>
    rw [popSeries_succ, List.countP_cons]
    have hrest := ih ((pop p ram).run q).2
    rcases pop_keeps_or_consumes p ram q with ⟨hno, hsame⟩ | ⟨hadv, hpend⟩
    · rw [hsame] at hrest
      rw [hno, hsame]
      exact hrest
    · rw [hadv] at hrest
      rw [hadv]
      split <;> omega

/-- Without a failure, a series of pops hands out every pending entry. -/
theorem countP_isChain_eq (hready : q.ready = true) (hsize : q.size ≠ 0) (k : Nat)
    (hok : ∀ r ∈ popSeries p ram q k, isOk r = true) :
    (popSeries p ram q k).countP isChain = min k (pending p ram q) := by
  induction k generalizing q with
  | zero => exact (Nat.zero_min _).symm
  | succ k ih =>
    rw [popSeries_succ] at hok
    rw [List.forall_mem_cons] at hok
    rw [popSeries_succ, List.countP_cons]
    rcases pop_of_isOk hready hsize hok.1 with ⟨hzero, hpop⟩ | ⟨hchain, hadv, hpend⟩
    · rw [hpop] at hok ⊢
      rw [ih hready hsize hok.2, hzero, Nat.min_zero, Nat.min_zero]
      rfl
    · rw [hadv] at hok ⊢
      rw [ih (q := q.advance) hready hsize hok.2, if_pos hchain]
      omega

/-- **A series of pops hands out at most the pending entries**: no more than the queue has
descriptors as long as the guest publishes no more than those; and exactly the pending
ones when no pop fails, however many they are. -/
theorem chains_le_pending (p : Profile) (ram : GuestRam) (q : VirtQueue)
    (hready : q.ready = true) (hsize : 1 ≤ q.size.toNat) (k : Nat) :
    (popSeries p ram q k).countP isChain ≤ pending p ram q ∧
      (pending p ram q ≤ q.size.toNat → (popSeries p ram q k).countP isChain ≤ q.size.toNat) ∧
      ((∀ r ∈ popSeries p ram q k, isOk r = true) →
        (popSeries p ram q k).countP isChain = min k (pending p ram q)) := by
  have hsize0 : q.size ≠ 0 := VirtQueue.size_ne_zero_iff.mpr hsize
  have hle := countP_isChain_le p ram q k
  exact ⟨hle, fun hn => Nat.le_trans hle hn, countP_isChain_eq hready hsize0 k⟩

/-- A queue of four with three published entries: three chains in ten pops. -/
theorem chains_le_pending_three :
    (popSeries .debug (ramOf [(0x2002, 3)]) ⟨4, 4, true, 0x1000, 0x2000, 0x3000, 0⟩ 10).countP
      isChain = min 10 (pending .debug (ramOf [(0x2002, 3)])
        ⟨4, 4, true, 0x1000, 0x2000, 0x3000, 0⟩) :=
  (chains_le_pending .debug (ramOf [(0x2002, 3)]) ⟨4, 4, true, 0x1000, 0x2000, 0x3000, 0⟩ rfl
    (by decide) 10).2.2 (by decide)

/-- A queue of one descriptor, and a guest that publishes index 2: the one slot is handed
out twice. -/
theorem chains_exceed_size :
    ¬ ∀ (p : Profile) (ram : GuestRam) (q : VirtQueue) (k : Nat), q.ready = true →
      1 ≤ q.size.toNat →
        ((popSeries p ram q k).takeWhile isChain).length ≤ q.size.toNat := by
  intro h
  have hle := h .debug (ramOf [(0x2002, 2)]) ⟨1, 1, true, 0x1000, 0x2000, 0x3000, 0⟩ 2 rfl
    (by decide)
  exact absurd hle (by decide)

end DescriptorChain
end HyperPod
