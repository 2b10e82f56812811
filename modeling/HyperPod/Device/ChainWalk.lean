import HyperPod.Device.Queue
import HyperPod.Lib.LinkWalk

/-!
# What `pop` walks

`VirtQueue.table` is the descriptor table as RAM holds it, at exact integer addresses, and
`popExact` is `pop` over it: the head, then the walk through the links.  `pop` does the
same as long as no address sum it forms reaches `2 ^ 64` (`pop_refines`); so it accepts
the chains whose walk ends and rejects the others (`pop_eq_walk`).  The sums are not
checked, and a queue address close to `2 ^ 64` makes one of them wrap
(`exact_iff_not_sumWraps`).
-/

namespace HyperPod

open Machine Bytes LinkWalk

namespace VirtQueue

/-- The guest-physical address of a descriptor. -/
def descriptorGpa (q : VirtQueue) (idx : UInt16) : Nat := q.descAddr.toNat + idx.toNat * descSize

/-- The descriptor that RAM holds at an address. -/
def descriptorAt (ram : GuestRam) (base : Nat) : Descriptor where
  addr := Pod.ofBytes (window ram.mem base 8)
  len := Pod.ofBytes (window ram.mem (base + 8) 4)
  flags := Pod.ofBytes (window ram.mem (base + 12) 2)
  next := Pod.ofBytes (window ram.mem (base + 14) 2)

/-- The link out of a descriptor. -/
def link (d : Descriptor) : Option UInt16 :=
  if d.flags &&& vringDescFNext = 0 then none else some d.next

/-- The descriptor table: the descriptors of an index below `size` that are inside RAM. -/
def table (q : VirtQueue) (ram : GuestRam) : Table UInt16 Descriptor := fun idx =>
  if idx.toNat < q.size.toNat ∧ q.descriptorGpa idx + descSize ≤ ram.size then
    some (descriptorAt ram (q.descriptorGpa idx), link (descriptorAt ram (q.descriptorGpa idx)))
  else none

/-- `pop` on exact addresses; `none` for an error. -/
def popExact (q : VirtQueue) (ram : GuestRam) : Option (Option DescriptorChain) :=
  if q.ready = false ∨ q.size = 0 then some none
  else if ¬ q.availAddr.toNat + 4 ≤ ram.size then none
  else if q.availIdx ram = q.lastAvailIdx then some none
  else if ¬ q.slotAddr q.nextSlot + 2 ≤ ram.size then none
  else
    (follow (q.table ram) q.size.toNat (q.ringSlot ram q.nextSlot)).map fun l =>
      some ⟨q.ringSlot ram q.nextSlot, l.map Prod.snd⟩

/-- An address sum that `pop` forms reaches `2 ^ 64`: for the published index, for the ring
slot, or for a descriptor that the chain reaches. -/
def SumWraps (q : VirtQueue) (ram : GuestRam) : Prop :=
  q.ready = true ∧ q.size ≠ 0 ∧
    (2 ^ 64 ≤ q.availAddr.toNat + 2 ∨
      (q.availAddr.toNat + 4 ≤ ram.size ∧ q.availIdx ram ≠ q.lastAvailIdx ∧
        (2 ^ 64 ≤ q.slotAddr q.nextSlot ∨
          (q.slotAddr q.nextSlot + 2 ≤ ram.size ∧
            ∃ idx, Reaches (q.table ram) (q.ringSlot ram q.nextSlot) idx ∧
              idx.toNat < q.size.toNat ∧ 2 ^ 64 ≤ q.descriptorGpa idx))))

end VirtQueue

instance instFiniteUInt16 : Finite UInt16 :=
  Finite.of_injective UInt16.toFin fun _ _ h => UInt16.toFin_inj.mp h

variable {p : Profile} {ram : GuestRam} {q : VirtQueue} {head : UInt16}

/-! ## One descriptor -/

theorem readDescriptor_inside {base : Nat} (h : base + descSize ≤ ram.size) :
    readDescriptor p ram base = .ok (VirtQueue.descriptorAt ram base) := by
  have hlt := ram.size_lt
  unfold descSize at h
  unfold readDescriptor
  have haddr : (ram.readObj base : Result UInt64) = .ok _ :=
    GuestRam.readObj_eq_ok.mpr ⟨by rw [size_uint64]; omega, rfl⟩
  have hlen : (ram.readObj (base + 8) : Result UInt32) = .ok _ :=
    GuestRam.readObj_eq_ok.mpr ⟨by rw [size_uint32]; omega, rfl⟩
  have hflags : (ram.readObj (base + 12) : Result UInt16) = .ok _ :=
    GuestRam.readObj_eq_ok.mpr ⟨by rw [size_uint16]; omega, rfl⟩
  have hnext : (ram.readObj (base + 14) : Result UInt16) = .ok _ :=
    GuestRam.readObj_eq_ok.mpr ⟨by rw [size_uint16]; omega, rfl⟩
  rw [haddr, Outcome.ok_bind, fit_eq_ok (by omega), Outcome.ok_bind, hlen, Outcome.ok_bind,
    fit_eq_ok (by omega), Outcome.ok_bind, hflags, Outcome.ok_bind, fit_eq_ok (by omega),
    Outcome.ok_bind, hnext]
  rfl

/-- The four reads fail as soon as one of them leaves RAM. -/
theorem readDescriptor_outside {base : Nat} (h : ¬ base + descSize ≤ ram.size) :
    ∃ e, readDescriptor p ram base = .err e := by
  have hlt := ram.size_lt
  unfold descSize at h
  unfold readDescriptor
  by_cases h8 : base + 8 ≤ ram.size
  · have haddr : (ram.readObj base : Result UInt64) = .ok _ := GuestRam.readObj_eq_ok.mpr ⟨h8, rfl⟩
    rw [haddr, Outcome.ok_bind, fit_eq_ok (by omega), Outcome.ok_bind]
    by_cases h12 : base + 8 + 4 ≤ ram.size
    · have hlen : (ram.readObj (base + 8) : Result UInt32) = .ok _ :=
        GuestRam.readObj_eq_ok.mpr ⟨h12, rfl⟩
      rw [hlen, Outcome.ok_bind, fit_eq_ok (by omega), Outcome.ok_bind]
      by_cases h14 : base + 12 + 2 ≤ ram.size
      · have hflags : (ram.readObj (base + 12) : Result UInt16) = .ok _ :=
          GuestRam.readObj_eq_ok.mpr ⟨h14, rfl⟩
        have h16 : ¬ base + 14 + 2 ≤ ram.size := by omega
        obtain ⟨e, he⟩ := GuestRam.readObj_outside (T := UInt16) h16
        rw [hflags, Outcome.ok_bind, fit_eq_ok (by omega), Outcome.ok_bind, he]
        exact ⟨e, rfl⟩
      · obtain ⟨e, he⟩ := GuestRam.readObj_outside (T := UInt16) h14
        rw [he]
        exact ⟨e, rfl⟩
    · obtain ⟨e, he⟩ := GuestRam.readObj_outside (T := UInt32) h12
      rw [he]
      exact ⟨e, rfl⟩
  · obtain ⟨e, he⟩ := GuestRam.readObj_outside (T := UInt64) h8
    rw [he]
    exact ⟨e, rfl⟩

namespace VirtQueue

theorem table_eq_some {idx : UInt16} {d : Descriptor} {o : Option UInt16} :
    q.table ram idx = some (d, o) ↔
      (idx.toNat < q.size.toNat ∧ q.descriptorGpa idx + descSize ≤ ram.size) ∧
        d = descriptorAt ram (q.descriptorGpa idx) ∧ o = link d := by
  unfold table
  by_cases h : idx.toNat < q.size.toNat ∧ q.descriptorGpa idx + descSize ≤ ram.size
  · rw [if_pos h]
    constructor
    · intro heq
      obtain ⟨hd, ho⟩ := Prod.mk.inj (Option.some.inj heq)
      refine ⟨h, hd.symm, ?_⟩
      rw [← ho, ← hd]
    · rintro ⟨-, hd, ho⟩
      rw [ho, hd]
  · rw [if_neg h]
    constructor
    · intro heq
      cases heq
    · rintro ⟨hin, -⟩
      exact absurd hin h

theorem toNat_lt_of_table {idx : UInt16} (h : (q.table ram idx).isSome) :
    idx.toNat < q.size.toNat := by
  obtain ⟨⟨d, o⟩, hd⟩ := Option.isSome_iff_exists.mp h
  exact (table_eq_some.mp hd).1.1

theorem toNat_injective : Function.Injective UInt16.toNat := fun _ _ h => UInt16.toNat_inj.mp h

end VirtQueue

/-! ## The loop of `pop` -/

namespace DescriptorChain

/-! One iteration, by what the table has at the index. -/

theorem walk_of_none {idx : UInt16} (ht : q.table ram idx = none)
    (hfit : idx.toNat < q.size.toNat → q.descriptorGpa idx < 2 ^ 64) (left : Nat)
    (descs : List Descriptor) : ∃ e, walk p ram q head (left + 1) idx descs = .err e := by
  rw [walk]
  by_cases hidx : idx.toNat < q.size.toNat
  · have hout : ¬ q.descriptorGpa idx + descSize ≤ ram.size := by
      intro hin
      rw [VirtQueue.table_eq_some.mpr ⟨⟨hidx, hin⟩, rfl, rfl⟩] at ht
      cases ht
    have hbase : (fit p 64 (q.descAddr.toNat + idx.toNat * descSize) : Result Nat) =
        .ok (q.descriptorGpa idx) := fit_eq_ok (hfit hidx)
    obtain ⟨e, he⟩ := readDescriptor_outside (p := p) hout
    rw [if_neg (by omega), hbase, Outcome.ok_bind, he]
    exact ⟨e, rfl⟩
  · rw [if_pos (by omega)]
    exact ⟨_, rfl⟩

theorem walk_inside {idx : UInt16} (hidx : idx.toNat < q.size.toNat)
    (hin : q.descriptorGpa idx + descSize ≤ ram.size) (left : Nat) (descs : List Descriptor) :
    walk p ram q head (left + 1) idx descs =
      let d := VirtQueue.descriptorAt ram (q.descriptorGpa idx)
      if d.flags &&& vringDescFNext = 0 then .ok ⟨head, descs ++ [d]⟩
      else walk p ram q head left d.next (descs ++ [d]) := by
  have hlt := ram.size_lt
  have hbase : (fit p 64 (q.descAddr.toNat + idx.toNat * descSize) : Result Nat) =
      .ok (q.descriptorGpa idx) := fit_eq_ok (by
    show q.descriptorGpa idx < 2 ^ 64
    omega)
  rw [walk, if_neg (by omega), hbase, Outcome.ok_bind, readDescriptor_inside hin, Outcome.ok_bind]
  rfl

theorem walk_of_last {idx : UInt16} {d : Descriptor} (ht : q.table ram idx = some (d, none))
    (left : Nat) (descs : List Descriptor) :
    walk p ram q head (left + 1) idx descs = .ok ⟨head, descs ++ [d]⟩ := by
  obtain ⟨⟨hidx, hin⟩, rfl, hlink⟩ := VirtQueue.table_eq_some.mp ht
  rw [walk_inside hidx hin]
  unfold VirtQueue.link at hlink
  split at hlink
  · next hlast => exact if_pos hlast
  · cases hlink

theorem walk_of_link {idx j : UInt16} {d : Descriptor} (ht : q.table ram idx = some (d, some j))
    (left : Nat) (descs : List Descriptor) :
    walk p ram q head (left + 1) idx descs = walk p ram q head left j (descs ++ [d]) := by
  obtain ⟨⟨hidx, hin⟩, rfl, hlink⟩ := VirtQueue.table_eq_some.mp ht
  rw [walk_inside hidx hin]
  unfold VirtQueue.link at hlink
  split at hlink
  · cases hlink
  · next hmore =>
    rw [Option.some.inj hlink]
    exact if_neg hmore

/-- **The loop follows the table** while the sums of the descriptors it reaches fit. -/
theorem walk_of_follow_eq_some {left : Nat} {idx : UInt16} {l : List (UInt16 × Descriptor)}
    (h : follow (q.table ram) left idx = some l) (descs : List Descriptor) :
    walk p ram q head left idx descs = .ok ⟨head, descs ++ l.map Prod.snd⟩ := by
  obtain ⟨hw, hlen⟩ := follow_eq_some.mp h
  clear h
  induction hw generalizing left descs with
  | last ht =>
    cases left with
    | zero => cases hlen
    | succ left => exact walk_of_last ht left descs
  | link ht _ ih =>
    cases left with
    | zero => cases hlen
    | succ left =>
      rw [walk_of_link ht, ih _ (Nat.le_of_succ_le_succ hlen), List.append_assoc]
      rfl

theorem walk_of_follow_eq_none {left : Nat} {idx : UInt16}
    (h : follow (q.table ram) left idx = none)
    (hfits : ∀ j, Reaches (q.table ram) idx j → j.toNat < q.size.toNat →
      q.descriptorGpa j < 2 ^ 64) (descs : List Descriptor) :
    ∃ e, walk p ram q head left idx descs = .err e := by
  induction left generalizing idx descs with
  | zero => exact ⟨_, rfl⟩
  | succ left ih =>
    rw [follow] at h
    cases ht : q.table ram idx with
    | none => exact walk_of_none ht (hfits idx .refl) left descs
    | some n =>
      obtain ⟨d, o⟩ := n
      rw [ht] at h
      cases o with
      | none => cases h
      | some j =>
        rw [walk_of_link ht]
        exact ih (Option.map_eq_none_iff.mp h)
          (fun k hk => hfits k (Relation.ReflTransGen.head ⟨d, ht⟩ hk)) _

/-- A descriptor sum that wraps panics in a debug build once the loop is there. -/
theorem walk_debug_eq_panic {idx j : UInt16} {d : Descriptor} {l : List (UInt16 × Descriptor)}
    (hj : j.toNat < q.size.toNat) (hwrap : 2 ^ 64 ≤ q.descriptorGpa j)
    (hw : Walk (stopAt (q.table ram) j d) idx l) {left : Nat} (hlen : l.length ≤ left)
    (descs : List Descriptor) : walk .debug ram q head left idx descs = .panic := by
  induction hw generalizing left descs with
  | last ht =>
    obtain rfl := eq_of_stopAt_eq_last ht
    cases left with
    | zero => cases hlen
    | succ left =>
      unfold VirtQueue.descriptorGpa at hwrap
      rw [walk, if_neg (by omega), fit_debug_eq_panic hwrap]
      rfl
  | link ht _ ih =>
    cases left with
    | zero => cases hlen
    | succ left =>
      rw [walk_of_link (stopAt_eq_link.mp ht).2]
      exact ih (Nat.le_of_succ_le_succ hlen) _

/-! ## Taking the head -/

/-- The published index is outside RAM. -/
theorem run_takeHead_unpublished (hready : q.ready = true) (hsize : q.size ≠ 0)
    (hfit : q.availAddr.toNat + 2 < 2 ^ 64) (hout : ¬ q.availAddr.toNat + 4 ≤ ram.size) :
    ∃ e, (takeHead p ram).run q = (.err e, q) := by
  have hoff : ¬ q.availAddr.toNat + 2 + 2 ≤ ram.size := by omega
  obtain ⟨e, he⟩ := GuestRam.readObj_outside (T := UInt16) hoff
  have hread : readAvailIdx p ram q = .err e := by
    unfold readAvailIdx
    rw [fit_eq_ok hfit, Outcome.ok_bind, he]
  rw [run_takeHead_eq p ram hready hsize, hread]
  exact ⟨e, rfl⟩

/-- A head that is to be taken, on the read of it. -/
theorem run_takeHead_new (hready : q.ready = true) (hsize : q.size ≠ 0)
    (hin : q.availAddr.toNat + 4 ≤ ram.size) (hnew : q.availIdx ram ≠ q.lastAvailIdx) :
    (takeHead p ram).run q =
      match readHead p ram q with
      | .ok head => (.ok (some head), q.advance)
      | .err e => (.err e, q)
      | .panic => (.panic, q) := by
  rw [run_takeHead_eq p ram hready hsize, readAvailIdx_inside hin]
  exact if_neg hnew

theorem fit_ringStart (hin : q.availAddr.toNat + 4 ≤ ram.size) :
    (fit p 64 (q.availAddr.toNat + availRingHdr) : Result Nat) =
      .ok (q.availAddr.toNat + availRingHdr) := by
  have hlt := ram.size_lt
  apply fit_eq_ok
  unfold availRingHdr
  omega

/-- The ring slot is outside RAM. -/
theorem run_takeHead_slot_outside (hready : q.ready = true) (hsize : q.size ≠ 0)
    (hin : q.availAddr.toNat + 4 ≤ ram.size) (hnew : q.availIdx ram ≠ q.lastAvailIdx)
    (hfit : q.slotAddr q.nextSlot < 2 ^ 64) (hout : ¬ q.slotAddr q.nextSlot + 2 ≤ ram.size) :
    ∃ e, (takeHead p ram).run q = (.err e, q) := by
  have haddr : (fit p 64 (q.availAddr.toNat + availRingHdr + q.nextSlot * 2) : Result Nat) =
      .ok (q.slotAddr q.nextSlot) := fit_eq_ok hfit
  obtain ⟨e, he⟩ := GuestRam.readObj_outside (T := UInt16) hout
  have hread : readHead p ram q = .err e := by
    unfold readHead
    rw [fit_ringStart hin, Outcome.ok_bind, haddr, Outcome.ok_bind, he]
  rw [run_takeHead_new hready hsize hin hnew, hread]
  exact ⟨e, rfl⟩

theorem run_takeHead_debug_panic (hready : q.ready = true) (hsize : q.size ≠ 0)
    (hwrap : 2 ^ 64 ≤ q.availAddr.toNat + 2) : (takeHead .debug ram).run q = (.panic, q) := by
  have hread : readAvailIdx .debug ram q = .panic := by
    unfold readAvailIdx
    rw [fit_debug_eq_panic hwrap, Outcome.panic_bind]
  rw [run_takeHead_eq .debug ram hready hsize, hread]

theorem run_takeHead_slot_debug_panic (hready : q.ready = true) (hsize : q.size ≠ 0)
    (hin : q.availAddr.toNat + 4 ≤ ram.size) (hnew : q.availIdx ram ≠ q.lastAvailIdx)
    (hwrap : 2 ^ 64 ≤ q.slotAddr q.nextSlot) : (takeHead .debug ram).run q = (.panic, q) := by
  unfold VirtQueue.slotAddr at hwrap
  have hread : readHead .debug ram q = .panic := by
    unfold readHead
    rw [fit_ringStart hin, Outcome.ok_bind, fit_debug_eq_panic hwrap, Outcome.panic_bind]
  rw [run_takeHead_new hready hsize hin hnew, hread]

/-! ## `pop` against the exact walk -/

/-- RAM of 1 MiB that holds the given bytes, and 0 elsewhere. -/
def ramOf (bytes : List (Nat × UInt8)) : GuestRam where
  size := 0x100000
  mem := fun a => (bytes.lookup a).getD 0
  size_lt := by decide

/-- What `pop` returns once the head is taken. -/
theorem pop_of_head (hready : q.ready = true) (hsize : q.size ≠ 0)
    (hin : q.availAddr.toNat + 4 ≤ ram.size) (hnew : q.availIdx ram ≠ q.lastAvailIdx)
    (hslot : q.slotAddr q.nextSlot + 2 ≤ ram.size) :
    (pop p ram).run q =
      ((walk p ram q.advance (q.ringSlot ram q.nextSlot) q.size.toNat
        (q.ringSlot ram q.nextSlot) []).map some, q.advance) := by
  apply run_pop_some
  rw [run_takeHead_inside hready hsize hin hslot, if_neg hnew]

/-- The exact `pop` once the head is taken. -/
theorem popExact_of_head (hready : q.ready = true) (hsize : q.size ≠ 0)
    (hin : q.availAddr.toNat + 4 ≤ ram.size) (hnew : q.availIdx ram ≠ q.lastAvailIdx)
    (hslot : q.slotAddr q.nextSlot + 2 ≤ ram.size) :
    q.popExact ram =
      (follow (q.table ram) q.size.toNat (q.ringSlot ram q.nextSlot)).map fun l =>
        some ⟨q.ringSlot ram q.nextSlot, l.map Prod.snd⟩ := by
  have hidle : ¬ (q.ready = false ∨ q.size = 0) := by
    rintro (hfalse | hzero)
    · rw [hready] at hfalse
      cases hfalse
    · exact hsize hzero
  unfold VirtQueue.popExact
  rw [if_neg hidle, if_neg (not_not_intro hin), if_neg hnew, if_neg (not_not_intro hslot)]

/-- **Refinement.**  Where no sum wraps, `pop` returns what the exact walk gives. -/
theorem pop_refines (h : ¬ q.SumWraps ram) :
    ((pop p ram).run q).1 ≠ .panic ∧ ((pop p ram).run q).1.toOption = q.popExact ram := by
  unfold VirtQueue.popExact
  by_cases hidle : q.ready = false ∨ q.size = 0
  · rw [if_pos hidle, run_pop_none (run_takeHead_idle hidle)]
    exact ⟨fun h => (nomatch h), rfl⟩
  obtain ⟨hready, hsize⟩ := not_or.mp hidle
  have hready : q.ready = true := Bool.eq_true_of_not_eq_false hready
  have hsums := fun hw => h ⟨hready, hsize, hw⟩
  obtain ⟨havail, hrest⟩ := not_or.mp hsums
  rw [if_neg hidle]
  by_cases hin : q.availAddr.toNat + 4 ≤ ram.size
  · rw [if_neg (not_not_intro hin)]
    by_cases hnew : q.availIdx ram = q.lastAvailIdx
    · rw [if_pos hnew, run_pop_none (run_takeHead_seen hready hsize hin hnew)]
      exact ⟨fun h => (nomatch h), rfl⟩
    · obtain ⟨hslotFit, hchain⟩ := not_or.mp fun hw => hrest ⟨hin, hnew, hw⟩
      rw [if_neg hnew]
      by_cases hslot : q.slotAddr q.nextSlot + 2 ≤ ram.size
      · rw [if_neg (not_not_intro hslot), pop_of_head hready hsize hin hnew hslot]
        have hfits : ∀ j, Reaches (q.table ram) (q.ringSlot ram q.nextSlot) j →
            j.toNat < q.size.toNat → q.descriptorGpa j < 2 ^ 64 :=
          fun j hreach hj => Nat.not_le.mp fun hw => hchain ⟨hslot, j, hreach, hj, hw⟩
        cases hf : follow (q.table ram) q.size.toNat (q.ringSlot ram q.nextSlot) with
        | none =>
          have herr : ∃ e, walk p ram q.advance (q.ringSlot ram q.nextSlot) q.size.toNat
              (q.ringSlot ram q.nextSlot) [] = .err e :=
            walk_of_follow_eq_none (q := q.advance) hf hfits []
          obtain ⟨e, he⟩ := herr
          rw [he]
          exact ⟨fun h => (nomatch h), rfl⟩
        | some l =>
          have hw : walk p ram q.advance (q.ringSlot ram q.nextSlot) q.size.toNat
              (q.ringSlot ram q.nextSlot) [] = .ok ⟨_, [] ++ l.map Prod.snd⟩ :=
            walk_of_follow_eq_some (q := q.advance) hf []
          rw [hw]
          exact ⟨fun h => (nomatch h), rfl⟩
      · obtain ⟨e, he⟩ := run_takeHead_slot_outside (p := p) hready hsize hin hnew
          (Nat.not_le.mp hslotFit) hslot
        rw [if_pos hslot, run_pop_err he]
        exact ⟨fun h => (nomatch h), rfl⟩
  · obtain ⟨e, he⟩ := run_takeHead_unpublished (p := p) hready hsize (Nat.not_le.mp havail) hin
    rw [if_pos hin, run_pop_err he]
    exact ⟨fun h => (nomatch h), rfl⟩

/-- A sum that wraps panics in a debug build. -/
theorem pop_debug_eq_panic (h : q.SumWraps ram) : ((pop .debug ram).run q).1 = .panic := by
  obtain ⟨hready, hsize, havail | ⟨hin, hnew, hslot | ⟨hslot, j, hreach, hj, hwrap⟩⟩⟩ := h
  · rw [run_pop_panic (run_takeHead_debug_panic hready hsize havail)]
  · rw [run_pop_panic (run_takeHead_slot_debug_panic hready hsize hin hnew hslot)]
  · obtain ⟨l, hw⟩ := hreach.exists_walk (VirtQueue.descriptorAt ram 0)
    have hlen : l.length ≤ q.size.toNat := by
      apply hw.length_le VirtQueue.toNat_injective
      intro i hi
      rcases isSome_of_stopAt hi with rfl | hi
      · exact hj
      · exact VirtQueue.toNat_lt_of_table hi
    have hpanic : walk .debug ram q.advance (q.ringSlot ram q.nextSlot) q.size.toNat
        (q.ringSlot ram q.nextSlot) [] = .panic :=
      walk_debug_eq_panic (q := q.advance) hj hwrap hw hlen []
    rw [pop_of_head hready hsize hin hnew hslot, hpanic]
    rfl

/-- **`pop` is exact in every build exactly when no sum wraps.** -/
theorem exact_iff_not_sumWraps (ram : GuestRam) (q : VirtQueue) :
    (∀ p, ((pop p ram).run q).1 ≠ .panic ∧ ((pop p ram).run q).1.toOption = q.popExact ram) ↔
      ¬ q.SumWraps ram := by
  constructor
  · intro h hwraps
    exact (h .debug).1 (pop_debug_eq_panic hwraps)
  · intro h p
    exact pop_refines h

/-- A descriptor table 16 bytes below `2 ^ 64`: descriptor 1 would be past the end of the
address space.  A debug build panics, a release build reads it at address 0. -/
theorem pop_wraps :
    let ram := ramOf [(2, 1), (4, 1)]
    let q : VirtQueue := ⟨2, 2, true, 0xfffffffffffffff0, 0, 0, 0⟩
    (¬ ∀ p, ((pop p ram).run q).1 ≠ .panic ∧ ((pop p ram).run q).1.toOption = q.popExact ram) ∧
    ((pop .debug ram).run q).1 = .panic ∧
    ((pop .release ram).run q).1 = .ok (some ⟨1, [⟨0x100010000, 0, 0, 0⟩]⟩) ∧
    q.popExact ram = none := by
  intro ram q
  have hdebug : ((pop .debug ram).run q).1 = .panic := by decide
  refine ⟨fun h => (h .debug).1 hdebug, hdebug, by decide, by decide⟩

/-- Rings inside RAM and a table inside the address space leave no sum to wrap. -/
theorem not_sumWraps_of_inside (hin : q.availAddr.toNat + 4 ≤ ram.size)
    (hslot : q.slotAddr q.nextSlot + 2 ≤ ram.size)
    (hsums : ∀ idx : UInt16, idx.toNat < q.size.toNat → q.descriptorGpa idx < 2 ^ 64) :
    ¬ q.SumWraps ram := by
  have hlt := ram.size_lt
  rintro ⟨-, -, hw | ⟨-, -, hw | ⟨-, j, -, hj, hw⟩⟩⟩
  · omega
  · omega
  · exact Nat.not_le.mpr (hsums j hj) hw

/-- **The chains that `pop` accepts** are those whose walk ends, and it returns that walk;
it rejects the others, the cyclic among them, and moves only `last_avail_idx`. -/
theorem pop_eq_walk (p : Profile) (ram : GuestRam) (q : VirtQueue) (hready : q.ready = true)
    (hsize : 1 ≤ q.size.toNat) (hnew : q.lastAvailIdx ≠ q.availIdx ram)
    (hin : q.availAddr.toNat + 4 ≤ ram.size) (hslot : q.slotAddr q.nextSlot + 2 ≤ ram.size)
    (hsums : ∀ idx : UInt16, idx.toNat < q.size.toNat → q.descriptorGpa idx < 2 ^ 64) :
    let h := q.ringSlot ram q.nextSlot
    let table := q.table ram
    (∀ c, ((pop p ram).run q).1 = .ok (some c) ↔
      ∃ l, Walk table h l ∧ c = ⟨h, l.map Prod.snd⟩) ∧
    (∀ l, Walk table h l → (l.map Prod.fst).Nodup ∧ 1 ≤ l.length ∧ l.length ≤ q.size.toNat) ∧
    ((∃ l, Walk table h l) ↔
      ∀ j, Reaches table h j → (table j).isSome ∧ ¬ Relation.TransGen (Links table) j j) ∧
    ((¬ ∃ l, Walk table h l) → ∃ e, ((pop p ram).run q).1 = .err e) ∧
    ((pop p ram).run q).2 = { q with lastAvailIdx := q.lastAvailIdx + 1 } := by
  intro h table
  have hsize0 : q.size ≠ 0 := VirtQueue.size_ne_zero_iff.mpr hsize
  have hbound : ∀ j, (table j).isSome → j.toNat < q.size.toNat :=
    fun j => VirtQueue.toNat_lt_of_table
  have hfollow : ∀ l, follow table q.size.toNat h = some l ↔ Walk table h l :=
    fun l => follow_eq_some_of_lt VirtQueue.toNat_injective hbound
  -- no sum wraps, so `pop` gives what the exact walk gives
  obtain ⟨hpanic, hexact⟩ := pop_refines (p := p) (not_sumWraps_of_inside hin hslot hsums)
  rw [popExact_of_head hready hsize0 hin (Ne.symm hnew) hslot] at hexact
  have haccepted : ∀ l, Walk table h l →
      ((pop p ram).run q).1 = .ok (some ⟨h, l.map Prod.snd⟩) := by
    intro l hw
    apply Outcome.toOption_eq_some.mp
    rw [hexact, (hfollow l).mpr hw]
    rfl
  have hrejected : (¬ ∃ l, Walk table h l) → ∃ e, ((pop p ram).run q).1 = .err e := by
    intro hnone
    have hf : follow table q.size.toNat h = none :=
      Option.eq_none_iff_forall_ne_some.mpr fun l hl => hnone ⟨l, (hfollow l).mp hl⟩
    apply Outcome.err_of_toOption_eq_none _ hpanic
    rw [hexact, hf]
    rfl
  refine ⟨?_, ?_, exists_walk_iff, hrejected, ?_⟩
  · intro c
    constructor
    · intro hc
      by_cases hex : ∃ l, Walk table h l
      · obtain ⟨l, hw⟩ := hex
        have hl := haccepted l hw
        rw [hc] at hl
        cases hl
        exact ⟨l, hw, rfl⟩
      · obtain ⟨e, he⟩ := hrejected hex
        rw [hc] at he
        cases he
    · rintro ⟨l, hw, rfl⟩
      exact haccepted l hw
  · intro l hw
    exact ⟨hw.nodup, List.length_pos_iff.mpr hw.ne_nil,
      hw.length_le VirtQueue.toNat_injective hbound⟩
  · rw [pop_of_head hready hsize0 hin (Ne.symm hnew) hslot]
    rfl

/-- A chain of exactly `size` descriptors. -/
theorem pop_eq_walk_two :
    ((pop .release (ramOf [(0x2002, 1), (0x100c, 1), (0x100e, 1)])).run
      ⟨2, 2, true, 0x1000, 0x2000, 0x3000, 0⟩).1 =
      .ok (some ⟨0, [⟨0, 0, 1, 1⟩, ⟨0, 0, 0, 0⟩]⟩) := by
  have hsums : ∀ idx : UInt16, idx.toNat < 2 → 0x1000 + idx.toNat * descSize < 2 ^ 64 := by
    intro idx hidx
    unfold descSize
    omega
  apply (pop_eq_walk .release (ramOf [(0x2002, 1), (0x100c, 1), (0x100e, 1)])
    ⟨2, 2, true, 0x1000, 0x2000, 0x3000, 0⟩ rfl (by decide) (by decide) (by decide) (by decide)
    hsums).1 _ |>.mpr
  exact ⟨[(0, ⟨0, 0, 1, 1⟩), (1, ⟨0, 0, 0, 0⟩)], .link (by decide) (.last (by decide)), rfl⟩

end DescriptorChain
end HyperPod
