import HyperPod.BootImage
import HyperPod.Config

/-!
# The guest-physical memory map on KVM: `vmm/linux/vm.rs`

`run_vm` reserves three pages for the TSS below 4 GiB, registers all of RAM as one slot
from address 0 and lets `write_zero_page` declare it in the e820 table.  It leaves no
hole, so RAM that reaches the xAPIC page runs over it, and then over the TSS pages
(`sparesReserved_iff`).
-/

namespace HyperPod

open Machine GuestRam Boot

/-- `kvm_userspace_memory_region` -/
structure MemoryRegion where
  slot : UInt32
  guestPhysAddr : UInt64
  memorySize : UInt64
  userspaceAddr : UInt64
  flags : UInt32
deriving Repr, DecidableEq

/-- What the host answers to `run_vm` until RAM is registered. -/
structure KvmHost where
  /-- `storage::open` on the root file system -/
  openStorage : Path → Result Unit
  alloc : Nat → Result Unit
  /-- the address that the allocation got -/
  hostPtr : UInt64
  newKvm : Result Unit
  kvmApiVersion : Int32
  getApiVersion : Int32
  createVm : Result Unit
  setTssAddress : UInt64 → Result Unit
  setUserMemoryRegion : MemoryRegion → Result Unit

/-- The VM once RAM is registered. -/
structure KvmGuest where
  ram : GuestRam
  tssAddress : UInt64
  region : MemoryRegion

def tssAddress : UInt64 := 0xfffbd000

/-- `run_vm` up to `KVM_SET_USER_MEMORY_REGION` -/
def registerMemory (host : KvmHost) (cfg : HyperPodFile) : Result KvmGuest := do
  host.openStorage cfg.rootfsPath
  let ram ← GuestRam.new host.alloc cfg.limits.minRam
  withContext "open /dev/kvm" host.newKvm
  bailIf (host.getApiVersion ≠ host.kvmApiVersion)
    s!"unexpected KVM API version: {host.getApiVersion}"
  withContext "KVM_CREATE_VM" host.createVm
  withContext "KVM_SET_TSS_ADDR" (host.setTssAddress tssAddress)
  let region : MemoryRegion :=
    { slot := 0
      guestPhysAddr := 0
      memorySize := UInt64.ofNat ram.size
      userspaceAddr := host.hostPtr
      flags := 0 }
  withContext "KVM_SET_USER_MEMORY_REGION" (host.setUserMemoryRegion region)
  return { ram, tssAddress, region }

/-! ## Guest-physical ranges -/

/-- The addresses `[start, start + size)`. -/
structure PhysRange where
  start : Nat
  size : Nat
deriving Repr, DecidableEq

namespace PhysRange

def Has (r : PhysRange) (a : Nat) : Prop := r.start ≤ a ∧ a < r.start + r.size

def Disjoint (r s : PhysRange) : Prop := ∀ a, ¬ (r.Has a ∧ s.Has a)

end PhysRange

/-- The slot that was registered. -/
def MemoryRegion.range (m : MemoryRegion) : PhysRange := ⟨m.guestPhysAddr.toNat, m.memorySize.toNat⟩

def Boot.E820Entry.range (e : E820Entry) : PhysRange := ⟨e.addr.toNat, e.size.toNat⟩

/-- The three pages from the address of `KVM_SET_TSS_ADDR` on. -/
def KvmGuest.tssPages (g : KvmGuest) : PhysRange := ⟨g.tssAddress.toNat, 3 * 4096⟩

def xapicPage : PhysRange := ⟨0xfee00000, 4096⟩

/-- The range is clear of the TSS pages and of the xAPIC page. -/
def KvmGuest.Spares (g : KvmGuest) (r : PhysRange) : Prop :=
  r.Disjoint g.tssPages ∧ r.Disjoint xapicPage

/-- The registered slot, and every range the e820 table declares once it is written, are
clear of both. -/
def SparesReserved (p : Profile) (cfg : HyperPodFile) (g : KvmGuest) : Prop :=
  g.Spares g.region.range ∧
    ∀ ram, (writeArtefacts p cfg.cmdline cfg.limits.minRam).run g.ram = (.ok (), ram) →
      ∃ entries, readE820 ram = .ok entries ∧ ∀ e ∈ entries, g.Spares e.range

/-! ## How large the guest may be -/

variable {p : Profile} {host : KvmHost} {cfg : HyperPodFile} {g : KvmGuest}

/-- What is registered: all of the RAM, after the TSS pages were reserved. -/
theorem of_registerMemory (h : registerMemory host cfg = .ok g) :
    GuestRam.new host.alloc cfg.limits.minRam = .ok g.ram ∧
      g.tssPages = ⟨0xfffbd000, 3 * 4096⟩ ∧ g.region.range = ⟨0, g.ram.size⟩ := by
  unfold registerMemory at h
  obtain ⟨_, -, h⟩ := Outcome.bind_eq_ok.mp h
  obtain ⟨ram, hnew, h⟩ := Outcome.bind_eq_ok.mp h
  obtain ⟨_, -, h⟩ := Outcome.bind_eq_ok.mp h
  obtain ⟨_, -, h⟩ := Outcome.bind_eq_ok.mp h
  obtain ⟨_, -, h⟩ := Outcome.bind_eq_ok.mp h
  obtain ⟨_, -, h⟩ := Outcome.bind_eq_ok.mp h
  obtain ⟨_, -, h⟩ := Outcome.bind_eq_ok.mp h
  cases h
  have hsize : (UInt64.ofNat ram.size).toNat = ram.size := by
    rw [UInt64.toNat_ofNat']
    exact Nat.mod_eq_of_lt ram.size_lt
  refine ⟨hnew, rfl, ?_⟩
  show (⟨(0 : UInt64).toNat, (UInt64.ofNat ram.size).toNat⟩ : PhysRange) = _
  rw [hsize]
  rfl

/-- A range that ends at or below the xAPIC page is clear of everything reserved. -/
theorem spares_of_end_le {r : PhysRange} (htss : g.tssPages = ⟨0xfffbd000, 3 * 4096⟩)
    (h : r.start + r.size ≤ xapicPage.start) : g.Spares r := by
  unfold xapicPage at h
  unfold KvmGuest.Spares PhysRange.Disjoint PhysRange.Has xapicPage
  rw [htss]
  dsimp only at h ⊢
  constructor
  · intro a
    omega
  · intro a
    omega

/-- A range from address 0 that is clear of the xAPIC page ends below it. -/
theorem end_le_of_spares {n : Nat} (h : g.Spares ⟨0, n⟩) : n ≤ xapicPage.start := by
  have hpage := h.2 xapicPage.start
  unfold PhysRange.Has xapicPage at *
  dsimp only at *
  omega

/-- **Guest RAM is clear of the reserved ranges** exactly up to 4078 MiB. -/
theorem sparesReserved_iff (p : Profile) (host : KvmHost) (cfg : HyperPodFile) (g : KvmGuest)
    (hreg : registerMemory host cfg = .ok g) :
    SparesReserved p cfg g ↔ cfg.limits.minRam.toNat ≤ 4078 := by
  obtain ⟨hnew, htss, hrange⟩ := of_registerMemory hreg
  obtain ⟨hlt, hsize, -⟩ := new_eq_ok hnew
  have hmib : xapicPage.start = 4078 * mib := rfl
  have hle : cfg.limits.minRam.toNat ≤ 4078 ↔ g.ram.size ≤ xapicPage.start := by
    unfold mib at hmib hsize
    omega
  unfold SparesReserved
  rw [hle, hrange]
  constructor
  · rintro ⟨hregion, -⟩
    exact end_le_of_spares hregion
  · intro hsmall
    refine ⟨spares_of_end_le htss (by rw [Nat.zero_add]; exact hsmall), fun ram hrun => ?_⟩
    obtain ⟨hfits, -, rfl⟩ := (writes_writeArtefacts hlt g.ram () ram).mp hrun
    refine ⟨_, readE820_image hlt hfits, fun e he => ?_⟩
    split at he
    · next habove =>
      rw [List.mem_singleton.mp he]
      apply spares_of_end_le htss
      show (UInt64.ofNat himemStart).toNat + (UInt64.ofNat _).toNat ≤ _
      rw [UInt64.toNat_ofNat', UInt64.toNat_ofNat', Nat.mod_eq_of_lt (by decide),
        Nat.mod_eq_of_lt (by omega), Nat.add_sub_cancel' (Nat.le_of_lt habove), ← hsize]
      exact hsmall
    · cases he

/-- A host that grants everything. -/
def KvmHost.willing : KvmHost where
  openStorage _ := .ok ()
  alloc _ := .ok ()
  hostPtr := 0x7f0000000000
  newKvm := .ok ()
  kvmApiVersion := 12
  getApiVersion := 12
  createVm := .ok ()
  setTssAddress _ := .ok ()
  setUserMemoryRegion _ := .ok ()

/-- A guest of so many MiB. -/
def guestOf (minRam : UInt64) : HyperPodFile where
  rootfsPath := ⟨"rootfs.ext4", some "ext4"⟩
  kernelPath := ⟨"vmlinux", none⟩
  cmdline := "console=ttyS0"
  limits := ⟨minRam, minRam, 1, 1⟩
  gpu := none

theorem registerMemory_willing (minRam : UInt64) (h : minRam.toNat * mib < 2 ^ 64) :
    ∃ g, registerMemory .willing (guestOf minRam) = .ok g ∧ g.ram.size = minRam.toNat * mib := by
  have hnew : GuestRam.new KvmHost.willing.alloc (guestOf minRam).limits.minRam =
      .ok ⟨minRam.toNat * mib, fun _ => 0, h⟩ := by
    unfold GuestRam.new
    exact dif_pos h
  unfold registerMemory
  rw [hnew]
  exact ⟨_, rfl, rfl⟩

theorem sparesReserved_one_gib :
    ∃ g, registerMemory .willing (guestOf 1024) = .ok g ∧
      SparesReserved .debug (guestOf 1024) g := by
  obtain ⟨g, hreg, -⟩ := registerMemory_willing 1024 (by decide)
  exact ⟨g, hreg, (sparesReserved_iff .debug .willing (guestOf 1024) g hreg).mpr (by decide)⟩

/-- A guest of 4 GiB: its RAM runs over both ranges. -/
theorem four_gib_overlaps :
    ¬ ∀ (p : Profile) (host : KvmHost) (metadata : Path → Result Bool) (cfg : HyperPodFile)
      (g : KvmGuest), cfg.validate metadata = .ok () → registerMemory host cfg = .ok g →
        SparesReserved p cfg g := by
  intro h
  have hvalid : (guestOf 4096).validate (fun _ => .ok true) = .ok () := by decide
  obtain ⟨g, hreg, hsize⟩ := registerMemory_willing 4096 (by decide)
  have hspares := (h .debug .willing _ _ g hvalid hreg).1
  rw [(of_registerMemory hreg).2.2, hsize] at hspares
  exact absurd (end_le_of_spares hspares) (by decide)

end HyperPod
