import HyperPod.ElfExact

/-!
# Where the vCPU starts

`run_vm` puts the entry that `elf::load` returns into RIP.  The loader returns the
`e_entry` field as it finds it, so whether that address was loaded, and whether the page
tables map it, is up to the file (`entry_of_load`).
-/

namespace HyperPod

open Machine Bytes GuestRam HostFile Paging Boot Elf

/-- The address is one of the segment's file bytes. -/
def Elf.Segment.HasFileByte (s : Segment) (a : Nat) : Prop :=
  s.paddr ≤ a ∧ a < s.paddr + s.filesz

/-- The address was loaded from the file and lies in the identity map. -/
def InKernel (bytes : List UInt8) (a : Nat) : Prop :=
  a < 2 ^ 30 ∧ ∃ i < phnum bytes, ∃ s, headerSegment bytes i = some s ∧ s.HasFileByte a

/-- No PT_LOAD image touches the page tables. -/
def SparesTables (bytes : List UInt8) : Prop :=
  ∀ i < phnum bytes, ∀ a, pml4Start ≤ a → a < pdeStart + 0x1000 → ¬ HeaderCovers bytes i a

/-! ## The page tables after a load -/

theorem readEntry_congr {m m' : Nat → UInt8} {a : Nat} (h : ∀ i, i < 8 → m' (a + i) = m (a + i)) :
    readEntry m' a = readEntry m a := by
  unfold readEntry
  rw [window_congr h]

theorem identityTables_congr {m m' : Nat → UInt8} (ht : IdentityTables m)
    (h : ∀ a, pml4Start ≤ a → a < pdeStart + 0x1000 → m' a = m a) : IdentityTables m' := by
  have hentry : ∀ a, pml4Start ≤ a → a + 8 ≤ pdeStart + 0x1000 →
      readEntry m' a = readEntry m a :=
    fun a hlo hhi => readEntry_congr fun i hi => h (a + i) (by omega) (by omega)
  unfold pml4Start pdeStart at hentry
  refine ⟨?_, ?_, ?_, ?_, ?_⟩
  · rw [← ht.root]
    exact hentry _ (by unfold pml4Start; omega) (by unfold pml4Start; omega)
  · intro i h0 hi
    rw [← ht.rootRest i h0 hi]
    exact hentry _ (by unfold pml4Start; omega) (by unfold pml4Start; omega)
  · rw [← ht.pdpt]
    exact hentry _ (by unfold pdpteStart; omega) (by unfold pdpteStart; omega)
  · intro i h0 hi
    rw [← ht.pdptRest i h0 hi]
    exact hentry _ (by unfold pdpteStart; omega) (by unfold pdpteStart; omega)
  · intro i hi
    rw [← ht.pd i hi]
    exact hentry _ (by unfold pdeStart; omega) (by unfold pdeStart; omega)

/-- What the boot writers leave on fresh RAM maps the first GiB to itself. -/
theorem identityTables_of_writeArtefacts {p : Profile} {alloc : Nat → Result Unit}
    {cmdline : String} {minRam : UInt64} {fresh ram : GuestRam}
    (hnew : GuestRam.new alloc minRam = .ok fresh)
    (h : (writeArtefacts p cmdline minRam).run fresh = (.ok (), ram)) :
    IdentityTables ram.mem := by
  obtain ⟨hlt, -, hzero⟩ := new_eq_ok hnew
  obtain ⟨-, -, rfl⟩ := (writes_writeArtefacts hlt fresh () ram).mp h
  exact identityTables hzero

/-- The walk of a canonical address. -/
theorem walk_of_identityTables {mem : Nat → UInt8} {va : Nat} (ht : IdentityTables mem)
    (hc : Canonical va) :
    walk mem pml4Start va = if va < 2 ^ 30 then .page va (2 ^ 21) true else .notPresent := by
  by_cases hlow : va < 2 ^ 30
  · rw [if_pos hlow]
    exact walk_low ht hlow
  · rw [if_neg hlow]
    exact walk_high ht hc (Nat.le_of_not_lt hlow)

/-! ## The entry -/

/-- **The entry is the file's.**  It is `e_entry`, whatever that is.  Where it is a file
byte of a segment that no later image covers, RAM holds this byte there; and on RAM that
the boot writers left, with page tables that no image touches, it is mapped, to itself,
exactly when it lies in the first GiB. -/
theorem entry_of_load (p : Profile) (path : String) (file : Content) (kernel : LoadedKernel)
    (ram ram' : GuestRam) (h : (load p path (.ok file)).run ram = (.ok kernel, ram')) :
    kernel.entry = valAt UInt64 file.bytes 24 ∧
    (∀ i s, i < phnum file.bytes → headerSegment file.bytes i = some s →
      s.HasFileByte kernel.entry.toNat →
      (∀ j, i < j → j < phnum file.bytes → ¬ HeaderCovers file.bytes j kernel.entry.toNat) →
        kernel.entry.toNat < ram'.size ∧
        file.bytes[s.offset + (kernel.entry.toNat - s.paddr)]? =
          some (ram'.mem kernel.entry.toNat)) ∧
    ∀ (alloc : Nat → Result Unit) (cmdline : String) (minRam : UInt64) (fresh : GuestRam),
      GuestRam.new alloc minRam = .ok fresh →
      (writeArtefacts p cmdline minRam).run fresh = (.ok (), ram) →
      SparesTables file.bytes → Canonical kernel.entry.toNat →
        walk ram'.mem pml4Start kernel.entry.toNat =
          if kernel.entry.toNat < 2 ^ 30 then .page kernel.entry.toNat (2 ^ 21) true
          else .notPresent := by
  obtain ⟨-, hloop, hkernel⟩ := run_loadWith_eq_ok.mp h
  obtain ⟨hsize, hmem, hpass, -⟩ := run_loadHeaders_exact file.len_lt hloop
  rw [← List.range_eq_range'] at hmem
  rw [Nat.zero_add] at hpass
  refine ⟨congrArg LoadedKernel.entry hkernel, ?_, ?_⟩
  · intro i s hi hs hbyte hlast
    obtain ⟨hfile, hram⟩ := (hpass i (Nat.zero_le i) hi).2 s hs
    unfold Segment.InFile at hfile
    unfold Segment.InRam at hram
    obtain ⟨hlo, hhi⟩ := hbyte
    have hc : s.Covers kernel.entry.toNat := ⟨hlo, by omega⟩
    have hlt : s.offset + (kernel.entry.toNat - s.paddr) < file.bytes.length := by omega
    refine ⟨by omega, ?_⟩
    rw [hmem, layHeaders_range_of_last hi hs hc hlast, Segment.byteAt, if_pos hhi,
      List.getElem?_eq_getElem hlt]
    rfl
  · intro alloc cmdline minRam fresh hnew hboot hspares hcanonical
    have hkept : ∀ a, pml4Start ≤ a → a < pdeStart + 0x1000 → ram'.mem a = ram.mem a := by
      intro a hlo hhi
      rw [hmem]
      exact layHeaders_of_not_covers fun j hj => hspares j (List.mem_range.mp hj) a hlo hhi
    exact walk_of_identityTables
      (identityTables_congr (identityTables_of_writeArtefacts hnew hboot) hkept) hcanonical

/-- The kernel that is its own image starts at its first byte. -/
theorem entry_of_load_wholeKernel :
    ∃ ram ram', (writeArtefacts .release "console=ttyS0" 2).run twoMib = (.ok (), ram) ∧
      (load .release "vmlinux" (.ok wholeKernel)).run ram = (.ok ⟨0x100000⟩, ram') ∧
      wholeKernel.bytes[0]? = some (ram'.mem 0x100000) ∧
      walk ram'.mem pml4Start 0x100000 = .page 0x100000 (2 ^ 21) true := by
  obtain ⟨ram, hboot, himage⟩ := @run_writeArtefacts .release 2 (by decide) (by decide) twoMib rfl
    (fun _ => rfl) _ cmdline_console
  obtain ⟨ram', hload⟩ := run_load_wholeKernel ram (by rw [himage.size]; decide)
    (by rw [himage.size]; decide)
  obtain ⟨-, hbyte, hwalk⟩ :=
    entry_of_load .release "vmlinux" wholeKernel ⟨0x100000⟩ ram ram' hload
  have hspares : SparesTables wholeKernel.bytes := by
    rintro i hi a - hhi ⟨s, hs, hlo, -⟩
    rw [phnum_wholeKernel, Nat.lt_one_iff] at hi
    subst hi
    rw [headerSegment_wholeKernel] at hs
    cases hs
    unfold pdeStart at hhi
    have hstart : wholeSegment.paddr = 0x100000 := rfl
    omega
  have hfirst := hbyte 0 wholeSegment (by rw [phnum_wholeKernel]; decide)
    headerSegment_wholeKernel ⟨by decide, by decide⟩
    fun j h0 h1 => by rw [phnum_wholeKernel] at h1; omega
  exact ⟨ram, ram', hboot, hload, hfirst.2,
    hwalk _ _ _ _ new_twoMib hboot hspares (Or.inl (by decide))⟩

/-- The kernel that lands on the GDT is loaded, and its entry is in no segment. -/
theorem not_entry_inKernel :
    ¬ ∀ (p : Profile) (path : String) (file : Content) (kernel : LoadedKernel)
      (ram ram' : GuestRam), (load p path (.ok file)).run ram = (.ok kernel, ram') →
      InKernel file.bytes kernel.entry.toNat := by
  intro hall
  obtain ⟨ram', hrun⟩ := run_load_gdtKernel twoMib (by decide) (by decide)
  obtain ⟨-, i, hi, s, hs, hlo, hhi⟩ :=
    hall .release "vmlinux" gdtKernel ⟨0x100000⟩ twoMib ram' hrun
  have hnum : phnum gdtKernel.bytes = 1 := by decide +kernel
  have hseg : headerSegment gdtKernel.bytes 0 = some gdtSegment := by decide +kernel
  rw [hnum, Nat.lt_one_iff] at hi
  subst hi
  rw [hseg] at hs
  cases hs
  revert hlo hhi
  decide

end HyperPod
