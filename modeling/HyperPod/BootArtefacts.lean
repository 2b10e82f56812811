import HyperPod.BootImage
import HyperPod.ElfTotal

/-!
# The boot artefacts at vCPU entry

`run_vm` loads the kernel over the RAM that holds the boot artefacts, and `elf::load`
keeps no address free of them.  Each artefact byte is therefore, at vCPU entry, the byte
of the last PT_LOAD image that covers it, and what the boot writers left where none does
(`artefacts_at_entry`).
-/

namespace HyperPod

open Machine Bytes GuestRam HostFile Boot Elf

/-- The steps of `run_vm` that fill guest RAM. -/
def setUp (p : Profile) (cmdline : String) (minRam : UInt64) (path : String) (file : Content) :
    Act GuestRam LoadedKernel := do
  writeArtefacts p cmdline minRam
  load p path (.ok file)

/-- The address belongs to the GDT and the IDT entry, the zero page, the PML4, PDPT and PD
tables or the command line with its terminating NUL. -/
def Artefact (cmdline : String) (a : Nat) : Prop :=
  bootGdtOffset ≤ a ∧ a < bootIdtOffset + 8 ∨ zeroPageStart ≤ a ∧ a < zeroPageStart + 0x1000 ∨
    pml4Start ≤ a ∧ a < pdeStart + 0x1000 ∨
    cmdlineStart ≤ a ∧ a ≤ cmdlineStart + (asBytes cmdline).length

theorem setUp_eq_ok {p : Profile} {cmdline path : String} {minRam : UInt64} {file : Content}
    {kernel : LoadedKernel} {ram ram₂ : GuestRam} :
    (setUp p cmdline minRam path file).run ram = (.ok kernel, ram₂) ↔
      ∃ ram₁, (writeArtefacts p cmdline minRam).run ram = (.ok (), ram₁) ∧
        (load p path (.ok file)).run ram₁ = (.ok kernel, ram₂) := by
  unfold setUp
  rw [Act.run_bind_eq_ok]
  constructor
  · rintro ⟨u, ram₁, h1, h2⟩
    exact ⟨ram₁, h1, h2⟩
  · rintro ⟨ram₁, h1, h2⟩
    exact ⟨(), ram₁, h1, h2⟩

theorem imageByte_of_last {bytes : List UInt8} {a : Nat} {pre post : List Segment} {s : Segment}
    (hs : s.Covers a) (hpost : ∀ t ∈ post, ¬ t.Covers a) (old : UInt8) :
    imageByte bytes a (pre ++ s :: post) old = s.byteAt bytes a := by
  induction pre generalizing old with
  | nil =>
    show imageByte bytes a post (if s.Covers a then s.byteAt bytes a else old) = _
    rw [imageByte_of_not_covers hpost, if_pos hs]
  | cons t pre ih => exact ih _

/-! ## A kernel that lands on the GDT -/

/-- An ELF64 file with one program header, for a segment of `memsz` zero bytes at `paddr`. -/
def zeroSegmentElf (entry paddr memsz : Nat) : List UInt8 :=
  elfMag ++ [2, 1, 1, 0] ++ leBytes 8 0 ++ leBytes 2 2 ++ leBytes 2 62 ++ leBytes 4 1 ++
    leBytes 8 entry ++ leBytes 8 64 ++ leBytes 8 0 ++ leBytes 4 0 ++ leBytes 2 64 ++
    leBytes 2 56 ++ leBytes 2 1 ++ leBytes 2 0 ++ leBytes 2 0 ++ leBytes 2 0 ++
    (leBytes 4 1 ++ leBytes 4 7 ++ leBytes 8 0 ++ leBytes 8 paddr ++ leBytes 8 paddr ++
      leBytes 8 0 ++ leBytes 8 memsz ++ leBytes 8 4096)

/-- A kernel whose only segment zeroes the code descriptor of the GDT. -/
def gdtKernel : Content := ⟨zeroSegmentElf 0x100000 0x508 8, by decide⟩

def gdtSegment : Segment := ⟨0, 0x508, 0, 8⟩

theorem segments_gdtKernel : segments gdtKernel.bytes = [gdtSegment] := by decide

theorem run_load_gdtKernel (ram : GuestRam) (h : 0x510 ≤ ram.size) (hsmall : ram.size < 2 ^ 63) :
    ∃ ram', (load .release "vmlinux" (.ok gdtKernel)).run ram = (.ok ⟨0x100000⟩, ram') := by
  have hok : HeaderOk gdtKernel.bytes := by decide +kernel
  have hseg : segmentAt gdtKernel.bytes (headerOff gdtKernel.bytes 0) = some gdtSegment := by
    decide +kernel
  have hentry : valAt UInt64 gdtKernel.bytes 24 = 0x100000 := by decide +kernel
  have hrun := run_loadWith_single .release "vmlinux" (serves_zeroed hsmall) hok
    (by decide +kernel) (by decide +kernel) hseg (by decide +kernel) h
  rw [hentry] at hrun
  exact hrun

theorem boot_gdtKernel :
    ∃ ram₁ ram₂, (writeArtefacts .release "console=ttyS0" 2).run twoMib = (.ok (), ram₁) ∧
      BootImage "console=ttyS0" ((2 : UInt64).toNat * mib) ram₁ ∧
      (load .release "vmlinux" (.ok gdtKernel)).run ram₁ = (.ok ⟨0x100000⟩, ram₂) := by
  obtain ⟨ram₁, hboot, himage⟩ := @run_writeArtefacts .release 2 (by decide)
    (by decide) twoMib rfl (fun _ => rfl) _ cmdline_console
  obtain ⟨ram₂, hload⟩ := run_load_gdtKernel ram₁ (by rw [himage.size]; decide)
    (by rw [himage.size]; decide)
  exact ⟨ram₁, ram₂, hboot, himage, hload⟩

/-! ## At vCPU entry -/

/-- **Artefacts at vCPU entry.**  Whenever every step of the set-up returns, the first
four left `ram₁`, and the vCPU starts on `ram₂`: an artefact byte outside all PT_LOAD
images is as the four left it, and one inside is the last such image's. -/
theorem artefacts_at_entry (p : Profile) (cmdline path : String) (minRam : UInt64)
    (file : Content) (kernel : LoadedKernel) (ram ram₂ : GuestRam)
    (h : (setUp p cmdline minRam path file).run ram = (.ok kernel, ram₂)) :
    ∃ ram₁, (writeArtefacts p cmdline minRam).run ram = (.ok (), ram₁) ∧
      ∀ a, Artefact cmdline a →
        ((∀ s ∈ segments file.bytes, ¬ s.Covers a) → ram₂.mem a = ram₁.mem a) ∧
        ∀ pre s post, segments file.bytes = pre ++ s :: post → s.Covers a →
          (∀ t ∈ post, ¬ t.Covers a) → ram₂.mem a = s.byteAt file.bytes a := by
  obtain ⟨ram₁, hboot, hload⟩ := setUp_eq_ok.mp h
  refine ⟨ram₁, hboot, ?_⟩
  intro a _
  have hmem := mem_load hload a
  constructor
  · intro hclear
    rw [hmem, imageByte_of_not_covers hclear]
  · intro pre s post hsegs hs hpost
    rw [hmem, hsegs, imageByte_of_last hs hpost]

theorem artefacts_at_entry_gdtKernel :
    ∃ ram₁ ram₂, (writeArtefacts .release "console=ttyS0" 2).run twoMib = (.ok (), ram₁) ∧
      (setUp .release "console=ttyS0" 2 "vmlinux" gdtKernel).run twoMib = (.ok ⟨0x100000⟩, ram₂) ∧
      ∀ a, Artefact "console=ttyS0" a →
        ((∀ s ∈ segments gdtKernel.bytes, ¬ s.Covers a) → ram₂.mem a = ram₁.mem a) ∧
        ∀ pre s post, segments gdtKernel.bytes = pre ++ s :: post → s.Covers a →
          (∀ t ∈ post, ¬ t.Covers a) → ram₂.mem a = s.byteAt gdtKernel.bytes a := by
  obtain ⟨ram, ram₂, hboot, -, hload⟩ := boot_gdtKernel
  have h := setUp_eq_ok.mpr ⟨ram, hboot, hload⟩
  obtain ⟨ram₁, hboot₁, hbytes⟩ := artefacts_at_entry .release "console=ttyS0" "vmlinux" 2
    gdtKernel ⟨0x100000⟩ twoMib ram₂ h
  exact ⟨ram₁, ram₂, hboot₁, h, hbytes⟩

/-- The GDT's code descriptor does not survive this load. -/
theorem not_artefacts_survive :
    ¬ ∀ (p : Profile) (alloc : Nat → Result Unit) (cmdline path : String) (minRam : UInt64)
      (file : Content) (kernel : LoadedKernel) (ram ram₁ ram₂ : GuestRam),
      GuestRam.new alloc minRam = .ok ram →
      (writeArtefacts p cmdline minRam).run ram = (.ok (), ram₁) →
      (load p path (.ok file)).run ram₁ = (.ok kernel, ram₂) →
      ∀ a, Artefact cmdline a → ram₂.mem a = ram₁.mem a := by
  intro hall
  obtain ⟨ram₁, ram₂, hboot, himage, hload⟩ := boot_gdtKernel
  have hkept := hall .release (fun _ => .ok ()) "console=ttyS0" "vmlinux" 2 gdtKernel ⟨0x100000⟩
    twoMib ram₁ ram₂ new_twoMib hboot hload
  have hzero : ∀ i, i < 8 → ram₁.mem (0x508 + i) = 0 := by
    intro i hi
    rw [← hkept (0x508 + i) (Or.inl ⟨by unfold bootGdtOffset; omega,
      by unfold bootIdtOffset; omega⟩), mem_load hload, segments_gdtKernel]
    have hcov : gdtSegment.Covers (0x508 + i) := ⟨by simp [gdtSegment], by simp [gdtSegment]; omega⟩
    show (if gdtSegment.Covers (0x508 + i) then gdtSegment.byteAt gdtKernel.bytes (0x508 + i)
      else ram₁.mem (0x508 + i)) = 0
    rw [if_pos hcov, Segment.byteAt, if_neg (by simp [gdtSegment])]
  have hread := himage.gdt 1 0x00af9b000000ffff rfl
  obtain ⟨-, hval⟩ := readObj_eq_ok.mp hread
  have hwin : window ram₁.mem (bootGdtOffset + 1 * 8) (Pod.size UInt64) =
      window (fun _ => 0) (bootGdtOffset + 1 * 8) 8 := window_congr hzero
  rw [hwin] at hval
  revert hval
  decide

end HyperPod
