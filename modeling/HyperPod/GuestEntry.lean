import HyperPod.VcpuEntry
import HyperPod.BootArtefacts
import HyperPod.VcpuRegisters

/-!
# The guest at its first instruction

What `run_vm` has put together when it first enters the vCPU: the boot image, the kernel
over it, and the registers.  When the kernel spares the boot artefacts the pieces fit
(`boots_guest`): the segment registers hold the descriptors that their selectors name in
the GDT, CR3 leads to the identity map, RSI to the boot parameters, and these to the command
line; and the state is the same on KVM and on WHPX.
-/

namespace HyperPod

open Machine Bytes GuestRam HostFile Paging Boot Elf

/-- No PT_LOAD image touches a boot artefact. -/
def SparesArtefacts (cmdline : String) (bytes : List UInt8) : Prop :=
  ∀ i < phnum bytes, ∀ a, Artefact cmdline a → ¬ HeaderCovers bytes i a

/-- The descriptor that a selector names. -/
def gdtDescriptor (ram : GuestRam) (gdtr : TableRegister) (selector : Nat) : Option UInt64 :=
  if selector / 8 * 8 + 7 ≤ gdtr.limit then
    (ram.readObj (gdtr.base + selector / 8 * 8) : Result UInt64).toOption
  else none

/-- 64-bit mode, with paging. -/
structure LongMode (v : VcpuState) : Prop where
  protection : v.cr0 &&& cr0Pe ≠ 0
  paging : v.cr0 &&& cr0Pg ≠ 0
  pae : v.cr4 &&& cr4Pae ≠ 0
  enabled : v.efer &&& eferLme ≠ 0
  active : v.efer &&& eferLma ≠ 0
  /-- a present 64-bit code segment -/
  code : v.cs.present = 1 ∧ v.cs.s = 1 ∧ 8 ≤ v.cs.type ∧ v.cs.l = 1 ∧ v.cs.db = 0

/-- What a 64-bit kernel is promised at its entry. -/
structure BootsGuest (cmdline : String) (ramBytes : Nat) (entry : UInt64) (ram : GuestRam)
    (v : VcpuState) : Prop where
  image : BootImage cmdline ramBytes ram
  longMode : LongMode v
  rip : v.rip = entry
  /-- the code and data segments are flat, and what the GDT says they are -/
  segments : ∀ r ∈ [v.cs, v.ds, v.es, v.fs, v.gs, v.ss], r.base = 0 ∧ r.limit = 2 ^ 32 - 1 ∧
    ∃ d, gdtDescriptor ram v.gdtr r.selector = some d ∧ r = .load r.selector d.toNat
  identity : ∀ va, va < 2 ^ 30 → walk ram.mem v.cr3.toNat va = .page va (2 ^ 21) true
  /-- RSI points to the boot parameters, -/
  params : ram.readObj (v.rsi.toNat + offsetHdrHeader) = .ok kernelHdrMagic
  /-- and these to the command line, -/
  commandLine : ∃ ptr : UInt32, ram.readObj (v.rsi.toNat + offsetHdrCmdLinePtr) = .ok ptr ∧
    ram.readSlice ptr.toNat (asBytes cmdline).length = .ok (asBytes cmdline) ∧
    ram.readObj (ptr.toNat + (asBytes cmdline).length) = .ok (0 : UInt8)
  /-- which the stack does not reach before it has grown by 4080 bytes. -/
  stack : ∀ a, v.rsp.toNat - 4080 ≤ a → a < v.rsp.toNat → ¬ Artefact cmdline a
  interruptsOff : v.rflags &&& 0x200 = 0

/-! ## The image under a kernel that spares it -/

section
variable {ram ram' : GuestRam} {cmdline : String}

theorem readSlice_congr {gpa n : Nat} (hsize : ram'.size = ram.size)
    (h : ∀ i, i < n → ram'.mem (gpa + i) = ram.mem (gpa + i)) :
    ram'.readSlice gpa n = ram.readSlice gpa n := by
  unfold readSlice
  rw [hsize, window_congr h]

theorem readObj_congr {T : Type} [Pod T] {gpa : Nat} (hsize : ram'.size = ram.size)
    (h : ∀ i, i < Pod.size T → ram'.mem (gpa + i) = ram.mem (gpa + i)) :
    (ram'.readObj gpa : Result T) = ram.readObj gpa := by
  unfold readObj
  rw [readSlice_congr hsize h]

theorem readE820Entry_congr {base : Nat} (hsize : ram'.size = ram.size)
    (h : ∀ i, i < 20 → ram'.mem (base + i) = ram.mem (base + i)) :
    readE820Entry ram' base = readE820Entry ram base := by
  have hfield : ∀ (T : Type) [Pod T] (k : Nat), k + Pod.size T ≤ 20 →
      (ram'.readObj (base + k) : Result T) = ram.readObj (base + k) := by
    intro T _ k hk
    refine readObj_congr hsize fun i hi => ?_
    rw [Nat.add_assoc]
    exact h (k + i) (by omega)
  have haddr : (ram'.readObj base : Result UInt64) = ram.readObj base :=
    hfield UInt64 0 (by decide)
  unfold readE820Entry
  rw [haddr, hfield UInt64 8 (by decide), hfield UInt32 16 (by decide)]

theorem readE820Entries_congr {n base : Nat} (hsize : ram'.size = ram.size)
    (h : ∀ i, i < 20 * n → ram'.mem (base + i) = ram.mem (base + i)) :
    readE820Entries ram' n base = readE820Entries ram n base := by
  induction n generalizing base with
  | zero => rfl
  | succ n ih =>
    have hrest : readE820Entries ram' n (base + 20) = readE820Entries ram n (base + 20) := by
      apply ih
      intro i hi
      rw [Nat.add_assoc]
      exact h (20 + i) (by omega)
    rw [readE820Entries, readE820Entries, hrest,
      readE820Entry_congr hsize fun i hi => h i (by omega)]

theorem length_readE820Entries {n base : Nat} {entries : List E820Entry}
    (h : readE820Entries ram n base = .ok entries) : entries.length = n := by
  induction n generalizing base entries with
  | zero =>
    cases h
    rfl
  | succ n ih =>
    obtain ⟨entry, -, h⟩ := Outcome.bind_eq_ok.mp h
    obtain ⟨rest, hrest, h⟩ := Outcome.bind_eq_ok.mp h
    cases h
    rw [List.length_cons, ih hrest]

/-- The table has room for 127 entries in its page. -/
theorem readE820_congr {entries : List E820Entry} (h : readE820 ram = .ok entries)
    (hlen : entries.length ≤ 127) (hsize : ram'.size = ram.size)
    (hpage : ∀ a, zeroPageStart ≤ a → a < zeroPageStart + 0x1000 → ram'.mem a = ram.mem a) :
    readE820 ram' = .ok entries := by
  obtain ⟨count, hcount, hentries⟩ := Outcome.bind_eq_ok.mp h
  have hcount' : ram'.readObj (zeroPageStart + offsetE820Entries) = .ok count := by
    rw [← hcount]
    refine readObj_congr hsize fun i hi => ?_
    rw [size_uint8] at hi
    exact hpage _ (by omega) (by unfold offsetE820Entries; omega)
  have hn := length_readE820Entries hentries
  unfold readE820
  rw [hcount', Outcome.ok_bind, ← hentries]
  refine readE820Entries_congr hsize fun i hi => ?_
  exact hpage _ (by omega) (by unfold offsetE820Table; omega)

/-- The image survives whatever keeps the artefacts. -/
theorem bootImage_of_kept {n : Nat} (himage : BootImage cmdline n ram)
    (htables : IdentityTables ram.mem) (hsize : ram'.size = ram.size)
    (hkept : ∀ a, Artefact cmdline a → ram'.mem a = ram.mem a) : BootImage cmdline n ram' := by
  have hlow : ∀ a, bootGdtOffset ≤ a → a < bootIdtOffset + 8 → ram'.mem a = ram.mem a :=
    fun a hlo hhi => hkept a (Or.inl ⟨hlo, hhi⟩)
  have hpage : ∀ a, zeroPageStart ≤ a → a < zeroPageStart + 0x1000 → ram'.mem a = ram.mem a :=
    fun a hlo hhi => hkept a (Or.inr (Or.inl ⟨hlo, hhi⟩))
  have htables' : IdentityTables ram'.mem := identityTables_congr htables fun a hlo hhi =>
    hkept a (Or.inr (Or.inr (Or.inl ⟨hlo, hhi⟩)))
  have hline : ∀ a, cmdlineStart ≤ a → a ≤ cmdlineStart + (asBytes cmdline).length →
      ram'.mem a = ram.mem a := fun a hlo hhi => hkept a (Or.inr (Or.inr (Or.inr ⟨hlo, hhi⟩)))
  have hfield : ∀ {T : Type} [Pod T] {off : Nat} {v : T}, off + Pod.size T ≤ 0x1000 →
      ram.readObj (zeroPageStart + off) = .ok v → ram'.readObj (zeroPageStart + off) = .ok v := by
    intro T _ off v hoff hv
    rw [← hv]
    exact readObj_congr hsize fun i hi => hpage _ (by omega) (by omega)
  exact {
    size := hsize.trans himage.size
    identity := fun va => walk_low htables'
    unmapped := fun va => walk_high htables'
    gdt := fun i entry hi => by
      have hlt : i < 4 := (List.getElem?_eq_some_iff.mp hi).1
      rw [← himage.gdt i entry hi]
      refine readObj_congr hsize fun k hk => hlow _ (by omega) ?_
      rw [size_uint64] at hk
      unfold bootGdtOffset bootIdtOffset
      omega
    idt := by
      rw [← himage.idt]
      refine readObj_congr hsize fun k hk =>
        hlow _ (by unfold bootIdtOffset bootGdtOffset; omega) ?_
      rw [size_uint64] at hk
      omega
    cmdlineBytes := by
      rw [← himage.cmdlineBytes]
      refine readSlice_congr hsize fun k hk => ?_
      exact hline _ (by omega) (by omega)
    terminator := by
      rw [← himage.terminator]
      refine readObj_congr hsize fun k hk => ?_
      rw [size_uint8] at hk
      exact hline _ (by omega) (by omega)
    bootFlag := hfield (by decide) himage.bootFlag
    header := hfield (by decide) himage.header
    version := hfield (by decide) himage.version
    typeOfLoader := hfield (by decide) himage.typeOfLoader
    kernelAlignment := hfield (by decide) himage.kernelAlignment
    cmdLinePtr := hfield (by decide) himage.cmdLinePtr
    cmdlineSize := hfield (by decide) himage.cmdlineSize
    e820 := readE820_congr himage.e820 (by split <;> simp) hsize hpage }

end

/-! ## The entry -/

theorem longMode_entryState (entry : UInt64) : LongMode (entryState entry) where
  protection := show (0x80000001 : UInt64) &&& cr0Pe ≠ 0 by decide
  paging := show (0x80000001 : UInt64) &&& cr0Pg ≠ 0 by decide
  pae := show (0x20 : UInt64) &&& cr4Pae ≠ 0 by decide
  enabled := show (0x500 : UInt64) &&& eferLme ≠ 0 by decide
  active := show (0x500 : UInt64) &&& eferLma ≠ 0 by decide
  code := ⟨rfl, rfl, show 8 ≤ 11 by decide, rfl, rfl⟩

/-- A kernel descriptor is where the GDTR and its selector say it is. -/
theorem readDescriptor_image {cmdline : String} {n i : Nat} {ram : GuestRam} {d : UInt64}
    (himage : BootImage cmdline n ram) (hd : gdtEntries[i]? = some d) :
    gdtDescriptor ram ⟨bootGdtOffset, 31⟩ (i * 8) = some d := by
  have hlt : i < 4 := (List.getElem?_eq_some_iff.mp hd).1
  have hlimit : i * 8 / 8 * 8 + 7 ≤ 31 := by omega
  have hoff : i * 8 / 8 * 8 = i * 8 := by omega
  unfold gdtDescriptor
  rw [if_pos hlimit, hoff, himage.gdt i d hd]
  rfl

theorem bootsGuest_of_image {cmdline : String} {n : Nat} {ram : GuestRam}
    (himage : BootImage cmdline n ram) (entry : UInt64) :
    BootsGuest cmdline n entry ram (entryState entry) := by
  have hcode : gdtDescriptor ram ⟨bootGdtOffset, 31⟩ 0x08 = some 0x00af9b000000ffff :=
    readDescriptor_image himage (i := 1) rfl
  have hdata : gdtDescriptor ram ⟨bootGdtOffset, 31⟩ 0x10 = some 0x00cf93000000ffff :=
    readDescriptor_image himage (i := 2) rfl
  exact {
    image := himage
    longMode := longMode_entryState entry
    rip := rfl
    segments := by
      intro r hr
      have hcases : r = (entryState entry).cs ∨ r = (entryState entry).ds := by
        rcases List.mem_cons.mp hr with rfl | hr
        · exact Or.inl rfl
        · exact Or.inr (List.eq_of_mem_replicate (n := 5) hr)
      rcases hcases with rfl | rfl
      · exact ⟨rfl, rfl, _, hcode, rfl⟩
      · exact ⟨rfl, rfl, _, hdata, rfl⟩
    identity := himage.identity
    params := himage.header
    commandLine := ⟨_, himage.cmdLinePtr, himage.cmdlineBytes, himage.terminator⟩
    stack := by
      intro a hlo hhi
      have htop : (entryState entry).rsp.toNat = 0x8ff0 := rfl
      rw [htop] at hlo hhi
      unfold Artefact bootGdtOffset bootIdtOffset zeroPageStart pml4Start pdeStart cmdlineStart
      omega
    interruptsOff := show (2 : UInt64) &&& 0x200 = 0 by decide }

/-- A set-up that returns, with a kernel that spares the artefacts. -/
theorem bootsGuest_of_setUp {p : Profile} {alloc : Nat → Result Unit} {cmdline path : String}
    {minRam : UInt64} {file : Content} {kernel : LoadedKernel} {fresh ram : GuestRam}
    (hnew : GuestRam.new alloc minRam = .ok fresh)
    (hsetup : (setUp p cmdline minRam path file).run fresh = (.ok kernel, ram))
    (hspares : SparesArtefacts cmdline file.bytes) :
    BootsGuest cmdline (minRam.toNat * mib) (valAt UInt64 file.bytes 24) ram
      (entryState kernel.entry) := by
  obtain ⟨ram₁, hboot, hload⟩ := setUp_eq_ok.mp hsetup
  obtain ⟨hlt, hsize, hzero⟩ := new_eq_ok hnew
  have htables := identityTables_of_writeArtefacts hnew hboot
  obtain ⟨hfits, -, rfl⟩ := (writes_writeArtefacts hlt fresh () ram₁).mp hboot
  obtain ⟨-, hloop, rfl⟩ := run_loadWith_eq_ok.mp hload
  obtain ⟨hsize', hmem, -, -⟩ := run_loadHeaders_exact file.len_lt hloop
  rw [← List.range_eq_range'] at hmem
  have hkept : ∀ a, Artefact cmdline a →
      ram.mem a = (fresh.puts (bootWrites cmdline (UInt64.ofNat (minRam.toNat * mib)))).mem a := by
    intro a ha
    rw [hmem]
    exact layHeaders_of_not_covers fun j hj => hspares j (List.mem_range.mp hj) a ha
  exact bootsGuest_of_image
    (bootImage_of_kept (bootImage_puts hsize hlt hzero hfits) htables hsize' hkept) _

/-- **The guest boots.**  Whatever the vCPU's registers were, KVM and WHPX enter the guest in
one state; and on the RAM that the set-up leaves, when the kernel spares the artefacts, the
guest finds there what a 64-bit kernel is promised. -/
theorem boots_guest (p : Profile) (alloc : Nat → Result Unit) (cmdline path : String)
    (minRam : UInt64) (file : Content) (kernel : LoadedKernel) (fresh ram : GuestRam)
    (sregs : KvmSregs) (regs : KvmRegs) (whv : WhvRegisters) :
    kvmState (Kvm.longModeSregs sregs) (Kvm.entryRegs regs kernel.entry) =
        whpxState (Whpx.setRegisters whv Whpx.longModeNames
          (Whpx.longModeValues kernel.entry)) ∧
      (GuestRam.new alloc minRam = .ok fresh →
        (setUp p cmdline minRam path file).run fresh = (.ok kernel, ram) →
        SparesArtefacts cmdline file.bytes →
        BootsGuest cmdline (minRam.toNat * mib) (valAt UInt64 file.bytes 24) ram
          (kvmState (Kvm.longModeSregs sregs) (Kvm.entryRegs regs kernel.entry))) := by
  rw [kvmState_configured, whpxState_configured]
  exact ⟨rfl, bootsGuest_of_setUp⟩

theorem sparesArtefacts_wholeKernel : SparesArtefacts "console=ttyS0" wholeKernel.bytes := by
  rintro i hi a ha ⟨s, hs, hlo, hhi⟩
  rw [phnum_wholeKernel, Nat.lt_one_iff] at hi
  subst hi
  rw [headerSegment_wholeKernel] at hs
  cases hs
  have hstart : wholeSegment.paddr = 0x100000 := rfl
  have hlen : (asBytes "console=ttyS0").length = 13 := by decide
  unfold Artefact bootGdtOffset bootIdtOffset zeroPageStart pml4Start pdeStart cmdlineStart at ha
  omega

/-- The kernel that is its own image boots, whatever the registers were. -/
theorem boots_guest_wholeKernel :
    ∃ ram, (setUp .release "console=ttyS0" 2 "vmlinux" wholeKernel).run twoMib =
        (.ok ⟨0x100000⟩, ram) ∧
      ∀ sregs regs, BootsGuest "console=ttyS0" (2 * mib) 0x100000 ram
        (kvmState (Kvm.longModeSregs sregs) (Kvm.entryRegs regs 0x100000)) := by
  obtain ⟨ram₁, hboot, himage⟩ := @run_writeArtefacts .release 2 (by decide) (by decide) twoMib
    rfl (fun _ => rfl) _ cmdline_console
  obtain ⟨ram, hload⟩ := run_load_wholeKernel ram₁ (by rw [himage.size]; decide)
    (by rw [himage.size]; decide)
  have hsetup := setUp_eq_ok.mpr ⟨ram₁, hboot, hload⟩
  have hentry : valAt UInt64 wholeKernel.bytes 24 = 0x100000 := by decide +kernel
  refine ⟨ram, hsetup, fun sregs regs => ?_⟩
  have h := boots_guest .release (fun _ => .ok ()) "console=ttyS0" "vmlinux" 2 wholeKernel
    ⟨0x100000⟩ twoMib ram sregs regs (fun _ => .reg64 0)
  rw [hentry] at h
  exact h.2 new_twoMib hsetup sparesArtefacts_wholeKernel

end HyperPod
