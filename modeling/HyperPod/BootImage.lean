import HyperPod.Boot
import HyperPod.Lib.Paging

/-!
# The memory image the guest boots from

On fresh RAM of at least 1 MiB, whenever the command line fits, the four writers all
succeed and leave a complete image (`bootImage_of_new`): the page tables identity-map
the first GiB and nothing else, and every field reads back as it was written, since no
writer meets another.
-/

namespace HyperPod

open Machine Bytes GuestRam Paging Boot

namespace Boot

theorem toNat_pdEntry {i : Nat} (h : i < 512) : (pdEntry i).toNat = i * 2 ^ 21 + 131 := by
  have hi : (UInt64.ofNat i).toNat = i := by
    rw [UInt64.toNat_ofNat']
    exact Nat.mod_eq_of_lt (by omega)
  unfold pdEntry
  rw [UInt64.toNat_or, UInt64.toNat_shiftLeft, hi]
  show (i <<< 21) % 2 ^ 64 ||| 131 = _
  have hlt : i <<< 21 < 2 ^ 64 := by
    rw [Nat.shiftLeft_eq]
    omega
  rw [Nat.mod_eq_of_lt hlt, ← Nat.shiftLeft_add_eq_or_of_lt (by decide), Nat.shiftLeft_eq]

/-- An entry of the e820 table. -/
structure E820Entry where
  addr : UInt64
  size : UInt64
  type : UInt32
deriving Repr, DecidableEq

def readE820Entry (ram : GuestRam) (base : Nat) : Result E820Entry := do
  let addr ← ram.readObj base
  let size ← ram.readObj (base + 8)
  let type ← ram.readObj (base + 16)
  return { addr, size, type }

def readE820Entries (ram : GuestRam) : Nat → Nat → Result (List E820Entry)
  | 0, _ => .ok []
  | left + 1, base => do
    let entry ← readE820Entry ram base
    let entries ← readE820Entries ram left (base + 20)
    return entry :: entries

/-- The e820 table as the kernel reads it from the zero page. -/
def readE820 (ram : GuestRam) : Result (List E820Entry) := do
  let count : UInt8 ← ram.readObj (zeroPageStart + offsetE820Entries)
  readE820Entries ram count.toNat (zeroPageStart + offsetE820Table)

/-- What the guest finds in memory, with `ramBytes` bytes of RAM. -/
structure BootImage (cmdline : String) (ramBytes : Nat) (ram : GuestRam) : Prop where
  size : ram.size = ramBytes
  /-- the first GiB is mapped to itself -/
  identity : ∀ va, va < 2 ^ 30 → walk ram.mem pml4Start va = .page va (2 ^ 21) true
  /-- nothing else is mapped -/
  unmapped : ∀ va, Canonical va → 2 ^ 30 ≤ va → walk ram.mem pml4Start va = .notPresent
  gdt : ∀ i entry, gdtEntries[i]? = some entry →
    ram.readObj (bootGdtOffset + i * 8) = .ok entry
  idt : ram.readObj bootIdtOffset = .ok (0 : UInt64)
  cmdlineBytes : ram.readSlice cmdlineStart (asBytes cmdline).length = .ok (asBytes cmdline)
  terminator : ram.readObj (cmdlineStart + (asBytes cmdline).length) = .ok (0 : UInt8)
  bootFlag : ram.readObj (zeroPageStart + offsetHdrBootFlag) = .ok kernelBootFlagMagic
  header : ram.readObj (zeroPageStart + offsetHdrHeader) = .ok kernelHdrMagic
  version : ram.readObj (zeroPageStart + offsetHdrVersion) = .ok bootProtocolVersion
  typeOfLoader : ram.readObj (zeroPageStart + offsetHdrTypeOfLoader) = .ok kernelLoaderOther
  kernelAlignment : ram.readObj (zeroPageStart + offsetHdrKernelAlignment) = .ok kernelMinAlign
  cmdLinePtr : ram.readObj (zeroPageStart + offsetHdrCmdLinePtr) =
    .ok (UInt32.ofNat cmdlineStart)
  cmdlineSize : ram.readObj (zeroPageStart + offsetHdrCmdlineSize) =
    .ok (UInt32.ofNat (asBytes cmdline).length)
  /-- one RAM entry, `[1 MiB, ramBytes)`, or none when RAM ends there -/
  e820 : readE820 ram = .ok (if himemStart < ramBytes then
    [⟨UInt64.ofNat himemStart, UInt64.ofNat (ramBytes - himemStart), e820Ram⟩] else [])

section
variable {cmdline : String} {ramBytes : UInt64} {ram : GuestRam}

/-- A value among the boot writes reads back. -/
theorem readObj_of_mem {T : Type} [Pod T] {gpa : Nat} {v : T}
    (hfits : ram.Fits (bootWrites cmdline ramBytes))
    (hw : (gpa, Pod.toBytes v) ∈ bootWrites cmdline ramBytes) :
    (ram.puts (bootWrites cmdline ramBytes)).readObj gpa = .ok v :=
  readObj_puts (bootWrites_apart cmdline ramBytes) hfits hw

theorem mem_gdt {w : Patch UInt8} (h : w ∈ gdtWrites) : w ∈ bootWrites cmdline ramBytes :=
  List.mem_append_left _ h

theorem mem_pageTables {w : Patch UInt8} (h : w ∈ pageTableWrites) :
    w ∈ bootWrites cmdline ramBytes :=
  List.mem_append_right _ (List.mem_append_left _ h)

theorem mem_cmdline {w : Patch UInt8} (h : w ∈ cmdlineWrites cmdline) :
    w ∈ bootWrites cmdline ramBytes :=
  List.mem_append_right _ (List.mem_append_right _ (List.mem_append_left _ h))

theorem mem_zeroPage {w : Patch UInt8}
    (h : w ∈ zeroPageWrites (asBytes cmdline).length ramBytes) :
    w ∈ bootWrites cmdline ramBytes :=
  List.mem_append_right _ (List.mem_append_right _ (List.mem_append_right _ h))

theorem mem_header {w : Patch UInt8} (h : w ∈ headerWrites (asBytes cmdline).length) :
    w ∈ bootWrites cmdline ramBytes :=
  mem_zeroPage (List.mem_append_left _ h)

/-! ## The page tables -/

/-- The entries of the two upper tables after the first stay clear. -/
theorem clear_of_upperTables {a : Nat}
    (h : 0x9008 ≤ a ∧ a < 0xa000 ∨ 0xa008 ≤ a ∧ a < 0xb000) :
    ∀ w ∈ bootWrites cmdline ramBytes, ClearOf a w := by
  intro w hw
  rcases List.mem_append.mp hw with hw | hw
  · exact clearOf_of_within (within_gdtWrites w hw) (by omega)
  rcases List.mem_append.mp hw with hw | hw
  · rcases List.mem_append.mp hw with hw | hw
    · rcases List.mem_cons.mp hw with rfl | hw
      · show a < 0x9000 ∨ 0x9000 + 8 ≤ a
        omega
      · rw [List.mem_singleton.mp hw]
        show a < 0xa000 ∨ 0xa000 + 8 ≤ a
        omega
    · have hpd := within_entryWrites _ _ _ w hw
      exact clearOf_of_within hpd (by unfold pdeStart; omega)
  rcases List.mem_append.mp hw with hw | hw
  · exact clearOf_of_within (within_cmdlineWrites cmdline w hw) (by omega)
  · exact clearOf_of_within (within_zeroPageWrites _ _ w hw) (by omega)

/-- The paging structures of the 1 GiB identity map. -/
structure IdentityTables (mem : Nat → UInt8) : Prop where
  root : readEntry mem pml4Start = pdpteStart + 3
  rootRest : ∀ i, 0 < i → i < 512 → readEntry mem (pml4Start + i * 8) = 0
  pdpt : readEntry mem pdpteStart = pdeStart + 3
  pdptRest : ∀ i, 0 < i → i < 512 → readEntry mem (pdpteStart + i * 8) = 0
  pd : ∀ i, i < 512 → readEntry mem (pdeStart + i * 8) = i * 2 ^ 21 + 131

theorem readEntry_puts {ws : List (Patch UInt8)} (hapart : ws.Pairwise Apart) {a : Nat}
    {v : UInt64} (hw : (a, Pod.toBytes v) ∈ ws) : readEntry (ram.puts ws).mem a = v.toNat := by
  have hback := window_overlays (m := ram.mem) hapart hw
  rw [Pod.length_toBytes] at hback
  exact readEntry_of_window hback

theorem readEntry_of_mem {a : Nat} {v : UInt64}
    (hw : (a, Pod.toBytes v) ∈ bootWrites cmdline ramBytes) :
    readEntry (ram.puts (bootWrites cmdline ramBytes)).mem a = v.toNat :=
  readEntry_puts (bootWrites_apart cmdline ramBytes) hw

theorem readEntry_of_clear (hzero : ∀ a, ram.mem a = 0) {a : Nat}
    (h : 0x9008 ≤ a ∧ a + 8 ≤ 0xa000 ∨ 0xa008 ≤ a ∧ a + 8 ≤ 0xb000) :
    readEntry (ram.puts (bootWrites cmdline ramBytes)).mem a = 0 := by
  apply readEntry_zero
  intro k hk
  rw [mem_puts, overlays_of_clear (clear_of_upperTables (by omega)), hzero]

theorem identityTables (hzero : ∀ a, ram.mem a = 0) :
    IdentityTables (ram.puts (bootWrites cmdline ramBytes)).mem := by
  refine ⟨?_, ?_, ?_, ?_, ?_⟩
  · have hmem : (pml4Start, Pod.toBytes pml4Entry) ∈ upperTableWrites := List.mem_cons_self
    exact readEntry_of_mem (mem_pageTables (List.mem_append_left _ hmem))
  · intro i h0 hi
    apply readEntry_of_clear hzero
    unfold pml4Start
    omega
  · have hmem : (pdpteStart, Pod.toBytes pdpteEntry) ∈ upperTableWrites :=
      List.mem_cons_of_mem _ List.mem_cons_self
    exact readEntry_of_mem (mem_pageTables (List.mem_append_left _ hmem))
  · intro i h0 hi
    apply readEntry_of_clear hzero
    unfold pdpteStart
    omega
  · intro i hi
    have hget : ((List.range 512).map pdEntry)[i]? = some (pdEntry i) := by
      rw [List.getElem?_map, List.getElem?_range hi]
      rfl
    have hmem := mem_entryWrites pdeStart 0 hget
    rw [Nat.zero_add] at hmem
    rw [readEntry_of_mem (mem_pageTables (List.mem_append_right _ hmem)), toNat_pdEntry hi]

/-! ## Walking them -/

variable {mem : Nat → UInt8} {va : Nat}

/-- An entry of the PD: a present, writable 2 MiB page. -/
theorem pdEntry_bits {n : Nat} (h : n < 512) : present (n * 2 ^ 21 + 131) = true ∧
    pageSize (n * 2 ^ 21 + 131) = true ∧ writable (n * 2 ^ 21 + 131) = true ∧
      frame 21 (n * 2 ^ 21 + 131) = n * 2 ^ 21 := by
  refine ⟨?_, ?_, ?_, ?_⟩
  · unfold present
    exact decide_eq_true (by omega)
  · unfold pageSize
    exact decide_eq_true (by omega)
  · unfold writable
    exact decide_eq_true (by omega)
  · unfold frame
    omega

theorem walk_low (h : IdentityTables mem) (hva : va < 2 ^ 30) :
    walk mem pml4Start va = .page va (2 ^ 21) true := by
  have h39 : index 39 va = 0 := by
    unfold index
    omega
  have h30 : index 30 va = 0 := by
    unfold index
    omega
  have h21 : index 21 va = va / 2 ^ 21 := by
    unfold index
    omega
  have hroot : readEntry mem (pml4Start + index (12 + 9 * 3) va * 8) = pdpteStart + 3 := by
    rw [h39]
    exact h.root
  have hpdpt : readEntry mem (pdpteStart + index (12 + 9 * 2) va * 8) = pdeStart + 3 := by
    rw [h30]
    exact h.pdpt
  have hpd : readEntry mem (pdeStart + index 21 va * 8) = va / 2 ^ 21 * 2 ^ 21 + 131 := by
    rw [h21]
    exact h.pd _ (by omega)
  obtain ⟨hpresent, hhuge, hwritable, hframe⟩ := pdEntry_bits (n := va / 2 ^ 21) (by omega)
  have hpage : va / 2 ^ 21 * 2 ^ 21 + va % 2 ^ 21 = va := Nat.div_add_mod' va (2 ^ 21)
  unfold walk
  rw [walkFrom_table hroot rfl rfl]
  show walkFrom mem va 3 pdpteStart true = _
  rw [walkFrom_table hpdpt rfl rfl]
  show walkFrom mem va 2 pdeStart true = _
  rw [walkFrom_huge hpd hpresent hhuge, hframe, hwritable, hpage]
  rfl

/-- A canonical address past the first GiB selects an empty entry of one of the upper
tables. -/
theorem walk_high (h : IdentityTables mem) (hc : Canonical va) (hva : 2 ^ 30 ≤ va) :
    walk mem pml4Start va = .notPresent := by
  unfold walk
  by_cases h39 : index 39 va = 0
  · have hlow : va < 2 ^ 39 := by
      unfold index at h39
      rcases hc with hc | hc <;> omega
    have hpos : 0 < index 30 va ∧ index 30 va < 512 := by
      unfold index
      omega
    have hroot : readEntry mem (pml4Start + index (12 + 9 * 3) va * 8) = pdpteStart + 3 := by
      rw [h39]
      exact h.root
    rw [walkFrom_table hroot rfl rfl]
    show walkFrom mem va 3 pdpteStart true = _
    exact walkFrom_zero_entry (h.pdptRest _ hpos.1 hpos.2)
  · have hlt : index 39 va < 512 := Nat.mod_lt _ (by decide)
    exact walkFrom_zero_entry (h.rootRest _ (Nat.pos_of_ne_zero h39) hlt)

/-! ## The e820 table -/

theorem above_iff (n : Nat) (hn : n < 2 ^ 64) :
    UInt64.ofNat n > UInt64.ofNat himemStart ↔ himemStart < n := by
  show UInt64.ofNat himemStart < UInt64.ofNat n ↔ himemStart < n
  rw [UInt64.lt_iff_toNat_lt, UInt64.toNat_ofNat', UInt64.toNat_ofNat', Nat.mod_eq_of_lt hn]
  exact Iff.rfl

theorem readE820_image {n : Nat} (hn : n < 2 ^ 64)
    (hfits : ram.Fits (bootWrites cmdline (UInt64.ofNat n))) :
    readE820 (ram.puts (bootWrites cmdline (UInt64.ofNat n))) = .ok (if himemStart < n then
      [⟨UInt64.ofNat himemStart, UInt64.ofNat (n - himemStart), e820Ram⟩] else []) := by
  have hcount : (ram.puts (bootWrites cmdline (UInt64.ofNat n))).readObj
      (zeroPageStart + offsetE820Entries) = .ok (e820Count (UInt64.ofNat n)) :=
    readObj_of_mem hfits (mem_zeroPage (List.mem_append_right _ (List.mem_append_right _
      (List.mem_singleton.mpr rfl))))
  unfold readE820
  rw [hcount, Outcome.ok_bind]
  unfold e820Count
  by_cases h : himemStart < n
  · have habove := (above_iff n hn).mpr h
    have hentry : ∀ w ∈ e820Writes (zeroPageStart + offsetE820Table) (UInt64.ofNat n),
        w ∈ bootWrites cmdline (UInt64.ofNat n) := fun w hw =>
      mem_zeroPage (List.mem_append_right _ (List.mem_append_left _ hw))
    unfold e820Writes at hentry
    rw [if_pos habove] at hentry
    simp only [List.forall_mem_cons] at hentry
    obtain ⟨haddr, hsize, htype, -⟩ := hentry
    have hsub : UInt64.ofNat n - UInt64.ofNat himemStart = UInt64.ofNat (n - himemStart) :=
      (UInt64.ofNat_sub (Nat.le_of_lt h)).symm
    rw [hsub] at hsize
    have hread : readE820Entry (ram.puts (bootWrites cmdline (UInt64.ofNat n)))
        (zeroPageStart + offsetE820Table) =
          .ok ⟨UInt64.ofNat himemStart, UInt64.ofNat (n - himemStart), e820Ram⟩ := by
      unfold readE820Entry
      rw [readObj_of_mem hfits haddr, Outcome.ok_bind, readObj_of_mem hfits hsize,
        Outcome.ok_bind, readObj_of_mem hfits htype, Outcome.ok_bind]
      rfl
    rw [if_pos habove, if_pos h]
    show readE820Entries _ 1 _ = _
    rw [readE820Entries, hread]
    rfl
  · rw [if_neg (fun habove => h ((above_iff n hn).mp habove)), if_neg h]
    rfl

/-! ## The whole image -/

theorem fits_bootWrites (hsize : 0x100000 ≤ ram.size) (hcmd : ram.Fits (cmdlineWrites cmdline)) :
    ram.Fits (bootWrites cmdline ramBytes) := by
  intro w hw
  rcases List.mem_append.mp hw with hw | hw
  · have hin := (within_gdtWrites w hw).2
    omega
  rcases List.mem_append.mp hw with hw | hw
  · have hin := (within_pageTableWrites w hw).2
    omega
  rcases List.mem_append.mp hw with hw | hw
  · exact hcmd w hw
  · have hin := (within_zeroPageWrites _ _ w hw).2
    omega

theorem bootImage_puts {n : Nat} (hsize : ram.size = n) (hn : n < 2 ^ 64)
    (hzero : ∀ a, ram.mem a = 0) (hfits : ram.Fits (bootWrites cmdline (UInt64.ofNat n))) :
    BootImage cmdline n (ram.puts (bootWrites cmdline (UInt64.ofNat n))) := by
  have htables : IdentityTables (ram.puts (bootWrites cmdline (UInt64.ofNat n))).mem :=
    identityTables hzero
  have hheader : ∀ w ∈ headerWrites (asBytes cmdline).length,
      w ∈ bootWrites cmdline (UInt64.ofNat n) := fun w hw => mem_header hw
  unfold headerWrites at hheader
  simp only [List.forall_mem_cons] at hheader
  obtain ⟨hflag, hmagic, hversion, hloader, halign, hptr, hlen, -⟩ := hheader
  have hcmd : ∀ w ∈ cmdlineWrites cmdline, w ∈ bootWrites cmdline (UInt64.ofNat n) :=
    fun w hw => mem_cmdline hw
  unfold cmdlineWrites at hcmd
  simp only [List.forall_mem_cons] at hcmd
  obtain ⟨hbytes, hnul, -⟩ := hcmd
  exact {
    size := (size_puts _).trans hsize
    identity := fun va => walk_low htables
    unmapped := fun va => walk_high htables
    gdt := fun i entry hi => by
      have hmem := mem_entryWrites bootGdtOffset 0 hi
      rw [Nat.zero_add] at hmem
      exact readObj_of_mem hfits (mem_gdt (List.mem_append_left _ hmem))
    idt := readObj_of_mem hfits (mem_gdt (List.mem_append_right _ (List.mem_singleton.mpr rfl)))
    cmdlineBytes := readSlice_puts (bootWrites_apart cmdline _) hfits hbytes
    terminator := readObj_of_mem hfits hnul
    bootFlag := readObj_of_mem hfits hflag
    header := readObj_of_mem hfits hmagic
    version := readObj_of_mem hfits hversion
    typeOfLoader := readObj_of_mem hfits hloader
    kernelAlignment := readObj_of_mem hfits halign
    cmdLinePtr := readObj_of_mem hfits hptr
    cmdlineSize := readObj_of_mem hfits hlen
    e820 := readE820_image hn hfits }

end

theorem new_eq_ok {alloc : Nat → Result Unit} {minRam : UInt64} {ram : GuestRam}
    (h : GuestRam.new alloc minRam = .ok ram) :
    minRam.toNat * mib < 2 ^ 64 ∧ ram.size = minRam.toNat * mib ∧ ∀ a, ram.mem a = 0 := by
  unfold GuestRam.new at h
  split at h
  · next hlt =>
    obtain ⟨u, -, hu⟩ := Outcome.bind_eq_ok.mp h
    cases hu
    exact ⟨hlt, rfl, fun _ => rfl⟩
  · cases h

/-- The writers on fresh RAM, when the command line fits. -/
theorem run_writeArtefacts (p : Profile) {minRam : UInt64} (hmin : 1 ≤ minRam.toNat)
    (hlt : minRam.toNat * mib < 2 ^ 64) {ram : GuestRam} (hsize : ram.size = minRam.toNat * mib)
    (hzero : ∀ a, ram.mem a = 0) {cmdline : String}
    (hcmd : ((writeCmdline cmdline).run ram).1 = .ok ()) :
    ∃ ram', (writeArtefacts p cmdline minRam).run ram = (.ok (), ram') ∧
      BootImage cmdline (minRam.toNat * mib) ram' := by
  have hmib : 0x100000 ≤ ram.size := by
    rw [hsize]
    exact Nat.le_mul_of_pos_left mib hmin
  have hcmdFits : ram.Fits (cmdlineWrites cmdline) :=
    ((writes_writeCmdline cmdline ram () _).mp (Prod.ext hcmd rfl)).1
  have hfits : ram.Fits (bootWrites cmdline (UInt64.ofNat (minRam.toNat * mib))) :=
    fits_bootWrites hmib hcmdFits
  exact ⟨_, (writes_writeArtefacts hlt ram () _).mpr ⟨hfits, rfl, rfl⟩,
    bootImage_puts hsize hlt hzero hfits⟩

/-- **The boot image.**  On RAM of at least 1 MiB fresh from `GuestRam::new`, and with a
command line that `write_cmdline` takes, the four writers succeed, the size
`min_ram * 1024 * 1024` does not overflow, and the image is complete. -/
theorem bootImage_of_new (p : Profile) (alloc : Nat → Result Unit) (minRam : UInt64)
    (hmin : 1 ≤ minRam.toNat) (ram : GuestRam) (hnew : GuestRam.new alloc minRam = .ok ram)
    (cmdline : String) (hcmd : ((writeCmdline cmdline).run ram).1 = .ok ()) :
    minRam.toNat * 1024 * 1024 < 2 ^ 64 ∧
    ∃ ram', (writeArtefacts p cmdline minRam).run ram = (.ok (), ram') ∧
      BootImage cmdline (minRam.toNat * 1024 * 1024) ram' := by
  obtain ⟨hlt, hsize, hzero⟩ := new_eq_ok hnew
  have hmul : minRam.toNat * 1024 * 1024 = minRam.toNat * mib := by
    rw [Nat.mul_assoc]
    rfl
  rw [hmul]
  exact ⟨hlt, run_writeArtefacts p hmin hlt hsize hzero hcmd⟩

/-- Two MiB of fresh RAM. -/
def twoMib : GuestRam := ⟨(2 : UInt64).toNat * mib, fun _ => 0, by decide⟩

theorem new_twoMib : GuestRam.new (fun _ => .ok ()) 2 = .ok twoMib := by
  unfold GuestRam.new
  rw [dif_pos (by decide)]
  rfl

theorem fits_twoMib {cmdline : String} (h : (asBytes cmdline).length < 0x1e0000) :
    twoMib.Fits (cmdlineWrites cmdline) := by
  intro w hw
  have hend := (within_cmdlineWrites cmdline w hw).2
  have hsize : twoMib.size = 0x200000 := rfl
  omega

theorem fits_console : twoMib.Fits (cmdlineWrites "console=ttyS0") := fits_twoMib (by decide)

theorem cmdline_console : ((writeCmdline "console=ttyS0").run twoMib).1 = .ok () :=
  congrArg Prod.fst ((writes_writeCmdline "console=ttyS0" twoMib () _).mpr
    ⟨fits_console, rfl, rfl⟩)

theorem bootImage_console :
    (2 : UInt64).toNat * 1024 * 1024 < 2 ^ 64 ∧
    ∃ ram', (writeArtefacts .debug "console=ttyS0" 2).run twoMib = (.ok (), ram') ∧
      BootImage "console=ttyS0" ((2 : UInt64).toNat * 1024 * 1024) ram' :=
  bootImage_of_new .debug (fun _ => .ok ()) 2 (by decide) twoMib new_twoMib "console=ttyS0"
    cmdline_console

end Boot
end HyperPod
