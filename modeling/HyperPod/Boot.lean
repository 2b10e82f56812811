import HyperPod.Ram

/-!
# Boot artefacts in low memory: `vmm/common/boot.rs`

The four writers fill guest RAM before the kernel is loaded.  Each makes a fixed list
of writes (`writes_writeGdt`, `writes_setupPageTables`, `writes_writeCmdline`,
`writes_writeZeroPage`), and the lists lie in four separate regions of memory, of which
only the command line's has no upper end (`bootWrites_apart`).
-/

namespace HyperPod

open Machine Bytes GuestRam

namespace Boot

def bootGdtOffset : Nat := 0x500
def bootIdtOffset : Nat := 0x520
def zeroPageStart : Nat := 0x7000
def pml4Start : Nat := 0x9000
def pdpteStart : Nat := 0xa000
def pdeStart : Nat := 0xb000
def cmdlineStart : Nat := 0x20000
def himemStart : Nat := 0x100000

def kernelHdrMagic : UInt32 := 0x53726448
def kernelBootFlagMagic : UInt16 := 0xaa55
def kernelLoaderOther : UInt8 := 0xff
def kernelMinAlign : UInt32 := 0x01000000
def bootProtocolVersion : UInt16 := 0x020c
def e820Ram : UInt32 := 1

def offsetE820Entries : Nat := 0x1e8
def offsetHdrBootFlag : Nat := 0x1fe
def offsetHdrHeader : Nat := 0x202
def offsetHdrVersion : Nat := 0x206
def offsetHdrTypeOfLoader : Nat := 0x210
def offsetHdrCmdLinePtr : Nat := 0x228
def offsetHdrKernelAlignment : Nat := 0x230
def offsetHdrCmdlineSize : Nat := 0x238
def offsetE820Table : Nat := 0x2d0

/-- A table of 8-byte entries, written one by one from entry `i` on. -/
def writeEntries (table : Nat) : Nat → List UInt64 → Act GuestRam Unit
  | _, [] => pure ()
  | i, entry :: entries => do
    writeObj (table + i * 8) entry
    writeEntries table (i + 1) entries

/-- null / 64-bit kernel code (L=1) / kernel data / TSS -/
def gdtEntries : List UInt64 :=
  [0, 0x00af9b000000ffff, 0x00cf93000000ffff, 0x0080890000000067]

def writeGdt : Act GuestRam Unit := do
  writeEntries bootGdtOffset 0 gdtEntries
  writeObj bootIdtOffset (0 : UInt64)

/-- present | writable | huge -/
def pdEntry (i : Nat) : UInt64 := (UInt64.ofNat i <<< 21) ||| 0x83

def pml4Entry : UInt64 := UInt64.ofNat pdpteStart ||| 0x3

def pdpteEntry : UInt64 := UInt64.ofNat pdeStart ||| 0x3

/-- 1 GiB identity map using 2 MiB huge pages. -/
def setupPageTables : Act GuestRam Unit := do
  writeObj pml4Start pml4Entry
  writeObj pdpteStart pdpteEntry
  writeEntries pdeStart 0 ((List.range 512).map pdEntry)

/-- `str::as_bytes` -/
def asBytes (s : String) : List UInt8 := s.toUTF8.data.toList

/-- The second address does not overflow: the command line before it lies in RAM. -/
def writeCmdline (cmdline : String) : Act GuestRam Unit := do
  writeSlice cmdlineStart (asBytes cmdline)
  writeObj (cmdlineStart + (asBytes cmdline).length) (0 : UInt8)

/-- The e820 entry for the RAM above 1 MiB, if there is any; returns the entry count. -/
def writeE820 (entryOff : Nat) (ramBytes : UInt64) : Act GuestRam UInt8 :=
  if ramBytes > UInt64.ofNat himemStart then do
    writeObj entryOff (UInt64.ofNat himemStart)
    writeObj (entryOff + 8) (ramBytes - UInt64.ofNat himemStart)
    writeObj (entryOff + 16) e820Ram
    return 1
  else return 0

def writeZeroPage (cmdlineLen : Nat) (ramBytes : UInt64) : Act GuestRam Unit := do
  let base := zeroPageStart
  writeObj (base + offsetHdrBootFlag) kernelBootFlagMagic
  writeObj (base + offsetHdrHeader) kernelHdrMagic
  writeObj (base + offsetHdrVersion) bootProtocolVersion
  writeObj (base + offsetHdrTypeOfLoader) kernelLoaderOther
  writeObj (base + offsetHdrKernelAlignment) kernelMinAlign
  writeObj (base + offsetHdrCmdLinePtr) (UInt32.ofNat cmdlineStart)
  writeObj (base + offsetHdrCmdlineSize) (UInt32.ofNat cmdlineLen)
  let count ← writeE820 (base + offsetE820Table) ramBytes
  writeObj (base + offsetE820Entries) count

/-- The steps of `run_vm` that fill guest RAM before the kernel is loaded, the same on
KVM and WHPX. -/
def writeArtefacts (p : Profile) (cmdline : String) (minRam : UInt64) : Act GuestRam Unit := do
  writeGdt
  setupPageTables
  writeCmdline cmdline
  let kib ← Act.lift (fit p 64 (minRam.toNat * 1024))
  let ramBytes ← Act.lift (fit p 64 (kib * 1024))
  writeZeroPage (asBytes cmdline).length (UInt64.ofNat ramBytes)

/-! ## What each writer writes -/

def entryWrites (table : Nat) : Nat → List UInt64 → List (Patch UInt8)
  | _, [] => []
  | i, entry :: entries => (table + i * 8, Pod.toBytes entry) :: entryWrites table (i + 1) entries

def gdtWrites : List (Patch UInt8) :=
  entryWrites bootGdtOffset 0 gdtEntries ++ [(bootIdtOffset, Pod.toBytes (0 : UInt64))]

def upperTableWrites : List (Patch UInt8) :=
  [(pml4Start, Pod.toBytes pml4Entry), (pdpteStart, Pod.toBytes pdpteEntry)]

def pageTableWrites : List (Patch UInt8) :=
  upperTableWrites ++ entryWrites pdeStart 0 ((List.range 512).map pdEntry)

def cmdlineWrites (cmdline : String) : List (Patch UInt8) :=
  [(cmdlineStart, asBytes cmdline),
    (cmdlineStart + (asBytes cmdline).length, Pod.toBytes (0 : UInt8))]

def e820Count (ramBytes : UInt64) : UInt8 := if ramBytes > UInt64.ofNat himemStart then 1 else 0

def e820Writes (entryOff : Nat) (ramBytes : UInt64) : List (Patch UInt8) :=
  if ramBytes > UInt64.ofNat himemStart then
    [(entryOff, Pod.toBytes (UInt64.ofNat himemStart)),
      (entryOff + 8, Pod.toBytes (ramBytes - UInt64.ofNat himemStart)),
      (entryOff + 16, Pod.toBytes e820Ram)]
  else []

def headerWrites (cmdlineLen : Nat) : List (Patch UInt8) :=
  [(zeroPageStart + offsetHdrBootFlag, Pod.toBytes kernelBootFlagMagic),
    (zeroPageStart + offsetHdrHeader, Pod.toBytes kernelHdrMagic),
    (zeroPageStart + offsetHdrVersion, Pod.toBytes bootProtocolVersion),
    (zeroPageStart + offsetHdrTypeOfLoader, Pod.toBytes kernelLoaderOther),
    (zeroPageStart + offsetHdrKernelAlignment, Pod.toBytes kernelMinAlign),
    (zeroPageStart + offsetHdrCmdLinePtr, Pod.toBytes (UInt32.ofNat cmdlineStart)),
    (zeroPageStart + offsetHdrCmdlineSize, Pod.toBytes (UInt32.ofNat cmdlineLen))]

def zeroPageWrites (cmdlineLen : Nat) (ramBytes : UInt64) : List (Patch UInt8) :=
  headerWrites cmdlineLen ++ (e820Writes (zeroPageStart + offsetE820Table) ramBytes ++
    [(zeroPageStart + offsetE820Entries, Pod.toBytes (e820Count ramBytes))])

/-- All of them, in the order of `run_vm`. -/
def bootWrites (cmdline : String) (ramBytes : UInt64) : List (Patch UInt8) :=
  gdtWrites ++ (pageTableWrites ++ (cmdlineWrites cmdline ++
    zeroPageWrites (asBytes cmdline).length ramBytes))

theorem writes_writeEntries (table i : Nat) (entries : List UInt64) :
    Writes (writeEntries table i entries) (entryWrites table i entries) () := by
  induction entries generalizing i with
  | nil => exact writes_pure ()
  | cons entry entries ih => exact (writes_writeObj _ entry).bind (ih (i + 1))

theorem writes_writeGdt : Writes writeGdt gdtWrites () :=
  (writes_writeEntries _ _ _).bind (writes_writeObj _ _)

theorem writes_setupPageTables : Writes setupPageTables pageTableWrites () :=
  (writes_writeObj _ pml4Entry).bind
    ((writes_writeObj _ pdpteEntry).bind (writes_writeEntries _ _ _))

theorem writes_writeCmdline (cmdline : String) :
    Writes (writeCmdline cmdline) (cmdlineWrites cmdline) () :=
  (writes_writeSlice _ _).bind (writes_writeObj _ _)

theorem writes_writeE820 (entryOff : Nat) (ramBytes : UInt64) :
    Writes (writeE820 entryOff ramBytes) (e820Writes entryOff ramBytes) (e820Count ramBytes) := by
  unfold writeE820 e820Writes e820Count
  split
  · exact (writes_writeObj _ _).bind ((writes_writeObj _ _).bind
      ((writes_writeObj _ e820Ram).bind (writes_pure 1)))
  · exact writes_pure 0

theorem writes_writeZeroPage (cmdlineLen : Nat) (ramBytes : UInt64) :
    Writes (writeZeroPage cmdlineLen ramBytes) (zeroPageWrites cmdlineLen ramBytes) () :=
  (writes_writeObj _ kernelBootFlagMagic).bind <| (writes_writeObj _ kernelHdrMagic).bind <|
    (writes_writeObj _ bootProtocolVersion).bind <| (writes_writeObj _ kernelLoaderOther).bind <|
    (writes_writeObj _ kernelMinAlign).bind <| (writes_writeObj _ _).bind <|
    (writes_writeObj _ _).bind <| (writes_writeE820 _ ramBytes).bind (writes_writeObj _ _)

/-- `run_vm`'s size does not overflow when it fits `u64`, and then the writes are made. -/
theorem writes_writeArtefacts {p : Profile} {cmdline : String} {minRam : UInt64}
    (h : minRam.toNat * mib < 2 ^ 64) :
    Writes (writeArtefacts p cmdline minRam)
      (bootWrites cmdline (UInt64.ofNat (minRam.toNat * mib))) () := by
  have hmul : minRam.toNat * 1024 * 1024 = minRam.toNat * mib := by
    rw [Nat.mul_assoc]
    rfl
  have hlt : minRam.toNat * 1024 * 1024 < 2 ^ 64 := by
    rw [hmul]
    exact h
  have hkib : (fit p 64 (minRam.toNat * 1024) : Result Nat) = .ok (minRam.toNat * 1024) :=
    fit_eq_ok (Nat.lt_of_le_of_lt (Nat.le_mul_of_pos_right _ (by decide)) hlt)
  have hbytes : (fit p 64 (minRam.toNat * 1024 * 1024) : Result Nat) =
      .ok (minRam.toNat * mib) := by
    rw [← hmul]
    exact fit_eq_ok hlt
  exact writes_writeGdt.bind <| writes_setupPageTables.bind <| (writes_writeCmdline cmdline).bind <|
    .lift_bind hkib <| .lift_bind hbytes (writes_writeZeroPage _ _)

/-! ## The regions they lie in -/

theorem within_entryWrites (table i : Nat) (entries : List UInt64) :
    ∀ w ∈ entryWrites table i entries,
      Within (table + i * 8) (table + (i + entries.length) * 8) w := by
  induction entries generalizing i with
  | nil => exact fun _ h => nomatch h
  | cons entry entries ih =>
    intro w hw
    rw [List.length_cons]
    rcases List.mem_cons.mp hw with rfl | hw
    · refine ⟨Nat.le_refl _, ?_⟩
      rw [Pod.length_toBytes, size_uint64]
      omega
    · obtain ⟨hlo, hhi⟩ := ih (i + 1) w hw
      exact ⟨by omega, by omega⟩

theorem apart_entryWrites (table i : Nat) (entries : List UInt64) :
    (entryWrites table i entries).Pairwise Apart := by
  induction entries generalizing i with
  | nil => exact .nil
  | cons entry entries ih =>
    refine .cons ?_ (ih (i + 1))
    intro w hw
    obtain ⟨hlo, -⟩ := within_entryWrites table (i + 1) entries w hw
    refine Or.inl ?_
    rw [Pod.length_toBytes, size_uint64]
    omega

theorem mem_entryWrites {entries : List UInt64} {k : Nat} {entry : UInt64} (table i : Nat)
    (h : entries[k]? = some entry) :
    (table + (i + k) * 8, Pod.toBytes entry) ∈ entryWrites table i entries := by
  induction entries generalizing i k with
  | nil => cases h
  | cons e entries ih =>
    cases k with
    | zero =>
      cases h
      exact List.mem_cons_self
    | succ k =>
      have hmem := ih (i + 1) h
      rw [Nat.add_right_comm i 1 k] at hmem
      exact List.mem_cons_of_mem _ hmem

theorem extent_gdtWrites : gdtWrites.map extent =
    [(0x500, 8), (0x508, 8), (0x510, 8), (0x518, 8), (0x520, 8)] := rfl

theorem within_gdtWrites : ∀ w ∈ gdtWrites, Within 0x500 0x528 w :=
  within_of_extents (by rw [extent_gdtWrites]; decide)

theorem apart_gdtWrites : gdtWrites.Pairwise Apart :=
  pairwise_apart_of_extents (by rw [extent_gdtWrites]; decide)

theorem extent_upperTableWrites : upperTableWrites.map extent = [(0x9000, 8), (0xa000, 8)] := rfl

theorem within_upperTableWrites : ∀ w ∈ upperTableWrites, Within 0x9000 0xb000 w :=
  within_of_extents (by rw [extent_upperTableWrites]; decide)

theorem within_pageTableWrites : ∀ w ∈ pageTableWrites, Within 0x9000 0xc000 w := by
  intro w hw
  rcases List.mem_append.mp hw with hw | hw
  · obtain ⟨hlo, hhi⟩ := within_upperTableWrites w hw
    exact ⟨by omega, by omega⟩
  · obtain ⟨hlo, hhi⟩ := within_entryWrites _ _ _ w hw
    rw [List.length_map, List.length_range] at hhi
    unfold pdeStart at hlo hhi
    exact ⟨by omega, by omega⟩

theorem apart_pageTableWrites : pageTableWrites.Pairwise Apart :=
  pairwise_append_of_within
    (pairwise_apart_of_extents (by rw [extent_upperTableWrites]; decide))
    (apart_entryWrites _ _ _) within_upperTableWrites (within_entryWrites _ _ _)
    (Or.inl (Nat.le_refl _))

theorem within_cmdlineWrites (cmdline : String) : ∀ w ∈ cmdlineWrites cmdline,
    Within 0x20000 (0x20000 + (asBytes cmdline).length + 1) w := by
  unfold cmdlineWrites cmdlineStart
  simp only [List.forall_mem_cons, Within, Pod.length_toBytes, size_uint8]
  refine ⟨?_, ?_, fun _ h => nomatch h⟩ <;> omega

theorem apart_cmdlineWrites (cmdline : String) : (cmdlineWrites cmdline).Pairwise Apart :=
  .cons (fun w hw => by rw [List.mem_singleton.mp hw]; exact Or.inl (Nat.le_refl _))
    (List.pairwise_singleton _ _)

theorem extent_zeroPageWrites (cmdlineLen : Nat) (ramBytes : UInt64) :
    (zeroPageWrites cmdlineLen ramBytes).map extent =
      [(0x71fe, 2), (0x7202, 4), (0x7206, 2), (0x7210, 1), (0x7230, 4), (0x7228, 4), (0x7238, 4)] ++
        ((if ramBytes > UInt64.ofNat himemStart then [(0x72d0, 8), (0x72d8, 8), (0x72e0, 4)]
          else []) ++ [(0x71e8, 1)]) := by
  unfold zeroPageWrites e820Writes
  rw [List.map_append, List.map_append]
  split <;> rfl

theorem within_zeroPageWrites (cmdlineLen : Nat) (ramBytes : UInt64) :
    ∀ w ∈ zeroPageWrites cmdlineLen ramBytes, Within 0x71e8 0x72e4 w := by
  refine within_of_extents ?_
  rw [extent_zeroPageWrites]
  split <;> decide

theorem apart_zeroPageWrites (cmdlineLen : Nat) (ramBytes : UInt64) :
    (zeroPageWrites cmdlineLen ramBytes).Pairwise Apart := by
  refine pairwise_apart_of_extents ?_
  rw [extent_zeroPageWrites]
  split <;> decide

/-- **No writer meets another.** -/
theorem bootWrites_apart (cmdline : String) (ramBytes : UInt64) :
    (bootWrites cmdline ramBytes).Pairwise Apart := by
  have hzero := within_zeroPageWrites (asBytes cmdline).length ramBytes
  have hcmd := within_cmdlineWrites cmdline
  have hlow : ∀ w ∈ cmdlineWrites cmdline ++ zeroPageWrites (asBytes cmdline).length ramBytes,
      ∀ v ∈ pageTableWrites, Apart v w := by
    intro w hw v hv
    have hpages := within_pageTableWrites v hv
    rcases List.mem_append.mp hw with hw | hw
    · exact apart_of_within hpages (hcmd w hw) (Or.inl (by decide))
    · exact apart_of_within hpages (hzero w hw) (Or.inr (by decide))
  refine List.pairwise_append.mpr ⟨apart_gdtWrites, List.pairwise_append.mpr
    ⟨apart_pageTableWrites, ?_, fun v hv w hw => hlow w hw v hv⟩, ?_⟩
  · exact pairwise_append_of_within (apart_cmdlineWrites cmdline) (apart_zeroPageWrites _ _) hcmd
      hzero (Or.inr (by decide))
  · intro v hv w hw
    have hgdt := within_gdtWrites v hv
    rcases List.mem_append.mp hw with hw | hw
    · exact apart_of_within hgdt (within_pageTableWrites w hw) (Or.inl (by decide))
    · rcases List.mem_append.mp hw with hw | hw
      · exact apart_of_within hgdt (hcmd w hw) (Or.inl (by decide))
      · exact apart_of_within hgdt (hzero w hw) (Or.inl (by decide))

end Boot
end HyperPod
