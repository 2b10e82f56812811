import HyperPod.Ram
import HyperPod.Lib.HostFile

/-!
# Loading the kernel: `vmm/common/elf.rs`

`Elf.load` reads an ELF64 image and copies each PT_LOAD segment to its physical address.
Lengths and file offsets are `usize` (64 bits wide): the checked additions of the source
return an error, the others follow the build profile, and slicing outside the file
panics.

A load that returns has made the writes of its segments in order and no others
(`load_eq_ok`), so each byte is the one that the last segment over it put there, and one
that no segment's image covers is as it was (`mem_load`).
-/

namespace HyperPod

open Machine Bytes GuestRam HostFile

namespace Elf

def elfMag : List UInt8 := [0x7f, 0x45, 0x4c, 0x46]
def elfClass64 : UInt8 := 2
def elfData2Lsb : UInt8 := 1
def emX8664 : UInt16 := 62
def ptLoad : UInt32 := 1

/-- `&bytes[start..stop]` -/
def sliceRange (bytes : List UInt8) (start stop : Nat) : Result (List UInt8) :=
  if start ≤ stop ∧ stop ≤ bytes.length then .ok (slice bytes start (stop - start)) else .panic

/-- `T::from_le_bytes(bytes[off + lo..off + lo + size_of::<T>()])` -/
def field (T : Type) [Pod T] (p : Profile) (bytes : List UInt8) (off lo : Nat) : Result T := do
  let start ← fit p 64 (off + lo)
  let stop ← fit p 64 (off + (lo + Pod.size T))
  let raw ← sliceRange bytes start stop
  return Pod.ofBytes raw

/-- The fields of a PT_LOAD header that the loader uses. -/
structure Segment where
  offset : Nat
  paddr : Nat
  filesz : Nat
  memsz : Nat
deriving Repr, DecidableEq

/-- The program header at `off`, if it is a PT_LOAD. -/
def readHeader (p : Profile) (bytes : List UInt8) (off : Nat) : Result (Option Segment) := do
  let pType ← field UInt32 p bytes off 0
  if pType ≠ ptLoad then return none
  let pOffset ← field UInt64 p bytes off 8
  let pPaddr ← field UInt64 p bytes off 24
  let pFilesz ← field UInt64 p bytes off 32
  let pMemsz ← field UInt64 p bytes off 40
  return some ⟨pOffset.toNat, pPaddr.toNat, pFilesz.toNat, pMemsz.toNat⟩

/-- `vec![0u8; n]`: a capacity above `isize::MAX` panics. -/
def zeroed (n : Nat) : Result (List UInt8) :=
  if n < 2 ^ 63 then .ok (List.replicate n 0) else .panic

/-! The loader, with the allocation of the zero-fill buffer left open. -/

section
variable (alloc : Nat → Result (List UInt8))

def loadSegmentWith (p : Profile) (bytes : List UInt8) (i : Nat) (s : Segment) :
    Act GuestRam Unit := do
  -- `checked_add` gives `None` from `2 ^ 64` on, and a range past the file is refused as well
  if s.offset + s.filesz ≥ 2 ^ 64 ∨ s.offset + s.filesz > bytes.length then
    Act.bail s!"PT_LOAD segment {i} file range out of bounds"
  let image ← Act.lift (sliceRange bytes s.offset (s.offset + s.filesz))
  writeSlice s.paddr image
  if s.memsz > s.filesz then
    -- BSS-style zero fill
    let zeros ← Act.lift (alloc (s.memsz - s.filesz))
    let start ← Act.lift (fit p 64 (s.paddr + s.filesz))
    writeSlice start zeros

/-- The loop over the program headers, with the headers left, the next one's index and
whether a segment was loaded. -/
def loadHeadersWith (p : Profile) (bytes : List UInt8) (phoff phentsize : Nat) :
    Nat → Nat → Bool → Act GuestRam Bool
  | 0, _, loadedAny => pure loadedAny
  | left + 1, i, loadedAny => do
    -- the product of two `u16` values fits; the sum is the checked one
    if phoff + i * phentsize ≥ 2 ^ 64 then Act.bail "program header offset overflow"
    let off := phoff + i * phentsize
    let stop ← Act.lift (fit p 64 (off + phentsize))
    if stop > bytes.length then Act.bail s!"program header {i} runs past end of file"
    match ← Act.lift (readHeader p bytes off) with
    | none => loadHeadersWith p bytes phoff phentsize left (i + 1) loadedAny
    | some s =>
      loadSegmentWith alloc p bytes i s
      loadHeadersWith p bytes phoff phentsize left (i + 1) true

structure LoadedKernel where
  entry : UInt64
deriving Repr, DecidableEq

/-- `elf::load` on the file at `path` that the host reads as `file`. -/
def loadWith (p : Profile) (path : String) (file : Result Content) :
    Act GuestRam LoadedKernel := do
  let content ← Act.lift (withContext s!"read kernel {path}" file)
  let bytes := content.bytes
  if bytes.length < 64 ∨ bytes.take 4 ≠ elfMag then Act.bail s!"{path} is not an ELF file"
  let eClass ← Act.lift (field UInt8 p bytes 0 4)
  if eClass ≠ elfClass64 then Act.bail s!"{path} is not ELF64"
  let eData ← Act.lift (field UInt8 p bytes 0 5)
  if eData ≠ elfData2Lsb then Act.bail s!"{path} is not little-endian"
  let eMachine ← Act.lift (field UInt16 p bytes 0 18)
  if eMachine ≠ emX8664 then Act.bail s!"{path} is not x86_64 (e_machine = {eMachine})"
  let eEntry ← Act.lift (field UInt64 p bytes 0 24)
  let ePhoff ← Act.lift (field UInt64 p bytes 0 32)
  let ePhentsize ← Act.lift (field UInt16 p bytes 0 54)
  let ePhnum ← Act.lift (field UInt16 p bytes 0 56)
  if ePhentsize.toNat < 56 then
    Act.bail s!"unexpected program header size {ePhentsize}"
  let loadedAny ←
    loadHeadersWith alloc p bytes ePhoff.toNat ePhentsize.toNat ePhnum.toNat 0 false
  if !loadedAny then Act.bail s!"no PT_LOAD segments in {path}"
  return { entry := eEntry }

end

def loadSegment := loadSegmentWith zeroed

def loadHeaders := loadHeadersWith zeroed

def load := loadWith zeroed

/-! ## What the file says -/

/-- The value at an offset of the file. -/
def valAt (T : Type) [Pod T] (bytes : List UInt8) (off : Nat) : T :=
  Pod.ofBytes (slice bytes off (Pod.size T))

def segmentAt (bytes : List UInt8) (off : Nat) : Option Segment :=
  if valAt UInt32 bytes off = ptLoad then
    some ⟨(valAt UInt64 bytes (off + 8)).toNat, (valAt UInt64 bytes (off + 24)).toNat,
      (valAt UInt64 bytes (off + 32)).toNat, (valAt UInt64 bytes (off + 40)).toNat⟩
  else none

/-- The PT_LOAD segments among `n` headers from index `i` on. -/
def segmentsFrom (bytes : List UInt8) (phoff phentsize : Nat) : Nat → Nat → List Segment
  | 0, _ => []
  | n + 1, i =>
    (segmentAt bytes (phoff + i * phentsize)).toList ++ segmentsFrom bytes phoff phentsize n (i + 1)

/-- The PT_LOAD segments of the file, in header order. -/
def segments (bytes : List UInt8) : List Segment :=
  segmentsFrom bytes (valAt UInt64 bytes 32).toNat (valAt UInt16 bytes 54).toNat
    (valAt UInt16 bytes 56).toNat 0

/-- The checks on the ELF header. -/
def HeaderOk (bytes : List UInt8) : Prop :=
  64 ≤ bytes.length ∧ bytes.take 4 = elfMag ∧ valAt UInt8 bytes 4 = elfClass64 ∧
    valAt UInt8 bytes 5 = elfData2Lsb ∧ valAt UInt16 bytes 18 = emX8664 ∧
    56 ≤ (valAt UInt16 bytes 54).toNat

instance (bytes : List UInt8) : Decidable (HeaderOk bytes) := inferInstanceAs (Decidable (_ ∧ _))

def phoff (bytes : List UInt8) : Nat := (valAt UInt64 bytes 32).toNat
def phentsize (bytes : List UInt8) : Nat := (valAt UInt16 bytes 54).toNat
def phnum (bytes : List UInt8) : Nat := (valAt UInt16 bytes 56).toNat

/-- The offset of program header `i`. -/
def headerOff (bytes : List UInt8) (i : Nat) : Nat := phoff bytes + i * phentsize bytes

namespace Segment

/-- The address lies in the segment's image: its file bytes or its zero fill. -/
def Covers (s : Segment) (a : Nat) : Prop := s.paddr ≤ a ∧ a < s.paddr + max s.filesz s.memsz

instance (s : Segment) (a : Nat) : Decidable (s.Covers a) := inferInstanceAs (Decidable (_ ∧ _))

/-- The byte of the image at an address. -/
def byteAt (s : Segment) (bytes : List UInt8) (a : Nat) : UInt8 :=
  if a < s.paddr + s.filesz then (bytes[s.offset + (a - s.paddr)]?).getD 0 else 0

def writes (s : Segment) (bytes : List UInt8) : List (Patch UInt8) :=
  (s.paddr, slice bytes s.offset s.filesz) ::
    if s.memsz > s.filesz then
      [(s.paddr + s.filesz, List.replicate (s.memsz - s.filesz) 0)]
    else []

end Segment

/-! ## Reading the file -/

variable {p : Profile} {bytes : List UInt8} {off lo i : Nat}

theorem sliceRange_eq_ok {start stop : Nat} {raw : List UInt8} :
    sliceRange bytes start stop = .ok raw ↔
      start ≤ stop ∧ stop ≤ bytes.length ∧ raw = slice bytes start (stop - start) := by
  unfold sliceRange
  split
  · next h => simp [h, eq_comm]
  · next h =>
    constructor
    · intro heq
      cases heq
    · rintro ⟨h1, h2, -⟩
      exact absurd ⟨h1, h2⟩ h

/-- A field that was read lies in the file, unless its offset wrapped. -/
theorem field_eq_ok {T : Type} [Pod T] {v : T} (hoff : off + lo + Pod.size T < 2 ^ 64)
    (h : field T p bytes off lo = .ok v) :
    off + lo + Pod.size T ≤ bytes.length ∧ v = valAt T bytes (off + lo) := by
  unfold field at h
  rw [fit_eq_ok (by omega), Outcome.ok_bind, fit_eq_ok (by omega), Outcome.ok_bind] at h
  obtain ⟨raw, hraw, hv⟩ := Outcome.bind_eq_ok.mp h
  obtain ⟨-, hstop, rfl⟩ := sliceRange_eq_ok.mp hraw
  cases hv
  refine ⟨by omega, ?_⟩
  unfold valAt
  congr 2
  omega

theorem field_inside {T : Type} [Pod T] (hlen : bytes.length < 2 ^ 63)
    (h : off + lo + Pod.size T ≤ bytes.length) :
    field T p bytes off lo = .ok (valAt T bytes (off + lo)) := by
  have hslice : sliceRange bytes (off + lo) (off + (lo + Pod.size T)) =
      .ok (slice bytes (off + lo) (Pod.size T)) :=
    sliceRange_eq_ok.mpr ⟨by omega, by omega, by rw [← Nat.add_assoc, Nat.add_sub_cancel_left]⟩
  unfold field
  rw [fit_eq_ok (by omega), Outcome.ok_bind, fit_eq_ok (by omega), Outcome.ok_bind, hslice]
  rfl

/-- A range whose end wraps is refused, so a type that was read lies in the file. -/
theorem field_zero_eq_ok {T : Type} [Pod T] {v : T} (hoff : off < 2 ^ 64)
    (hsize : Pod.size T < 2 ^ 64) (h : field T p bytes off 0 = .ok v) :
    off + Pod.size T ≤ bytes.length := by
  unfold field at h
  rw [Nat.add_zero, fit_eq_ok hoff, Outcome.ok_bind] at h
  obtain ⟨stop, hstop, h⟩ := Outcome.bind_eq_ok.mp h
  obtain ⟨raw, hraw, -⟩ := Outcome.bind_eq_ok.mp h
  obtain ⟨hle, hlen, -⟩ := sliceRange_eq_ok.mp hraw
  have hmod := eq_mod_of_fit_eq_ok hstop
  rw [Nat.zero_add] at hmod
  rcases Nat.lt_or_ge (off + Pod.size T) (2 ^ 64) with hlt | hge
  · rw [Nat.mod_eq_of_lt hlt] at hmod
    omega
  · rw [Nat.mod_eq_sub_mod hge, Nat.mod_eq_of_lt (by omega)] at hmod
    omega

theorem readHeader_eq_ok_inside {o : Option Segment} (hoff : off < 2 ^ 64)
    (h : readHeader p bytes off = .ok o) : off + 4 ≤ bytes.length := by
  unfold readHeader at h
  obtain ⟨pType, htype, -⟩ := Outcome.bind_eq_ok.mp h
  have hin := field_zero_eq_ok hoff (by decide) htype
  rw [size_uint32] at hin
  exact hin

theorem readHeader_eq_ok {o : Option Segment} (hlen : bytes.length < 2 ^ 63) (hoff : off < 2 ^ 64)
    (h : readHeader p bytes off = .ok o) : o = segmentAt bytes off := by
  have hin := readHeader_eq_ok_inside hoff h
  unfold readHeader at h
  obtain ⟨pType, htype, h⟩ := Outcome.bind_eq_ok.mp h
  obtain ⟨-, rfl⟩ := field_eq_ok (by rw [size_uint32]; omega) htype
  rw [Nat.add_zero] at h
  unfold segmentAt
  split at h
  · next hne =>
    rw [if_neg hne]
    cases h
    rfl
  · next heq =>
    rw [if_pos (Classical.not_not.mp heq)]
    obtain ⟨pOffset, hoffset, h⟩ := Outcome.bind_eq_ok.mp h
    obtain ⟨pPaddr, hpaddr, h⟩ := Outcome.bind_eq_ok.mp h
    obtain ⟨pFilesz, hfilesz, h⟩ := Outcome.bind_eq_ok.mp h
    obtain ⟨pMemsz, hmemsz, h⟩ := Outcome.bind_eq_ok.mp h
    obtain ⟨-, rfl⟩ := field_eq_ok (by rw [size_uint64]; omega) hoffset
    obtain ⟨-, rfl⟩ := field_eq_ok (by rw [size_uint64]; omega) hpaddr
    obtain ⟨-, rfl⟩ := field_eq_ok (by rw [size_uint64]; omega) hfilesz
    obtain ⟨-, rfl⟩ := field_eq_ok (by rw [size_uint64]; omega) hmemsz
    cases h
    rfl

theorem readHeader_inside (hlen : bytes.length < 2 ^ 63) (h : off + 56 ≤ bytes.length) :
    readHeader p bytes off = .ok (segmentAt bytes off) := by
  have htype : field UInt32 p bytes off 0 = .ok (valAt UInt32 bytes off) :=
    field_inside hlen (by rw [size_uint32]; omega)
  have h64 : ∀ lo, lo + 8 ≤ 56 →
      field UInt64 p bytes off lo = .ok (valAt UInt64 bytes (off + lo)) :=
    fun lo hlo => field_inside hlen (by rw [size_uint64]; omega)
  unfold readHeader segmentAt
  rw [htype, Outcome.ok_bind]
  by_cases hload : valAt UInt32 bytes off = ptLoad
  · rw [if_neg (not_not_intro hload), if_pos hload, h64 8 (by decide), Outcome.ok_bind,
      h64 24 (by decide), Outcome.ok_bind, h64 32 (by decide), Outcome.ok_bind,
      h64 40 (by decide)]
    rfl
  · rw [if_pos hload, if_neg hload]
    rfl

/-! ## The ELF header -/

section
variable {file : Content} {path : String} {ram : GuestRam}

theorem headerField_inside (T : Type) [Pod T] (hlen : bytes.length < 2 ^ 63)
    (h64 : 64 ≤ bytes.length) (lo : Nat) (hlo : lo + Pod.size T ≤ 64) :
    field T p bytes 0 lo = .ok (valAt T bytes lo) := by
  have h : field T p bytes 0 lo = .ok (valAt T bytes (0 + lo)) := field_inside hlen (by omega)
  rw [Nat.zero_add] at h
  exact h

/-- A good ELF header leaves the verdict to the loop. -/
theorem run_loadWith_of_headerOk (h : HeaderOk file.bytes) :
    (loadWith alloc p path (.ok file)).run ram =
      (do
        let loadedAny ← loadHeadersWith alloc p file.bytes (phoff file.bytes)
          (phentsize file.bytes) (phnum file.bytes) 0 false
        if !loadedAny then Act.bail s!"no PT_LOAD segments in {path}"
        return { entry := valAt UInt64 file.bytes 24 } : Act GuestRam LoadedKernel).run ram := by
  obtain ⟨h64, hmag, hclass, hdata, hmachine, hsize⟩ := h
  have hlen := file.len_lt
  have hstart : ¬ (file.bytes.length < 64 ∨ file.bytes.take 4 ≠ elfMag) := by
    rintro (hshort | hne)
    · omega
    · exact hne hmag
  have h8 := headerField_inside UInt8 (p := p) hlen h64
  have h16 := headerField_inside UInt16 (p := p) hlen h64
  have h64' := headerField_inside UInt64 (p := p) hlen h64
  unfold loadWith
  simp only [withContext_ok, Act.run_lift_ok_bind, if_neg hstart, h8 4 (by decide),
    h8 5 (by decide), h16 18 (by decide), h64' 24 (by decide), h64' 32 (by decide),
    h16 54 (by decide), h16 56 (by decide), if_neg (not_not_intro hclass),
    if_neg (not_not_intro hdata), if_neg (not_not_intro hmachine), if_neg (Nat.not_lt.mpr hsize)]
  rfl

/-- A bad ELF header is refused. -/
theorem run_loadWith_of_not_headerOk (alloc : Nat → Result (List UInt8)) (p : Profile)
    (path : String) (ram : GuestRam) (h : ¬ HeaderOk file.bytes) :
    ∃ e, (loadWith alloc p path (.ok file)).run ram = (.err e, ram) := by
  have hlen := file.len_lt
  unfold loadWith
  by_cases hstart : file.bytes.length < 64 ∨ file.bytes.take 4 ≠ elfMag
  · simp only [withContext_ok, Act.run_lift_ok_bind, if_pos hstart]
    exact ⟨_, rfl⟩
  obtain ⟨h64, hmag⟩ := not_or.mp hstart
  have h64 := Nat.le_of_not_lt h64
  have h8 := headerField_inside UInt8 (p := p) hlen h64
  have h16 := headerField_inside UInt16 (p := p) hlen h64
  have h64' := headerField_inside UInt64 (p := p) hlen h64
  by_cases hclass : valAt UInt8 file.bytes 4 = elfClass64
  · by_cases hdata : valAt UInt8 file.bytes 5 = elfData2Lsb
    · by_cases hmachine : valAt UInt16 file.bytes 18 = emX8664
      · have hsize : (valAt UInt16 file.bytes 54).toNat < 56 :=
          Nat.lt_of_not_le fun hsize =>
            h ⟨h64, Classical.not_not.mp hmag, hclass, hdata, hmachine, hsize⟩
        simp only [withContext_ok, Act.run_lift_ok_bind, if_neg hstart, h8 4 (by decide),
          h8 5 (by decide), h16 18 (by decide), h64' 24 (by decide), h64' 32 (by decide),
          h16 54 (by decide), h16 56 (by decide), if_neg (not_not_intro hclass),
          if_neg (not_not_intro hdata), if_neg (not_not_intro hmachine), if_pos hsize]
        exact ⟨_, rfl⟩
      · simp only [withContext_ok, Act.run_lift_ok_bind, if_neg hstart, h8 4 (by decide),
          h8 5 (by decide), h16 18 (by decide), if_neg (not_not_intro hclass),
          if_neg (not_not_intro hdata), if_pos hmachine]
        exact ⟨_, rfl⟩
    · simp only [withContext_ok, Act.run_lift_ok_bind, if_neg hstart, h8 4 (by decide),
        h8 5 (by decide), if_neg (not_not_intro hclass), if_pos hdata]
      exact ⟨_, rfl⟩
  · simp only [withContext_ok, Act.run_lift_ok_bind, if_neg hstart, h8 4 (by decide),
      if_pos hclass]
    exact ⟨_, rfl⟩

/-- **A load returns** exactly when the ELF header is good and the loop has loaded a
segment. -/
theorem run_loadWith_eq_ok {kernel : LoadedKernel} {ram' : GuestRam} :
    (loadWith alloc p path (.ok file)).run ram = (.ok kernel, ram') ↔
      HeaderOk file.bytes ∧
      (loadHeadersWith alloc p file.bytes (phoff file.bytes) (phentsize file.bytes)
        (phnum file.bytes) 0 false).run ram = (.ok true, ram') ∧
      kernel = ⟨valAt UInt64 file.bytes 24⟩ := by
  by_cases hok : HeaderOk file.bytes
  · rw [run_loadWith_of_headerOk hok]
    constructor
    · intro h
      obtain ⟨loadedAny, ram₁, hloop, h⟩ := Act.run_bind_eq_ok.mp h
      obtain ⟨hany, h⟩ := Act.run_ite_bail_eq_ok.mp h
      cases h
      cases loadedAny with
      | false => exact absurd rfl hany
      | true => exact ⟨hok, hloop, rfl⟩
    · rintro ⟨-, hloop, rfl⟩
      rw [Act.run_bind_ok hloop]
      rfl
  · obtain ⟨e, he⟩ := run_loadWith_of_not_headerOk alloc p path ram hok
    rw [he]
    constructor
    · intro h
      cases h
    · rintro ⟨h, -⟩
      exact absurd h hok

end

/-! ## What a load that returns has written -/

theorem zeroed_eq_ok {n : Nat} {zeros : List UInt8} (h : zeroed n = .ok zeros) :
    zeros = List.replicate n 0 := by
  unfold zeroed at h
  split at h
  · cases h
    rfl
  · cases h

theorem run_loadSegment_eq_ok {s : Segment} {ram ram' : GuestRam} {u : Unit}
    (h : (loadSegment p bytes i s).run ram = (.ok u, ram')) :
    s.offset + s.filesz ≤ bytes.length ∧ ram.Fits (s.writes bytes) ∧
      ram' = ram.puts (s.writes bytes) := by
  unfold loadSegment loadSegmentWith at h
  obtain ⟨-, h⟩ := Act.run_ite_bail_eq_ok.mp h
  obtain ⟨image, himage, h⟩ := Act.run_lift_bind_eq_ok.mp h
  obtain ⟨-, hlen, rfl⟩ := sliceRange_eq_ok.mp himage
  rw [Nat.add_sub_cancel_left] at h
  obtain ⟨u', ram₁, hwrite, h⟩ := Act.run_bind_eq_ok.mp h
  obtain ⟨hin, rfl⟩ := run_writeSlice_eq_ok.mp hwrite
  have hsize := ram.size_lt
  rw [length_slice hlen] at hin
  refine ⟨hlen, ?_⟩
  unfold Segment.writes
  by_cases hbss : s.memsz > s.filesz
  · rw [if_pos hbss] at h ⊢
    obtain ⟨zeros, hzeros, h⟩ := Act.run_lift_bind_eq_ok.mp h
    have hzeros := zeroed_eq_ok hzeros
    subst hzeros
    rw [fit_eq_ok (by omega)] at h
    obtain ⟨hin', rfl⟩ := run_writeSlice_eq_ok.mp h
    refine ⟨?_, rfl⟩
    rw [← length_slice hlen] at hin
    exact List.forall_mem_cons.mpr ⟨hin, List.forall_mem_singleton.mpr hin'⟩
  · rw [if_neg hbss] at h ⊢
    cases h
    rw [← length_slice hlen] at hin
    exact ⟨List.forall_mem_singleton.mpr hin, rfl⟩

/-- **One round of the loop** that returns: the header ends in the file, and its segment,
if it is a PT_LOAD, is loaded. -/
theorem run_loadHeaders_succ_eq_ok {phoff phentsize n : Nat} {loadedAny b : Bool}
    {ram ram' : GuestRam} (hlen : bytes.length < 2 ^ 63) (hsize : phentsize < 2 ^ 16)
    (h : (loadHeaders p bytes phoff phentsize (n + 1) i loadedAny).run ram = (.ok b, ram')) :
    phoff + i * phentsize + phentsize ≤ bytes.length ∧
    (segmentAt bytes (phoff + i * phentsize) = none ∧
        (loadHeaders p bytes phoff phentsize n (i + 1) loadedAny).run ram = (.ok b, ram') ∨
      ∃ s, segmentAt bytes (phoff + i * phentsize) = some s ∧
        s.offset + s.filesz ≤ bytes.length ∧ ram.Fits (s.writes bytes) ∧
        (loadHeaders p bytes phoff phentsize n (i + 1) true).run (ram.puts (s.writes bytes)) =
          (.ok b, ram')) := by
  rw [loadHeaders, loadHeadersWith] at h
  obtain ⟨hoff, h⟩ := Act.run_ite_bail_eq_ok.mp h
  obtain ⟨stop, hstop, h⟩ := Act.run_lift_bind_eq_ok.mp h
  obtain ⟨hinside, h⟩ := Act.run_ite_bail_eq_ok.mp h
  obtain ⟨o, ho, h⟩ := Act.run_lift_bind_eq_ok.mp h
  have hseg := readHeader_eq_ok hlen (Nat.lt_of_not_le hoff) ho
  have hread := readHeader_eq_ok_inside (Nat.lt_of_not_le hoff) ho
  subst hseg
  -- the type field was read, so the end of the header has not wrapped
  have hfit : phoff + i * phentsize + phentsize < 2 ^ 64 := by omega
  rw [fit_eq_ok hfit] at hstop
  rw [← Outcome.ok.inj hstop] at hinside
  refine ⟨Nat.le_of_not_lt hinside, ?_⟩
  cases hs : segmentAt bytes (phoff + i * phentsize) with
  | none =>
    rw [hs] at h
    exact Or.inl ⟨rfl, h⟩
  | some s =>
    rw [hs] at h
    obtain ⟨u, ram₁, hload, h⟩ := Act.run_bind_eq_ok.mp h
    obtain ⟨hfile, hfits, rfl⟩ := run_loadSegment_eq_ok hload
    exact Or.inr ⟨s, rfl, hfile, hfits, h⟩

/-- What `n` headers from index `i` on write. -/
theorem run_loadHeaders_eq_ok {phoff phentsize n : Nat} {loadedAny b : Bool} {ram ram' : GuestRam}
    (hlen : bytes.length < 2 ^ 63) (hsize : phentsize < 2 ^ 16)
    (h : (loadHeaders p bytes phoff phentsize n i loadedAny).run ram = (.ok b, ram')) :
    (∀ s ∈ segmentsFrom bytes phoff phentsize n i, s.offset + s.filesz ≤ bytes.length) ∧
    ram.Fits ((segmentsFrom bytes phoff phentsize n i).flatMap fun s => s.writes bytes) ∧
      ram' = ram.puts
        ((segmentsFrom bytes phoff phentsize n i).flatMap fun s => s.writes bytes) := by
  induction n generalizing i loadedAny ram with
  | zero =>
    cases h
    exact ⟨fun _ hs => (nomatch hs), fun _ hw => (nomatch hw), rfl⟩
  | succ n ih =>
    rw [segmentsFrom]
    rcases run_loadHeaders_succ_eq_ok hlen hsize h with ⟨-, ⟨hs, h⟩ | ⟨s, hs, hfile, hfits, h⟩⟩
    · rw [hs]
      exact ih h
    · rw [hs]
      obtain ⟨hfile', hfits', rfl⟩ := ih h
      refine ⟨?_, ?_, ?_⟩
      · exact List.forall_mem_cons.mpr ⟨hfile, hfile'⟩
      · exact List.forall_mem_append.mpr ⟨hfits, hfits'⟩
      · exact (puts_append _ _).symm

theorem phentsize_lt (bytes : List UInt8) : phentsize bytes < 2 ^ 16 :=
  (valAt UInt16 bytes 54).toNat_lt

/-- **What a load writes.**  The segments' file ranges lie in the file, their images in
RAM, and the memory is the old one with the images laid over it in header order. -/
theorem load_eq_ok {path : String} {file : Content} {kernel : LoadedKernel} {ram ram' : GuestRam}
    (h : (load p path (.ok file)).run ram = (.ok kernel, ram')) :
    (∀ s ∈ segments file.bytes, s.offset + s.filesz ≤ file.bytes.length) ∧
    ram.Fits ((segments file.bytes).flatMap fun s => s.writes file.bytes) ∧
      ram' = ram.puts ((segments file.bytes).flatMap fun s => s.writes file.bytes) := by
  obtain ⟨-, hloop, -⟩ := run_loadWith_eq_ok.mp h
  exact run_loadHeaders_eq_ok file.len_lt (phentsize_lt file.bytes) hloop

/-! ## The memory after a load -/

/-- What the images make of a byte: the last one that covers the address decides. -/
def imageByte (bytes : List UInt8) (a : Nat) : List Segment → UInt8 → UInt8
  | [], old => old
  | s :: segs, old => imageByte bytes a segs (if s.Covers a then s.byteAt bytes a else old)

theorem imageByte_of_not_covers {a : Nat} {segs : List Segment} (h : ∀ s ∈ segs, ¬ s.Covers a)
    (old : UInt8) : imageByte bytes a segs old = old := by
  induction segs with
  | nil => rfl
  | cons s segs ih =>
    rw [List.forall_mem_cons] at h
    rw [imageByte, if_neg h.1]
    exact ih h.2

theorem overlay_image {s : Segment} (hfile : s.offset + s.filesz ≤ bytes.length)
    (m : Nat → UInt8) (a : Nat) :
    overlay m s.paddr (slice bytes s.offset s.filesz) a =
      if s.paddr ≤ a ∧ a < s.paddr + s.filesz then s.byteAt bytes a else m a := by
  by_cases h : s.paddr ≤ a ∧ a < s.paddr + s.filesz
  · have hlt : s.offset + (a - s.paddr) < bytes.length := by omega
    rw [if_pos h, overlay, if_pos h.1, getElem?_slice, if_pos (by omega), Segment.byteAt,
      if_pos h.2, List.getElem?_eq_getElem hlt]
    rfl
  · rw [if_neg h]
    apply overlay_of_not_mem
    rw [length_slice hfile]
    omega

theorem overlay_zeros {s : Segment} (hbss : s.memsz > s.filesz) (m : Nat → UInt8) (a : Nat) :
    overlay m (s.paddr + s.filesz) (List.replicate (s.memsz - s.filesz) 0) a =
      if s.paddr + s.filesz ≤ a ∧ a < s.paddr + s.memsz then 0 else m a := by
  by_cases h : s.paddr + s.filesz ≤ a ∧ a < s.paddr + s.memsz
  · rw [if_pos h, overlay_of_mem h.1 (by rw [List.length_replicate]; omega),
      List.getElem_replicate]
  · rw [if_neg h]
    apply overlay_of_not_mem
    rw [List.length_replicate]
    omega

theorem overlays_writes {s : Segment} (hfile : s.offset + s.filesz ≤ bytes.length)
    (m : Nat → UInt8) (a : Nat) :
    overlays m (s.writes bytes) a = if s.Covers a then s.byteAt bytes a else m a := by
  have hcov : s.Covers a ↔ s.paddr ≤ a ∧ a < s.paddr + max s.filesz s.memsz := Iff.rfl
  unfold Segment.writes
  by_cases hbss : s.memsz > s.filesz
  · rw [Nat.max_eq_right (Nat.le_of_lt hbss)] at hcov
    rw [if_pos hbss]
    show overlay (overlay m s.paddr _) (s.paddr + s.filesz) _ a = _
    rw [overlay_zeros hbss, overlay_image hfile]
    by_cases hfill : s.paddr + s.filesz ≤ a ∧ a < s.paddr + s.memsz
    · rw [if_pos hfill, if_pos (hcov.mpr ⟨by omega, hfill.2⟩), Segment.byteAt, if_neg (by omega)]
    · rw [if_neg hfill]
      by_cases hin : s.paddr ≤ a ∧ a < s.paddr + s.filesz
      · rw [if_pos hin, if_pos (hcov.mpr ⟨hin.1, by omega⟩)]
      · rw [if_neg hin, if_neg (fun hc => by have := hcov.mp hc; omega)]
  · rw [Nat.max_eq_left (Nat.le_of_not_lt hbss)] at hcov
    rw [if_neg hbss]
    show overlay m s.paddr _ a = _
    rw [overlay_image hfile]
    by_cases hin : s.paddr ≤ a ∧ a < s.paddr + s.filesz
    · rw [if_pos hin, if_pos (hcov.mpr hin)]
    · rw [if_neg hin, if_neg (fun hc => hin (hcov.mp hc))]

theorem overlays_segments {segs : List Segment}
    (hfile : ∀ s ∈ segs, s.offset + s.filesz ≤ bytes.length) (m : Nat → UInt8) (a : Nat) :
    overlays m (segs.flatMap fun s => s.writes bytes) a = imageByte bytes a segs (m a) := by
  induction segs generalizing m with
  | nil => rfl
  | cons s segs ih =>
    rw [List.forall_mem_cons] at hfile
    rw [List.flatMap_cons, overlays_append, ih hfile.2, overlays_writes hfile.1, imageByte]

/-- **The memory after a load**, byte by byte. -/
theorem mem_load {path : String} {file : Content} {kernel : LoadedKernel} {ram ram' : GuestRam}
    (h : (load p path (.ok file)).run ram = (.ok kernel, ram')) (a : Nat) :
    ram'.mem a = imageByte file.bytes a (segments file.bytes) (ram.mem a) := by
  obtain ⟨hfile, -, rfl⟩ := load_eq_ok h
  rw [mem_puts]
  exact overlays_segments hfile ram.mem a

end Elf
end HyperPod
