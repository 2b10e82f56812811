import HyperPod.Lib.HostFile

/-!
# Block backends: `storage/raw.rs` and `storage/vhd.rs`

`RawBackend` serves the whole file as 512-byte sectors.  `VhdFixedBackend` serves
the first `original_size` bytes; the last 512 bytes of the file are the footer.
The two serve a sector alike, but for the context of a failed transfer, so
`readSector` / `writeSector` of both are the ones of `SectorFile` at their own
context.  `BlockBackend` is the opened `Box<dyn BlockBackend>`.
-/

namespace HyperPod

open Machine Bytes HostFile

def sectorSize : Nat := 512

/-- What the storage code reads of a path: its text in messages, and its
extension where that is UTF-8. -/
structure Path where
  display : String
  extension : Option String

/-- A number of sectors whose byte length is a `u64`. -/
structure Sectors where
  count : Nat
  bytes_lt : count * sectorSize < 2 ^ 64

/-- `size / SECTOR_SIZE` -/
def Sectors.ofSize (size : UInt64) : Sectors where
  count := size.toNat / sectorSize
  bytes_lt := Nat.lt_of_le_of_lt (Nat.div_mul_le_self _ _) size.toNat_lt

/-- The fields of both backends: the locked file and the number of sectors. -/
structure SectorFile where
  file : File
  sectors : Sectors

abbrev RawBackend := SectorFile
abbrev VhdFixedBackend := SectorFile

/-! ## Reading and writing a sector -/

/-- Runs a call on the locked file. -/
def SectorFile.locked {α : Type} (x : Act File α) (d : SectorFile) : Result α × SectorFile :=
  ((x.run d.file).1, { d with file := (x.run d.file).2 })

section
variable (readContext writeContext flushContext : String) (p : Profile) (io : Host)

def SectorFile.readSector (sectors : Sectors) (sector : Nat) (buf : List UInt8) :
    Act File (List UInt8) := do
  if sector ≥ sectors.count then
    Act.bail s!"read sector {sector} out of range ({sectors.count} total)"
  if buf.length ≠ sectorSize then
    Act.bail s!"read buffer must be {sectorSize} bytes"
  let off ← Act.lift (fit p 64 (sector * sectorSize))
  File.seek off
  Act.context readContext (File.readExact io buf.length)

def SectorFile.writeSector (sectors : Sectors) (sector : Nat) (buf : List UInt8) :
    Act File Unit := do
  if sector ≥ sectors.count then
    Act.bail s!"write sector {sector} out of range ({sectors.count} total)"
  if buf.length ≠ sectorSize then
    Act.bail s!"write buffer must be {sectorSize} bytes"
  let off ← Act.lift (fit p 64 (sector * sectorSize))
  File.seek off
  Act.context writeContext (File.writeAll io buf)

def SectorFile.flush : Act File Unit :=
  Act.context flushContext File.flush

end

def RawBackend.readSector := SectorFile.readSector "read_sector"
def RawBackend.writeSector := SectorFile.writeSector "write_sector"
def RawBackend.flush := SectorFile.flush "flush rootfs"

def VhdFixedBackend.readSector := SectorFile.readSector "vhd read_sector"
def VhdFixedBackend.writeSector := SectorFile.writeSector "vhd write_sector"
def VhdFixedBackend.flush := SectorFile.flush "vhd flush"

/-! ## Opening -/

def RawBackend.open (path : Path) (c : Content) : Result RawBackend :=
  if c.len = 0 then .err (.msg s!"{path.display} is empty")
  else if c.len % sectorSize ≠ 0 then
    .err (.msg s!"{path.display} length {c.len} is not a multiple of {sectorSize}")
  else .ok ⟨File.ofContent c, Sectors.ofSize (UInt64.ofNat c.len)⟩

namespace VhdFixedBackend

def footerLen : Nat := 512

/-- `b"conectix"` -/
def footerCookie : List UInt8 := [0x63, 0x6f, 0x6e, 0x65, 0x63, 0x74, 0x69, 0x78]

def diskTypeFixed : Nat := 2
def diskTypeDynamic : Nat := 3
def diskTypeDifferencing : Nat := 4

/-- `u32::from_be_bytes(footer[60..64])` -/
def diskType (footer : List UInt8) : Nat := beVal (slice footer 60 4)

/-- `u64::from_be_bytes(footer[40..48])` -/
def originalSize (footer : List UInt8) : UInt64 := UInt64.ofNat (beVal (slice footer 40 8))

/-- The checks of `open` on the footer of a file of `total` bytes. -/
def checkFooter (p : Profile) (path : Path) (total : Nat) (footer : List UInt8) :
    Result Sectors := do
  if footer.take 8 ≠ footerCookie then
    .err (.msg s!"{path.display} is missing the VHD footer cookie")
  if diskType footer ≠ diskTypeFixed then
    .err (.msg (
      if diskType footer = diskTypeDynamic then
        s!"{path.display} is a dynamic VHD; only fixed VHDs are supported by this backend"
      else if diskType footer = diskTypeDifferencing then
        s!"{path.display} is a differencing VHD; only fixed VHDs are supported by this backend"
      else s!"{path.display} has unsupported VHD disk_type {diskType footer}"))
  let size := originalSize footer
  if size = 0 then
    .err (.msg s!"{path.display} reports zero original_size in VHD footer")
  let needed ← fit p 64 (size.toNat + footerLen)
  if needed > total then
    .err (.msg s!"{path.display} footer original_size={size} but file length is {total}")
  if size.toNat % sectorSize ≠ 0 then
    .err (.msg s!"{path.display} original_size {size} not a multiple of {sectorSize}")
  return Sectors.ofSize size

/-- `open` on the opened file. -/
def openFile (p : Profile) (path : Path) : Act File Sectors := do
  let total ← File.len
  if total < footerLen then
    Act.bail s!"{path.display} is too small to be a VHD"
  File.seek (total - footerLen)
  let footer ← Act.context "read VHD footer" (File.readExact .serves footerLen)
  Act.lift (checkFooter p path total footer)

end VhdFixedBackend

def VhdFixedBackend.open (p : Profile) (path : Path) (c : Content) : Result VhdFixedBackend :=
  let r := (openFile p path).run (File.ofContent c)
  do return ⟨r.2, ← r.1⟩

/-! ## The opened device -/

inductive BlockBackend where
  | raw (b : RawBackend)
  | vhdFixed (b : VhdFixedBackend)

/-- A call of the trait, with the buffer it brings. -/
inductive Request where
  | read (sector : Nat) (buf : List UInt8)
  | write (sector : Nat) (buf : List UInt8)
  | flush
deriving Repr, DecidableEq

/-- What a call hands back on success: the filled buffer, or nothing. -/
inductive Reply where
  | data (buf : List UInt8)
  | done
deriving Repr, DecidableEq

/-- Serves a call through the three methods of a backend. -/
def SectorFile.serve
    (readSector : Profile → Host → Sectors → Nat → List UInt8 → Act File (List UInt8))
    (writeSector : Profile → Host → Sectors → Nat → List UInt8 → Act File Unit)
    (flush : Act File Unit) (p : Profile) (d : SectorFile) (r : Request × Host) :
    Result Reply × SectorFile :=
  match r.1 with
  | .read sector buf => d.locked (do return .data (← readSector p r.2 d.sectors sector buf))
  | .write sector buf => d.locked (do writeSector p r.2 d.sectors sector buf; return .done)
  | .flush => d.locked (do flush; return .done)

def RawBackend.serve : Profile → RawBackend → Request × Host → Result Reply × RawBackend :=
  SectorFile.serve RawBackend.readSector RawBackend.writeSector RawBackend.flush

def VhdFixedBackend.serve :
    Profile → VhdFixedBackend → Request × Host → Result Reply × VhdFixedBackend :=
  SectorFile.serve VhdFixedBackend.readSector VhdFixedBackend.writeSector VhdFixedBackend.flush

namespace BlockBackend

def sectorFile : BlockBackend → SectorFile
  | raw b => b
  | vhdFixed b => b

def sectorCount (b : BlockBackend) : Nat := b.sectorFile.sectors.count

/-- The bytes now in the backing file. -/
def content (b : BlockBackend) : Content := b.sectorFile.file.content

def serve (p : Profile) (b : BlockBackend) (r : Request × Host) : Result Reply × BlockBackend :=
  match b with
  | raw b => ((RawBackend.serve p b r).1, raw (RawBackend.serve p b r).2)
  | vhdFixed b => ((VhdFixedBackend.serve p b r).1, vhdFixed (VhdFixedBackend.serve p b r).2)

end BlockBackend
end HyperPod
