import HyperPod.Boot

/-!
# The registers the vCPU starts with: `linux/vm.rs`, `windows/vm.rs`

`configure_long_mode` edits what `KVM_GET_SREGS` and `KVM_GET_REGS` give;
`set_long_mode_registers` hands WHPX a table of names and values.  `VcpuState` is what
either means to the processor, and the two mean the same (`kvmState_configured`,
`whpxState_configured`).  The segment registers hold what loading their selectors from the
GDT would put there (`SegmentRegister.load`), but for the TSS.
-/

namespace HyperPod

open Machine Boot

def bootStackPointer : UInt64 := 0x8ff0

def kcsSelector : UInt16 := 0x08
def kdsSelector : UInt16 := 0x10
def tssSelector : UInt16 := 0x18

def cr0Pe : UInt64 := 1
def cr0Pg : UInt64 := (1 : UInt64) <<< 31
def cr4Pae : UInt64 := (1 : UInt64) <<< 5
def eferLme : UInt64 := (1 : UInt64) <<< 8
def eferLma : UInt64 := (1 : UInt64) <<< 10

/-! ## What the processor sees -/

/-- A segment register: the selector, and the descriptor that is cached behind it. -/
structure SegmentRegister where
  selector : Nat
  base : Nat
  /-- in bytes -/
  limit : Nat
  type : Nat
  s : Nat
  dpl : Nat
  present : Nat
  avl : Nat
  l : Nat
  db : Nat
  g : Nat
deriving Repr, DecidableEq

/-- GDTR or IDTR. -/
structure TableRegister where
  base : Nat
  limit : Nat
deriving Repr, DecidableEq

/-- The registers that both backends set.  WHPX also loads an empty LDTR. -/
structure VcpuState where
  cs : SegmentRegister
  ds : SegmentRegister
  es : SegmentRegister
  fs : SegmentRegister
  gs : SegmentRegister
  ss : SegmentRegister
  tr : SegmentRegister
  gdtr : TableRegister
  idtr : TableRegister
  cr0 : UInt64
  cr3 : UInt64
  cr4 : UInt64
  efer : UInt64
  rflags : UInt64
  rip : UInt64
  rsp : UInt64
  rsi : UInt64
deriving Repr, DecidableEq

/-- `n` bits of `v` from bit `lo` on. -/
def bits (v lo n : Nat) : Nat := v / 2 ^ lo % 2 ^ n

/-- What loading `selector` caches, when the GDT holds the descriptor `v` for it. -/
def SegmentRegister.load (selector v : Nat) : SegmentRegister :=
  let limit := bits v 0 16 + bits v 48 4 * 2 ^ 16
  let g := bits v 55 1
  { selector
    base := bits v 16 24 + bits v 56 8 * 2 ^ 24
    limit := if g = 1 then limit * 4096 + 4095 else limit
    type := bits v 40 4
    s := bits v 44 1
    dpl := bits v 45 2
    present := bits v 47 1
    avl := bits v 52 1
    l := bits v 53 1
    db := bits v 54 1
    g }

/-! ## KVM -/

/-- `kvm_segment` -/
structure KvmSegment where
  base : UInt64
  limit : UInt32
  selector : UInt16
  type : UInt8
  present : UInt8
  dpl : UInt8
  db : UInt8
  s : UInt8
  l : UInt8
  g : UInt8
  avl : UInt8
  unusable : UInt8
  padding : UInt8
deriving Repr, DecidableEq

/-- `kvm_dtable` -/
structure KvmDtable where
  base : UInt64
  limit : UInt16
deriving Repr, DecidableEq

/-- `kvm_sregs` -/
structure KvmSregs where
  cs : KvmSegment
  ds : KvmSegment
  es : KvmSegment
  fs : KvmSegment
  gs : KvmSegment
  ss : KvmSegment
  tr : KvmSegment
  ldt : KvmSegment
  gdt : KvmDtable
  idt : KvmDtable
  cr0 : UInt64
  cr2 : UInt64
  cr3 : UInt64
  cr4 : UInt64
  cr8 : UInt64
  efer : UInt64
  apicBase : UInt64
  interruptBitmap : List UInt64
deriving Repr, DecidableEq

/-- `kvm_regs` -/
structure KvmRegs where
  rax : UInt64
  rbx : UInt64
  rcx : UInt64
  rdx : UInt64
  rsi : UInt64
  rdi : UInt64
  rsp : UInt64
  rbp : UInt64
  r8 : UInt64
  r9 : UInt64
  r10 : UInt64
  r11 : UInt64
  r12 : UInt64
  r13 : UInt64
  r14 : UInt64
  r15 : UInt64
  rip : UInt64
  rflags : UInt64
deriving Repr, DecidableEq

namespace Kvm

def makeSegment (selector : UInt16) (type s db l g : UInt8) (limit : UInt32) : KvmSegment where
  base := 0
  limit := limit
  selector := selector
  type := type
  present := 1
  dpl := 0
  db := db
  s := s
  l := l
  g := g
  avl := 0
  unusable := 0
  padding := 0

/-- `configure_long_mode`, from `KVM_GET_SREGS` to `KVM_SET_SREGS`. -/
def longModeSregs (sregs : KvmSregs) : KvmSregs :=
  let data := makeSegment kdsSelector 0b0011 1 1 0 1 0xffffffff
  { sregs with
    cs := makeSegment kcsSelector 0b1011 1 0 1 1 0xffffffff
    ds := data
    es := data
    fs := data
    gs := data
    ss := data
    tr := makeSegment tssSelector 0b1011 0 0 0 0 0x67
    gdt := ⟨UInt64.ofNat bootGdtOffset, 8 * 4 - 1⟩
    idt := ⟨UInt64.ofNat bootIdtOffset, 8 - 1⟩
    cr0 := cr0Pe ||| cr0Pg
    cr3 := UInt64.ofNat pml4Start
    cr4 := cr4Pae
    efer := eferLme ||| eferLma }

/-- `configure_long_mode`, from `KVM_GET_REGS` to `KVM_SET_REGS`. -/
def entryRegs (regs : KvmRegs) (entry : UInt64) : KvmRegs :=
  { regs with
    rflags := 0x2
    rip := entry
    rsp := bootStackPointer
    rsi := UInt64.ofNat zeroPageStart }

end Kvm

/-- A segment as KVM loads it into the vCPU. -/
def KvmSegment.register (k : KvmSegment) : SegmentRegister where
  selector := k.selector.toNat
  base := k.base.toNat
  limit := k.limit.toNat
  type := k.type.toNat
  s := k.s.toNat
  dpl := k.dpl.toNat
  present := k.present.toNat
  avl := k.avl.toNat
  l := k.l.toNat
  db := k.db.toNat
  g := k.g.toNat

def kvmState (sregs : KvmSregs) (regs : KvmRegs) : VcpuState where
  cs := sregs.cs.register
  ds := sregs.ds.register
  es := sregs.es.register
  fs := sregs.fs.register
  gs := sregs.gs.register
  ss := sregs.ss.register
  tr := sregs.tr.register
  gdtr := ⟨sregs.gdt.base.toNat, sregs.gdt.limit.toNat⟩
  idtr := ⟨sregs.idt.base.toNat, sregs.idt.limit.toNat⟩
  cr0 := sregs.cr0
  cr3 := sregs.cr3
  cr4 := sregs.cr4
  efer := sregs.efer
  rflags := regs.rflags
  rip := regs.rip
  rsp := regs.rsp
  rsi := regs.rsi

/-! ## WHPX -/

/-- The `WHV_REGISTER_NAME`s that the backend uses. -/
inductive WhvRegister where
  | cs | ds | es | fs | gs | ss | tr | ldtr | gdtr | idtr
  | cr0 | cr3 | cr4 | efer | rflags | rip | rsp | rsi | rax
deriving Repr, DecidableEq

/-- `WHV_X64_SEGMENT_REGISTER` -/
structure WhvSegment where
  base : UInt64
  limit : UInt32
  selector : UInt16
  attributes : UInt16
deriving Repr, DecidableEq

/-- `WHV_X64_TABLE_REGISTER` -/
structure WhvTable where
  limit : UInt16
  base : UInt64
deriving Repr, DecidableEq

/-- `WHV_REGISTER_VALUE`, by the member that was written. -/
inductive WhvValue where
  | segment (s : WhvSegment)
  | table (t : WhvTable)
  | reg64 (v : UInt64)
deriving Repr, DecidableEq

/-- The registers of a virtual processor. -/
abbrev WhvRegisters := WhvRegister → WhvValue

namespace Whpx

def makeSegment (selector attributes : UInt16) (limit : UInt32) : WhvSegment where
  base := 0
  limit := limit
  selector := selector
  attributes := attributes

def makeTable (base : UInt64) (limit : UInt16) : WhvTable := ⟨limit, base⟩

/-- The names that `set_long_mode_registers` passes. -/
def longModeNames : List WhvRegister :=
  [.cs, .ds, .es, .fs, .gs, .ss, .tr, .ldtr, .gdtr, .idtr, .cr0, .cr3, .cr4, .efer, .rflags,
    .rip, .rsp, .rsi]

/-- The values that it passes. -/
def longModeValues (entry : UInt64) : List WhvValue :=
  let cs := makeSegment kcsSelector 0xa09b 0xffffffff
  let ds := makeSegment kdsSelector 0xc093 0xffffffff
  let tr := makeSegment tssSelector 0x008b 0x67
  let ldt := makeSegment 0 0x0082 0xffff
  let gdt := makeTable (UInt64.ofNat bootGdtOffset) 31
  let idt := makeTable (UInt64.ofNat bootIdtOffset) 7
  [.segment cs, .segment ds, .segment ds, .segment ds, .segment ds, .segment ds, .segment tr,
    .segment ldt, .table gdt, .table idt, .reg64 (cr0Pe ||| cr0Pg), .reg64 (UInt64.ofNat pml4Start),
    .reg64 cr4Pae, .reg64 (eferLme ||| eferLma), .reg64 0x2, .reg64 entry,
    .reg64 bootStackPointer, .reg64 (UInt64.ofNat zeroPageStart)]

/-- The registers once `WHvSetVirtualProcessorRegisters` has served a call. -/
def setRegisters (regs : WhvRegisters) (names : List WhvRegister) (values : List WhvValue) :
    WhvRegisters :=
  (names.zip values).foldl (fun regs (name, value) r => if r = name then value else regs r) regs

end Whpx

/-- A segment as WHPX loads it, with the attributes as in bits 40 to 55 of a descriptor. -/
def WhvSegment.register (w : WhvSegment) : SegmentRegister where
  selector := w.selector.toNat
  base := w.base.toNat
  limit := w.limit.toNat
  type := bits w.attributes.toNat 0 4
  s := bits w.attributes.toNat 4 1
  dpl := bits w.attributes.toNat 5 2
  present := bits w.attributes.toNat 7 1
  avl := bits w.attributes.toNat 12 1
  l := bits w.attributes.toNat 13 1
  db := bits w.attributes.toNat 14 1
  g := bits w.attributes.toNat 15 1

/-! Reading a member of the union; no other than the one that was written is read. -/

def WhvValue.asSegment : WhvValue → SegmentRegister
  | .segment s => s.register
  | _ => (⟨0, 0, 0, 0⟩ : WhvSegment).register

def WhvValue.asTable : WhvValue → TableRegister
  | .table t => ⟨t.base.toNat, t.limit.toNat⟩
  | _ => ⟨0, 0⟩

def WhvValue.asReg64 : WhvValue → UInt64
  | .reg64 v => v
  | _ => 0

def whpxState (regs : WhvRegisters) : VcpuState where
  cs := (regs .cs).asSegment
  ds := (regs .ds).asSegment
  es := (regs .es).asSegment
  fs := (regs .fs).asSegment
  gs := (regs .gs).asSegment
  ss := (regs .ss).asSegment
  tr := (regs .tr).asSegment
  gdtr := (regs .gdtr).asTable
  idtr := (regs .idtr).asTable
  cr0 := (regs .cr0).asReg64
  cr3 := (regs .cr3).asReg64
  cr4 := (regs .cr4).asReg64
  efer := (regs .efer).asReg64
  rflags := (regs .rflags).asReg64
  rip := (regs .rip).asReg64
  rsp := (regs .rsp).asReg64
  rsi := (regs .rsi).asReg64

/-! ## The two agree -/

/-- The state that both backends leave. -/
def entryState (entry : UInt64) : VcpuState :=
  let data := SegmentRegister.load 0x10 0x00cf93000000ffff
  { cs := SegmentRegister.load 0x08 0x00af9b000000ffff
    ds := data
    es := data
    fs := data
    gs := data
    ss := data
    -- busy, and with a limit in bytes
    tr := { SegmentRegister.load 0x18 0x0080890000000067 with type := 11, limit := 0x67, g := 0 }
    gdtr := ⟨bootGdtOffset, 31⟩
    idtr := ⟨bootIdtOffset, 7⟩
    cr0 := 0x80000001
    cr3 := UInt64.ofNat pml4Start
    cr4 := 0x20
    efer := 0x500
    rflags := 2
    rip := entry
    rsp := bootStackPointer
    rsi := UInt64.ofNat zeroPageStart }

theorem register_kcs : (Kvm.makeSegment kcsSelector 0b1011 1 0 1 1 0xffffffff).register =
    SegmentRegister.load 0x08 0x00af9b000000ffff := by
  decide

theorem register_kds : (Kvm.makeSegment kdsSelector 0b0011 1 1 0 1 0xffffffff).register =
    SegmentRegister.load 0x10 0x00cf93000000ffff := by
  decide

theorem whv_register_kcs : (Whpx.makeSegment kcsSelector 0xa09b 0xffffffff).register =
    SegmentRegister.load 0x08 0x00af9b000000ffff := by
  decide

theorem whv_register_kds : (Whpx.makeSegment kdsSelector 0xc093 0xffffffff).register =
    SegmentRegister.load 0x10 0x00cf93000000ffff := by
  decide

/-- Whatever the vCPU's registers were, `configure_long_mode` leaves this state. -/
theorem kvmState_configured (sregs : KvmSregs) (regs : KvmRegs) (entry : UInt64) :
    kvmState (Kvm.longModeSregs sregs) (Kvm.entryRegs regs entry) = entryState entry := by
  unfold kvmState Kvm.longModeSregs Kvm.entryRegs entryState
  dsimp only
  rw [register_kcs, register_kds]
  rfl

/-- So does `set_long_mode_registers`. -/
theorem whpxState_configured (regs : WhvRegisters) (entry : UInt64) :
    whpxState (Whpx.setRegisters regs Whpx.longModeNames (Whpx.longModeValues entry)) =
      entryState entry := by
  have hcs : Whpx.setRegisters regs Whpx.longModeNames (Whpx.longModeValues entry) .cs =
      .segment (Whpx.makeSegment kcsSelector 0xa09b 0xffffffff) := rfl
  have hdata : ∀ r ∈ [WhvRegister.ds, .es, .fs, .gs, .ss],
      Whpx.setRegisters regs Whpx.longModeNames (Whpx.longModeValues entry) r =
        .segment (Whpx.makeSegment kdsSelector 0xc093 0xffffffff) := by
    simp only [List.forall_mem_cons]
    exact ⟨rfl, rfl, rfl, rfl, rfl, nofun⟩
  unfold whpxState
  rw [hcs, hdata .ds (by decide), hdata .es (by decide), hdata .fs (by decide),
    hdata .gs (by decide), hdata .ss (by decide)]
  unfold entryState WhvValue.asSegment
  dsimp only
  rw [whv_register_kcs, whv_register_kds]
  rfl

end HyperPod
