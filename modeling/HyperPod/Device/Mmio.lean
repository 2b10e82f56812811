import HyperPod.Device.Queue
import HyperPod.Lib.Run

/-!
# The VirtIO-MMIO register file: `device/mmio.rs`

`VirtioMmio.write32` is one guest write and `read32` one guest read.  A write acts on
the queue that is selected by `queueWrite` and on no other (`getElem?_queues_write32`),
so a fact about the queues is a fact about `queueWrite` and the selector.
-/

namespace HyperPod

/-- The registers of the transport. -/
inductive Reg where
  | magicValue | version | deviceId | vendorId | deviceFeatures | deviceFeaturesSel
  | driverFeatures | driverFeaturesSel | queueSel | queueNumMax | queueNum | queueReady
  | queueNotify | interruptStatus | interruptAck | status | queueDescLow | queueDescHigh
  | queueAvailLow | queueAvailHigh | queueUsedLow | queueUsedHigh | configGeneration
deriving Repr, DecidableEq

namespace Reg

def offset : Reg → UInt64
  | .magicValue => 0x000
  | .version => 0x004
  | .deviceId => 0x008
  | .vendorId => 0x00c
  | .deviceFeatures => 0x010
  | .deviceFeaturesSel => 0x014
  | .driverFeatures => 0x020
  | .driverFeaturesSel => 0x024
  | .queueSel => 0x030
  | .queueNumMax => 0x034
  | .queueNum => 0x038
  | .queueReady => 0x044
  | .queueNotify => 0x050
  | .interruptStatus => 0x060
  | .interruptAck => 0x064
  | .status => 0x070
  | .queueDescLow => 0x080
  | .queueDescHigh => 0x084
  | .queueAvailLow => 0x090
  | .queueAvailHigh => 0x094
  | .queueUsedLow => 0x0a0
  | .queueUsedHigh => 0x0a4
  | .configGeneration => 0x0fc

def all : List Reg :=
  [.magicValue, .version, .deviceId, .vendorId, .deviceFeatures, .deviceFeaturesSel,
    .driverFeatures, .driverFeaturesSel, .queueSel, .queueNumMax, .queueNum, .queueReady,
    .queueNotify, .interruptStatus, .interruptAck, .status, .queueDescLow, .queueDescHigh,
    .queueAvailLow, .queueAvailHigh, .queueUsedLow, .queueUsedHigh, .configGeneration]

/-- The register at an offset. -/
def ofOffset (o : UInt64) : Option Reg := all.find? fun r => r.offset == o

end Reg

def configSpace : UInt64 := 0x100

def magic : UInt32 := 0x74726976
def version2 : UInt32 := 2

structure MmioState where
  deviceFeaturesSel : UInt32
  driverFeaturesSel : UInt32
  driverFeatures : UInt64
  queueSel : UInt32
  status : UInt32
  interruptStatus : UInt32
  configGeneration : UInt32
deriving Repr, DecidableEq

/-- MMIO transport state for a single VirtIO device. -/
structure VirtioMmio where
  deviceId : UInt32
  vendorId : UInt32
  deviceFeatures : UInt64
  config : List UInt8
  state : MmioState
  queues : List VirtQueue
deriving Repr, DecidableEq

/-- `VirtQueue { size_max: n, ..Default::default() }` -/
def VirtQueue.new (n : UInt32) : VirtQueue := ⟨n, 0, false, 0, 0, 0, 0⟩

def low32 : UInt64 := 0xffffffff

/-- An address with its low half written. -/
def setLow (addr : UInt64) (val : UInt32) : UInt64 := (addr &&& ~~~low32) ||| val.toUInt64

/-- An address with its high half written. -/
def setHigh (addr : UInt64) (val : UInt32) : UInt64 := (addr &&& low32) ||| (val.toUInt64 <<< 32)

namespace VirtioMmio

def new (deviceId vendorId : UInt32) (deviceFeatures : UInt64) (queueSizes : List UInt32) :
    VirtioMmio :=
  { deviceId, vendorId, deviceFeatures
    config := []
    state := ⟨0, 0, 0, 0, 0, 0, 0⟩
    queues := queueSizes.map VirtQueue.new }

def selectedQueue {α : Type} (d : VirtioMmio) (f : VirtQueue → α) : Option α :=
  d.queues[d.state.queueSel.toNat]?.map f

def mutateSelectedQueue (d : VirtioMmio) (f : VirtQueue → VirtQueue) : VirtioMmio :=
  { d with queues := d.queues.modify d.state.queueSel.toNat f }

def mutateState (d : VirtioMmio) (f : MmioState → MmioState) : VirtioMmio :=
  { d with state := f d.state }

def readConfig (d : VirtioMmio) (off : Nat) : UInt32 :=
  if off + 4 > d.config.length then 0
  else Bytes.Pod.ofBytes (Bytes.slice d.config off 4)

/-- Handle a 32-bit MMIO read. -/
def read32 (d : VirtioMmio) (offset : UInt64) : UInt32 :=
  match Reg.ofOffset offset with
  | some .magicValue => magic
  | some .version => version2
  | some .deviceId => d.deviceId
  | some .vendorId => d.vendorId
  | some .deviceFeatures =>
    if d.state.deviceFeaturesSel = 0 then d.deviceFeatures.toUInt32
    else if d.state.deviceFeaturesSel = 1 then (d.deviceFeatures >>> 32).toUInt32
    else 0
  | some .queueNumMax => (d.selectedQueue fun q => q.sizeMax).getD 0
  | some .queueReady => (d.selectedQueue fun q => if q.ready then 1 else 0).getD 0
  | some .interruptStatus => d.state.interruptStatus
  | some .status => d.state.status
  | some .configGeneration => d.state.configGeneration
  | _ =>
    if offset ≥ configSpace then d.readConfig (offset - configSpace).toNat
    else 0

/-- Handle a 32-bit MMIO write; `some` queue index for a `QueueNotify`. -/
def write32 (d : VirtioMmio) (offset : UInt64) (val : UInt32) : Option UInt32 × VirtioMmio :=
  match Reg.ofOffset offset with
  | some .deviceFeaturesSel => (none, d.mutateState fun s => { s with deviceFeaturesSel := val })
  | some .driverFeaturesSel => (none, d.mutateState fun s => { s with driverFeaturesSel := val })
  | some .driverFeatures =>
    (none, d.mutateState fun s =>
      let shift : UInt64 := if s.driverFeaturesSel = 0 then 0 else 32
      let mask := low32 <<< shift
      { s with
        driverFeatures := (s.driverFeatures &&& ~~~mask) ||| (val.toUInt64 <<< shift) })
  | some .queueSel => (none, d.mutateState fun s => { s with queueSel := val })
  | some .queueNum => (none, d.mutateSelectedQueue fun q => { q with size := val })
  | some .queueReady => (none, d.mutateSelectedQueue fun q => { q with ready := val ≠ 0 })
  | some .queueNotify => (some val, d)
  | some .interruptAck =>
    (none, d.mutateState fun s => { s with interruptStatus := s.interruptStatus &&& ~~~val })
  | some .status => (none, d.mutateState fun s => { s with status := val })
  | some .queueDescLow =>
    (none, d.mutateSelectedQueue fun q => { q with descAddr := setLow q.descAddr val })
  | some .queueDescHigh =>
    (none, d.mutateSelectedQueue fun q => { q with descAddr := setHigh q.descAddr val })
  | some .queueAvailLow =>
    (none, d.mutateSelectedQueue fun q => { q with availAddr := setLow q.availAddr val })
  | some .queueAvailHigh =>
    (none, d.mutateSelectedQueue fun q => { q with availAddr := setHigh q.availAddr val })
  | some .queueUsedLow =>
    (none, d.mutateSelectedQueue fun q => { q with usedAddr := setLow q.usedAddr val })
  | some .queueUsedHigh =>
    (none, d.mutateSelectedQueue fun q => { q with usedAddr := setHigh q.usedAddr val })
  | _ => (none, d)

/-- One guest write, as a step of a run. -/
def step (d : VirtioMmio) (w : UInt64 × UInt32) : Option UInt32 × VirtioMmio :=
  d.write32 w.1 w.2

/-! ## What a write does to the queues -/

/-- The effect of a register write on the queue it is addressed to. -/
def queueWrite (reg : Option Reg) (val : UInt32) (q : VirtQueue) : VirtQueue :=
  match reg with
  | some .queueNum => { q with size := val }
  | some .queueReady => { q with ready := val ≠ 0 }
  | some .queueDescLow => { q with descAddr := setLow q.descAddr val }
  | some .queueDescHigh => { q with descAddr := setHigh q.descAddr val }
  | some .queueAvailLow => { q with availAddr := setLow q.availAddr val }
  | some .queueAvailHigh => { q with availAddr := setHigh q.availAddr val }
  | some .queueUsedLow => { q with usedAddr := setLow q.usedAddr val }
  | some .queueUsedHigh => { q with usedAddr := setHigh q.usedAddr val }
  | _ => q

theorem queues_write32 (d : VirtioMmio) (offset : UInt64) (val : UInt32) :
    (d.write32 offset val).2.queues =
      d.queues.modify d.state.queueSel.toNat (queueWrite (Reg.ofOffset offset) val) := by
  have hid : d.queues.modify d.state.queueSel.toNat (fun q => q) = d.queues :=
    List.modify_id _ _
  unfold write32
  cases Reg.ofOffset offset with
  | none => exact hid.symm
  | some r =>
    cases r <;> first
      | rfl
      | exact hid.symm

theorem queueSel_write32 (d : VirtioMmio) (offset : UInt64) (val : UInt32) :
    (d.write32 offset val).2.state.queueSel =
      if Reg.ofOffset offset = some .queueSel then val else d.state.queueSel := by
  unfold write32
  cases Reg.ofOffset offset with
  | none => rfl
  | some r => cases r <;> rfl

theorem getElem?_queues_write32 (d : VirtioMmio) (offset : UInt64) (val : UInt32) (i : Nat) :
    (d.write32 offset val).2.queues[i]? =
      if d.state.queueSel.toNat = i then d.queues[i]?.map (queueWrite (Reg.ofOffset offset) val)
      else d.queues[i]? := by
  rw [queues_write32, List.getElem?_modify]
  by_cases h : d.state.queueSel.toNat = i
  · simp only [if_pos h]
    rfl
  · simp only [if_neg h]
    cases d.queues[i]? <;> rfl

end VirtioMmio
end HyperPod
