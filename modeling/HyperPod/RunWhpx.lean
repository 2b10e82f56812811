import HyperPod.GuestEntry
import HyperPod.PortIo
import HyperPod.RunTrack
import HyperPod.Scaling.Sinks

/-!
# A run of the VM on WHPX: `windows/vm.rs`, `windows/partition.rs`

`runVm` is all of `run_vm` with the calls that it makes through `Partition` and the job
object.  Whatever the host answers, the log follows `whpxProtocol` to its end
(`keeps_runVm`): the partition is set up and given memory in the order that WHPX asks for,
RAM outlives it, the guest is entered where it boots if the kernel spares the boot artefacts,
and the partition, the job object and the pool are each let go exactly once.
-/

namespace HyperPod

open Machine Bytes GuestRam HostFile Boot Elf

inductive PropertyCode where
  | processorCount
  | localApicEmulationMode
deriving Repr, DecidableEq

/-- `WHV_RUN_VP_EXIT_CONTEXT`, by its reason. -/
inductive WhpxExit where
  | none
  | x64Halt
  | unrecoverableException
  | x64IoPortAccess (rip : UInt64) (io : IoPortAccess)
  | memoryAccess (rip gpa : UInt64) (instructionByteCount : UInt8)
  | canceled
  | other (reason : Int32)

/-- One turn of the run loop: the answer to `WHvRunVirtualProcessor`, and the one that
setting registers gets after it. -/
structure WhpxTurn where
  runVirtualProcessor : Int32
  exit : WhpxExit
  setRegisters : Int32

/-- What the host answers over a whole run; an `Int32` is an `HRESULT`. -/
structure WhpxRunHost where
  openStorage : Path → Result Unit
  alloc : Nat → Result Unit
  hostPtr : UInt64
  readKernel : Path → Result Content
  createPartition : Int32
  handle : Int64
  /-- no partition has the null handle -/
  handle_ne : handle ≠ 0
  setPartitionProperty : PropertyCode → UInt32 → Int32
  setupPartition : Int32
  mapGpaRange : UInt64 → UInt64 → Nat → Int32
  createVirtualProcessor : UInt32 → Int32
  /-- the registers of a new virtual processor -/
  registers : WhvRegisters
  setRegisters : List WhvRegister → List WhvValue → Int32
  getSystemTimes : Bool
  createJobObject : Bool
  assignProcessToJobObject : Bool
  availableParallelism : Option Nat
  buildPool : Nat → Result Unit
  /-- the turns of the run loop, after which `WHvRunVirtualProcessor` fails -/
  turns : List WhpxTurn
  failed : Int32
  failed_ne : failed ≠ 0
  stderr : String → Bool

/-- The calls of a run. -/
inductive WhpxCall where
  | openStorage
  | dropStorage
  | newRam
  | dropRam
  | createPartition
  | deletePartition
  | setPartitionProperty (code : PropertyCode) (value : UInt32)
  | setupPartition
  | mapGpaRange (hostPtr gpa : UInt64) (size : Nat)
  /-- the boot writers and the loader, and the RAM that they leave -/
  | fillRam (ram : GuestRam)
  | createVirtualProcessor (index : UInt32)
  | setRegisters (names : List WhvRegister) (values : List WhvValue)
  | createJobObject
  | assignProcessToJobObject
  | closeJobObject
  | buildPool (threads : Nat)
  | dropPool
  /-- the monitor goes to a thread of the pool, and the job object with it -/
  | spawn (policy : ScalingPolicy)
  | storeShutdown
  | run
  /-- an access to the serial port, and what it prints -/
  | serial (bytes : List UInt8)

/-- `{:08x}` -/
def hex8 (n : Nat) : String :=
  let digits := Nat.toDigits 16 n
  String.ofList (List.replicate (8 - digits.length) '0' ++ digits)

namespace Whpx

open Logged

def check (hr : Int32) (op : String) : Result Unit :=
  bailIf (hr ≠ 0) s!"{op} failed: HRESULT 0x{hex8 hr.toUInt32.toNat}"

/-! ## `Partition` -/

def setPropertyOf (host : WhpxRunHost) (code : PropertyCode) (value : UInt32) :
    Logged WhpxCall Unit :=
  call (.setPartitionProperty code value)
    (check (host.setPartitionProperty code value) "WHvSetPartitionProperty")

def mapMemory (host : WhpxRunHost) (hostPtr gpa : UInt64) (size : Nat) : Logged WhpxCall Unit :=
  call (.mapGpaRange hostPtr gpa size) (check (host.mapGpaRange hostPtr gpa size) "WHvMapGpaRange")

def createVcpu (host : WhpxRunHost) (index : UInt32) : Logged WhpxCall Unit :=
  call (.createVirtualProcessor index)
    (check (host.createVirtualProcessor index) "WHvCreateVirtualProcessor")

/-- `Partition::set_registers`, with the host's answer. -/
def setRegistersWith (p : Profile) (hr : Int32) (names : List WhvRegister)
    (values : List WhvValue) : Logged WhpxCall Unit := do
  -- debug_assert_eq!
  if p = .debug ∧ names.length ≠ values.length then Act.lift .panic
  call (.setRegisters names values) (check hr "WHvSetVirtualProcessorRegisters")

/-- The partition is deleted unless its handle is null. -/
def withPartition {α : Type} (host : WhpxRunHost) (body : Logged WhpxCall α) : Logged WhpxCall α :=
  if host.handle ≠ 0 then holding .deletePartition body else body

/-! ## The run -/

def setLongModeRegisters (p : Profile) (host : WhpxRunHost) (entry : UInt64) :
    Logged WhpxCall Unit :=
  setRegistersWith p (host.setRegisters longModeNames (longModeValues entry)) longModeNames
    (longModeValues entry)

/-- `JobObjectCpuRateSink::new` -/
def newJobObjectSink (host : WhpxRunHost) : Logged WhpxCall Unit := do
  call .createJobObject (bailIf (!host.createJobObject) "CreateJobObjectW failed")
  orRelease .closeJobObject
    (call .assignProcessToJobObject (bailIf (!host.assignProcessToJobObject)
      ("AssignProcessToJobObject failed " ++
        "(this process may already be in a job that disallows nesting)")))

def startScaling (host : WhpxRunHost) (limits : Limits) : Logged WhpxCall Unit := do
  let policy := ScalingPolicy.fromLimits limits
  Act.lift (bailIf (!host.getSystemTimes) "GetSystemTimes failed")
  newJobObjectSink host
  orRelease .closeJobObject do
    let n := host.availableParallelism.getD 2
    call (.buildPool n) (withContext "build rayon pool" (host.buildPool n))
    emit (.spawn policy)

/-- The `X64IoPortAccess` arm of the run loop. -/
def ioPortAccess (p : Profile) (host : WhpxRunHost) (hr : Int32) (rip : UInt64)
    (io : IoPortAccess) : Logged WhpxCall Unit := do
  let port := io.portNumber
  let rawInfo := io.accessInfo
  let isWrite := rawInfo &&& 1 ≠ 0
  let accessSize := ((rawInfo >>> 1) &&& 0x7).toNat
  let nextRip ← Act.lift (fit p 64 (rip.toNat + io.instructionByteCount.toNat))
  if Serial.handles port ∧ isWrite then
    let bytes := leBytes 8 io.rax.toNat
    let n := max (min accessSize 4) 1
    emit (.serial (Serial.write port (bytes.take n)))
    setRegistersWith p hr [.rip] [.reg64 (UInt64.ofNat nextRip)]
  else if Serial.handles port then
    let buf := List.replicate 4 (0 : UInt8)
    let n := max (min accessSize 4) 1
    let buf := Serial.read port (buf.take n) ++ buf.drop n
    emit (.serial [])
    let newRax := (UInt32.ofNat (leVal buf)).toUInt64
    setRegistersWith p hr [.rax, .rip] [.reg64 newRax, .reg64 (UInt64.ofNat nextRip)]
  else
    let direction := if isWrite then "OUT" else "IN"
    eprintln host.stderr s!"hyperpod[whpx]: unhandled {direction} {hex port.toNat}"
    setRegistersWith p hr [.rip] [.reg64 (UInt64.ofNat nextRip)]

/-- One exit; whether the loop goes on. -/
def handleExit (p : Profile) (host : WhpxRunHost) (hr : Int32) : WhpxExit → Logged WhpxCall Bool
  | .none => pure true
  | .x64Halt => do
    eprintln host.stderr "hyperpod[whpx]: guest HLT"
    return false
  | .unrecoverableException => do
    eprintln host.stderr "hyperpod[whpx]: guest unrecoverable exception"
    return false
  | .x64IoPortAccess rip io => do
    ioPortAccess p host hr rip io
    return true
  | .memoryAccess rip gpa instructionByteCount => do
    eprintln host.stderr s!"hyperpod[whpx]: unhandled MMIO @ {hex gpa.toNat}"
    let nextRip ← Act.lift (fit p 64 (rip.toNat + instructionByteCount.toNat))
    setRegistersWith p hr [.rip] [.reg64 (UInt64.ofNat nextRip)]
    return true
  | .canceled => do
    eprintln host.stderr "hyperpod[whpx]: run canceled, continuing"
    return true
  | .other reason => do
    eprintln host.stderr s!"hyperpod[whpx]: unhandled exit reason {reason}"
    return false

def runLoop (p : Profile) (host : WhpxRunHost) : List WhpxTurn → Logged WhpxCall Unit
  | [] => call .run (check host.failed "WHvRunVirtualProcessor")
  | turn :: turns => do
    call .run (check turn.runVirtualProcessor "WHvRunVirtualProcessor")
    if ← handleExit p host turn.setRegisters turn.exit then runLoop p host turns

/-- From the entry message to the end of the run, with the pool at hand. -/
def enter (p : Profile) (host : WhpxRunHost) (cfg : HyperPodFile) (entry : UInt64) :
    Logged WhpxCall Unit := do
  eprintln host.stderr
    s!"hyperpod[whpx]: entering vCPU at {hex entry.toNat} with {cfg.limits.minRam} MiB RAM"
  let result ← attempt (runLoop p host host.turns)
  emit .storeShutdown
  Act.lift result

/-- The steps that fill guest RAM, with the file as it can be read. -/
def fillRam (p : Profile) (host : WhpxRunHost) (cfg : HyperPodFile) :
    Act GuestRam LoadedKernel := do
  writeArtefacts p cfg.cmdline cfg.limits.minRam
  load p cfg.kernelPath.display (host.readKernel cfg.kernelPath)

/-- From the first property on, with the partition at hand. -/
def runPartition (p : Profile) (host : WhpxRunHost) (cfg : HyperPodFile) (ram : GuestRam) :
    Logged WhpxCall Unit := do
  setPropertyOf host .processorCount 1
  -- WHvX64LocalApicEmulationModeXApic
  setPropertyOf host .localApicEmulationMode 1
  call .setupPartition (check host.setupPartition "WHvSetupPartition")
  mapMemory host host.hostPtr 0 ram.size
  let filled := (fillRam p host cfg).run ram
  let kernel ← call (.fillRam filled.2) filled.1
  createVcpu host 0
  setLongModeRegisters p host kernel.entry
  startScaling host cfg.limits
  holding .dropPool (enter p host cfg kernel.entry)

/-- `run_vm`; the locals are dropped in reverse order, on an early return and a panic too. -/
def runVm (p : Profile) (host : WhpxRunHost) (cfg : HyperPodFile) : Logged WhpxCall Unit := do
  call .openStorage (host.openStorage cfg.rootfsPath)
  holding .dropStorage do
    let ram ← call .newRam (GuestRam.new host.alloc cfg.limits.minRam)
    holding .dropRam do
      call .createPartition (check host.createPartition "WHvCreatePartition")
      withPartition host (runPartition p host cfg ram)

end Whpx
/-! ## What the calls of a run owe each other -/

/-- What a run has of the host. -/
structure WhpxHeld where
  storage : Bool := false
  ram : Bool := false
  partition : Bool := false
  job : Bool := false
  pool : Bool := false
deriving Repr, DecidableEq

/-- What a run has set up. -/
structure WhpxDevice where
  processorCount : Bool := false
  isSetup : Bool := false
  mapped : Option Nat := none
  image : Option GuestRam := none
  /-- of the virtual processor, once it is there -/
  registers : Option WhvRegisters := none

abbrev WhpxTrack := RunTrack WhpxHeld WhpxDevice

namespace WhpxTrack

/-- The virtual processor is there, with memory and a monitor that runs.  At the first entry
`Boots` holds of the RAM and the registers. -/
structure MayRun (Boots : GuestRam → VcpuState → Prop) (m : WhpxTrack) : Prop where
  ram : m.held.ram = true
  partition : m.held.partition = true
  mapped : m.device.mapped.isSome
  vcpu : m.device.registers.isSome
  monitor : m.monitor = .running
  boots : m.entered = false → ∃ ram registers, m.device.image = some ram ∧
    m.device.registers = some registers ∧ Boots ram (whpxState registers)

/-- Which calls may be made.  A partition takes properties before it is set up, and memory
and processors after; RAM is not freed as long as there is one, and not written once the
guest runs; as many values are handed over as registers are named. -/
def Allowed (Boots : GuestRam → VcpuState → Prop) (limits : Limits) (m : WhpxTrack) :
    WhpxCall → Prop
  | .openStorage => m.held.storage = false
  | .dropStorage => m.held.storage = true
  | .newRam => m.held.ram = false
  | .dropRam => m.held.ram = true ∧ m.held.partition = false
  | .createPartition => m.held.partition = false
  | .deletePartition => m.held.partition = true
  | .setPartitionProperty _ _ => m.held.partition = true ∧ m.device.isSetup = false
  | .setupPartition =>
    m.held.partition = true ∧ m.device.isSetup = false ∧ m.device.processorCount = true
  | .mapGpaRange _ _ _ =>
    m.held.partition = true ∧ m.held.ram = true ∧ m.device.isSetup = true ∧ m.device.mapped = none
  | .fillRam _ => m.held.ram = true ∧ m.entered = false
  | .createVirtualProcessor _ =>
    m.held.partition = true ∧ m.device.isSetup = true ∧ m.device.registers = none
  | .setRegisters names values =>
    m.held.partition = true ∧ m.device.registers.isSome ∧ names.length = values.length
  | .createJobObject => m.held.job = false
  | .assignProcessToJobObject => m.held.job = true
  | .closeJobObject => m.held.job = true
  | .buildPool _ => m.held.pool = false
  | .dropPool => m.held.pool = true
  | .spawn policy =>
    m.held.pool = true ∧ m.held.job = true ∧ m.monitor = .absent ∧ policy = .fromLimits limits
  | .storeShutdown => m.monitor = .running
  | .run => m.MayRun Boots
  | .serial _ => m.entered = true

/-- `registers` are those of a new virtual processor. -/
def after (registers : WhvRegisters) (m : WhpxTrack) : WhpxCall → WhpxTrack
  | .openStorage => { m with held := { m.held with storage := true } }
  | .dropStorage => { m with held := { m.held with storage := false } }
  | .newRam => { m with held := { m.held with ram := true } }
  | .dropRam => { m with held := { m.held with ram := false } }
  | .createPartition => { m with held := { m.held with partition := true }, device := {} }
  | .deletePartition => { m with held := { m.held with partition := false } }
  | .setPartitionProperty .processorCount _ =>
    { m with device := { m.device with processorCount := true } }
  | .setPartitionProperty .localApicEmulationMode _ => m
  | .setupPartition => { m with device := { m.device with isSetup := true } }
  | .mapGpaRange _ _ size => { m with device := { m.device with mapped := some size } }
  | .fillRam ram => { m with device := { m.device with image := some ram } }
  | .createVirtualProcessor _ =>
    { m with device := { m.device with registers := some registers } }
  | .setRegisters names values =>
    { m with device := { m.device with
      registers := m.device.registers.map (Whpx.setRegisters · names values) } }
  | .createJobObject => { m with held := { m.held with job := true } }
  | .closeJobObject => { m with held := { m.held with job := false } }
  | .buildPool _ => { m with held := { m.held with pool := true } }
  | .dropPool => { m with held := { m.held with pool := false } }
  | .spawn _ => { m with held := { m.held with job := false }, monitor := .running }
  | .storeShutdown => { m with monitor := .stopping }
  | .run => { m with entered := true }
  | .assignProcessToJobObject | .serial _ => m

end WhpxTrack

def whpxProtocol (registers : WhvRegisters) (Boots : GuestRam → VcpuState → Prop)
    (limits : Limits) : Protocol WhpxCall WhpxTrack where
  start := { held := {}, device := {} }
  allowed := WhpxTrack.Allowed Boots limits
  effect := WhpxTrack.after registers

/-! ## A run follows the protocol -/

namespace Whpx

open Protocol RunTrack WhpxTrack

variable {Boots : GuestRam → VcpuState → Prop} {registers : WhvRegisters} {limits : Limits}
  {m : WhpxTrack} {p : Profile}

/-- Between two entries. -/
structure InLoop (Boots : GuestRam → VcpuState → Prop) (held : WhpxHeld) (m : WhpxTrack) :
    Prop where
  mayRun : m.MayRun Boots
  held : m.held = held
  entered : m.entered = true

/-- As long as it sets as many registers as it has values, a turn stays in the loop. -/
theorem keeps_setRegistersWith {hr : Int32} {names : List WhvRegister} {values : List WhvValue}
    {held : WhpxHeld} (h : InLoop Boots held m) (hlen : names.length = values.length) :
    (whpxProtocol registers Boots limits).Keeps m (setRegistersWith p hr names values)
      fun _ => InLoop Boots held := by
  unfold setRegistersWith
  rw [if_neg fun hne => hne.2 hlen]
  refine keeps_call ⟨h.mayRun.partition, h.mayRun.vcpu, hlen⟩ (fun _ _ => ?_) (fun _ _ => h)
    fun _ => h
  refine ⟨{ h.mayRun with vcpu := ?_, boots := ?_ }, h.held, h.entered⟩
  · show (m.device.registers.map _).isSome = true
    rw [Option.isSome_map]
    exact h.mayRun.vcpu
  · intro hnot
    have hentered : m.entered = false := hnot
    rw [h.entered] at hentered
    cases hentered

theorem keeps_ioPortAccess (host : WhpxRunHost) (hr : Int32) (rip : UInt64) (io : IoPortAccess)
    {held : WhpxHeld} (h : InLoop Boots held m) :
    (whpxProtocol registers Boots limits).Keeps m (ioPortAccess p host hr rip io)
      fun _ => InLoop Boots held := by
  refine keeps_lift_bind (fun nextRip _ => ?_) (fun _ _ => h) fun _ => h
  split
  · exact keeps_emit_bind h.entered (keeps_setRegistersWith h rfl)
  · split
    · exact keeps_emit_bind h.entered (keeps_setRegistersWith h rfl)
    · exact keeps_eprintln_bind h (keeps_setRegistersWith h rfl)

theorem keeps_handleExit (host : WhpxRunHost) (hr : Int32) (exit : WhpxExit) {held : WhpxHeld}
    (h : InLoop Boots held m) :
    (whpxProtocol registers Boots limits).Keeps m (handleExit p host hr exit)
      fun _ => InLoop Boots held := by
  cases exit with
  | none => exact keeps_pure h
  | x64Halt => exact keeps_eprintln_bind h (keeps_pure h)
  | unrecoverableException => exact keeps_eprintln_bind h (keeps_pure h)
  | x64IoPortAccess rip io =>
    exact (keeps_ioPortAccess host hr rip io h).bind_invariant fun _ _ h' => keeps_pure h'
  | memoryAccess rip gpa instructionByteCount =>
    refine keeps_eprintln_bind h ?_
    refine keeps_lift_bind (fun nextRip _ => ?_) (fun _ _ => h) fun _ => h
    exact (keeps_setRegistersWith h rfl).bind_invariant fun _ _ h' => keeps_pure h'
  | canceled => exact keeps_eprintln_bind h (keeps_pure h)
  | other reason => exact keeps_eprintln_bind h (keeps_pure h)

/-- The guest has been entered. -/
theorem inLoop_after_run (registers : WhvRegisters) (h : m.MayRun Boots) :
    InLoop Boots m.held (m.after registers .run) :=
  ⟨{ h with boots := nofun }, rfl, rfl⟩

/-- **The loop** enters the guest only as it may, and keeps the monitor. -/
theorem keeps_runLoop (host : WhpxRunHost) (turns : List WhpxTurn) (h : m.MayRun Boots) :
    (whpxProtocol registers Boots limits).Keeps m (runLoop p host turns) (LoopEnds m.held) := by
  induction turns generalizing m with
  | nil =>
    unfold runLoop
    exact keeps_call h (fun _ _ => ⟨rfl, h.monitor, fun _ => rfl⟩)
      (fun _ _ => ⟨rfl, h.monitor, nofun⟩) fun _ => ⟨rfl, h.monitor, nofun⟩
  | cons turn turns ih =>
    refine keeps_call_bind h (fun _ _ => ?_) (fun _ _ => ⟨rfl, h.monitor, nofun⟩)
      fun _ => ⟨rfl, h.monitor, nofun⟩
    have hin := inLoop_after_run registers h
    refine (keeps_handleExit host turn.setRegisters turn.exit hin).bind ?_ ?_ ?_
    · intro goesOn m' hin
      cases goesOn with
      | true =>
        have hrest := ih hin.mayRun
        rwa [hin.held] at hrest
      | false => exact keeps_pure ⟨hin.held, hin.mayRun.monitor, fun _ => hin.entered⟩
    · intro e m' hin
      exact ⟨hin.held, hin.mayRun.monitor, nofun⟩
    · intro m' hin
      exact ⟨hin.held, hin.mayRun.monitor, nofun⟩

theorem keeps_enter (host : WhpxRunHost) (cfg : HyperPodFile) (entry : UInt64)
    (h : m.MayRun Boots) :
    (whpxProtocol registers Boots limits).Keeps m (enter p host cfg entry) (Ends m.held) :=
  keeps_eprintln_bind ⟨rfl, fun hp => absurd rfl hp, nofun⟩
    (keeps_finish (keeps_runLoop host host.turns h) (fun _ h => h) fun _ => rfl)

/-- A failure of it leaves nothing behind; otherwise there is a job object. -/
theorem keeps_newJobObjectSink (host : WhpxRunHost) (hjob : m.held.job = false) :
    (whpxProtocol registers Boots limits).Keeps m (newJobObjectSink host) fun r m' =>
      (r = .ok () → m' = { m with held := { m.held with job := true } }) ∧
        (r ≠ .ok () → m'.held = m.held ∧ m'.monitor = m.monitor) := by
  have hclosed : { m.held with job := false } = m.held := by rw [← hjob]
  refine keeps_call_bind hjob (fun _ _ => ?_) (fun _ _ => ⟨nofun, fun _ => ⟨rfl, rfl⟩⟩)
    fun _ => ⟨nofun, fun _ => ⟨rfl, rfl⟩⟩
  refine keeps_orRelease (keeps_call rfl (fun _ _ => ?_) (fun _ _ => ?_) fun _ => ?_)
  · exact ⟨fun _ => rfl, fun h => absurd rfl h⟩
  · exact ⟨rfl, nofun, fun _ => ⟨hclosed, rfl⟩⟩
  · exact ⟨rfl, nofun, fun _ => ⟨hclosed, rfl⟩⟩

/-- What `start_scaling` leaves. -/
structure Scaled (m : WhpxTrack) (r : Result Unit) (m' : WhpxTrack) : Prop where
  spawned : r = .ok () → m'.held = { m.held with pool := true } ∧ m'.device = m.device ∧
    m'.monitor = .running ∧ m'.entered = m.entered
  failed : r ≠ .ok () → m'.held = m.held ∧ m'.monitor = m.monitor

/-- The job object is the monitor's once that is spawned, and closed otherwise. -/
theorem keeps_startScaling (host : WhpxRunHost) (limits : Limits) (hjob : m.held.job = false)
    (hpool : m.held.pool = false) (hmonitor : m.monitor = .absent) :
    (whpxProtocol registers Boots limits).Keeps m (startScaling host limits) (Scaled m) := by
  have hclosed : { m.held with job := false } = m.held := by rw [← hjob]
  refine keeps_lift_bind (fun _ _ => ?_) (fun _ _ => ⟨nofun, fun _ => ⟨rfl, rfl⟩⟩)
    fun _ => ⟨nofun, fun _ => ⟨rfl, rfl⟩⟩
  refine (keeps_newJobObjectSink host hjob).bind ?_ (fun _ _ h => ⟨nofun, h.2⟩)
    fun _ h => ⟨nofun, h.2⟩
  rintro u m' ⟨hsink, -⟩
  rw [hsink rfl]
  refine keeps_orRelease (keeps_call_bind hpool (fun _ _ => ?_) (fun _ _ => ?_) fun _ => ?_)
  · refine keeps_emit ⟨rfl, rfl, hmonitor, rfl⟩
      ⟨fun _ => ⟨?_, rfl, rfl, rfl⟩, fun h => absurd rfl h⟩
    show { m.held with job := false, pool := true } = { m.held with pool := true }
    rw [← hjob]
  · exact ⟨rfl, nofun, fun _ => ⟨hclosed, rfl⟩⟩
  · exact ⟨rfl, nofun, fun _ => ⟨hclosed, rfl⟩⟩

theorem keeps_setLongModeRegisters (host : WhpxRunHost) (entry : UInt64)
    (hpartition : m.held.partition = true) (hvcpu : m.device.registers = some registers) :
    (whpxProtocol registers Boots limits).Keeps m (setLongModeRegisters p host entry) fun r m' =>
      (m'.held = m.held ∧ m'.monitor = m.monitor) ∧ (r = .ok () → m'.device = { m.device with
        registers := some (setRegisters registers longModeNames (longModeValues entry)) }) := by
  have hsome : m.device.registers.isSome = true := by
    rw [hvcpu]
    rfl
  unfold setLongModeRegisters setRegistersWith
  rw [if_neg fun hne => hne.2 rfl]
  refine keeps_call ⟨hpartition, hsome, rfl⟩ (fun _ _ => ⟨⟨rfl, rfl⟩, fun _ => ?_⟩)
    (fun _ _ => ⟨⟨rfl, rfl⟩, nofun⟩) fun _ => ⟨⟨rfl, rfl⟩, nofun⟩
  have hset : m.device.registers.map (setRegisters · longModeNames (longModeValues entry)) =
      some (setRegisters registers longModeNames (longModeValues entry)) := by
    rw [hvcpu]
    rfl
  exact congrArg (fun r => { m.device with registers := r }) hset

/-- All that an entry needs is there but for the monitor. -/
structure Ready (Boots : GuestRam → VcpuState → Prop) (m : WhpxTrack) : Prop where
  held : m.held = { storage := true, ram := true, partition := true }
  mapped : m.device.mapped.isSome
  monitor : m.monitor = .absent
  boots : ∃ ram registers, m.device.image = some ram ∧ m.device.registers = some registers ∧
    Boots ram (whpxState registers)

theorem keeps_scaled (p : Profile) (registers : WhvRegisters) (host : WhpxRunHost)
    (cfg : HyperPodFile) (entry : UInt64) (h : Ready Boots m) :
    (whpxProtocol registers Boots cfg.limits).Keeps m (do
      startScaling host cfg.limits
      Logged.holding .dropPool (enter p host cfg entry)) (Ends m.held) := by
  have hjob : m.held.job = false := congrArg WhpxHeld.job h.held
  have hpool : m.held.pool = false := congrArg WhpxHeld.pool h.held
  refine (keeps_startScaling host cfg.limits hjob hpool h.monitor).bind ?_ ?_ ?_
  · rintro u m' ⟨hspawned, -⟩
    obtain ⟨hheld, hdevice, hmonitor, -⟩ := hspawned rfl
    have hrun : m'.MayRun Boots := by
      obtain ⟨ram, regs, himage, hregs, hboots⟩ := h.boots
      refine ⟨?_, ?_, ?_, ?_, hmonitor, fun _ => ⟨ram, regs, ?_, ?_, hboots⟩⟩
      · rw [hheld, h.held]
      · rw [hheld, h.held]
      · rw [hdevice]
        exact h.mapped
      · rw [hdevice, hregs]
        rfl
      · rw [hdevice, himage]
      · rw [hdevice, hregs]
    refine keeps_scope _ (keeps_enter host cfg entry hrun) ?_ ?_ fun _ => ⟨rfl, rfl⟩
    · intro m'' h''
      show m''.held.pool = true
      rw [h'', hheld]
    · intro m'' h''
      show { m''.held with pool := false } = _
      rw [h'', hheld, h.held]
  · rintro e m' ⟨-, hfailed⟩
    obtain ⟨hheld, hmonitor⟩ := hfailed nofun
    exact ends_early hheld (hmonitor.trans h.monitor) nofun
  · rintro m' ⟨-, hfailed⟩
    obtain ⟨hheld, hmonitor⟩ := hfailed nofun
    exact ends_early hheld (hmonitor.trans h.monitor) nofun

/-- What a run enters: memory that was filled, and in it a guest that boots when the kernel
spares the artefacts. -/
structure Entered (p : Profile) (host : WhpxRunHost) (cfg : HyperPodFile) (ram : GuestRam)
    (v : VcpuState) : Prop where
  filled : ∃ fresh kernel, GuestRam.new host.alloc cfg.limits.minRam = .ok fresh ∧
    (fillRam p host cfg).run fresh = (.ok kernel, ram)
  boots : ∀ file, host.readKernel cfg.kernelPath = .ok file →
    SparesArtefacts cfg.cmdline file.bytes →
      BootsGuest cfg.cmdline (cfg.limits.minRam.toNat * mib) (valAt UInt64 file.bytes 24) ram v

theorem entered_of_fillRam {host : WhpxRunHost} {cfg : HyperPodFile} {fresh : GuestRam}
    {filled : Result LoadedKernel × GuestRam} {kernel : LoadedKernel}
    (hnew : GuestRam.new host.alloc cfg.limits.minRam = .ok fresh)
    (hrun : (fillRam p host cfg).run fresh = filled) (hkernel : filled.1 = .ok kernel) :
    Entered p host cfg filled.2 (entryState kernel.entry) := by
  obtain ⟨r, ram⟩ := filled
  cases hkernel
  refine ⟨⟨fresh, kernel, hnew, hrun⟩, fun file hfile hspares => ?_⟩
  unfold fillRam at hrun
  rw [hfile] at hrun
  exact bootsGuest_of_setUp hnew hrun hspares

theorem keeps_runPartition (host : WhpxRunHost) (cfg : HyperPodFile) {ram : GuestRam}
    (hnew : GuestRam.new host.alloc cfg.limits.minRam = .ok ram) :
    (whpxProtocol host.registers (Entered p host cfg) cfg.limits).Keeps
      { held := { storage := true, ram := true, partition := true }, device := {} }
      (runPartition p host cfg ram) (Ends { storage := true, ram := true, partition := true }) := by
  unfold runPartition
  refine keeps_early_bind ⟨rfl, rfl⟩ rfl fun _ _ => ?_
  refine keeps_early_bind ⟨rfl, rfl⟩ rfl fun _ _ => ?_
  refine keeps_early_bind ⟨rfl, rfl, rfl⟩ rfl fun _ _ => ?_
  refine keeps_early_bind ⟨rfl, rfl, rfl, rfl⟩ rfl fun _ _ => ?_
  generalize hrun : (fillRam p host cfg).run ram = filled
  refine keeps_early_bind ⟨rfl, rfl⟩ rfl fun kernel hkernel => ?_
  refine keeps_early_bind ⟨rfl, rfl, rfl⟩ rfl fun _ _ => ?_
  have hentered := entered_of_fillRam hnew hrun hkernel
  refine (keeps_setLongModeRegisters host kernel.entry rfl rfl).bind ?_ ?_ ?_
  · rintro u m' ⟨⟨hheld, hmonitor⟩, hregs⟩
    have hdevice := hregs rfl
    have hready : Ready (Entered p host cfg) m' := by
      refine ⟨hheld, ?_, hmonitor, filled.2,
        setRegisters host.registers longModeNames (longModeValues kernel.entry), ?_⟩
      · rw [hdevice]
        rfl
      · rw [hdevice, whpxState_configured]
        exact ⟨rfl, rfl, hentered⟩
    have hscaled := keeps_scaled p host.registers host cfg kernel.entry hready
    rwa [hheld] at hscaled
  · rintro e m' ⟨⟨hheld, hmonitor⟩, -⟩
    exact ends_early hheld hmonitor nofun
  · rintro m' ⟨⟨hheld, hmonitor⟩, -⟩
    exact ends_early hheld hmonitor nofun

theorem keeps_runVm (host : WhpxRunHost) (cfg : HyperPodFile) :
    (whpxProtocol host.registers (Entered p host cfg) cfg.limits).Keeps { held := {}, device := {} }
      (runVm p host cfg) (Ends {}) := by
  refine keeps_early_bind rfl rfl fun _ _ => ?_
  refine keeps_scope { storage := true } ?_ (fun _ h => congrArg WhpxHeld.storage h)
    (fun _ h => congrArg (fun h : WhpxHeld => { h with storage := false }) h) fun _ => ⟨rfl, rfl⟩
  refine keeps_early_bind rfl rfl fun ram hram => ?_
  refine keeps_scope { storage := true, ram := true } ?_
    (fun _ h => ⟨congrArg WhpxHeld.ram h, congrArg WhpxHeld.partition h⟩)
    (fun _ h => congrArg (fun h : WhpxHeld => { h with ram := false }) h) fun _ => ⟨rfl, rfl⟩
  refine keeps_early_bind rfl rfl fun _ _ => ?_
  unfold withPartition
  rw [if_pos host.handle_ne]
  exact keeps_scope _ (keeps_runPartition host cfg hram) (fun _ h => congrArg WhpxHeld.partition h)
    (fun _ h => congrArg (fun h : WhpxHeld => { h with partition := false }) h)
    fun _ => ⟨rfl, rfl⟩

/-- **A run on WHPX follows the protocol**, whatever the host answers.  It ends with nothing
at hand and, unless it panics, with the monitor asked to stop; it returns `Ok` only when the
guest was entered. -/
theorem whpx_run_follows (p : Profile) (host : WhpxRunHost) (cfg : HyperPodFile) :
    let P := whpxProtocol host.registers (Entered p host cfg) cfg.limits
    let run := (runVm p host cfg).run []
    P.Follows run.2 ∧ Ends {} run.1 (P.state run.2) :=
  (keeps_runVm host cfg).follows

end Whpx
end HyperPod
