import HyperPod.GuestEntry
import HyperPod.KvmMemory
import HyperPod.PortIo
import HyperPod.Scaling.Discovery
import HyperPod.RunTrack

/-!
# A run of the VM on KVM: `linux/vm.rs`

`runVm` is all of `run_vm`, with every call that acquires, uses or releases something of
the host logged.  The host may answer anything; whatever it answers, the log follows
`kvmProtocol` to its end (`keeps_runVm`): the RAM that KVM was given outlives the VM and the
vCPU, the guest is entered only with the monitor running and, if the kernel spares the boot
artefacts, where it boots, nothing is released twice or left behind, and a run that returns
has stopped the monitor.
-/

namespace HyperPod

open Machine GuestRam HostFile Boot Elf

/-- `kvm_cpuid_entry2` -/
structure CpuidEntry where
  function : UInt32
  index : UInt32
  flags : UInt32
  eax : UInt32
  ebx : UInt32
  ecx : UInt32
  edx : UInt32
deriving Repr, DecidableEq

/-- An exit of the vCPU; `other` is one that the run loop only reports. -/
inductive KvmExit where
  | io (exit : VcpuExit)
  | mmioRead (addr : UInt64)
  | mmioWrite (addr : UInt64)
  | hlt
  | shutdown
  | other (debug : String)

/-- What the host answers over a whole run. -/
structure KvmRunHost extends KvmHost where
  /-- the content of the kernel's file -/
  readKernel : Path → Result Content
  createVcpu : UInt64 → Result Unit
  kvmMaxCpuidEntries : Nat
  getSupportedCpuid : Nat → Result (List CpuidEntry)
  setCpuid2 : List CpuidEntry → Result Unit
  getSregs : Result KvmSregs
  setSregs : KvmSregs → Result Unit
  getRegs : Result KvmRegs
  setRegs : KvmRegs → Result Unit
  proc : ProcHost
  availableParallelism : Option Nat
  buildPool : Nat → Result Unit
  /-- the answers to `KVM_RUN`, which fails after them -/
  vcpuRun : List (Result KvmExit)
  /-- whether a text can be printed: `eprintln!` panics otherwise -/
  stderr : String → Bool

/-- The calls of a run. -/
inductive KvmCall where
  | openStorage
  | dropStorage
  | newRam
  | dropRam
  | newKvm
  | dropKvm
  | createVm
  | dropVm
  | setTssAddress (address : UInt64)
  | setUserMemoryRegion (region : MemoryRegion)
  /-- the boot writers and the loader, and the RAM that they leave -/
  | fillRam (ram : GuestRam)
  | createVcpu
  | dropVcpu
  | getSupportedCpuid
  | setCpuid2 (cpuid : List CpuidEntry)
  | getSregs
  | setSregs (sregs : KvmSregs)
  | getRegs
  | setRegs (regs : KvmRegs)
  | buildPool (threads : Nat)
  | dropPool
  /-- the monitor goes to a thread of the pool -/
  | spawn (policy : ScalingPolicy) (sink : CgroupShareSink)
  | storeShutdown
  | run
  /-- an access to the serial port, and what it prints -/
  | serial (bytes : List UInt8)

def VcpuExit.port : VcpuExit → UInt16
  | .ioIn port _ => port
  | .ioOut port _ => port

def VcpuExit.direction : VcpuExit → String
  | .ioIn _ _ => "in"
  | .ioOut _ _ => "out"

namespace Kvm

open Logged

def configureLongMode (host : KvmRunHost) (entry : UInt64) : Logged KvmCall Unit := do
  let sregs ← call .getSregs (withContext "KVM_GET_SREGS" host.getSregs)
  let sregs := longModeSregs sregs
  call (.setSregs sregs) (withContext "KVM_SET_SREGS" (host.setSregs sregs))
  let regs ← call .getRegs (withContext "KVM_GET_REGS" host.getRegs)
  let regs := entryRegs regs entry
  call (.setRegs regs) (withContext "KVM_SET_REGS" (host.setRegs regs))

def startScaling (host : KvmRunHost) (limits : Limits) : Logged KvmCall Unit := do
  let policy := ScalingPolicy.fromLimits limits
  let _load ← Act.lift (ProcLoadProbe.new host.proc)
  let sink ← Act.lift (discoverCgroupShareSink host.proc)
  let n := host.availableParallelism.getD 2
  call (.buildPool n) (withContext "build rayon pool" (host.buildPool n))
  emit (.spawn policy sink)

/-- One exit; whether the loop goes on. -/
def handleExit (host : KvmRunHost) : KvmExit → Logged KvmCall Bool
  | .io exit => do
    if Serial.handles exit.port then
      emit (.serial (handleVcpuExit exit).1)
    else
      eprintln host.stderr s!"hyperpod[kvm]: unhandled PIO {exit.direction} {hex exit.port.toNat}"
    return true
  | .mmioRead addr => do
    eprintln host.stderr s!"hyperpod[kvm]: unhandled MMIO read at {hex addr.toNat}"
    return true
  | .mmioWrite addr => do
    eprintln host.stderr s!"hyperpod[kvm]: unhandled MMIO write at {hex addr.toNat}"
    return true
  | .hlt => do
    eprintln host.stderr "hyperpod[kvm]: guest HLT"
    return false
  | .shutdown => do
    eprintln host.stderr "hyperpod[kvm]: guest shutdown (panic / triple fault)"
    return false
  | .other debug => do
    eprintln host.stderr s!"hyperpod[kvm]: unhandled vCPU exit {debug}"
    return true

def runLoop (host : KvmRunHost) : List (Result KvmExit) → Logged KvmCall Unit
  | [] => call .run (withContext "KVM_RUN" (.err .host))
  | answer :: answers => do
    let exit ← call .run (withContext "KVM_RUN" answer)
    if ← handleExit host exit then runLoop host answers

/-- From the entry message to the end of the run, with the pool at hand. -/
def enter (host : KvmRunHost) (cfg : HyperPodFile) (entry : UInt64) : Logged KvmCall Unit := do
  eprintln host.stderr
    s!"hyperpod[kvm]: entering vCPU at {hex entry.toNat} with {cfg.limits.minRam} MiB RAM"
  let result ← attempt (runLoop host host.vcpuRun)
  emit .storeShutdown
  Act.lift result

/-- From `KVM_GET_SUPPORTED_CPUID` on, with the vCPU at hand. -/
def runVcpu (host : KvmRunHost) (cfg : HyperPodFile) (entry : UInt64) : Logged KvmCall Unit := do
  let cpuid ← call .getSupportedCpuid (withContext "KVM_GET_SUPPORTED_CPUID"
    (host.getSupportedCpuid host.kvmMaxCpuidEntries))
  call (.setCpuid2 cpuid) (withContext "KVM_SET_CPUID2" (host.setCpuid2 cpuid))
  configureLongMode host entry
  startScaling host cfg.limits
  holding .dropPool (enter host cfg entry)

/-- The region that all of RAM goes to. -/
def ramRegion (host : KvmRunHost) (ram : GuestRam) : MemoryRegion where
  slot := 0
  guestPhysAddr := 0
  memorySize := UInt64.ofNat ram.size
  userspaceAddr := host.hostPtr
  flags := 0

/-- The steps that fill guest RAM, with the file as it can be read. -/
def fillRam (p : Profile) (host : KvmRunHost) (cfg : HyperPodFile) : Act GuestRam LoadedKernel := do
  writeArtefacts p cfg.cmdline cfg.limits.minRam
  load p cfg.kernelPath.display (host.readKernel cfg.kernelPath)

/-- From `KVM_SET_TSS_ADDR` on, with the VM at hand. -/
def runGuest (p : Profile) (host : KvmRunHost) (cfg : HyperPodFile) (ram : GuestRam) :
    Logged KvmCall Unit := do
  call (.setTssAddress tssAddress) (withContext "KVM_SET_TSS_ADDR" (host.setTssAddress tssAddress))
  let region := ramRegion host ram
  call (.setUserMemoryRegion region)
    (withContext "KVM_SET_USER_MEMORY_REGION" (host.setUserMemoryRegion region))
  let filled := (fillRam p host cfg).run ram
  let kernel ← call (.fillRam filled.2) filled.1
  call .createVcpu (withContext "KVM_CREATE_VCPU" (host.createVcpu 0))
  holding .dropVcpu (runVcpu host cfg kernel.entry)

/-- `run_vm`; the locals are dropped in reverse order, on an early return and a panic too. -/
def runVm (p : Profile) (host : KvmRunHost) (cfg : HyperPodFile) : Logged KvmCall Unit := do
  call .openStorage (host.openStorage cfg.rootfsPath)
  holding .dropStorage do
    let ram ← call .newRam (GuestRam.new host.alloc cfg.limits.minRam)
    holding .dropRam do
      call .newKvm (withContext "open /dev/kvm" host.newKvm)
      holding .dropKvm do
        Act.lift (bailIf (host.getApiVersion ≠ host.kvmApiVersion)
          s!"unexpected KVM API version: {host.getApiVersion}")
        call .createVm (withContext "KVM_CREATE_VM" host.createVm)
        holding .dropVm (runGuest p host cfg ram)

end Kvm

/-! ## What the calls of a run owe each other -/

/-- What a run has of the host. -/
structure KvmHeld where
  storage : Bool := false
  ram : Bool := false
  kvm : Bool := false
  vm : Bool := false
  vcpu : Bool := false
  pool : Bool := false
deriving Repr, DecidableEq

/-- What a run has set up. -/
structure KvmDevice where
  tss : Option UInt64 := none
  region : Option MemoryRegion := none
  image : Option GuestRam := none
  cpuid : Option (List CpuidEntry) := none
  sregs : Option KvmSregs := none
  regs : Option KvmRegs := none

abbrev KvmTrack := RunTrack KvmHeld KvmDevice

namespace KvmTrack

/-- The vCPU is there, with memory, CPUID and a monitor that runs.  At the first entry
`Boots` holds of the RAM and the registers. -/
structure MayRun (Boots : GuestRam → VcpuState → Prop) (m : KvmTrack) : Prop where
  ram : m.held.ram = true
  vm : m.held.vm = true
  vcpu : m.held.vcpu = true
  region : m.device.region.isSome
  cpuid : m.device.cpuid.isSome
  monitor : m.monitor = .running
  boots : m.entered = false → ∃ ram sregs regs, m.device.image = some ram ∧
    m.device.sregs = some sregs ∧ m.device.regs = some regs ∧ Boots ram (kvmState sregs regs)

/-- Which calls may be made.  RAM is not freed as long as a VM may be backed by it, and not
written once the guest runs; the TSS address is set before the vCPU is created. -/
def Allowed (Boots : GuestRam → VcpuState → Prop) (limits : Limits) (m : KvmTrack) :
    KvmCall → Prop
  | .openStorage => m.held.storage = false
  | .dropStorage => m.held.storage = true
  | .newRam => m.held.ram = false
  | .dropRam => m.held.ram = true ∧ m.held.vm = false ∧ m.held.vcpu = false
  | .newKvm => m.held.kvm = false
  | .dropKvm => m.held.kvm = true
  | .createVm => m.held.kvm = true ∧ m.held.vm = false
  | .dropVm => m.held.vm = true
  | .setTssAddress _ => m.held.vm = true ∧ m.held.vcpu = false
  | .setUserMemoryRegion _ => m.held.vm = true ∧ m.held.ram = true ∧ m.device.region = none
  | .fillRam _ => m.held.ram = true ∧ m.entered = false
  | .createVcpu => m.held.vm = true ∧ m.device.tss.isSome ∧ m.held.vcpu = false
  | .dropVcpu => m.held.vcpu = true
  | .getSupportedCpuid => m.held.kvm = true
  | .setCpuid2 _ | .setSregs _ | .setRegs _ => m.held.vcpu = true ∧ m.entered = false
  | .getSregs | .getRegs => m.held.vcpu = true
  | .buildPool _ => m.held.pool = false
  | .dropPool => m.held.pool = true
  | .spawn policy _ =>
    m.held.pool = true ∧ m.monitor = .absent ∧ policy = .fromLimits limits
  | .storeShutdown => m.monitor = .running
  | .run => m.MayRun Boots
  | .serial _ => m.entered = true

def after (m : KvmTrack) : KvmCall → KvmTrack
  | .openStorage => { m with held := { m.held with storage := true } }
  | .dropStorage => { m with held := { m.held with storage := false } }
  | .newRam => { m with held := { m.held with ram := true } }
  | .dropRam => { m with held := { m.held with ram := false } }
  | .newKvm => { m with held := { m.held with kvm := true } }
  | .dropKvm => { m with held := { m.held with kvm := false } }
  | .createVm => { m with held := { m.held with vm := true } }
  | .dropVm => { m with held := { m.held with vm := false } }
  | .setTssAddress address => { m with device := { m.device with tss := some address } }
  | .setUserMemoryRegion region => { m with device := { m.device with region := some region } }
  | .fillRam ram => { m with device := { m.device with image := some ram } }
  | .createVcpu => { m with held := { m.held with vcpu := true } }
  | .dropVcpu => { m with held := { m.held with vcpu := false } }
  | .setCpuid2 cpuid => { m with device := { m.device with cpuid := some cpuid } }
  | .setSregs sregs => { m with device := { m.device with sregs := some sregs } }
  | .setRegs regs => { m with device := { m.device with regs := some regs } }
  | .buildPool _ => { m with held := { m.held with pool := true } }
  | .dropPool => { m with held := { m.held with pool := false } }
  | .spawn _ _ => { m with monitor := .running }
  | .storeShutdown => { m with monitor := .stopping }
  | .run => { m with entered := true }
  | .getSupportedCpuid | .getSregs | .getRegs | .serial _ => m

end KvmTrack

def kvmProtocol (Boots : GuestRam → VcpuState → Prop) (limits : Limits) :
    Protocol KvmCall KvmTrack where
  start := { held := {}, device := {} }
  allowed := KvmTrack.Allowed Boots limits
  effect := KvmTrack.after

/-! ## A run follows the protocol -/

namespace Kvm

open Protocol RunTrack KvmTrack

variable {Boots : GuestRam → VcpuState → Prop} {limits : Limits} {m : KvmTrack}

/-- Reporting or serving an exit changes nothing. -/
theorem keeps_handleExit (host : KvmRunHost) (exit : KvmExit) (hentered : m.entered = true) :
    (kvmProtocol Boots limits).Keeps m (handleExit host exit) fun _ m' => m' = m := by
  cases exit with
  | io exit =>
    unfold handleExit
    dsimp only
    split
    · exact keeps_emit_bind hentered (keeps_pure rfl)
    · exact keeps_eprintln_bind rfl (keeps_pure rfl)
  | mmioRead addr => exact keeps_eprintln_bind rfl (keeps_pure rfl)
  | mmioWrite addr => exact keeps_eprintln_bind rfl (keeps_pure rfl)
  | hlt => exact keeps_eprintln_bind rfl (keeps_pure rfl)
  | shutdown => exact keeps_eprintln_bind rfl (keeps_pure rfl)
  | other debug => exact keeps_eprintln_bind rfl (keeps_pure rfl)

/-- After an entry the next one needs no boot image. -/
theorem mayRun_after_run (h : m.MayRun Boots) : (m.after .run).MayRun Boots :=
  { h with boots := nofun }

/-- **The loop** enters the guest only as it may, and keeps the monitor. -/
theorem keeps_runLoop (host : KvmRunHost) (answers : List (Result KvmExit))
    (h : m.MayRun Boots) :
    (kvmProtocol Boots limits).Keeps m (runLoop host answers) (LoopEnds m.held) := by
  induction answers generalizing m with
  | nil =>
    unfold runLoop
    exact keeps_call h (fun _ _ => ⟨rfl, h.monitor, fun _ => rfl⟩)
      (fun _ _ => ⟨rfl, h.monitor, nofun⟩) fun _ => ⟨rfl, h.monitor, nofun⟩
  | cons answer answers ih =>
    have hrun := mayRun_after_run h
    refine keeps_call_bind h (fun exit _ => ?_) (fun _ _ => ⟨rfl, h.monitor, nofun⟩)
      fun _ => ⟨rfl, h.monitor, nofun⟩
    refine (keeps_handleExit host exit rfl).bind ?_ ?_ ?_
    · rintro goesOn m' rfl
      cases goesOn with
      | true => exact ih hrun
      | false => exact keeps_pure ⟨rfl, h.monitor, fun _ => rfl⟩
    · rintro e m' rfl
      exact ⟨rfl, h.monitor, nofun⟩
    · rintro m' rfl
      exact ⟨rfl, h.monitor, nofun⟩

theorem keeps_enter (host : KvmRunHost) (cfg : HyperPodFile) (entry : UInt64)
    (h : m.MayRun Boots) :
    (kvmProtocol Boots limits).Keeps m (enter host cfg entry) (Ends m.held) :=
  keeps_eprintln_bind ⟨rfl, fun hp => absurd rfl hp, nofun⟩
    (keeps_finish (keeps_runLoop host host.vcpuRun h) (fun _ h => h) fun _ => rfl)

theorem keeps_configureLongMode (host : KvmRunHost) (entry : UInt64) (hvcpu : m.held.vcpu = true)
    (hentered : m.entered = false) :
    (kvmProtocol Boots limits).Keeps m (configureLongMode host entry) fun r m' =>
      (m'.held = m.held ∧ m'.monitor = m.monitor) ∧ (r = .ok () → ∃ sregs regs,
        m' = { m with device := { m.device with
          sregs := some (longModeSregs sregs), regs := some (entryRegs regs entry) } }) := by
  refine keeps_call_bind hvcpu (fun sregs _ => ?_) (fun _ _ => ⟨⟨rfl, rfl⟩, nofun⟩)
    fun _ => ⟨⟨rfl, rfl⟩, nofun⟩
  refine keeps_call_bind ⟨hvcpu, hentered⟩ (fun _ _ => ?_) (fun _ _ => ⟨⟨rfl, rfl⟩, nofun⟩)
    fun _ => ⟨⟨rfl, rfl⟩, nofun⟩
  refine keeps_call_bind hvcpu (fun regs _ => ?_) (fun _ _ => ⟨⟨rfl, rfl⟩, nofun⟩)
    fun _ => ⟨⟨rfl, rfl⟩, nofun⟩
  exact keeps_call ⟨hvcpu, hentered⟩ (fun _ _ => ⟨⟨rfl, rfl⟩, fun _ => ⟨sregs, regs, rfl⟩⟩)
    (fun _ _ => ⟨⟨rfl, rfl⟩, nofun⟩) fun _ => ⟨⟨rfl, rfl⟩, nofun⟩

theorem keeps_startScaling (host : KvmRunHost) (limits : Limits) (hpool : m.held.pool = false)
    (hmonitor : m.monitor = .absent) :
    (kvmProtocol Boots limits).Keeps m (startScaling host limits) fun r m' =>
      (r = .ok () → m' = { m with held := { m.held with pool := true }, monitor := .running }) ∧
        (r ≠ .ok () → m' = m) := by
  refine keeps_lift_bind (fun _ _ => ?_) (fun _ _ => ⟨nofun, fun _ => rfl⟩)
    fun _ => ⟨nofun, fun _ => rfl⟩
  refine keeps_lift_bind (fun sink _ => ?_) (fun _ _ => ⟨nofun, fun _ => rfl⟩)
    fun _ => ⟨nofun, fun _ => rfl⟩
  refine keeps_call_bind hpool (fun _ _ => ?_) (fun _ _ => ⟨nofun, fun _ => rfl⟩)
    fun _ => ⟨nofun, fun _ => rfl⟩
  exact keeps_emit ⟨rfl, hmonitor, rfl⟩ ⟨fun _ => rfl, fun h => absurd rfl h⟩

/-- A run that has filled RAM and has a vCPU. -/
def booted (region : MemoryRegion) (ram : GuestRam) : KvmTrack where
  held := { storage := true, ram := true, kvm := true, vm := true, vcpu := true }
  device := { tss := some tssAddress, region := some region, image := some ram }

/-- All that an entry needs is there but for the monitor. -/
structure Ready (Boots : GuestRam → VcpuState → Prop) (m : KvmTrack) : Prop where
  held : m.held = { storage := true, ram := true, kvm := true, vm := true, vcpu := true }
  region : m.device.region.isSome
  cpuid : m.device.cpuid.isSome
  monitor : m.monitor = .absent
  boots : ∃ ram sregs regs, m.device.image = some ram ∧ m.device.sregs = some sregs ∧
    m.device.regs = some regs ∧ Boots ram (kvmState sregs regs)

theorem keeps_scaled (host : KvmRunHost) (cfg : HyperPodFile) (entry : UInt64)
    (h : Ready Boots m) :
    (kvmProtocol Boots cfg.limits).Keeps m (do
      startScaling host cfg.limits
      Logged.holding .dropPool (enter host cfg entry)) (Ends m.held) := by
  have hpool : m.held.pool = false := congrArg KvmHeld.pool h.held
  refine (keeps_startScaling host cfg.limits hpool h.monitor).bind ?_ ?_ ?_
  · rintro u m' ⟨hspawned, -⟩
    have hm := hspawned rfl
    have hrun : m'.MayRun Boots := by
      rw [hm]
      exact ⟨congrArg KvmHeld.ram h.held, congrArg KvmHeld.vm h.held, congrArg KvmHeld.vcpu h.held,
        h.region, h.cpuid, rfl, fun _ => h.boots⟩
    have hheld : { m'.held with pool := false } = m.held := by
      rw [hm, h.held]
    refine keeps_scope _ (keeps_enter host cfg entry hrun) ?_ ?_ fun _ => ⟨rfl, rfl⟩
    · intro m'' h''
      show m''.held.pool = true
      rw [h'', hm]
    · intro m'' h''
      show { m''.held with pool := false } = _
      rw [h'', hheld]
  · rintro e m' ⟨-, hsame⟩
    rw [hsame nofun]
    exact ends_early rfl h.monitor nofun
  · rintro m' ⟨-, hsame⟩
    rw [hsame nofun]
    exact ends_early rfl h.monitor nofun

theorem keeps_runVcpu (host : KvmRunHost) (cfg : HyperPodFile) (region : MemoryRegion)
    {ram : GuestRam} {entry : UInt64} (hboots : Boots ram (entryState entry)) :
    (kvmProtocol Boots cfg.limits).Keeps (booted region ram) (runVcpu host cfg entry)
      (Ends (booted region ram).held) := by
  refine keeps_early_bind rfl rfl fun cpuid _ => ?_
  refine keeps_early_bind ⟨rfl, rfl⟩ rfl fun _ _ => ?_
  refine (keeps_configureLongMode host entry rfl rfl).bind ?_ ?_ ?_
  · rintro u m' ⟨⟨hheld, hmonitor⟩, hregs⟩
    obtain ⟨sregs, regs, hm⟩ := hregs rfl
    have hready : Ready Boots m' := by
      refine ⟨hheld, ?_, ?_, hmonitor, ram, longModeSregs sregs, entryRegs regs entry, ?_⟩
      · rw [hm]
        rfl
      · rw [hm]
        rfl
      · rw [hm, kvmState_configured]
        exact ⟨rfl, rfl, rfl, hboots⟩
    have hscaled := keeps_scaled host cfg entry hready
    rwa [hheld] at hscaled
  · rintro e m' ⟨⟨hheld, hmonitor⟩, -⟩
    exact ends_early hheld hmonitor nofun
  · rintro m' ⟨⟨hheld, hmonitor⟩, -⟩
    exact ends_early hheld hmonitor nofun

/-- What a run enters: registered memory that was filled, and in it a guest that boots when
the kernel spares the artefacts. -/
structure Entered (p : Profile) (host : KvmRunHost) (cfg : HyperPodFile) (ram : GuestRam)
    (v : VcpuState) : Prop where
  filled : ∃ g kernel, registerMemory host.toKvmHost cfg = .ok g ∧
    (fillRam p host cfg).run g.ram = (.ok kernel, ram)
  boots : ∀ file, host.readKernel cfg.kernelPath = .ok file →
    SparesArtefacts cfg.cmdline file.bytes →
      BootsGuest cfg.cmdline (cfg.limits.minRam.toNat * mib) (valAt UInt64 file.bytes 24) ram v

theorem entered_of_fillRam {p : Profile} {host : KvmRunHost} {cfg : HyperPodFile} {g : KvmGuest}
    {filled : Result LoadedKernel × GuestRam} {kernel : LoadedKernel}
    (hreg : registerMemory host.toKvmHost cfg = .ok g)
    (hrun : (fillRam p host cfg).run g.ram = filled) (hkernel : filled.1 = .ok kernel) :
    Entered p host cfg filled.2 (entryState kernel.entry) := by
  obtain ⟨r, ram⟩ := filled
  cases hkernel
  refine ⟨⟨g, kernel, hreg, hrun⟩, fun file hfile hspares => ?_⟩
  unfold fillRam at hrun
  rw [hfile] at hrun
  exact bootsGuest_of_setUp (of_registerMemory hreg).1 hrun hspares

theorem keeps_runGuest (p : Profile) (host : KvmRunHost) (cfg : HyperPodFile) (ram : GuestRam)
    (hreg : host.setTssAddress tssAddress = .ok () →
      host.setUserMemoryRegion (ramRegion host ram) = .ok () →
        registerMemory host.toKvmHost cfg = .ok ⟨ram, tssAddress, ramRegion host ram⟩) :
    (kvmProtocol (Entered p host cfg) cfg.limits).Keeps
      { held := { storage := true, ram := true, kvm := true, vm := true }, device := {} }
      (runGuest p host cfg ram)
      (Ends { storage := true, ram := true, kvm := true, vm := true }) := by
  unfold runGuest
  refine keeps_early_bind ⟨rfl, rfl⟩ rfl fun _ htss => ?_
  refine keeps_early_bind ⟨rfl, rfl, rfl⟩ rfl fun _ hregion => ?_
  have hguest := hreg (withContext_eq_ok.mp htss) (withContext_eq_ok.mp hregion)
  generalize hrun : (fillRam p host cfg).run ram = filled
  refine keeps_early_bind ⟨rfl, rfl⟩ rfl fun kernel hkernel => ?_
  refine keeps_early_bind ⟨rfl, rfl, rfl⟩ rfl fun _ _ => ?_
  have hentered := entered_of_fillRam hguest hrun hkernel
  exact keeps_scope _ (keeps_runVcpu host cfg (ramRegion host ram) hentered)
    (fun _ h => congrArg KvmHeld.vcpu h)
    (fun _ h => congrArg (fun h : KvmHeld => { h with vcpu := false }) h) fun _ => ⟨rfl, rfl⟩

/-- With the answers that `registerMemory` needs it returns what `runVm` has. -/
theorem registerMemory_of_answers (host : KvmRunHost) (cfg : HyperPodFile) {ram : GuestRam}
    (hstorage : host.openStorage cfg.rootfsPath = .ok ())
    (hram : GuestRam.new host.alloc cfg.limits.minRam = .ok ram) (hkvm : host.newKvm = .ok ())
    (hversion : ¬ host.getApiVersion ≠ host.kvmApiVersion) (hvm : host.createVm = .ok ())
    (htss : host.setTssAddress tssAddress = .ok ())
    (hregion : host.setUserMemoryRegion (ramRegion host ram) = .ok ()) :
    registerMemory host.toKvmHost cfg = .ok ⟨ram, tssAddress, ramRegion host ram⟩ := by
  unfold ramRegion at hregion
  unfold registerMemory bailIf
  rw [hstorage, hram, hkvm, hvm, htss, if_neg hversion]
  simp only [Outcome.ok_bind, withContext_ok, hregion]
  rfl

theorem keeps_runVm (p : Profile) (host : KvmRunHost) (cfg : HyperPodFile) :
    (kvmProtocol (Entered p host cfg) cfg.limits).Keeps { held := {}, device := {} }
      (runVm p host cfg) (Ends {}) := by
  refine keeps_early_bind rfl rfl fun _ hstorage => ?_
  refine keeps_scope { storage := true } ?_ (fun _ h => congrArg KvmHeld.storage h)
    (fun _ h => congrArg (fun h : KvmHeld => { h with storage := false }) h) fun _ => ⟨rfl, rfl⟩
  refine keeps_early_bind rfl rfl fun ram hram => ?_
  refine keeps_scope { storage := true, ram := true } ?_
    (fun _ h => ⟨congrArg KvmHeld.ram h, congrArg KvmHeld.vm h, congrArg KvmHeld.vcpu h⟩)
    (fun _ h => congrArg (fun h : KvmHeld => { h with ram := false }) h) fun _ => ⟨rfl, rfl⟩
  refine keeps_early_bind rfl rfl fun _ hkvm => ?_
  refine keeps_scope { storage := true, ram := true, kvm := true } ?_
    (fun _ h => congrArg KvmHeld.kvm h)
    (fun _ h => congrArg (fun h : KvmHeld => { h with kvm := false }) h) fun _ => ⟨rfl, rfl⟩
  refine keeps_lift_bind (fun _ hversion => ?_) (fun _ _ => ends_early rfl rfl nofun)
    fun _ => ends_early rfl rfl nofun
  refine keeps_early_bind ⟨rfl, rfl⟩ rfl fun _ hvm => ?_
  have hreg := registerMemory_of_answers host cfg hstorage hram (withContext_eq_ok.mp hkvm)
    (bailIf_eq_ok.mp hversion) (withContext_eq_ok.mp hvm)
  exact keeps_scope _ (keeps_runGuest p host cfg ram hreg) (fun _ h => congrArg KvmHeld.vm h)
    (fun _ h => congrArg (fun h : KvmHeld => { h with vm := false }) h) fun _ => ⟨rfl, rfl⟩

/-- **A run on KVM follows the protocol**, whatever the host answers.  It ends with nothing
at hand and, unless it panics, with the monitor asked to stop; it returns `Ok` only when the
guest was entered. -/
theorem kvm_run_follows (p : Profile) (host : KvmRunHost) (cfg : HyperPodFile) :
    let P := kvmProtocol (Entered p host cfg) cfg.limits
    let run := (runVm p host cfg).run []
    P.Follows run.2 ∧ Ends {} run.1 (P.state run.2) :=
  (keeps_runVm p host cfg).follows

end Kvm
end HyperPod
