import HyperPod.RunKvm
import HyperPod.RunWhpx
import HyperPod.Scaling.Sinks
import HyperPod.Scaling.Thread
import HyperPod.Storage.Detect

/-!
# `hyperpod start`: `commands/start.rs`

`Start.run` loads the configuration, detects the format of the root file system, prints a
summary and hands over to the backend's `run_vm`.  So whatever the host and the files say,
the host's virtualisation is touched only in a run of the configuration that was loaded,
which passes every check, and every monitor that is ever spawned stays between 1 and 10000
shares (`start_guards`).
-/

namespace HyperPod

open Machine Protocol RunTrack

/-- `{:?}` -/
def Format.debug : Format → String
  | .raw => "Raw"
  | .vhdFixed => "VhdFixed"
  | .vhdDynamic => "VhdDynamic"
  | .vhdx => "Vhdx"

/-- What the host answers before the VM is set up. -/
structure StartHost where
  readToString : Path → Result String
  /-- the TOML parser -/
  fromStr : String → Result HyperPodFile
  metadata : Path → Result Bool
  openFile : Path → Result HostFile.Content
  /-- whether a text can be printed: `println!` panics otherwise -/
  stdout : String → Bool

namespace Start

/-- `detect_format`, which opens the file only where the extension leaves the format open. -/
def detectFormat (host : StartHost) (path : Path) : Result Format :=
  match Storage.extensionRule path with
  | .raw => .ok .raw
  | .vhdx => .ok .vhdx
  | .vhd => host.openFile path >>= Storage.detectFormat path
  | .probe =>
    withContext s!"open {path.display}" (host.openFile path) >>= Storage.detectFormat path

def gpuLine : Option GpuPolicy → String
  | none => "  gpu      : (none configured)"
  | some .full => "  gpu      : full (unrestricted)"
  | some (.credits creditsPerSecond maxCredits) =>
    s!"  gpu      : credits ({creditsPerSecond}/s, burst {maxCredits})"

def summary (config : Path) (cfg : HyperPodFile) (fmt : Format) : List String :=
  [s!"HyperPod configuration loaded from {config.display}",
    s!"  kernel   : {cfg.kernelPath.display}",
    s!"  rootfs   : {cfg.rootfsPath.display} ({fmt.debug})",
    s!"  cmdline  : {cfg.cmdline}",
    s!"  ram      : {cfg.limits.minRam} MiB .. {cfg.limits.maxRam} MiB",
    s!"  cpu      : {cfg.limits.minCpuShares} .. {cfg.limits.maxCpuShares} shares",
    gpuLine cfg.gpu]

variable {κ : Type}

def println (stdout : String → Bool) (text : String) : Logged κ Unit :=
  Act.lift (if stdout text then .ok () else .panic)

/-- `start::run`, up to the backend. -/
def load (host : StartHost) (config : Path) : Logged κ HyperPodFile := do
  let cfg ← Act.lift (HyperPodFile.load host.readToString host.fromStr host.metadata config)
  let fmt ← Act.lift (detectFormat host cfg.rootfsPath)
  (summary config cfg fmt).forM (println host.stdout)
  return cfg

def run (host : StartHost) (runVm : HyperPodFile → Logged κ Unit) (config : Path) :
    Logged κ Unit := do
  let cfg ← load host config
  runVm cfg

/-! ## Before the backend -/

theorem run_println_all (stdout : String → Bool) (texts : List String) (log : Log κ) :
    ((texts.forM (println stdout) : Logged κ PUnit).run log) =
      (if texts.all stdout then .ok () else .panic, log) := by
  induction texts with
  | nil => rfl
  | cons text texts ih =>
    show ((println stdout text >>= fun _ => texts.forM (println stdout)).run log) = _
    unfold println
    rw [List.all_cons]
    cases stdout text with
    | true => exact ih
    | false => rfl

/-- The configuration that is loaded: it is read, parsed and checked. -/
def Loads (host : StartHost) (config : Path) (cfg : HyperPodFile) : Prop :=
  HyperPodFile.load host.readToString host.fromStr host.metadata config = .ok cfg

/-- Loading calls nothing of the host's virtualisation. -/
theorem run_load (host : StartHost) (config : Path) (log : Log κ) :
    ((load host config : Logged κ HyperPodFile).run log).2 = log ∧
      ∀ cfg, ((load host config : Logged κ HyperPodFile).run log).1 = .ok cfg →
        Loads host config cfg := by
  unfold load Loads
  cases hload : HyperPodFile.load host.readToString host.fromStr host.metadata config with
  | err e => exact ⟨rfl, nofun⟩
  | panic => exact ⟨rfl, nofun⟩
  | ok cfg =>
    rw [Act.run_lift_ok_bind]
    cases detectFormat host cfg.rootfsPath with
    | err e => exact ⟨rfl, nofun⟩
    | panic => exact ⟨rfl, nofun⟩
    | ok fmt =>
      rw [Act.run_lift_ok_bind, Act.run_bind, run_println_all]
      cases (summary config cfg fmt).all host.stdout with
      | true =>
        refine ⟨rfl, ?_⟩
        rintro _ ⟨⟩
        rfl
      | false => exact ⟨rfl, nofun⟩

/-- **What starting comes to**: it fails before anything is called, or it is the run of the
configuration that was loaded. -/
theorem run_cases (host : StartHost) (runVm : HyperPodFile → Logged κ Unit) (config : Path) :
    ((run host runVm config).run []).2 = [] ∧ ((run host runVm config).run []).1 ≠ .ok () ∨
      ∃ cfg, Loads host config cfg ∧ (run host runVm config).run [] = (runVm cfg).run [] := by
  obtain ⟨hlog, hloads⟩ := run_load (κ := κ) host config []
  unfold run
  rw [Act.run_bind]
  rcases hrun : (load host config : Logged κ HyperPodFile).run [] with ⟨r, log⟩
  rw [hrun] at hlog hloads
  cases hlog
  cases r with
  | ok cfg => exact Or.inr ⟨cfg, hloads cfg rfl, rfl⟩
  | err e => exact Or.inl ⟨rfl, nofun⟩
  | panic => exact Or.inl ⟨rfl, nofun⟩

/-! ## What a start guards -/

/-- A monitor that never panics as long as its messages can be printed, and whose shares are
all passed on by the sinks as they are, whatever it is told and whenever it is stopped. -/
def MonitorTame (p : Profile) (policy : ScalingPolicy) : Prop :=
  ∀ (first : Sink) (ms : List Monitor.Move),
    (Monitor.thread p policy first ms).pc ≠ .panicked ∧
      ∀ c ∈ (Monitor.thread p policy first ms).world.calls, Unclamped c.shares

theorem monitorTame_of_valid {metadata : Path → Result Bool} {cfg : HyperPodFile} (p : Profile)
    (h : cfg.Valid metadata) : MonitorTame p (.fromLimits cfg.limits) := by
  intro first ms
  obtain ⟨hpc, hlimits⟩ := Monitor.sharesInLimits_thread p h.cpuShares first ms
  refine ⟨hpc, fun c hc => ?_⟩
  obtain ⟨hlo, hhi⟩ := hlimits.given c hc
  exact unclamped (Nat.le_trans h.minCpuShares hlo) (Nat.le_trans hhi h.maxCpuShares)

/-- What is sure of a start that ended as `ran`: a call was made, or `Ok` returned, only where
the configuration that was loaded passes every check and `ran` is its run, and only tame
monitors were spawned. -/
structure Guards (host : StartHost) (runVm : HyperPodFile → Logged κ Unit) (config : Path)
    (Ran : HyperPodFile → Result Unit × Log κ → Prop) (policyOf : κ → Option ScalingPolicy)
    (p : Profile) (ran : Result Unit × Log κ) : Prop where
  loaded : ran.2 ≠ [] ∨ ran.1 = .ok () → ∃ cfg : HyperPodFile,
    Loads host config cfg ∧ cfg.Valid host.metadata ∧ ran = (runVm cfg).run [] ∧ Ran cfg ran
  monitors : ∀ c policy served, (c, served) ∈ ran.2 → policyOf c = some policy →
    MonitorTame p policy

theorem guards_of_ran {Ran : HyperPodFile → Result Unit × Log κ → Prop}
    {policyOf : κ → Option ScalingPolicy} (p : Profile) (host : StartHost)
    (runVm : HyperPodFile → Logged κ Unit) (config : Path)
    (hran : ∀ cfg, Ran cfg ((runVm cfg).run []))
    (hspawn : ∀ cfg ran c policy served, Ran cfg ran → (c, served) ∈ ran.2 →
      policyOf c = some policy → policy = .fromLimits cfg.limits) :
    Guards host runVm config Ran policyOf p ((run host runVm config).run []) := by
  rcases run_cases host runVm config with ⟨hlog, hfail⟩ | ⟨cfg, hloads, hrun⟩
  · refine ⟨fun h => ?_, ?_⟩
    · rcases h with hcalls | hok
      · exact absurd hlog hcalls
      · exact absurd hok hfail
    · intro c policy served hc
      rw [hlog] at hc
      cases hc
  · have hvalid : cfg.Valid host.metadata := HyperPodFile.valid_of_load hloads
    rw [hrun]
    refine ⟨fun _ => ⟨cfg, hloads, hvalid, rfl, hran cfg⟩, ?_⟩
    intro c policy served hc hpolicy
    rw [hspawn cfg _ c policy served (hran cfg) hc hpolicy]
    exact monitorTame_of_valid p hvalid

end Start

/-! ## The two backends -/

def KvmCall.policy : KvmCall → Option ScalingPolicy
  | .spawn policy _ => some policy
  | _ => none

def WhpxCall.policy : WhpxCall → Option ScalingPolicy
  | .spawn policy => some policy
  | _ => none

/-- A whole run on KVM that followed the protocol. -/
def Kvm.Ran (p : Profile) (host : KvmRunHost) (cfg : HyperPodFile)
    (ran : Result Unit × Log KvmCall) : Prop :=
  let P := kvmProtocol (Entered p host cfg) cfg.limits
  P.Follows ran.2 ∧ Ends {} ran.1 (P.state ran.2)

/-- A whole run on WHPX that followed the protocol. -/
def Whpx.Ran (p : Profile) (host : WhpxRunHost) (cfg : HyperPodFile)
    (ran : Result Unit × Log WhpxCall) : Prop :=
  let P := whpxProtocol host.registers (Entered p host cfg) cfg.limits
  P.Follows ran.2 ∧ Ends {} ran.1 (P.state ran.2)

namespace Start

theorem kvm_spawn {p : Profile} {host : KvmRunHost} (cfg : HyperPodFile)
    (ran : Result Unit × Log KvmCall) (c : KvmCall) (policy : ScalingPolicy) (served : Bool)
    (h : Kvm.Ran p host cfg ran) (hc : (c, served) ∈ ran.2) (hpolicy : c.policy = some policy) :
    policy = .fromLimits cfg.limits := by
  obtain ⟨m, hallowed⟩ := h.1.allowed_of_mem hc
  cases c with
  | spawn policy' sink =>
    cases hpolicy
    exact hallowed.2.2
  | _ => cases hpolicy

theorem whpx_spawn {p : Profile} {host : WhpxRunHost} (cfg : HyperPodFile)
    (ran : Result Unit × Log WhpxCall) (c : WhpxCall) (policy : ScalingPolicy) (served : Bool)
    (h : Whpx.Ran p host cfg ran) (hc : (c, served) ∈ ran.2) (hpolicy : c.policy = some policy) :
    policy = .fromLimits cfg.limits := by
  obtain ⟨m, hallowed⟩ := h.1.allowed_of_mem hc
  cases c with
  | spawn policy' =>
    cases hpolicy
    exact hallowed.2.2.2
  | _ => cases hpolicy

/-- **What a start guards.**  Whatever the files and the host answer: a call is made only if the
configuration was loaded and passes every check, the start is then the backend's run of it,
whose calls follow the protocol to its end, and each monitor that is spawned stays between 1
and 10000 shares. -/
theorem start_guards (p : Profile) (host : StartHost) (kvmHost : KvmRunHost)
    (whpxHost : WhpxRunHost) (config : Path) :
    Guards host (Kvm.runVm p kvmHost) config (Kvm.Ran p kvmHost) KvmCall.policy p
        ((run host (Kvm.runVm p kvmHost) config).run []) ∧
      Guards host (Whpx.runVm p whpxHost) config (Whpx.Ran p whpxHost) WhpxCall.policy p
        ((run host (Whpx.runVm p whpxHost) config).run []) := by
  constructor
  · exact guards_of_ran p host _ config (fun cfg => (Kvm.keeps_runVm p kvmHost cfg).follows)
      kvm_spawn
  · exact guards_of_ran p host _ config (fun cfg => (Whpx.keeps_runVm whpxHost cfg).follows)
      whpx_spawn

end Start
end HyperPod
