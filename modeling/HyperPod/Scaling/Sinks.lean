import HyperPod.Scaling.Monitor

/-!
# The CPU share sinks: `scaling/probes.rs`

Both sinks clamp what they are given to `[1, 10000]` before they tell the host.  Under a
validated configuration the clamp, and the cast to `u32` of the Windows sink, change none
of the values a run of the monitor gives them (`shares_in_limits`).
-/

namespace HyperPod

open Machine

/-- `u64::clamp` -/
def clamp (v lo hi : UInt64) : UInt64 := if v < lo then lo else if v > hi then hi else v

structure CgroupShareSink where
  path : Path

namespace CgroupShareSink

/-- The value that goes to the file. -/
def weight (shares : UInt64) : UInt64 := clamp shares 1 10000

/-- `write` is the host's answer when a text is to replace the content of a file. -/
def setShares (sink : CgroupShareSink) (write : Path → String → Except Error Unit) : Sink :=
  fun shares =>
    let v := weight shares
    (write sink.path (toString v)).mapError (.context s!"write {sink.path.display} = {v}")

end CgroupShareSink

/-- `JOBOBJECT_CPU_RATE_CONTROL_INFORMATION` -/
structure CpuRateControlInformation where
  controlFlags : UInt32
  cpuRate : UInt32
deriving Repr, DecidableEq

/-- The part of the Windows API that the sink uses: two flags, and whether a setting of the
job was taken. -/
structure JobObjectApi where
  cpuRateControlEnable : UInt32
  cpuRateControlHardCap : UInt32
  setInformationJobObject : CpuRateControlInformation → Bool

namespace JobObjectCpuRateSink

def rate (shares : UInt64) : UInt32 := (clamp shares 1 10000).toUInt32

def setShares (api : JobObjectApi) : Sink := fun shares =>
  let info : CpuRateControlInformation :=
    { controlFlags := api.cpuRateControlEnable ||| api.cpuRateControlHardCap
      cpuRate := rate shares }
  if api.setInformationJobObject info then .ok ()
  else .error (.msg "SetInformationJobObject(CpuRateControl) failed")

end JobObjectCpuRateSink

/-! ## Values that the sinks leave alone -/

theorem clamp_eq_self {v lo hi : UInt64} (hlo : lo.toNat ≤ v.toNat) (hhi : v.toNat ≤ hi.toNat) :
    clamp v lo hi = v := by
  have hlo' : ¬ v < lo := UInt64.not_lt.mpr (UInt64.le_iff_toNat_le.mpr hlo)
  have hhi' : ¬ v > hi := UInt64.not_lt.mpr (UInt64.le_iff_toNat_le.mpr hhi)
  unfold clamp
  rw [if_neg hlo', if_neg hhi']

/-- A value that both sinks pass on as it is: the clamp and the cast keep it, and it is what
the host gets. -/
structure Unclamped (shares : UInt64) : Prop where
  weight : CgroupShareSink.weight shares = shares
  rate : (JobObjectCpuRateSink.rate shares).toNat = shares.toNat
  cgroup : ∀ (sink : CgroupShareSink) write, sink.setShares write shares =
    (write sink.path (toString shares)).mapError
      (.context s!"write {sink.path.display} = {shares}")
  jobObject : ∀ api, JobObjectCpuRateSink.setShares api shares =
    if api.setInformationJobObject
        ⟨api.cpuRateControlEnable ||| api.cpuRateControlHardCap, shares.toUInt32⟩ then .ok ()
    else .error (.msg "SetInformationJobObject(CpuRateControl) failed")

theorem unclamped {shares : UInt64} (hlo : 1 ≤ shares.toNat) (hhi : shares.toNat ≤ 10000) :
    Unclamped shares := by
  have hclamp : clamp shares 1 10000 = shares := clamp_eq_self hlo hhi
  have hrate : JobObjectCpuRateSink.rate shares = shares.toUInt32 := by
    unfold JobObjectCpuRateSink.rate
    rw [hclamp]
  refine ⟨hclamp, ?_, ?_, ?_⟩
  · rw [hrate, UInt64.toNat_toUInt32]
    exact Nat.mod_eq_of_lt (by omega)
  · intro sink write
    show (write sink.path (toString (clamp shares 1 10000))).mapError _ = _
    rw [CgroupShareSink.weight, hclamp]
  · intro api
    unfold JobObjectCpuRateSink.setShares
    rw [hrate]

/-! ## The shares of a run -/

namespace Monitor

/-- The limits that bound the shares, from below and from above. -/
def InLimits (l : Limits) (shares : UInt64) : Prop :=
  l.minCpuShares.toNat ≤ shares.toNat ∧ shares.toNat ≤ l.maxCpuShares.toNat

/-- The recorded shares and all values that the sink was given are in the limits. -/
structure SharesInLimits (l : Limits) (w : World) : Prop where
  recorded : InLimits l w.state.cpuShares
  given : ∀ c ∈ w.calls, InLimits l c.shares

section
variable {l : Limits} {w w' : World}

theorem sharesInLimits_start (h : l.minCpuShares.toNat ≤ l.maxCpuShares.toNat) (first : Sink) :
    SharesInLimits l (start (.fromLimits l) first) := by
  have hmin : InLimits l l.minCpuShares := ⟨Nat.le_refl _, h⟩
  refine ⟨hmin, ?_⟩
  intro c hc
  rw [List.mem_singleton.mp hc]
  exact hmin

theorem inLimits_of_toward {current next : UInt64} (h : InLimits l current)
    (hto : Toward (.fromLimits l) current next) : InLimits l next := by
  obtain ⟨hlo, hhi⟩ := h
  rcases hto with ⟨hup, hmax⟩ | ⟨hmin, hdown⟩
  · exact ⟨by omega, hmax⟩
  · exact ⟨hmin, by omega⟩

theorem sharesInLimits_turn (hto : TurnTo (.fromLimits l) w w') (h : SharesInLimits l w) :
    SharesInLimits l w' := by
  obtain ⟨hrecorded, hgiven⟩ := h
  cases hto with
  | still => exact ⟨hrecorded, hgiven⟩
  | refused next e hto =>
    exact ⟨hrecorded, List.forall_mem_cons.mpr ⟨inLimits_of_toward hrecorded hto, hgiven⟩⟩
  | moved next hto =>
    have hnext := inLimits_of_toward hrecorded hto
    exact ⟨hnext, List.forall_mem_cons.mpr ⟨hnext, hgiven⟩⟩

theorem sharesInLimits_step (p : Profile) (w : World) (e : Event) (h : SharesInLimits l w) :
    (step p (.fromLimits l) w e).1 = .ok () ∧ SharesInLimits l (step p (.fromLimits l) w e).2 :=
  step_invariant (fun _ _ => sharesInLimits_turn) (fun _ h => ⟨h.recorded, h.given⟩) w e h

theorem outcomes_ok (h : l.minCpuShares.toNat ≤ l.maxCpuShares.toNat) (p : Profile) (first : Sink)
    (es : List Event) : ∀ o ∈ outcomes p (.fromLimits l) first es, o = .ok () :=
  Run.forall_mem_answers (fun w e hw => (sharesInLimits_step p w e hw).2)
    (fun w e hw => (sharesInLimits_step p w e hw).1) (sharesInLimits_start h first) es

end

/-- **CPU shares from the configuration to the host.**  In every run under a validated
configuration every turn returns, the recorded shares and the values given to the sink are
in the limits, these are in `[1, 10000]`, and the sinks pass the values on as they are. -/
theorem shares_in_limits (p : Profile) (metadata : Path → Result Bool) (cfg : HyperPodFile)
    (hvalid : cfg.validate metadata = .ok ()) (first : Sink) (es : List Event) :
    let policy := ScalingPolicy.fromLimits cfg.limits
    let w := runLoop p policy first es
    (1 ≤ cfg.limits.minCpuShares.toNat ∧ cfg.limits.maxCpuShares.toNat ≤ 10000) ∧
      InLimits cfg.limits w.state.cpuShares ∧
      (∀ c ∈ w.calls, InLimits cfg.limits c.shares ∧ Unclamped c.shares) ∧
      ∀ o ∈ outcomes p policy first es, o = .ok () := by
  intro policy w
  have h := HyperPodFile.validate_eq_ok.mp hvalid
  have hw : SharesInLimits cfg.limits w :=
    Run.final_invariant (fun w e hw => (sharesInLimits_step p w e hw).2)
      (sharesInLimits_start h.cpuShares first) es
  refine ⟨⟨h.minCpuShares, h.maxCpuShares⟩, hw.recorded, ?_, outcomes_ok h.cpuShares p first es⟩
  intro c hc
  have hin := hw.given c hc
  exact ⟨hin, unclamped (Nat.le_trans h.minCpuShares hin.1) (Nat.le_trans hin.2 h.maxCpuShares)⟩

/-- A guest with 1 to 10000 shares. -/
def burstable : HyperPodFile where
  rootfsPath := ⟨"rootfs.ext4", some "ext4"⟩
  kernelPath := ⟨"vmlinux", none⟩
  cmdline := "console=ttyS0"
  limits := ⟨128, 256, 1, 10000⟩
  gpu := some (.credits 100 1000)

theorem validate_burstable : burstable.validate (fun _ => .ok true) = .ok () := by
  decide

/-- A NaN, a full load that the sink refuses and a full load that it serves. -/
theorem shares_in_limits_burstable :
    let es := [.turn (.ok ⟨0x7ff8000000000000⟩) (fun _ => .ok ()),
      .turn (.ok ⟨0x3ff0000000000000⟩) (fun _ => .error .host),
      .turn (.ok ⟨0x3ff0000000000000⟩) (fun _ => .ok ())]
    let w := runLoop .debug (.fromLimits burstable.limits) (fun _ => .error .host) es
    (1 ≤ burstable.limits.minCpuShares.toNat ∧ burstable.limits.maxCpuShares.toNat ≤ 10000) ∧
      InLimits burstable.limits w.state.cpuShares ∧
      (∀ c ∈ w.calls, InLimits burstable.limits c.shares ∧ Unclamped c.shares) ∧
      ∀ o ∈ outcomes .debug (.fromLimits burstable.limits) (fun _ => .error .host) es,
        o = .ok () :=
  shares_in_limits .debug (fun _ => .ok true) burstable validate_burstable
    (fun _ => .error .host) _

end Monitor
end HyperPod
