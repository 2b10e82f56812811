import HyperPod.Lib.Decay
import HyperPod.Scaling.Governor

/-!
# How soon the scaler settles

A turn under a steady load whose call is served leaves three quarters of the way to the limit,
and one share less at least (`distance_turn`).  So `settlingTurns` turns are enough between any
two limits that a configuration may have, however the host has been before: `windows_settles`
and `linux_settles` say so of the counters that the host keeps.
-/

namespace HyperPod

open Machine Decay

namespace Monitor

variable {p : Profile} {l : Limits} {lvl : Level} {w : World} {e : Event}

/-- The way to the limit that a level leads to. -/
def distance (l : Limits) : Level → World → Nat
  | .high, w => headroom l w
  | .low, w => slack l w
  | .between, _ => 0

def AtLimit (l : Limits) : Level → World → Prop
  | .high, w => shares w = l.maxCpuShares.toNat
  | .low, w => shares w = l.minCpuShares.toNat
  | .between, _ => True

/-- The monitor runs, within its limits. -/
structure Running (l : Limits) (w : World) : Prop where
  going : ¬ w.state.shutdown = true
  inLimits : InLimits l w.state.cpuShares

/-- A turn at the level `lvl`, with a sink that serves it. -/
def Steady (l : Limits) (lvl : Level) (e : Event) : Prop :=
  ∃ load sink, e = .turn (.ok load) sink ∧ level (.fromLimits l) load = lvl ∧
    ∀ shares, sink shares = .ok ()

theorem atLimit_of_distance (hw : Running l w) (h : distance l lvl w = 0) : AtLimit l lvl w := by
  obtain ⟨hmin, hmax⟩ := hw.inLimits
  cases lvl with
  | high => exact Nat.le_antisymm hmax (Nat.sub_eq_zero_iff_le.mp h)
  | low => exact Nat.le_antisymm (Nat.sub_eq_zero_iff_le.mp h) hmin
  | between => trivial

theorem distance_le (lvl : Level) (hw : Running l w) :
    distance l lvl w ≤ l.maxCpuShares.toNat - l.minCpuShares.toNat := by
  obtain ⟨hmin, hmax⟩ := hw.inLimits
  have hmin' : l.minCpuShares.toNat ≤ shares w := hmin
  have hmax' : shares w ≤ l.maxCpuShares.toNat := hmax
  cases lvl with
  | high => exact Nat.sub_le_sub_left hmin' _
  | low => exact Nat.sub_le_sub_right hmax' _
  | between => exact Nat.zero_le _

theorem inLimits_step (p : Profile) (e : Event) (h : InLimits l w.state.cpuShares) :
    InLimits l (step p (.fromLimits l) w e).2.state.cpuShares := by
  cases e with
  | turn load sink =>
    obtain ⟨w', hrun, hto⟩ := run_turn p (.fromLimits l) load sink w
    show InLimits l ((turn p (.fromLimits l) load sink).run w).2.state.cpuShares
    rw [hrun]
    cases hto with
    | still => exact h
    | refused next e _ => exact h
    | moved next hto => exact inLimits_of_toward h hto
  | stop => exact h

theorem shutdown_turn (p : Profile) (policy : ScalingPolicy) (load : Reading) (sink : Sink)
    (w : World) : (step p policy w (.turn load sink)).2.state.shutdown = w.state.shutdown := by
  obtain ⟨w', hrun, hto⟩ := run_turn p policy load sink w
  show ((turn p policy load sink).run w).2.state.shutdown = _
  rw [hrun]
  cases hto with
  | still => rfl
  | refused next e _ => rfl
  | moved next _ => rfl

theorem running_steady (p : Profile) (hw : Running l w) (h : Steady l lvl e) :
    Running l (step p (.fromLimits l) w e).2 := by
  refine ⟨?_, inLimits_step p e hw.inLimits⟩
  obtain ⟨load, sink, rfl, -, -⟩ := h
  rw [shutdown_turn]
  exact hw.going

/-- A turn of a monitor that runs is a tick. -/
theorem step_turn (hw : Running l w) (load : Reading) (sink : Sink) :
    (step p (.fromLimits l) w (.turn load sink)).2 =
      (tickStep p (.fromLimits l) w (load, sink)).2 := by
  show ((turn p (.fromLimits l) load sink).run w).2 = _
  unfold turn
  rw [Act.run_get_bind, if_neg hw.going]
  rfl

theorem level_eq_high {policy : ScalingPolicy} {load : Binary64} (h : level policy load = .high) :
    load ≥ policy.highLoadThreshold := by
  unfold level at h
  split_ifs at h with hhigh
  exact hhigh

theorem level_eq_low {policy : ScalingPolicy} {load : Binary64} (h : level policy load = .low) :
    load ≤ policy.lowLoadThreshold := by
  unfold level at h
  split_ifs at h with _ hlow
  exact hlow

/-- **Three quarters of the way** are left after a steady turn. -/
theorem distance_turn (hw : Running l w) (h : Steady l lvl e) :
    distance l lvl (step p (.fromLimits l) w e).2 ≤ decay 4 (distance l lvl w) := by
  obtain ⟨load, sink, rfl, hlevel, hsink⟩ := h
  rw [step_turn hw]
  have hserved : Served w (tickStep p (.fromLimits l) w (.ok load, sink)).2 := served_of_sink hsink
  unfold decay
  cases lvl with
  | high =>
    have hr := rises_of_highTick hw.inLimits ⟨⟨load, rfl, level_eq_high hlevel⟩, hserved⟩
    show headroom l _ ≤ headroom l w - max (headroom l w / 4) 1
    by_cases htop : shares w = l.maxCpuShares.toNat
    · have hzero : headroom l w = 0 := by
        unfold headroom
        omega
      rw [hr.rests htop, hzero]
      exact Nat.zero_le _
    · have hnext := hr.headroom htop
      omega
  | low =>
    have hf := falls_of_lowTick hw.inLimits ⟨⟨load, rfl, level_eq_low hlevel⟩, hserved⟩
    show slack l _ ≤ slack l w - max (slack l w / 4) 1
    by_cases hbottom : shares w = l.minCpuShares.toNat
    · have hzero : slack l w = 0 := by
        unfold slack
        omega
      rw [hf.rests hbottom, hzero]
      exact Nat.zero_le _
    · have hnext := hf.slack hbottom
      omega
  | between => exact Nat.zero_le _

end Monitor

/-! ## How many turns are enough -/

/-- On this many turns the longest way between two limits is gone. -/
def settlingTurns : Nat := 33

theorem iterate_decay_eq_zero {m n : Nat} (hn : n ≤ 9999) (hm : settlingTurns ≤ m) :
    (decay 4)^[m] n = 0 := by
  have hlongest : (decay 4)^[settlingTurns] 9999 = 0 := by decide
  exact Nat.le_zero.mp (hlongest ▸ iterate_decay_le hm hn 4)

/-- One turn less is not enough. -/
example : (decay 4)^[settlingTurns - 1] 9999 ≠ 0 := by decide

/-- The turns that are enough are so under every configuration that passes its checks. -/
theorem atLimit_of_settled {metadata : Path → Result Bool} {cfg : HyperPodFile}
    (hvalid : cfg.validate metadata = .ok ()) {lvl : Level} {w w' : World} {m : Nat}
    (hw : Monitor.Running cfg.limits w) (hw' : Monitor.Running cfg.limits w')
    (hle : Monitor.distance cfg.limits lvl w' ≤
      (decay 4)^[m] (Monitor.distance cfg.limits lvl w))
    (hm : settlingTurns ≤ m) : Monitor.AtLimit cfg.limits lvl w' := by
  have h := HyperPodFile.validate_eq_ok.mp hvalid
  have hmin := h.minCpuShares
  have hmax := h.maxCpuShares
  have hrange := Monitor.distance_le lvl hw
  rw [iterate_decay_eq_zero (by omega) hm] at hle
  exact Monitor.atLimit_of_distance hw' (Nat.le_zero.mp hle)

/-! ## The scaler on Windows -/

/-- A turn at the level `lvl`, by the counters, with a sink that serves it. -/
def SteadyWindow (lvl : Level) (s : WindowsScaler) (e : WindowsEvent) : Prop :=
  ∃ times sink now, e = .turn times sink ∧ snapshot times = .ok now ∧
    now.total.toNat - s.probe.last.total.toNat ≤ 2 ^ 52 ∧
    cpuLevel (now.idle.toNat - s.probe.last.idle.toNat)
      (now.total.toNat - s.probe.last.total.toNat) = lvl ∧
    ∀ shares, sink shares = .ok ()

theorem exists_steady {p : Profile} {l : Limits} {lvl : Level} {s : WindowsScaler}
    {e : WindowsEvent} (hs : Monitor.Running l s.world) (h : SteadyWindow lvl s e) :
    ∃ e', Monitor.Steady l lvl e' ∧
      (s.step p (.fromLimits l) e).2.world = (Monitor.step p (.fromLimits l) s.world e').2 := by
  obtain ⟨times, sink, now, rfl, hnow, hnarrow, hlevel, hsink⟩ := h
  have hidle := Nat.lt_of_le_of_lt (Nat.sub_le _ s.probe.last.idle.toNat) now.idle.toNat_lt
  refine ⟨_, ⟨_, sink, rfl, (level_cpuLoad hidle hnarrow).trans hlevel, hsink⟩, ?_⟩
  rw [WindowsScaler.step_going hs.going, GetSystemTimesProbe.loadNormalized_ok hnow]

theorem inLimits_windows (p : Profile) {l : Limits} (s : WindowsScaler) (e : WindowsEvent)
    (h : Monitor.InLimits l s.world.state.cpuShares) :
    Monitor.InLimits l (s.step p (.fromLimits l) e).2.world.state.cpuShares := by
  cases e with
  | turn times sink =>
    by_cases hstop : s.world.state.shutdown = true
    · rw [WindowsScaler.step_stopped hstop]
      exact h
    · rw [WindowsScaler.step_going hstop]
      exact Monitor.inLimits_step p _ h
  | stop => exact Monitor.inLimits_step p .stop h

/-- **How soon the scaler settles on Windows.**  Under every valid configuration and after
every history, each window that is steady by the counters and whose call is served leaves
three quarters of the way to the limit, and `settlingTurns` of them leave nothing. -/
theorem windows_settles (metadata : Path → Result Bool) (cfg : HyperPodFile)
    (hvalid : cfg.validate metadata = .ok ()) (p : Profile) (first : Sink)
    (probe : GetSystemTimesProbe) (lvl : Level) (history more : List WindowsEvent) :
    let final := Run.final (WindowsScaler.step p (.fromLimits cfg.limits))
    let s := final ⟨Monitor.start (.fromLimits cfg.limits) first, probe⟩ history
    ¬ s.world.state.shutdown = true →
      Run.Along (WindowsScaler.step p (.fromLimits cfg.limits)) (SteadyWindow lvl) s more →
      Monitor.distance cfg.limits lvl (final s more).world ≤
          (decay 4)^[more.length] (Monitor.distance cfg.limits lvl s.world) ∧
        (settlingTurns ≤ more.length → Monitor.AtLimit cfg.limits lvl (final s more).world) := by
  intro final s hgo hmore
  have hle := (HyperPodFile.validate_eq_ok.mp hvalid).cpuShares
  have hs : Monitor.Running cfg.limits s.world := ⟨hgo, Run.final_invariant
    (I := fun s : WindowsScaler => Monitor.InLimits cfg.limits s.world.state.cpuShares)
    (inLimits_windows p) (Monitor.sharesInLimits_start hle first).recorded history⟩
  have hstep : ∀ s e, SteadyWindow lvl s e → Monitor.Running cfg.limits s.world →
      Monitor.Running cfg.limits (s.step p (.fromLimits cfg.limits) e).2.world := by
    intro s e he hs
    obtain ⟨e', he', hworld⟩ := exists_steady (p := p) hs he
    rw [hworld]
    exact Monitor.running_steady p hs he'
  have hfall : ∀ s e, SteadyWindow lvl s e → Monitor.Running cfg.limits s.world →
      Monitor.distance cfg.limits lvl (s.step p (.fromLimits cfg.limits) e).2.world ≤
        decay 4 (Monitor.distance cfg.limits lvl s.world) := by
    intro s e he hs
    obtain ⟨e', he', hworld⟩ := exists_steady (p := p) hs he
    rw [hworld]
    exact Monitor.distance_turn hs he'
  have hdistance := Run.gap_final_le_iterate
    (d := fun s : WindowsScaler => Monitor.distance cfg.limits lvl s.world) (decay_mono 4) hstep
    hfall hs hmore
  exact ⟨hdistance, atLimit_of_settled hvalid hs (Run.final_of_along hstep hs hmore) hdistance⟩

/-- A busy window, and then windows in which no time passes. -/
theorem windows_settles_idle :
    let busy : WindowsEvent := .turn (some ⟨⟨0, 0⟩, ⟨60, 0⟩, ⟨40, 0⟩⟩) fun _ => .ok ()
    let idle : WindowsEvent := .turn (some ⟨⟨0, 0⟩, ⟨0, 0⟩, ⟨0, 0⟩⟩) fun _ => .ok ()
    let policy := ScalingPolicy.fromLimits Monitor.burstable.limits
    let final := Run.final (WindowsScaler.step .debug policy)
    let s := final ⟨Monitor.start policy (fun _ => .ok ()), ⟨⟨0, 0⟩⟩⟩ [busy]
    Monitor.shares (final s (List.replicate 33 idle)).world = 1 := by
  intro busy idle policy final s
  have hidle : ∀ e ∈ List.replicate 33 idle, ∀ s, SteadyWindow .low s e := by
    intro e he s
    rw [List.eq_of_mem_replicate he]
    refine ⟨_, _, ⟨0, 0⟩, rfl, rfl, ?_, ?_, fun _ => rfl⟩
    · exact (Nat.zero_sub _).le.trans (Nat.zero_le _)
    · show cpuLevel (0 - _) (0 - _) = .low
      rw [Nat.zero_sub, Nat.zero_sub]
      rfl
  exact (windows_settles _ Monitor.burstable Monitor.validate_burstable .debug _ _ .low [busy] _
    (by decide +kernel) (Run.along_of_forall _ hidle s)).2 (by decide)

/-! ## The scaler on Linux -/

/-- A turn at the level `lvl`, by the load average, with a sink that serves it. -/
def SteadyAverage (numCpus : Nat) (lvl : Level) (e : LinuxEvent) : Prop :=
  ∃ hundredths rest sink, e = .turn (.ok (hundredths, rest)) sink ∧
    hundredths ≠ 80 * numCpus ∧ averageLevel hundredths numCpus = lvl ∧
    ∀ shares, sink shares = .ok ()

theorem steady_read {l : Limits} {lvl : Level} {probe : ProcLoadProbe} {e : LinuxEvent}
    (h0 : probe.numCpus ≠ 0) (hcpus : probe.numCpus ≤ 2 ^ 32)
    (h : SteadyAverage probe.numCpus lvl e) : Monitor.Steady l lvl (e.read probe) := by
  obtain ⟨hundredths, rest, sink, rfl, hne, hlevel, hsink⟩ := h
  refine ⟨_, sink, ?_, (level_averageLoad h0 hcpus hne).trans hlevel, hsink⟩
  exact congrArg (Monitor.Event.turn · sink)
    (probe.loadNormalized_showLoadavg hundredths rest)

/-- **How soon the scaler settles on Linux**, in the same way. -/
theorem linux_settles (metadata : Path → Result Bool) (cfg : HyperPodFile)
    (hvalid : cfg.validate metadata = .ok ()) (p : Profile) (first : Sink) (host : ProcHost)
    (probe : ProcLoadProbe) (hnew : ProcLoadProbe.new host = .ok probe)
    (hcpus : probe.numCpus ≤ 2 ^ 32) (lvl : Level) (history : List Monitor.Event)
    (more : List LinuxEvent) (hmore : ∀ e ∈ more, SteadyAverage probe.numCpus lvl e) :
    let w := Monitor.runLoop p (.fromLimits cfg.limits) first history
    let w' := Monitor.runLoop p (.fromLimits cfg.limits) first
      (history ++ more.map (LinuxEvent.read probe))
    ¬ w.state.shutdown = true →
      Monitor.distance cfg.limits lvl w' ≤
          (decay 4)^[more.length] (Monitor.distance cfg.limits lvl w) ∧
        (settlingTurns ≤ more.length → Monitor.AtLimit cfg.limits lvl w') := by
  intro w w' hgo
  have hle := (HyperPodFile.validate_eq_ok.mp hvalid).cpuShares
  have hw : Monitor.Running cfg.limits w := ⟨hgo, Run.final_invariant
    (I := fun w : World => Monitor.InLimits cfg.limits w.state.cpuShares)
    (fun _ => Monitor.inLimits_step p) (Monitor.sharesInLimits_start hle first).recorded history⟩
  have hsteady : ∀ e ∈ more.map (LinuxEvent.read probe), ∀ _ : World,
      Monitor.Steady cfg.limits lvl e := by
    intro e he _
    obtain ⟨e, hmem, rfl⟩ := List.mem_map.mp he
    exact steady_read (ProcLoadProbe.numCpus_ne_zero hnew) hcpus (hmore e hmem)
  have halong := Run.along_of_forall (Monitor.step p (.fromLimits cfg.limits)) hsteady w
  have hstep : ∀ (w : World) e, Monitor.Steady cfg.limits lvl e → Monitor.Running cfg.limits w →
      Monitor.Running cfg.limits (Monitor.step p (.fromLimits cfg.limits) w e).2 :=
    fun _ _ he hw => Monitor.running_steady p hw he
  have hdistance := Run.gap_final_le_iterate (decay_mono 4) hstep
    (fun _ _ he hw => Monitor.distance_turn hw he) hw halong
  have hrun := Run.final_of_along hstep hw halong
  have hw' : w' = Run.final (Monitor.step p (.fromLimits cfg.limits)) w
      (more.map (LinuxEvent.read probe)) := Run.final_append _ _ _ _
  rw [List.length_map] at hdistance
  rw [hw']
  exact ⟨hdistance, atLimit_of_settled hvalid hw hrun hdistance⟩

/-- Two CPUs that stay at a load average of 1.80. -/
theorem linux_settles_busy :
    let busy : LinuxEvent := .turn (.ok (180, [])) fun _ => .ok ()
    Monitor.shares (Monitor.runLoop .debug (.fromLimits Monitor.burstable.limits) (fun _ => .ok ())
      ([] ++ (List.replicate 33 busy).map (LinuxEvent.read ⟨2⟩))) = 10000 := by
  intro busy
  have hbusy : ∀ e ∈ List.replicate 33 busy, SteadyAverage 2 .high e := by
    intro e he
    rw [List.eq_of_mem_replicate he]
    exact ⟨180, [], _, rfl, by decide, by decide, fun _ => rfl⟩
  exact (linux_settles _ Monitor.burstable Monitor.validate_burstable .debug _ dualHost ⟨2⟩ rfl
    (by decide) .high [] _ hbusy (by decide)).2 (by decide)

end HyperPod
