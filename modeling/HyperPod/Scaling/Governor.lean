import HyperPod.Scaling.Levels

/-!
# The scaler without floating point

`Governor` is what the scaler is for: shares that go up by a quarter of the headroom at a high
level and down by a quarter of the slack at a low one, where the level is a matter of whole
numbers, of the counters on Windows and of the hundredths of the load average on Linux.

The monitor refines it whatever it reads (`governed_runLoop`), and the two probes supply the
levels of exact arithmetic: so a run of the scaler is a run of the governor
(`windows_governed`, `linux_governed`).
-/

namespace HyperPod

open Machine Binary64

structure Governor where
  shares : Nat
  stopped : Bool
  /-- what the sink was given, and whether it served it; the newest call first -/
  calls : List (Nat × Bool)
deriving Repr, DecidableEq

inductive GovernorEvent where
  /-- a turn at a level, if one is known, and what the sink would serve -/
  | turn (level : Option Level) (serves : Nat → Bool)
  | stop

namespace Governor

/-- The shares to go for. -/
def next (l : Limits) : Level → Nat → Nat
  | .high, s =>
    if s < l.maxCpuShares.toNat then s + max ((l.maxCpuShares.toNat - s) / 4) 1 else s
  | .low, s =>
    if l.minCpuShares.toNat < s then s - max ((s - l.minCpuShares.toNat) / 4) 1 else s
  | .between, s => s

@[simp] theorem next_high (l : Limits) (s : Nat) : next l .high s =
    if s < l.maxCpuShares.toNat then s + max ((l.maxCpuShares.toNat - s) / 4) 1 else s := rfl

@[simp] theorem next_low (l : Limits) (s : Nat) : next l .low s =
    if l.minCpuShares.toNat < s then s - max ((s - l.minCpuShares.toNat) / 4) 1 else s := rfl

/-- The call for `next`, which counts when it is served. -/
def call (next : Nat) (serves : Nat → Bool) (g : Governor) : Governor where
  shares := if serves next then next else g.shares
  stopped := g.stopped
  calls := (next, serves next) :: g.calls

/-- The first call is for the minimum, and what it is answered does not matter. -/
def start (l : Limits) (serves : Nat → Bool) : Governor where
  shares := l.minCpuShares.toNat
  stopped := false
  calls := [(l.minCpuShares.toNat, serves l.minCpuShares.toNat)]

def step (l : Limits) (g : Governor) : GovernorEvent → Unit × Governor
  | .turn (some level) serves =>
    if g.stopped ∨ next l level g.shares = g.shares then ((), g)
    else ((), g.call (next l level g.shares) serves)
  | .turn none _ => ((), g)
  | .stop => ((), { g with stopped := true })

theorem step_still {l : Limits} {g : Governor} {level : Level}
    (h : g.stopped = true ∨ next l level g.shares = g.shares) (serves : Nat → Bool) :
    g.step l (.turn (some level) serves) = ((), g) := if_pos h

theorem step_call {l : Limits} {g : Governor} {level : Level} (hgo : ¬ g.stopped = true)
    (hmove : next l level g.shares ≠ g.shares) (serves : Nat → Bool) :
    g.step l (.turn (some level) serves) = ((), g.call (next l level g.shares) serves) :=
  if_neg (not_or.mpr ⟨hgo, hmove⟩)

end Governor

/-! ## The monitor refines the governor -/

/-- What the governor sees of a world. -/
def World.governed (w : World) : Governor where
  shares := w.state.cpuShares.toNat
  stopped := w.state.shutdown
  calls := w.calls.map fun c => (c.shares.toNat, c.answer.isOk)

/-- Whether a sink serves a value. -/
def Sink.serves (sink : Sink) (shares : Nat) : Bool := (sink (UInt64.ofNat shares)).isOk

namespace Monitor

/-- What the governor sees of what happens to the monitor. -/
def Event.governed (l : Limits) : Event → GovernorEvent
  | .turn load sink => .turn (load.toOption.map (level (.fromLimits l))) (Sink.serves sink)
  | .stop => .stop

variable {p : Profile} {l : Limits} {w : World} {load : Binary64} {sink : Sink}

/-- The shares that a tick goes for are those of the level. -/
theorem nextShares_level (p : Profile) (l : Limits) (load : Binary64) (current : UInt64) :
    ∃ next, nextShares p (.fromLimits l) load current = .ok next ∧
      next.toNat = Governor.next l (level (.fromLimits l) load) current.toNat := by
  unfold level
  by_cases hhigh : load ≥ (ScalingPolicy.fromLimits l).highLoadThreshold
  · have hlow := not_high_and_low hhigh
    rw [if_pos hhigh, Governor.next_high]
    by_cases hcur : current < l.maxCpuShares
    · rw [if_pos (UInt64.lt_iff_toNat_lt.mp hcur)]
      exact nextShares_high hhigh hcur
    · rw [if_neg fun h => hcur (UInt64.lt_iff_toNat_lt.mpr h)]
      exact ⟨current, nextShares_still (fun h => hcur h.2) (fun h => hlow h.1), rfl⟩
  · rw [if_neg hhigh]
    by_cases hlow : load ≤ (ScalingPolicy.fromLimits l).lowLoadThreshold
    · rw [if_pos hlow, Governor.next_low]
      by_cases hcur : current > l.minCpuShares
      · rw [if_pos (UInt64.lt_iff_toNat_lt.mp hcur)]
        exact nextShares_low (fun h => hhigh h.1) hlow hcur
      · rw [if_neg fun h => hcur (UInt64.lt_iff_toNat_lt.mpr h)]
        exact ⟨current, nextShares_still (fun h => hhigh h.1) (fun h => hcur h.2), rfl⟩
    · rw [if_neg hlow]
      exact ⟨current, nextShares_still (fun h => hhigh h.1) (fun h => hlow h.1), rfl⟩

/-- A call of the monitor is one of the governor. -/
theorem governed_call (next : UInt64) (sink : Sink) (w : World) :
    (match sink next with
      | .error e => refused w next e
      | .ok () => moved w next).governed = w.governed.call next.toNat sink.serves := by
  have hserves : sink.serves next.toNat = (sink next).isOk := by
    unfold Sink.serves
    rw [UInt64.ofNat_toNat]
  unfold Governor.call
  rw [hserves]
  cases sink next with
  | error e => rfl
  | ok u => rfl

theorem governed_tick (p : Profile) (l : Limits) (load : Binary64) (sink : Sink)
    (hgo : ¬ w.state.shutdown = true) :
    ((tick p (.fromLimits l) (.ok load) sink).run w).2.governed =
      (w.governed.step l (.turn (some (level (.fromLimits l) load)) sink.serves)).2 := by
  obtain ⟨next, hnext, hval⟩ := nextShares_level p l load w.state.cpuShares
  have hnext' : Governor.next l (level (.fromLimits l) load) w.governed.shares = next.toNat :=
    hval.symm
  rw [run_tick_eq hnext]
  by_cases hstill : next = w.state.cpuShares
  · have hsame := hnext'.trans (congrArg UInt64.toNat hstill)
    rw [if_pos hstill, Governor.step_still (Or.inr hsame)]
  · have hmove : Governor.next l (level (.fromLimits l) load) w.governed.shares ≠
        w.governed.shares := fun h => hstill (UInt64.toNat_inj.mp (hnext'.symm.trans h))
    rw [if_neg hstill, Governor.step_call hgo hmove, hnext']
    exact governed_call next sink w

theorem governed_turn (p : Profile) (l : Limits) (load : Reading) (sink : Sink) (w : World) :
    ((turn p (.fromLimits l) load sink).run w).2.governed =
      (w.governed.step l ((Event.turn load sink).governed l)).2 := by
  unfold turn
  rw [Act.run_get_bind]
  by_cases hstop : w.state.shutdown = true
  · rw [if_pos hstop]
    cases load with
    | error e => rfl
    | ok load => exact congrArg Prod.snd (Governor.step_still (Or.inl hstop) _).symm
  · rw [if_neg hstop]
    cases load with
    | error e => rfl
    | ok load => exact governed_tick p l load sink hstop

theorem governed_step (p : Profile) (l : Limits) (w : World) (e : Event) :
    (Governor.step l w.governed (e.governed l)).2 = (step p (.fromLimits l) w e).2.governed := by
  cases e with
  | turn load sink => exact (governed_turn p l load sink w).symm
  | stop => rfl

theorem governed_start (l : Limits) (first : Sink) :
    (start (.fromLimits l) first).governed = Governor.start l (Sink.serves first) := by
  unfold Governor.start Sink.serves
  rw [UInt64.ofNat_toNat]
  rfl

/-- **The monitor refines the governor**, whatever the probe and the sink answer. -/
theorem governed_runLoop (p : Profile) (l : Limits) (first : Sink) (es : List Event) :
    (runLoop p (.fromLimits l) first es).governed =
      Run.final (Governor.step l) (.start l (Sink.serves first)) (es.map (Event.governed l)) := by
  rw [← governed_start]
  exact (Run.final_map_along (fun w e _ => governed_step p l w e)
    (Run.along_of_forall (P := fun _ _ => True) _ (fun _ _ _ => trivial) _)).symm

end Monitor

/-! ## The scaler on Windows -/

/-- The monitor and its probe. -/
structure WindowsScaler where
  world : World
  probe : GetSystemTimesProbe

/-- A turn, with what `GetSystemTimes` and the sink answer in it, or the request to stop. -/
inductive WindowsEvent where
  | turn (times : Option SystemTimes) (sink : Sink)
  | stop

/-- The governor, with the counters that its last level came from. -/
structure CounterGovernor where
  governor : Governor
  last : CpuTimes

inductive CounterEvent where
  | turn (now : Option CpuTimes) (serves : Nat → Bool)
  | stop

namespace WindowsScaler

/-- A turn reads the probe once, until `shutdown` is set. -/
def step (p : Profile) (policy : ScalingPolicy) (s : WindowsScaler) :
    WindowsEvent → Result Unit × WindowsScaler
  | .turn times sink =>
    if s.world.state.shutdown then (.ok (), s)
    else
      let (load, probe) := s.probe.loadNormalized times
      let (r, world) := Monitor.step p policy s.world (.turn load sink)
      (r, ⟨world, probe⟩)
  | .stop =>
    let (r, world) := Monitor.step p policy s.world .stop
    (r, ⟨world, s.probe⟩)

theorem step_stopped {p : Profile} {policy : ScalingPolicy} {s : WindowsScaler}
    (h : s.world.state.shutdown = true) (times : Option SystemTimes) (sink : Sink) :
    s.step p policy (.turn times sink) = (.ok (), s) := if_pos h

theorem step_going {p : Profile} {policy : ScalingPolicy} {s : WindowsScaler}
    (h : ¬ s.world.state.shutdown = true) (times : Option SystemTimes) (sink : Sink) :
    (s.step p policy (.turn times sink)).2 =
      ⟨(Monitor.step p policy s.world (.turn (s.probe.loadNormalized times).1 sink)).2,
        (s.probe.loadNormalized times).2⟩ := by
  unfold step
  simp only [if_neg h]

end WindowsScaler

namespace CounterGovernor

/-- The level of a turn is that of the counters since the last one. -/
def step (l : Limits) (s : CounterGovernor) : CounterEvent → Unit × CounterGovernor
  | .turn (some now) serves =>
    if s.governor.stopped then ((), s)
    else
      let level := cpuLevel (now.idle.toNat - s.last.idle.toNat)
        (now.total.toNat - s.last.total.toNat)
      ((), ⟨(s.governor.step l (.turn (some level) serves)).2, now⟩)
  | .turn none _ => ((), s)
  | .stop => ((), { s with governor := (s.governor.step l .stop).2 })

theorem step_stopped {l : Limits} {s : CounterGovernor} (h : s.governor.stopped = true)
    (now : Option CpuTimes) (serves : Nat → Bool) : (s.step l (.turn now serves)).2 = s := by
  cases now with
  | none => rfl
  | some now => exact congrArg Prod.snd (if_pos h)

theorem step_going {l : Limits} {s : CounterGovernor} (h : ¬ s.governor.stopped = true)
    (now : CpuTimes) (serves : Nat → Bool) : (s.step l (.turn (some now) serves)).2 =
      ⟨(s.governor.step l (.turn (some (cpuLevel (now.idle.toNat - s.last.idle.toNat)
        (now.total.toNat - s.last.total.toNat))) serves)).2, now⟩ :=
  congrArg Prod.snd (if_neg h)

end CounterGovernor

def WindowsScaler.governed (s : WindowsScaler) : CounterGovernor :=
  ⟨s.world.governed, s.probe.last⟩

/-- What the governor sees of an event. -/
def WindowsEvent.counted : WindowsEvent → CounterEvent
  | .turn times sink => .turn (snapshot times).toOption (Sink.serves sink)
  | .stop => .stop

/-- A turn in which the CPUs have spent up to `2 ^ 52` units of time since the last one. -/
def Narrow (s : WindowsScaler) : WindowsEvent → Prop
  | .turn times _ => ∀ now, snapshot times = .ok now →
      now.total.toNat - s.probe.last.total.toNat ≤ 2 ^ 52
  | .stop => True

theorem governed_windows (p : Profile) (l : Limits) (s : WindowsScaler) (e : WindowsEvent)
    (h : Narrow s e) : (CounterGovernor.step l s.governed e.counted).2 =
      (s.step p (.fromLimits l) e).2.governed := by
  cases e with
  | stop => rfl
  | turn times sink =>
    by_cases hstop : s.world.state.shutdown = true
    · rw [WindowsScaler.step_stopped hstop]
      exact CounterGovernor.step_stopped hstop _ _
    · rw [WindowsScaler.step_going hstop]
      show (CounterGovernor.step l _ (.turn (snapshot times).toOption _)).2 = _
      cases hnow : snapshot times with
      | error e =>
        rw [GetSystemTimesProbe.loadNormalized_error hnow]
        unfold WindowsScaler.governed
        rw [← Monitor.governed_step]
        rfl
      | ok now =>
        have hlevel := level_cpuLoad (l := l)
          (Nat.lt_of_le_of_lt (Nat.sub_le _ s.probe.last.idle.toNat) now.idle.toNat_lt)
          (h now hnow)
        rw [GetSystemTimesProbe.loadNormalized_ok hnow]
        refine (CounterGovernor.step_going hstop now _).trans ?_
        unfold WindowsScaler.governed
        rw [← Monitor.governed_step, ← hlevel]
        rfl

/-- **The scaler on Windows is the governor on exact counters**: rounding is never seen, in a
run whose turns are no further apart than `2 ^ 52` units of CPU time. -/
theorem windows_governed (p : Profile) (l : Limits) (first : Sink) (times : Option SystemTimes)
    (now : CpuTimes) (probe : GetSystemTimesProbe) (hnow : snapshot times = .ok now)
    (hnew : GetSystemTimesProbe.new times = .ok probe) (es : List WindowsEvent)
    (hnarrow : Run.Along (WindowsScaler.step p (.fromLimits l)) Narrow
      ⟨Monitor.start (.fromLimits l) first, probe⟩ es) :
    (Run.final (WindowsScaler.step p (.fromLimits l))
        ⟨Monitor.start (.fromLimits l) first, probe⟩ es).governed =
      Run.final (CounterGovernor.step l) ⟨.start l (Sink.serves first), now⟩
        (es.map WindowsEvent.counted) := by
  cases (GetSystemTimesProbe.new_ok hnow).symm.trans hnew
  rw [← Run.final_map_along (governed_windows p l) hnarrow, ← Monitor.governed_start]
  rfl

/-- On limits 1 and 8, a window with a tenth of idle time, and the request to stop. -/
theorem windows_governed_busy :
    let policy := ScalingPolicy.fromLimits ⟨128, 256, 1, 8⟩
    let busy : WindowsEvent := .turn (some ⟨⟨15, 0⟩, ⟨65, 0⟩, ⟨45, 0⟩⟩) fun _ => .ok ()
    let scaler := Run.final (WindowsScaler.step .debug policy)
      ⟨Monitor.start policy (fun _ => .ok ()), ⟨⟨5, 10⟩⟩⟩ [busy, .stop]
    scaler.governed.governor = ⟨2, true, [(2, true), (1, true)]⟩ := by
  intro policy busy scaler
  have hnarrow : Run.Along (WindowsScaler.step .debug policy) Narrow
      ⟨Monitor.start policy (fun _ => .ok ()), ⟨⟨5, 10⟩⟩⟩ [busy, .stop] := by
    refine ⟨?_, trivial, trivial⟩
    rintro now ⟨⟩
    decide
  have hgoverned := windows_governed .debug _ _ (some ⟨⟨5, 0⟩, ⟨5, 0⟩, ⟨5, 0⟩⟩) ⟨5, 10⟩ ⟨⟨5, 10⟩⟩
    rfl rfl _ hnarrow
  exact (congrArg CounterGovernor.governor hgoverned).trans (by decide)

/-! ## The scaler on Linux -/

/-- A turn, with the load average in hundredths and the rest of the line that the kernel writes,
or why there is none, and what the sink answers, or the request to stop. -/
inductive LinuxEvent where
  | turn (average : Except Error (Nat × List Char)) (sink : Sink)
  | stop

/-- What the monitor sees of an event. -/
def LinuxEvent.read (probe : ProcLoadProbe) : LinuxEvent → Monitor.Event
  | .turn average sink => .turn (probe.loadNormalized (average.map fun average =>
      String.ofList (showLoadavg average.1 average.2))) sink
  | .stop => .stop

/-- What the governor sees of it. -/
def LinuxEvent.averaged (numCpus : Nat) : LinuxEvent → GovernorEvent
  | .turn average sink =>
    .turn (average.toOption.map fun average => averageLevel average.1 numCpus) (Sink.serves sink)
  | .stop => .stop

/-- The load average is not just the high threshold. -/
def LinuxEvent.OffThreshold (numCpus : Nat) : LinuxEvent → Prop
  | .turn average _ => ∀ hundredths rest, average = .ok (hundredths, rest) →
      hundredths ≠ 80 * numCpus
  | .stop => True

theorem governed_read {l : Limits} {probe : ProcLoadProbe} (h0 : probe.numCpus ≠ 0)
    (hcpus : probe.numCpus ≤ 2 ^ 32) {e : LinuxEvent} (h : e.OffThreshold probe.numCpus) :
    (e.read probe).governed l = e.averaged probe.numCpus := by
  cases e with
  | stop => rfl
  | turn average sink =>
    cases average with
    | error e => rfl
    | ok average =>
      have hlevel := level_averageLoad (l := l) h0 hcpus (h average.1 average.2 rfl)
      show GovernorEvent.turn ((probe.loadNormalized (.ok (String.ofList _))).toOption.map _) _ =
        .turn (some (averageLevel average.1 probe.numCpus)) _
      rw [ProcLoadProbe.loadNormalized_showLoadavg, ← hlevel]
      rfl

/-- **The scaler on Linux is the governor on the load average that the kernel wrote**, in every
run in which that is never just the high threshold. -/
theorem linux_governed (p : Profile) (l : Limits) (first : Sink) (host : ProcHost)
    (probe : ProcLoadProbe) (hnew : ProcLoadProbe.new host = .ok probe)
    (hcpus : probe.numCpus ≤ 2 ^ 32) (es : List LinuxEvent)
    (hoff : ∀ e ∈ es, e.OffThreshold probe.numCpus) :
    (Monitor.runLoop p (.fromLimits l) first (es.map (LinuxEvent.read probe))).governed =
      Run.final (Governor.step l) (.start l (Sink.serves first))
        (es.map (LinuxEvent.averaged probe.numCpus)) := by
  have h0 := ProcLoadProbe.numCpus_ne_zero hnew
  rw [Monitor.governed_runLoop, List.map_map]
  congr 1
  exact List.map_congr_left fun e he => governed_read h0 hcpus (hoff e he)

/-- Two CPUs with a load average of 1.80, and the request to stop. -/
theorem linux_governed_busy :
    let busy : LinuxEvent := .turn (.ok (180, [])) fun _ => .ok ()
    (Monitor.runLoop .debug (.fromLimits ⟨128, 256, 1, 8⟩) (fun _ => .ok ())
      ([busy, .stop].map (LinuxEvent.read ⟨2⟩))).governed = ⟨2, true, [(2, true), (1, true)]⟩ := by
  intro busy
  have hoff : ∀ e ∈ [busy, .stop], e.OffThreshold 2 := by
    intro e he
    rcases List.mem_pair.mp he with rfl | rfl
    · rintro _ _ ⟨⟩
      decide
    · trivial
  exact (linux_governed _ _ _ dualHost ⟨2⟩ rfl (by decide) _ hoff).trans (by decide)

end HyperPod
