import HyperPod.Config
import HyperPod.Lib.Binary64
import HyperPod.Lib.Run

/-!
# The CPU scaler: `scaling/mod.rs`

A `Monitor` polls a load probe and moves the recorded CPU shares between the two limits,
through a sink that may refuse.  `World` is what a run leaves: the state that the monitor
shares with `run_vm`, and every call the sink was given.

What one `tick` can do is said once (`run_tick`), from what `nextShares` computes
(`nextShares_cases`).  The recorded shares are those in force, over a whole run, exactly
when the call that `run_loop` starts with succeeds (`inForce_iff`).  What the monitor prints
to stderr is left out.
-/

namespace HyperPod

open Machine

structure ScalingPolicy where
  minCpuShares : UInt64
  maxCpuShares : UInt64
  highLoadThreshold : Binary64
  lowLoadThreshold : Binary64
  /-- in milliseconds -/
  pollInterval : Nat
deriving Repr, DecidableEq

def ScalingPolicy.fromLimits (l : Limits) : ScalingPolicy where
  minCpuShares := l.minCpuShares
  maxCpuShares := l.maxCpuShares
  -- the numbers nearest to 0.80 and 0.20
  highLoadThreshold := ⟨0x3fe999999999999a⟩
  lowLoadThreshold := ⟨0x3fc999999999999a⟩
  pollInterval := 500

structure MonitorState where
  cpuShares : UInt64
  shutdown : Bool
deriving Repr, DecidableEq

def MonitorState.new (policy : ScalingPolicy) : MonitorState := ⟨policy.minCpuShares, false⟩

/-- A reading of the probe, or its error. -/
abbrev Reading := Except Error Binary64

/-- What the sink answers for each value. -/
abbrev Sink := UInt64 → Except Error Unit

/-- A call that the sink was given, and its answer. -/
structure SinkCall where
  shares : UInt64
  answer : Except Error Unit

structure World where
  state : MonitorState
  /-- the newest call first -/
  calls : List SinkCall

/-- The last value that the sink served. -/
def World.applied (w : World) : Option UInt64 :=
  (w.calls.find? fun c => c.answer.isOk).map SinkCall.shares

namespace Monitor

/-- `sink.set_shares(shares)` -/
def setShares (sink : Sink) (shares : UInt64) : Act World (Except Error Unit) := do
  let w ← Act.get
  Act.set { w with calls := ⟨shares, sink shares⟩ :: w.calls }
  return sink shares

/-- The shares that `tick` goes for at a reading `load`. -/
def nextShares (p : Profile) (policy : ScalingPolicy) (load : Binary64) (current : UInt64) :
    Result UInt64 :=
  if load ≥ policy.highLoadThreshold ∧ current < policy.maxCpuShares then do
    let headroom ← subFit p 64 policy.maxCpuShares.toNat current.toNat
    let raised ← fit p 64 (current.toNat + max (headroom / 4) 1)
    return UInt64.ofNat (min raised policy.maxCpuShares.toNat)
  else if load ≤ policy.lowLoadThreshold ∧ current > policy.minCpuShares then do
    let slack ← subFit p 64 current.toNat policy.minCpuShares.toNat
    let lowered ← subFit p 64 current.toNat (max (slack / 4) 1)
    return UInt64.ofNat (max lowered policy.minCpuShares.toNat)
  else return current

def tick (p : Profile) (policy : ScalingPolicy) (load : Reading) (sink : Sink) :
    Act World Unit := do
  match load with
  | .error _ => return
  | .ok load =>
    let current := (← Act.get).state.cpuShares
    let next ← Act.lift (nextShares p policy load current)
    if next = current then return
    match ← setShares sink next with
    | .error _ => return
    | .ok () =>
      let w ← Act.get
      Act.set { w with state := { w.state with cpuShares := next } }

/-- What happens to a monitor that runs: a turn of its loop, with what the probe and the
sink answer in it, or `run_vm` asking it to stop. -/
inductive Event where
  | turn (load : Reading) (sink : Sink)
  | stop

/-- A turn of `while !shutdown { tick }`, which is over once `shutdown` is set. -/
def turn (p : Profile) (policy : ScalingPolicy) (load : Reading) (sink : Sink) :
    Act World Unit := do
  let w ← Act.get
  if w.state.shutdown then return
  tick p policy load sink

def step (p : Profile) (policy : ScalingPolicy) (w : World) : Event → Result Unit × World
  | .turn load sink => (turn p policy load sink).run w
  | .stop => (.ok (), { w with state := { w.state with shutdown := true } })

/-- The world when `run_loop` enters its loop; `first` answers the call it starts with,
and the answer is dropped. -/
def start (policy : ScalingPolicy) (first : Sink) : World :=
  ((setShares first policy.minCpuShares).run ⟨MonitorState.new policy, []⟩).2

/-- The world after `run_loop` has gone through `es`. -/
def runLoop (p : Profile) (policy : ScalingPolicy) (first : Sink) (es : List Event) : World :=
  Run.final (step p policy) (start policy first) es

/-- What the turns gave back. -/
def outcomes (p : Profile) (policy : ScalingPolicy) (first : Sink) (es : List Event) :
    List (Result Unit) :=
  Run.answers (step p policy) (start policy first) es

/-! ## The shares a tick goes for -/

section
variable {p : Profile} {policy : ScalingPolicy} {load : Binary64} {current : UInt64}

/-- Under high load a quarter of the headroom is added, and at least one share. -/
theorem nextShares_high (hload : load ≥ policy.highLoadThreshold)
    (hcur : current < policy.maxCpuShares) :
    ∃ next, nextShares p policy load current = .ok next ∧ next.toNat =
      current.toNat + max ((policy.maxCpuShares.toNat - current.toNat) / 4) 1 := by
  have hlt := policy.maxCpuShares.toNat_lt
  have hroom := UInt64.lt_iff_toNat_lt.mp hcur
  refine ⟨UInt64.ofNat (min (current.toNat +
    max ((policy.maxCpuShares.toNat - current.toNat) / 4) 1) policy.maxCpuShares.toNat), ?_, ?_⟩
  · unfold nextShares
    rw [if_pos ⟨hload, hcur⟩, subFit_eq_ok (by omega), Outcome.ok_bind, fit_eq_ok (by omega)]
    rfl
  · rw [UInt64.toNat_ofNat', Nat.mod_eq_of_lt (by omega)]
    omega

/-- Under low load a quarter of the slack is taken away, and at least one share. -/
theorem nextShares_low
    (hhigh : ¬ (load ≥ policy.highLoadThreshold ∧ current < policy.maxCpuShares))
    (hload : load ≤ policy.lowLoadThreshold) (hcur : current > policy.minCpuShares) :
    ∃ next, nextShares p policy load current = .ok next ∧ next.toNat =
      current.toNat - max ((current.toNat - policy.minCpuShares.toNat) / 4) 1 := by
  have hlt := current.toNat_lt
  have hslack := UInt64.lt_iff_toNat_lt.mp hcur
  refine ⟨UInt64.ofNat (max (current.toNat -
    max ((current.toNat - policy.minCpuShares.toNat) / 4) 1) policy.minCpuShares.toNat), ?_, ?_⟩
  · unfold nextShares
    rw [if_neg hhigh, if_pos ⟨hload, hcur⟩, subFit_eq_ok (by omega), Outcome.ok_bind,
      subFit_eq_ok (by omega)]
    rfl
  · rw [UInt64.toNat_ofNat', Nat.mod_eq_of_lt (by omega)]
    omega

theorem nextShares_still
    (hhigh : ¬ (load ≥ policy.highLoadThreshold ∧ current < policy.maxCpuShares))
    (hlow : ¬ (load ≤ policy.lowLoadThreshold ∧ current > policy.minCpuShares)) :
    nextShares p policy load current = .ok current := by
  unfold nextShares
  rw [if_neg hhigh, if_neg hlow]
  rfl

/-- A move from `current` towards one of the limits, and not past it. -/
def Toward (policy : ScalingPolicy) (current next : UInt64) : Prop :=
  current.toNat < next.toNat ∧ next.toNat ≤ policy.maxCpuShares.toNat ∨
    policy.minCpuShares.toNat ≤ next.toNat ∧ next.toNat < current.toNat

/-- **The shares a tick goes for.**  Whatever the reading, no subtraction and no addition
leaves 64 bits, and the shares stay or move towards a limit. -/
theorem nextShares_cases (p : Profile) (policy : ScalingPolicy) (load : Binary64)
    (current : UInt64) :
    ∃ next, nextShares p policy load current = .ok next ∧
      (next = current ∨ Toward policy current next) := by
  by_cases hhigh : load ≥ policy.highLoadThreshold ∧ current < policy.maxCpuShares
  · obtain ⟨next, hnext, hval⟩ := nextShares_high (p := p) hhigh.1 hhigh.2
    have hroom := UInt64.lt_iff_toNat_lt.mp hhigh.2
    exact ⟨next, hnext, Or.inr (Or.inl ⟨by omega, by omega⟩)⟩
  · by_cases hlow : load ≤ policy.lowLoadThreshold ∧ current > policy.minCpuShares
    · obtain ⟨next, hnext, hval⟩ := nextShares_low (p := p) hhigh hlow.1 hlow.2
      have hslack := UInt64.lt_iff_toNat_lt.mp hlow.2
      exact ⟨next, hnext, Or.inr (Or.inr ⟨by omega, by omega⟩)⟩
    · exact ⟨current, nextShares_still hhigh hlow, Or.inl rfl⟩

end

/-! ## What a tick does -/

/-- The world after a call that the sink refused. -/
def refused (w : World) (next : UInt64) (e : Error) : World :=
  { w with calls := ⟨next, .error e⟩ :: w.calls }

/-- The world after a call that the sink served. -/
def moved (w : World) (next : UInt64) : World where
  state := { w.state with cpuShares := next }
  calls := ⟨next, .ok ()⟩ :: w.calls

section
variable {p : Profile} {policy : ScalingPolicy} {w w' : World}

/-- Where a turn can lead. -/
inductive TurnTo (policy : ScalingPolicy) (w : World) : World → Prop where
  | still : TurnTo policy w w
  | refused (next : UInt64) (e : Error) (h : Toward policy w.state.cpuShares next) :
      TurnTo policy w (refused w next e)
  | moved (next : UInt64) (h : Toward policy w.state.cpuShares next) :
      TurnTo policy w (moved w next)

theorem run_setShares (sink : Sink) (shares : UInt64) (w : World) :
    (setShares sink shares).run w =
      (.ok (sink shares), { w with calls := ⟨shares, sink shares⟩ :: w.calls }) := rfl

/-- **One tick** returns, whatever it is told: it calls the sink at most once, and
records the shares only when the sink has served them. -/
theorem run_tick (p : Profile) (policy : ScalingPolicy) (load : Reading) (sink : Sink) (w : World) :
    ∃ w', (tick p policy load sink).run w = (.ok (), w') ∧ TurnTo policy w w' := by
  unfold tick
  cases load with
  | error e => exact ⟨w, rfl, .still⟩
  | ok load =>
    obtain ⟨next, hnext, hcases⟩ := nextShares_cases p policy load w.state.cpuShares
    simp only [Act.run_get_bind, hnext, Act.run_lift_ok_bind]
    by_cases hstill : next = w.state.cpuShares
    · rw [if_pos hstill]
      exact ⟨w, rfl, .still⟩
    · rw [if_neg hstill]
      have htoward := hcases.resolve_left hstill
      rw [Act.run_bind_ok (run_setShares sink next w)]
      cases sink next with
      | error e => exact ⟨refused w next e, rfl, .refused next e htoward⟩
      | ok u => exact ⟨moved w next, rfl, .moved next htoward⟩

theorem run_turn (p : Profile) (policy : ScalingPolicy) (load : Reading) (sink : Sink) (w : World) :
    ∃ w', (turn p policy load sink).run w = (.ok (), w') ∧ TurnTo policy w w' := by
  unfold turn
  rw [Act.run_get_bind]
  by_cases hstop : w.state.shutdown = true
  · rw [if_pos hstop]
    exact ⟨w, rfl, .still⟩
  · rw [if_neg hstop]
    exact run_tick p policy load sink w

/-- **Step rule.**  What no turn and no request to stop breaks holds after every step, and
the step returned. -/
theorem step_invariant {I : World → Prop} (hturn : ∀ w w', TurnTo policy w w' → I w → I w')
    (hstop : ∀ w, I w → I { w with state := { w.state with shutdown := true } })
    (w : World) (e : Event) (h : I w) :
    (step p policy w e).1 = .ok () ∧ I (step p policy w e).2 := by
  cases e with
  | turn load sink =>
    obtain ⟨w', hrun, hto⟩ := run_turn p policy load sink w
    show ((turn p policy load sink).run w).1 = _ ∧ I ((turn p policy load sink).run w).2
    rw [hrun]
    exact ⟨rfl, hturn w w' hto h⟩
  | stop => exact ⟨rfl, hstop w h⟩

end

/-! ## The shares recorded and the shares in force -/

/-- The recorded shares are the last that the sink served. -/
def InForce (w : World) : Prop := w.applied = some w.state.cpuShares

theorem inForce_start {policy : ScalingPolicy} {first : Sink} :
    InForce (start policy first) ↔ first policy.minCpuShares = .ok () := by
  cases h : first policy.minCpuShares with
  | error e =>
    constructor
    · intro hforce
      simp [InForce, start, setShares, World.applied, h, Except.isOk, Except.toBool] at hforce
    · intro hok
      cases hok
  | ok u => simp [InForce, start, setShares, World.applied, h, Except.isOk, Except.toBool,
      MonitorState.new]

/-- A refused call changes neither side, a served one both. -/
theorem inForce_turn {policy : ScalingPolicy} {w w' : World} (hto : TurnTo policy w w')
    (h : InForce w) : InForce w' := by
  cases hto with
  | still => exact h
  | refused next e => exact h
  | moved next => rfl

/-- **Recorded and applied.**  Through a run the recorded shares are those in force,
exactly when the call that `run_loop` starts with succeeds. -/
theorem inForce_iff (p : Profile) (policy : ScalingPolicy) (first : Sink) (es : List Event) :
    (∀ pre, pre <+: es → InForce (runLoop p policy first pre)) ↔
      first policy.minCpuShares = .ok () := by
  constructor
  · intro h
    exact inForce_start.mp (h [] List.nil_prefix)
  · intro hfirst pre _
    have hstep : ∀ w e, InForce w → InForce (step p policy w e).2 := by
      intro w e hw
      exact (step_invariant (fun _ _ => inForce_turn) (fun _ h => h) w e hw).2
    exact Run.final_invariant hstep (inForce_start.mpr hfirst) pre

/-- With limits 256 and 2048, a first call that fails and a host that is then idle. -/
theorem not_inForce_always :
    ¬ ∀ (p : Profile) (policy : ScalingPolicy) (first : Sink) (es : List Event),
      InForce (runLoop p policy first es) := by
  intro h
  have hforce := h .release (.fromLimits ⟨128, 512, 256, 2048⟩) (fun _ => .error .host)
    [.turn (.ok ⟨0x3fe0000000000000⟩) (fun _ => .ok ())]
  revert hforce
  unfold InForce
  decide

end Monitor
end HyperPod
