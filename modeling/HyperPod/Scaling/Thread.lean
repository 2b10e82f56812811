import HyperPod.Scaling.Sinks

/-!
# The monitor's thread: `run_loop` between two atomic operations

`Monitor.step` takes a turn of the loop at once.  The thread that `start_scaling` spawns
does not: `run_vm` may store `shutdown` while a tick is under way, after the loop has
looked at it.  `LoopPoint` says where the thread stands, and `advance` takes it from one
atomic operation, one reading or one call to the next.

Nothing of the turn-wise view is lost (`abstracts_run`).  `turnsOf` makes the turns up from
what the probe and the sink answer on the way, and a request to stop that comes within a
turn counts as if it had come right after it.  So what holds of all runs in turns holds of
the thread (`sharesInLimits_thread`), and a request to stop lets at most one more call
through and ends the loop within six steps (`wound_run`).

The thread also writes to stderr, which changes nothing above as long as the messages can
be printed: `eprintln!` panics where they cannot, and those panics are left out.
-/

namespace HyperPod

open Machine

/-- Where the thread stands in `run_loop`, and what it holds in its locals. -/
inductive LoopPoint where
  /-- before the call that sets the floor -/
  | floor
  /-- at the head of the loop, about to load `shutdown` -/
  | check
  | probe
  /-- with a reading, about to load `cpu_shares` -/
  | load (reading : Binary64)
  | call (next : UInt64)
  | store (next : UInt64)
  | sleep
  | stopped
  | panicked
deriving Repr, DecidableEq

structure MonitorThread where
  pc : LoopPoint
  world : World

namespace Monitor

/-- What happens: the thread goes on, with what the probe or the sink would answer now, or
`run_vm` stores `shutdown`. -/
inductive Move where
  | advance (load : Reading) (sink : Sink)
  | stop

def halted (w : World) (b : Bool) : World :=
  { w with state := { w.state with shutdown := b } }

variable (p : Profile) (policy : ScalingPolicy) (first : Sink)

/-- The next operation of the thread; `first` answers the call that sets the floor. -/
def advance (load : Reading) (sink : Sink) (t : MonitorThread) : MonitorThread :=
  match t.pc with
  | .floor => ⟨.check, ((setShares first policy.minCpuShares).run t.world).2⟩
  | .check => if t.world.state.shutdown then { t with pc := .stopped } else { t with pc := .probe }
  | .probe =>
    match load with
    | .error _ => { t with pc := .sleep }
    | .ok reading => { t with pc := .load reading }
  | .load reading =>
    let current := t.world.state.cpuShares
    match nextShares p policy reading current with
    | .ok next => if next = current then { t with pc := .sleep } else { t with pc := .call next }
    | _ => { t with pc := .panicked }
  | .call next =>
    let w := ((setShares sink next).run t.world).2
    match sink next with
    | .error _ => ⟨.sleep, w⟩
    | .ok () => ⟨.store next, w⟩
  | .store next =>
    ⟨.sleep, { t.world with state := { t.world.state with cpuShares := next } }⟩
  | .sleep => { t with pc := .check }
  | .stopped => t
  | .panicked => t

def threadStep (t : MonitorThread) : Move → Unit × MonitorThread
  | .advance load sink => ((), advance p policy first load sink t)
  | .stop => ((), { t with world := halted t.world true })

/-- The thread when it is spawned. -/
def spawned : MonitorThread := ⟨.floor, ⟨MonitorState.new policy, []⟩⟩

/-- The thread after `ms`. -/
def thread (ms : List Move) : MonitorThread :=
  Run.final (threadStep p policy first) (spawned policy) ms

/-! ## The turns behind the thread -/

/-- The points at which no turn is under way. -/
def atTurnEnd : LoopPoint → Bool
  | .check | .sleep | .stopped => true
  | _ => false

/-- What has come since the last turn ended: the reading, the sink that was asked, and whether
a stop came. -/
structure Heard where
  reading : Reading
  sink : Sink
  stop : Bool

/-- What has been heard after a move that finds the thread at `pc`. -/
def Heard.next (h : Heard) (pc : LoopPoint) : Move → Heard
  | .advance load sink =>
    match pc with
    | .probe => { h with reading := load, sink := sink }
    | .call _ => { h with sink := sink }
    | _ => h
  | .stop => if atTurnEnd pc then h else { h with stop := true }

/-- A stop that came within a turn counts as if it had come right after it. -/
def stops (b : Bool) : List Event := if b then [.stop] else []

/-- What ends with a move that takes the thread from `pc` to `pc'`, by what has been heard. -/
def Heard.ended (h : Heard) (pc pc' : LoopPoint) : Move → List Event
  | .advance _ _ =>
    if atTurnEnd pc || !atTurnEnd pc' then []
    else if pc = .floor then stops h.stop
    else .turn h.reading h.sink :: stops h.stop
  | .stop => if atTurnEnd pc then [.stop] else []

/-- The thread, and what has been heard. -/
structure Watched where
  thread : MonitorThread
  heard : Heard

/-- A move of the thread, and what ends with it. -/
def watch (s : Watched) (m : Move) : List Event × Watched :=
  let thread := (threadStep p policy first s.thread m).2
  let heard := s.heard.next s.thread.pc m
  (heard.ended s.thread.pc thread.pc m,
    ⟨thread, if atTurnEnd thread.pc then { heard with stop := false } else heard⟩)

/-- Before anything is heard. -/
def unheard : Watched := ⟨spawned policy, ⟨.error .host, fun _ => .ok (), false⟩⟩

/-- The turns and the requests to stop that make up `ms`, by the answers that the probe and the
sink gave in it. -/
def turnsOf (ms : List Move) : List Event :=
  (Run.answers (watch p policy first) (unheard policy) ms).flatten

/-- `w` is `c`, but for a request to stop that came since. -/
def Since (c : World) (b : Bool) (w : World) : Prop := c.state.shutdown = false ∧ w = halted c b

/-- A tick that starts in `c` and reads `reading` calls the sink with `next`. -/
def GoesFor (c : World) (reading : Reading) (next : UInt64) : Prop :=
  ∃ load, reading = .ok load ∧ nextShares p policy load c.state.cpuShares = .ok next ∧
    next ≠ c.state.cpuShares

/-- The thread stands at the end of the turns that lead to `c`, or within the next one. -/
def Abstracts (s : Watched) (c : World) : Prop :=
  let w := s.thread.world
  let h := s.heard
  match s.thread.pc with
  | .floor => c = start policy first ∧ w = halted ⟨MonitorState.new policy, []⟩ h.stop
  | .check | .sleep => w = c ∧ h.stop = false
  | .probe => Since c h.stop w
  | .load reading => Since c h.stop w ∧ h.reading = .ok reading
  | .call next => Since c h.stop w ∧ GoesFor p policy c h.reading next
  | .store next =>
    Since { c with calls := ⟨next, .ok ()⟩ :: c.calls } h.stop w ∧
      GoesFor p policy c h.reading next ∧ h.sink next = .ok ()
  | .stopped => w = c ∧ h.stop = false ∧ c.state.shutdown = true
  | .panicked => False

variable {p policy first} {c w : World} {b : Bool}

theorem final_stops (h : Since c b w) : Run.final (step p policy) c (stops b) = w := by
  obtain ⟨hc, rfl⟩ := h
  cases b with
  | true => rfl
  | false =>
    show c = halted c false
    rw [← hc]
    rfl

theorem Since.stop (h : Since c b w) : Since c true (halted w true) :=
  ⟨h.1, by rw [h.2]; rfl⟩

theorem Since.calls (h : Since c b w) (call : SinkCall) :
    Since { c with calls := call :: c.calls } b { w with calls := call :: w.calls } :=
  ⟨h.1, by rw [h.2]; rfl⟩

theorem Since.store (h : Since c b w) (next : UInt64) :
    Since { c with state := { c.state with cpuShares := next } } b
      { w with state := { w.state with cpuShares := next } } :=
  ⟨h.1, by rw [h.2]; rfl⟩

theorem Since.cpuShares (h : Since c b w) : w.state.cpuShares = c.state.cpuShares := by
  rw [h.2]
  rfl

/-- A turn that reads an error. -/
theorem step_error (e : Error) (sink : Sink) :
    (step p policy c (.turn (.error e) sink)).2 = c := by
  show ((turn p policy (.error e) sink).run c).2 = c
  unfold turn
  rw [Act.run_get_bind]
  split <;> rfl

/-- A turn that leaves the shares as they are. -/
theorem step_still {load : Binary64} {sink : Sink} (hc : c.state.shutdown = false)
    (hnext : nextShares p policy load c.state.cpuShares = .ok c.state.cpuShares) :
    (step p policy c (.turn (.ok load) sink)).2 = c := by
  show ((turn p policy (.ok load) sink).run c).2 = c
  unfold turn tick
  simp only [Act.run_get_bind, hc, Bool.false_eq_true, if_false, hnext, Act.run_lift_ok_bind,
    if_true]
  rfl

/-- A turn that calls the sink. -/
theorem step_goesFor {next : UInt64} {reading : Reading} (hc : c.state.shutdown = false)
    (h : GoesFor p policy c reading next) (sink : Sink) :
    (step p policy c (.turn reading sink)).2 =
      match sink next with
      | .error e => refused c next e
      | .ok () => moved c next := by
  obtain ⟨load, rfl, hnext, hmove⟩ := h
  show ((turn p policy (.ok load) sink).run c).2 = _
  unfold turn tick
  simp only [Act.run_get_bind, hc, Bool.false_eq_true, if_false, hnext, Act.run_lift_ok_bind,
    if_neg hmove]
  rw [Act.run_bind_ok (run_setShares sink next c)]
  cases sink next with
  | error e => rfl
  | ok u => rfl

theorem advance_load {reading : Binary64} {next : UInt64}
    (hnext : nextShares p policy reading w.state.cpuShares = .ok next) (load : Reading)
    (sink : Sink) : advance p policy first load sink ⟨.load reading, w⟩ =
      if next = w.state.cpuShares then ⟨.sleep, w⟩ else ⟨.call next, w⟩ := by
  simp only [advance, hnext]

theorem advance_call (next : UInt64) (load : Reading) (sink : Sink) :
    advance p policy first load sink ⟨.call next, w⟩ =
      match sink next with
      | .error e => ⟨.sleep, refused w next e⟩
      | .ok () => ⟨.store next, { w with calls := ⟨next, .ok ()⟩ :: w.calls }⟩ := by
  simp only [advance, run_setShares]
  cases sink next with
  | error e => rfl
  | ok u => rfl

/-- A request to stop, wherever it finds the thread. -/
theorem abstracts_stop {s : Watched} (h : Abstracts p policy first s c) :
    Abstracts p policy first (watch p policy first s .stop).2
      (Run.final (step p policy) c (watch p policy first s .stop).1) := by
  obtain ⟨⟨pc, w⟩, heard⟩ := s
  cases pc with
  | floor =>
    have hw : w = halted ⟨MonitorState.new policy, []⟩ heard.stop := h.2
    refine ⟨h.1, ?_⟩
    show halted w true = halted ⟨MonitorState.new policy, []⟩ true
    rw [hw]
    rfl
  | check => exact ⟨congrArg (halted · true) h.1, rfl⟩
  | probe => exact Since.stop h
  | load reading => exact ⟨h.1.stop, h.2⟩
  | call next => exact ⟨h.1.stop, h.2⟩
  | store next => exact ⟨h.1.stop, h.2⟩
  | sleep => exact ⟨congrArg (halted · true) h.1, rfl⟩
  | stopped => exact ⟨congrArg (halted · true) h.1, rfl, rfl⟩
  | panicked => exact h.elim

/-- **One operation of the thread** is a turn at most, with the stop that came within it. -/
theorem abstracts_advance {s : Watched} (h : Abstracts p policy first s c)
    (load : Reading) (sink : Sink) :
    Abstracts p policy first (watch p policy first s (.advance load sink)).2
      (Run.final (step p policy) c (watch p policy first s (.advance load sink)).1) := by
  obtain ⟨⟨pc, w⟩, heard⟩ := s
  cases pc with
  | floor =>
    obtain ⟨rfl, hw⟩ := h
    have hrun : Run.final (step p policy) (start policy first) (stops heard.stop) =
        halted (start policy first) heard.stop := final_stops ⟨rfl, rfl⟩
    refine ⟨?_, rfl⟩
    show ((setShares first policy.minCpuShares).run w).2 = Run.final _ _ (stops heard.stop)
    rw [hrun]
    exact congrArg (fun v => ((setShares first policy.minCpuShares).run v).2) hw
  | check =>
    obtain ⟨rfl, hstop⟩ := h
    have hadvance : advance p policy first load sink ⟨.check, w⟩ =
        if w.state.shutdown then ⟨.stopped, w⟩ else ⟨.probe, w⟩ := rfl
    by_cases hset : w.state.shutdown = true
    · rw [if_pos hset] at hadvance
      simp only [watch, threadStep, hadvance]
      exact ⟨rfl, rfl, hset⟩
    · rw [if_neg hset] at hadvance
      simp only [watch, threadStep, hadvance]
      have hclear : w.state.shutdown = false := Bool.eq_false_iff.mpr hset
      refine ⟨hclear, ?_⟩
      show w = halted w heard.stop
      rw [show heard.stop = false from hstop, ← hclear]
      rfl
  | probe =>
    have hw : Since c heard.stop w := h
    cases load with
    | error e =>
      refine ⟨?_, rfl⟩
      show w = Run.final _ (step p policy c (.turn (.error e) sink)).2 (stops heard.stop)
      rw [step_error, final_stops hw]
    | ok reading => exact ⟨hw, rfl⟩
  | load reading =>
    obtain ⟨hw, hreading⟩ := h
    obtain ⟨next, hnext, -⟩ := nextShares_cases p policy reading c.state.cpuShares
    have hadvance : advance p policy first load sink ⟨.load reading, w⟩ =
        if next = c.state.cpuShares then ⟨.sleep, w⟩ else ⟨.call next, w⟩ := by
      rw [← hw.cpuShares] at hnext ⊢
      exact advance_load hnext load sink
    by_cases hsame : next = c.state.cpuShares
    · rw [if_pos hsame] at hadvance
      simp only [watch, threadStep, hadvance]
      refine ⟨?_, rfl⟩
      show w = Run.final _ (step p policy c (.turn heard.reading heard.sink)).2 (stops heard.stop)
      rw [show heard.reading = .ok reading from hreading, step_still hw.1 (hsame ▸ hnext),
        final_stops hw]
    · rw [if_neg hsame] at hadvance
      simp only [watch, threadStep, hadvance]
      exact ⟨hw, reading, hreading, hnext, hsame⟩
  | call next =>
    obtain ⟨hw, hgoes⟩ := h
    cases hsink : sink next with
    | error e =>
      simp only [watch, threadStep, advance_call, hsink]
      refine ⟨?_, rfl⟩
      show refused w next e =
        Run.final _ (step p policy c (.turn heard.reading sink)).2 (stops heard.stop)
      rw [step_goesFor hw.1 hgoes, hsink]
      exact (final_stops (hw.calls ⟨next, .error e⟩)).symm
    | ok u =>
      simp only [watch, threadStep, advance_call, hsink]
      exact ⟨hw.calls ⟨next, .ok ()⟩, hgoes, hsink⟩
  | store next =>
    obtain ⟨hw, hgoes, hsink⟩ := h
    have hc : c.state.shutdown = false := hw.1
    refine ⟨?_, rfl⟩
    show { w with state := { w.state with cpuShares := next } } =
      Run.final _ (step p policy c (.turn heard.reading heard.sink)).2 (stops heard.stop)
    rw [step_goesFor hc hgoes, show heard.sink next = .ok () from hsink]
    exact (final_stops (hw.store next)).symm
  | sleep => exact ⟨h.1, rfl⟩
  | stopped => exact ⟨h.1, rfl, h.2.2⟩
  | panicked => exact h.elim

theorem abstracts_step {s : Watched} (h : Abstracts p policy first s c) (m : Move) :
    Abstracts p policy first (watch p policy first s m).2
      (Run.final (step p policy) c (watch p policy first s m).1) := by
  cases m with
  | advance load sink => exact abstracts_advance h load sink
  | stop => exact abstracts_stop h

/-- The thread after `ms`, with what has been heard. -/
def watched (p : Profile) (policy : ScalingPolicy) (first : Sink) (ms : List Move) : Watched :=
  Run.final (watch p policy first) (unheard policy) ms

theorem thread_watched (p : Profile) (policy : ScalingPolicy) (first : Sink) (ms : List Move) :
    (watched p policy first ms).thread = thread p policy first ms :=
  (Run.final_map (f := Watched.thread) (fun _ _ => rfl) (unheard policy) ms).symm

/-- Every run of the thread goes along with its turns. -/
theorem abstracts_run (p : Profile) (policy : ScalingPolicy) (first : Sink) (ms : List Move) :
    Abstracts p policy first (watched p policy first ms)
      (runLoop p policy first (turnsOf p policy first ms)) :=
  Run.refinement (R := Abstracts p policy first) (fun _ _ m h => abstracts_step h m)
    (show Abstracts p policy first (unheard policy) (start policy first) from ⟨rfl, rfl⟩) ms

/-! ## What the thread shows at any moment -/

/-- The calls of the thread: those of the turns behind it, and within a turn the one that
was served and is not recorded yet. -/
def callsAt (pc : LoopPoint) (c : World) : List SinkCall :=
  match pc with
  | .floor => []
  | .store next => ⟨next, .ok ()⟩ :: c.calls
  | _ => c.calls

/-- The thread shows what the turns behind it left. -/
structure Follows (t : MonitorThread) (c : World) : Prop where
  noPanic : t.pc ≠ .panicked
  atEnd : atTurnEnd t.pc = true → t.world = c
  recorded : t.world.state.cpuShares = c.state.cpuShares
  calls : t.world.calls = callsAt t.pc c
  shutdown : c.state.shutdown = true → t.world.state.shutdown = true

theorem Since.follows {pc : LoopPoint} (h : Since c b w) (hpanic : pc ≠ .panicked)
    (hend : atTurnEnd pc = false) (hcalls : callsAt pc c = c.calls) : Follows ⟨pc, w⟩ c where
  noPanic := hpanic
  atEnd he := absurd (he.symm.trans hend) (by decide)
  recorded := h.cpuShares
  calls := by
    show w.calls = callsAt pc c
    rw [hcalls, h.2]
    rfl
  shutdown hc := absurd (hc.symm.trans h.1) (by decide)

theorem Abstracts.follows {s : Watched} (h : Abstracts p policy first s c) :
    Follows s.thread c := by
  obtain ⟨⟨pc, w⟩, heard⟩ := s
  cases pc with
  | floor =>
    obtain ⟨rfl, hw⟩ := h
    exact ⟨nofun, nofun, congrArg (fun v => v.state.cpuShares) hw, congrArg World.calls hw, nofun⟩
  | check =>
    obtain rfl : w = c := h.1
    exact ⟨nofun, fun _ => rfl, rfl, rfl, id⟩
  | probe => exact Since.follows h nofun rfl rfl
  | load reading => exact h.1.follows nofun rfl rfl
  | call next => exact h.1.follows nofun rfl rfl
  | store next =>
    have hw := h.1
    exact ⟨nofun, nofun, hw.cpuShares, congrArg World.calls hw.2,
      fun hc => absurd (hc.symm.trans hw.1) (by decide)⟩
  | sleep =>
    obtain rfl : w = c := h.1
    exact ⟨nofun, fun _ => rfl, rfl, rfl, id⟩
  | stopped =>
    obtain rfl : w = c := h.1
    exact ⟨nofun, fun _ => rfl, rfl, rfl, id⟩
  | panicked => exact h.elim

theorem thread_noPanic (p : Profile) (policy : ScalingPolicy) (first : Sink) (ms : List Move) :
    (thread p policy first ms).pc ≠ .panicked := by
  rw [← thread_watched]
  exact (abstracts_run p policy first ms).follows.noPanic

/-- **The thread runs in turns.**  Wherever the requests to stop come, the thread is at the end
of the turns that the answers of the probe and the sink in `ms` make up, or one turn ahead of
them in its calls. -/
theorem thread_refines (p : Profile) (policy : ScalingPolicy) (first : Sink) (ms : List Move) :
    Follows (thread p policy first ms) (runLoop p policy first (turnsOf p policy first ms)) := by
  rw [← thread_watched]
  exact (abstracts_run p policy first ms).follows

/-- The last value that the sink served, once the floor is set: the recorded one, or the
one that is about to be. -/
def servedAt (t : MonitorThread) : UInt64 :=
  match t.pc with
  | .store next => next
  | _ => t.world.state.cpuShares

theorem applied_of_abstracts {s : Watched} (h : Abstracts p policy first s c) (hc : InForce c)
    (hfloor : s.thread.pc ≠ .floor) : s.thread.world.applied = some (servedAt s.thread) := by
  have hf := h.follows
  obtain ⟨⟨pc, w⟩, heard⟩ := s
  cases pc with
  | floor => exact absurd rfl hfloor
  | store next =>
    have hcalls : w.calls = ⟨next, .ok ()⟩ :: c.calls := hf.calls
    show w.applied = some next
    unfold World.applied
    rw [hcalls]
    rfl
  | panicked => exact h.elim
  | _ =>
    have hcalls : w.calls = c.calls := hf.calls
    have hrecorded : w.state.cpuShares = c.state.cpuShares := hf.recorded
    show w.applied = some w.state.cpuShares
    rw [hrecorded, ← hc]
    unfold World.applied
    rw [hcalls]

theorem sharesInLimits_of_abstracts {l : Limits} {s : Watched}
    (h : Abstracts p (.fromLimits l) first s c) (hc : SharesInLimits l c) :
    SharesInLimits l s.thread.world := by
  have hf := h.follows
  refine ⟨hf.recorded ▸ hc.recorded, ?_⟩
  rw [hf.calls]
  obtain ⟨⟨pc, w⟩, heard⟩ := s
  cases pc with
  | floor => exact nofun
  | store next =>
    obtain ⟨-, ⟨reading, -, hnext, hmove⟩, -⟩ := h
    obtain ⟨next', hnext', hcases⟩ :=
      nextShares_cases p (.fromLimits l) reading c.state.cpuShares
    obtain rfl : next' = next := Outcome.ok.inj (hnext'.symm.trans hnext)
    have hin := inLimits_of_toward hc.recorded (hcases.resolve_left hmove)
    exact List.forall_mem_cons.mpr ⟨hin, hc.given⟩
  | _ => exact hc.given

/-- Each turn behind the thread keeps to the limits, so the thread does. -/
theorem sharesInLimits_thread (p : Profile) {l : Limits}
    (h : l.minCpuShares.toNat ≤ l.maxCpuShares.toNat) (first : Sink) (ms : List Move) :
    (thread p (.fromLimits l) first ms).pc ≠ .panicked ∧
      SharesInLimits l (thread p (.fromLimits l) first ms).world := by
  refine ⟨thread_noPanic p (.fromLimits l) first ms, ?_⟩
  have habs := abstracts_run p (.fromLimits l) first ms
  have hlimits : SharesInLimits l (runLoop p (.fromLimits l) first _) :=
    Run.final_invariant (fun w e hw => (sharesInLimits_step p w e hw).2)
      (sharesInLimits_start h first) (turnsOf p (.fromLimits l) first ms)
  rw [← thread_watched]
  exact sharesInLimits_of_abstracts habs hlimits

/-- **The limits at any moment.**  Under limits that are in order the thread never panics;
its recorded shares and all it gives the sink are within the limits, and what the sink
served last is recorded, or is in the local that the thread is about to store. -/
theorem thread_limits (p : Profile) {l : Limits}
    (h : l.minCpuShares.toNat ≤ l.maxCpuShares.toNat) (first : Sink) (ms : List Move) :
    let t := thread p (.fromLimits l) first ms
    t.pc ≠ .panicked ∧ SharesInLimits l t.world ∧
      (first l.minCpuShares = .ok () → t.pc ≠ .floor → t.world.applied = some (servedAt t)) := by
  obtain ⟨hpc, hlimits⟩ := sharesInLimits_thread p h first ms
  refine ⟨hpc, hlimits, ?_⟩
  intro hfirst
  have habs := abstracts_run p (.fromLimits l) first ms
  have hforce : InForce (runLoop p (.fromLimits l) first _) :=
    Run.final_invariant
      (fun w e hw => (step_invariant (fun _ _ => inForce_turn) (fun _ h => h) w e hw).2)
      (inForce_start.mpr hfirst) (turnsOf p (.fromLimits l) first ms)
  rw [← thread_watched]
  exact applied_of_abstracts habs hforce

/-- The host is busy, and `run_vm` asks to stop just before the sink is called. -/
theorem thread_limits_call :
    let go : Move := .advance (.ok ⟨0x3ff0000000000000⟩) (fun _ => .ok ())
    let t := thread .release (.fromLimits ⟨128, 512, 256, 2048⟩) (fun _ => .ok ())
      [go, go, go, go, .stop, go]
    t.pc = .store 704 ∧ t.world.applied = some 704 := by
  intro go t
  have hpc : t.pc = .store 704 := by decide
  have h := thread_limits .release (l := ⟨128, 512, 256, 2048⟩) (by decide) (fun _ => .ok ())
    [go, go, go, go, .stop, go]
  refine ⟨hpc, (h.2.2 rfl (by decide)).trans ?_⟩
  decide

/-! ## A request to stop -/

/-- The steps to the end of the loop, at most, once `shutdown` is set. -/
def stepsLeft : LoopPoint → Nat
  | .probe => 6
  | .load _ => 5
  | .call _ => 4
  | .store _ => 3
  | .floor | .sleep => 2
  | .check => 1
  | .stopped | .panicked => 0

/-- The calls that the sink still gets, at most. -/
def callsLeft : LoopPoint → Nat
  | .floor | .probe | .load _ | .call _ => 1
  | _ => 0

def isAdvance : Move → Bool
  | .advance _ _ => true
  | .stop => false

/-- Between `t` and `t'`, `n` steps of the thread have gone by. -/
structure Wound (t t' : MonitorThread) (n : Nat) : Prop where
  shutdown : t'.world.state.shutdown = true
  steps : stepsLeft t'.pc ≤ stepsLeft t.pc - n
  calls : ∃ new, t'.world.calls = new ++ t.world.calls ∧
    new.length + callsLeft t'.pc ≤ callsLeft t.pc

theorem Wound.trans {t t' t'' : MonitorThread} {n m : Nat} (h : Wound t t' n)
    (h' : Wound t' t'' m) : Wound t t'' (n + m) where
  shutdown := h'.shutdown
  steps := by
    have hn := h.steps
    have hm := h'.steps
    omega
  calls := by
    obtain ⟨new, hnew, hlen⟩ := h.calls
    obtain ⟨new', hnew', hlen'⟩ := h'.calls
    refine ⟨new' ++ new, by rw [hnew', hnew, List.append_assoc], ?_⟩
    rw [List.length_append]
    omega

theorem wound_still {t : MonitorThread} (h : t.world.state.shutdown = true) : Wound t t 0 :=
  ⟨h, Nat.le_refl _, [], rfl, by simp⟩

section
variable {pc pc' : LoopPoint} {w' : World}

theorem wound_silent (h : w'.state.shutdown = true) (hcalls : w'.calls = w.calls)
    (hsteps : stepsLeft pc' ≤ stepsLeft pc - 1) (hleft : callsLeft pc' ≤ callsLeft pc) :
    Wound ⟨pc, w⟩ ⟨pc', w'⟩ 1 :=
  ⟨h, hsteps, [], hcalls, by simpa using hleft⟩

theorem wound_call {call : SinkCall} (h : w'.state.shutdown = true)
    (hcalls : w'.calls = call :: w.calls) (hsteps : stepsLeft pc' ≤ stepsLeft pc - 1)
    (hleft : 1 + callsLeft pc' ≤ callsLeft pc) : Wound ⟨pc, w⟩ ⟨pc', w'⟩ 1 :=
  ⟨h, hsteps, [call], hcalls, hleft⟩

end

theorem wound_advance {t : MonitorThread} (h : t.world.state.shutdown = true)
    (load : Reading) (sink : Sink) : Wound t (advance p policy first load sink t) 1 := by
  obtain ⟨pc, w⟩ := t
  have hw : w.state.shutdown = true := h
  cases pc with
  | floor => exact wound_call h rfl (by simp [stepsLeft]) (by simp [callsLeft])
  | check =>
    simp only [advance, if_pos hw]
    exact wound_silent h rfl (by simp [stepsLeft]) (by simp [callsLeft])
  | probe =>
    cases load with
    | error e => exact wound_silent h rfl (by simp [stepsLeft]) (by simp [callsLeft])
    | ok reading => exact wound_silent h rfl (by simp [stepsLeft]) (by simp [callsLeft])
  | load reading =>
    obtain ⟨next, hnext, -⟩ := nextShares_cases p policy reading w.state.cpuShares
    by_cases hsame : next = w.state.cpuShares
    · rw [advance_load hnext, if_pos hsame]
      exact wound_silent h rfl (by simp [stepsLeft]) (by simp [callsLeft])
    · rw [advance_load hnext, if_neg hsame]
      exact wound_silent h rfl (by simp [stepsLeft]) (by simp [callsLeft])
  | call next =>
    cases hsink : sink next with
    | error e =>
      simp only [advance_call, hsink]
      exact wound_call h rfl (by simp [stepsLeft]) (by simp [callsLeft])
    | ok u =>
      simp only [advance_call, hsink]
      exact wound_call h rfl (by simp [stepsLeft]) (by simp [callsLeft])
  | store next => exact wound_silent h rfl (by simp [stepsLeft]) (by simp [callsLeft])
  | sleep => exact wound_silent h rfl (by simp [stepsLeft]) (by simp [callsLeft])
  | stopped => exact wound_silent h rfl (by simp [stepsLeft]) (by simp [callsLeft])
  | panicked => exact wound_silent h rfl (by simp [stepsLeft]) (by simp [callsLeft])

theorem wound_run {t : MonitorThread} (h : t.world.state.shutdown = true) (ms : List Move) :
    Wound t (Run.final (threadStep p policy first) t ms) (ms.countP isAdvance) := by
  induction ms generalizing t with
  | nil => exact wound_still h
  | cons m ms ih =>
    cases m with
    | advance load sink =>
      have hfirst : Wound t (advance p policy first load sink t) 1 := wound_advance h load sink
      rw [Run.final_cons, List.countP_cons_of_pos rfl, Nat.add_comm]
      exact hfirst.trans (ih hfirst.shutdown)
    | stop =>
      have hsame : Wound t { t with world := halted t.world true } 0 :=
        ⟨rfl, Nat.le_refl _, [], rfl, by simp⟩
      rw [Run.final_cons, List.countP_cons_of_neg (by simp [isAdvance]),
        ← Nat.zero_add (ms.countP isAdvance)]
      exact hsame.trans (ih rfl)

theorem shutdown_advance (load : Reading) (sink : Sink) (t : MonitorThread) :
    (advance p policy first load sink t).world.state.shutdown = t.world.state.shutdown := by
  obtain ⟨pc, w⟩ := t
  cases pc with
  | check =>
    simp only [advance]
    split <;> rfl
  | probe => cases load <;> rfl
  | load reading =>
    simp only [advance]
    split
    · split <;> rfl
    · rfl
  | call next =>
    simp only [advance]
    split <;> rfl
  | _ => rfl

/-- Nobody else sets `shutdown`. -/
theorem shutdown_of_no_stop {ms : List Move} (h : Move.stop ∉ ms) :
    (thread p policy first ms).world.state.shutdown = false := by
  have hrun : Run.Along (threadStep p policy first) (fun _ m => m ≠ .stop) (spawned policy) ms :=
    Run.along_of_forall _ (fun _ hm _ => ne_of_mem_of_not_mem hm h) _
  refine Run.final_of_along (I := fun t : MonitorThread => t.world.state.shutdown = false)
    (fun t m hm ht => ?_) rfl hrun
  cases m with
  | stop => exact absurd rfl hm
  | advance load sink => exact (shutdown_advance load sink t).trans ht

theorem shutdown_of_stopped {ms : List Move} (h : (thread p policy first ms).pc = .stopped) :
    (thread p policy first ms).world.state.shutdown = true := by
  have habs := abstracts_run p policy first ms
  rw [← thread_watched] at h ⊢
  unfold Abstracts at habs
  rw [h] at habs
  rw [habs.1, habs.2.2]

theorem eq_stopped_of_stepsLeft {pc : LoopPoint} (h : stepsLeft pc = 0) (hpanic : pc ≠ .panicked) :
    pc = .stopped := by
  cases pc with
  | stopped => rfl
  | panicked => exact absurd rfl hpanic
  | _ => simp [stepsLeft] at h

theorem stepsLeft_le (pc : LoopPoint) : stepsLeft pc ≤ 6 := by
  cases pc <;> simp [stepsLeft]

theorem callsLeft_le (pc : LoopPoint) : callsLeft pc ≤ 1 := by
  cases pc <;> simp [callsLeft]

/-- **A request to stop.**  The loop ends only on request; after one, the sink gets one more
call at most, and six steps of the thread end the loop. -/
theorem thread_stops (p : Profile) (policy : ScalingPolicy) (first : Sink) :
    (∀ ms, (thread p policy first ms).pc = .stopped → Move.stop ∈ ms) ∧
    ∀ pre post,
      let t := thread p policy first (pre ++ [.stop])
      let t' := thread p policy first (pre ++ .stop :: post)
      (∃ new, t'.world.calls = new ++ t.world.calls ∧ new.length ≤ 1) ∧
      (6 ≤ post.countP isAdvance → t'.pc = .stopped) := by
  constructor
  · intro ms hstopped
    by_contra hno
    have hset := shutdown_of_stopped hstopped
    rw [shutdown_of_no_stop hno] at hset
    cases hset
  · intro pre post t t'
    have ht : t.world.state.shutdown = true := by
      have hlast : t = (threadStep p policy first (thread p policy first pre) .stop).2 :=
        Run.final_append _ _ pre [.stop]
      rw [hlast]
      rfl
    have hrun : t' = Run.final (threadStep p policy first) t post := by
      show Run.final _ _ (pre ++ Move.stop :: post) =
        Run.final _ (Run.final _ _ (pre ++ [Move.stop])) post
      rw [← Run.final_append, List.append_assoc]
      rfl
    have hwound : Wound t t' (post.countP isAdvance) := hrun ▸ wound_run ht post
    constructor
    · obtain ⟨new, hnew, hlen⟩ := hwound.calls
      have hle := callsLeft_le t.pc
      exact ⟨new, hnew, by omega⟩
    · intro hsix
      refine eq_stopped_of_stepsLeft ?_ (thread_noPanic p policy first (pre ++ .stop :: post))
      have hsteps := hwound.steps
      have hle := stepsLeft_le t.pc
      omega

end Monitor
end HyperPod
