import HyperPod.Lib.Protocol

/-!
# How far a run of the VM has come

The run loops of the two backends differ in what they set up; what they owe the host is the
same.  `RunTrack` is the state of either protocol and `Ends` is how each scope of `run_vm`
ends: with what it had before, with the monitor asked to stop unless the run panics, and
with a value only after the guest was entered.
-/

namespace HyperPod

open Machine Protocol

/-- The monitor's thread. -/
inductive MonitorPhase where
  | absent
  | running
  | stopping
deriving Repr, DecidableEq

/-- What a run holds of the host, what it has set up, and whether it has entered the guest. -/
structure RunTrack (Held Device : Type) where
  held : Held
  device : Device
  monitor : MonitorPhase := .absent
  entered : Bool := false

namespace RunTrack

variable {κ Held Device : Type} {held held' : Held} {m : RunTrack Held Device}

structure Ends (held : Held) (r : Result Unit) (m : RunTrack Held Device) : Prop where
  held : m.held = held
  stopped : r ≠ .panic → m.monitor ≠ .running
  entered : r = .ok () → m.entered = true

/-- How the run loop ends, before the monitor is asked to stop. -/
structure LoopEnds (held : Held) (r : Result Unit) (m : RunTrack Held Device) : Prop where
  held : m.held = held
  running : m.monitor = .running
  entered : r = .ok () → m.entered = true

/-- A run that ends before the monitor was spawned. -/
theorem ends_early {r : Result Unit} (hheld : m.held = held) (hmonitor : m.monitor = .absent)
    (hr : r ≠ .ok ()) : Ends held r m := by
  refine ⟨hheld, ?_, fun h => absurd h hr⟩
  rw [hmonitor]
  nofun

variable {P : Protocol κ (RunTrack Held Device)}

/-- A call before the monitor is spawned, when a failure of it ends the scope. -/
theorem keeps_early_bind {α : Type} {c : κ} {r : Result α} {f : α → Logged κ Unit}
    (hallowed : P.allowed m c) (hmonitor : m.monitor = .absent)
    (hok : ∀ a, r = .ok a → P.Keeps (P.effect m c) (f a) (Ends m.held)) :
    P.Keeps m (Logged.call c r >>= f) (Ends m.held) :=
  keeps_call_bind hallowed hok (fun _ _ => ends_early rfl hmonitor nofun)
    fun _ => ends_early rfl hmonitor nofun

/-- A scope that ends in `held'` once its own resource is released. -/
theorem keeps_scope {release : κ} {body : Logged κ Unit} (held : Held)
    (hbody : P.Keeps m body (Ends held))
    (hallowed : ∀ m' : RunTrack Held Device, m'.held = held → P.allowed m' release)
    (hafter : ∀ m' : RunTrack Held Device, m'.held = held → (P.effect m' release).held = held')
    (hrest : ∀ m' : RunTrack Held Device, (P.effect m' release).monitor = m'.monitor ∧
      (P.effect m' release).entered = m'.entered) :
    P.Keeps m (Logged.holding release body) (Ends held') := by
  refine keeps_holding (hbody.mono fun r m' h => ⟨hallowed m' h.held, hafter m' h.held, ?_, ?_⟩)
  · intro hr
    rw [(hrest m').1]
    exact h.stopped hr
  · intro hr
    rw [(hrest m').2]
    exact h.entered hr

/-- The end of `run_vm`: the loop, then the store to `shutdown`, then the loop's result. -/
theorem keeps_finish {loop : Logged κ Unit} {stop : κ} (hloop : P.Keeps m loop (LoopEnds held))
    (hallowed : ∀ m' : RunTrack Held Device, m'.monitor = .running → P.allowed m' stop)
    (heffect : ∀ m' : RunTrack Held Device, P.effect m' stop = { m' with monitor := .stopping }) :
    P.Keeps m (do
      let result ← Logged.attempt loop
      Logged.emit stop
      Act.lift result) (Ends held) := by
  refine keeps_attempt_bind hloop ?_ ?_
  · intro result m' _ h
    refine keeps_emit_bind (hallowed m' h.running) (keeps_lift ?_)
    rw [heffect]
    exact ⟨h.held, nofun, h.entered⟩
  · intro m' h
    exact ⟨h.held, fun hp => absurd rfl hp, nofun⟩

end RunTrack

/-- `eprintln!`; `stderr` is whether the text can be printed. -/
def eprintln {κ : Type} (stderr : String → Bool) (text : String) : Logged κ Unit :=
  Act.lift (if stderr text then .ok () else .panic)

theorem keeps_eprintln_bind {κ μ α : Type} {P : Protocol κ μ} {m : μ} {stderr : String → Bool}
    {text : String} {f : Unit → Logged κ α} {post : Result α → μ → Prop} (hpanic : post .panic m)
    (h : P.Keeps m (f ()) post) : P.Keeps m (eprintln stderr text >>= f) post := by
  refine keeps_lift_bind (fun _ _ => h) ?_ fun _ => hpanic
  intro e he
  split at he <;> cases he

end HyperPod
