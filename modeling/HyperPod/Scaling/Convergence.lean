import HyperPod.Scaling.Sinks

/-!
# Where the scaler ends under a steady load

Ticks that all read a high load, and whose calls the sink serves, raise the shares by a
quarter of the headroom and by one at least: each tick strictly, none past the maximum,
and at the maximum the sink is left alone.  A steady low load takes the shares down to
the minimum in the same way (`converges`).  The measure is the distance to the limit.
-/

namespace HyperPod

open Machine

namespace Monitor

/-- One of a run of ticks, with what the probe and the sink answer in it. -/
def tickStep (p : Profile) (policy : ScalingPolicy) (w : World) (t : Reading × Sink) :
    Result Unit × World :=
  (tick p policy t.1 t.2).run w

/-- The call that led from `w` to `w'`, if there was one, was served. -/
def Served (w w' : World) : Prop :=
  w'.calls = w.calls ∨ ∃ shares, w'.calls = ⟨shares, .ok ()⟩ :: w.calls

/-- A tick that reads a high load and whose call is served. -/
def HighTick (p : Profile) (policy : ScalingPolicy) (w : World) (t : Reading × Sink) : Prop :=
  (∃ load, t.1 = .ok load ∧ load ≥ policy.highLoadThreshold) ∧
    Served w (tickStep p policy w t).2

/-- A tick that reads a low load and whose call is served. -/
def LowTick (p : Profile) (policy : ScalingPolicy) (w : World) (t : Reading × Sink) : Prop :=
  (∃ load, t.1 = .ok load ∧ load ≤ policy.lowLoadThreshold) ∧
    Served w (tickStep p policy w t).2

def shares (w : World) : Nat := w.state.cpuShares.toNat

def headroom (l : Limits) (w : World) : Nat := l.maxCpuShares.toNat - shares w

def slack (l : Limits) (w : World) : Nat := shares w - l.minCpuShares.toNat

/-- What a tick under high load does. -/
structure Rises (l : Limits) (w w' : World) : Prop where
  bounded : shares w' ≤ l.maxCpuShares.toNat
  rises : shares w ≠ l.maxCpuShares.toNat → shares w < shares w'
  /-- the headroom is three quarters of what it was, rounded up, and at least one less -/
  headroom : shares w ≠ l.maxCpuShares.toNat →
    headroom l w' ≤ (3 * headroom l w + 3) / 4 ∧ headroom l w' ≤ headroom l w - 1
  /-- at the maximum the sink is not called -/
  rests : shares w = l.maxCpuShares.toNat → w' = w

/-- What a tick under low load does. -/
structure Falls (l : Limits) (w w' : World) : Prop where
  bounded : l.minCpuShares.toNat ≤ shares w'
  falls : shares w ≠ l.minCpuShares.toNat → shares w' < shares w
  slack : shares w ≠ l.minCpuShares.toNat →
    slack l w' ≤ (3 * slack l w + 3) / 4 ∧ slack l w' ≤ slack l w - 1
  rests : shares w = l.minCpuShares.toNat → w' = w

section
variable {p : Profile} {policy : ScalingPolicy} {l : Limits} {w : World} {t : Reading × Sink}

/-- One tick, on the shares it goes for. -/
theorem run_tick_eq {load : Binary64} {next : UInt64}
    (hnext : nextShares p policy load w.state.cpuShares = .ok next) (sink : Sink) :
    (tick p policy (.ok load) sink).run w =
      (.ok (), if next = w.state.cpuShares then w
        else match sink next with
          | .error e => refused w next e
          | .ok () => moved w next) := by
  unfold tick
  simp only [Act.run_get_bind, hnext, Act.run_lift_ok_bind]
  by_cases hstill : next = w.state.cpuShares
  · rw [if_pos hstill, if_pos hstill]
    rfl
  · rw [if_neg hstill, if_neg hstill, Act.run_bind_ok (run_setShares sink next w)]
    cases sink next with
    | error e => rfl
    | ok u => rfl

theorem not_served_refused (next : UInt64) (e : Error) : ¬ Served w (refused w next e) := by
  rintro (hsame | ⟨v, hcall⟩)
  · exact absurd (congrArg List.length hsame) (Nat.succ_ne_self _)
  · cases hcall

/-- A tick whose call is served goes where `nextShares` says. -/
theorem tickStep_served {load : Binary64} {next : UInt64} (hload : t.1 = .ok load)
    (hnext : nextShares p policy load w.state.cpuShares = .ok next)
    (hserved : Served w (tickStep p policy w t).2) :
    (tickStep p policy w t).2 = if next = w.state.cpuShares then w else moved w next := by
  unfold tickStep at hserved ⊢
  rw [hload, run_tick_eq hnext] at hserved ⊢
  by_cases hstill : next = w.state.cpuShares
  · rw [if_pos hstill, if_pos hstill]
  · simp only [if_neg hstill] at hserved ⊢
    cases hsink : t.2 next with
    | error e =>
      rw [hsink] at hserved
      exact absurd hserved (not_served_refused next e)
    | ok u => rfl

/-- A sink that serves everything serves the call of a tick. -/
theorem served_of_sink (hsink : ∀ shares, t.2 shares = .ok ()) :
    Served w (tickStep p policy w t).2 := by
  unfold tickStep
  cases hload : t.1 with
  | error e => exact Or.inl rfl
  | ok load =>
    obtain ⟨next, hnext, -⟩ := nextShares_cases p policy load w.state.cpuShares
    rw [run_tick_eq hnext]
    by_cases hstill : next = w.state.cpuShares
    · rw [if_pos hstill]
      exact Or.inl rfl
    · simp only [if_neg hstill, hsink]
      exact Or.inr ⟨next, rfl⟩

/-! ## One tick towards a limit -/

theorem shares_moved (next : UInt64) : shares (moved w next) = next.toNat := rfl

/-- The low threshold is under the high one: no reading is on both sides. -/
theorem not_high_and_low {load : Binary64}
    (hhigh : load ≥ (ScalingPolicy.fromLimits l).highLoadThreshold) :
    ¬ load ≤ (ScalingPolicy.fromLimits l).lowLoadThreshold := by
  intro hlow
  have hle : (⟨0x3fe999999999999a⟩ : Binary64) ≤ ⟨0x3fc999999999999a⟩ :=
    Binary64.le_trans hhigh hlow
  exact absurd hle (by decide)

theorem tickStep_still {load : Binary64} (hload : t.1 = .ok load)
    (hnext : nextShares p policy load w.state.cpuShares = .ok w.state.cpuShares) :
    (tickStep p policy w t).2 = w := by
  unfold tickStep
  rw [hload, run_tick_eq hnext, if_pos rfl]

theorem rises_of_highTick (hin : InLimits l w.state.cpuShares)
    (h : HighTick p (.fromLimits l) w t) :
    Rises l w (tickStep p (.fromLimits l) w t).2 := by
  obtain ⟨⟨load, hload, hhigh⟩, hserved⟩ := h
  have hmax : shares w ≤ l.maxCpuShares.toNat := hin.2
  by_cases htop : shares w = l.maxCpuShares.toNat
  · have hstill : nextShares p (.fromLimits l) load w.state.cpuShares =
        .ok w.state.cpuShares := by
      apply nextShares_still
      · rintro ⟨-, hcur⟩
        exact Nat.ne_of_lt (UInt64.lt_iff_toNat_lt.mp hcur) htop
      · rintro ⟨hlow, -⟩
        exact not_high_and_low hhigh hlow
    rw [tickStep_still hload hstill]
    exact ⟨hmax, fun h => absurd htop h, fun h => absurd htop h, fun _ => rfl⟩
  · have hcur : w.state.cpuShares < (ScalingPolicy.fromLimits l).maxCpuShares :=
      UInt64.lt_iff_toNat_lt.mpr (Nat.lt_of_le_of_ne hmax htop)
    obtain ⟨next, hnext, hval⟩ := nextShares_high (p := p) hhigh hcur
    have hval' : next.toNat = shares w + max ((l.maxCpuShares.toNat - shares w) / 4) 1 := hval
    have hmove : next ≠ w.state.cpuShares := by
      intro heq
      have hsame : next.toNat = shares w := congrArg UInt64.toNat heq
      omega
    rw [tickStep_served hload hnext hserved, if_neg hmove]
    refine ⟨?_, fun _ => ?_, fun _ => ?_, fun h => absurd h htop⟩ <;>
      simp only [headroom, shares_moved] <;> omega

theorem falls_of_lowTick (hin : InLimits l w.state.cpuShares)
    (h : LowTick p (.fromLimits l) w t) :
    Falls l w (tickStep p (.fromLimits l) w t).2 := by
  obtain ⟨⟨load, hload, hlow⟩, hserved⟩ := h
  have hmin : l.minCpuShares.toNat ≤ shares w := hin.1
  have hhigh : ¬ (load ≥ (ScalingPolicy.fromLimits l).highLoadThreshold ∧
      w.state.cpuShares < (ScalingPolicy.fromLimits l).maxCpuShares) := by
    rintro ⟨hhigh, -⟩
    exact not_high_and_low hhigh hlow
  by_cases hbottom : shares w = l.minCpuShares.toNat
  · have hstill : nextShares p (.fromLimits l) load w.state.cpuShares =
        .ok w.state.cpuShares := by
      apply nextShares_still hhigh
      rintro ⟨-, hcur⟩
      exact Nat.ne_of_gt (UInt64.lt_iff_toNat_lt.mp hcur) hbottom
    rw [tickStep_still hload hstill]
    exact ⟨hmin, fun h => absurd hbottom h, fun h => absurd hbottom h, fun _ => rfl⟩
  · have hcur : w.state.cpuShares > (ScalingPolicy.fromLimits l).minCpuShares :=
      UInt64.lt_iff_toNat_lt.mpr (Nat.lt_of_le_of_ne hmin (Ne.symm hbottom))
    obtain ⟨next, hnext, hval⟩ := nextShares_low (p := p) hhigh hlow hcur
    have hval' : next.toNat = shares w - max ((shares w - l.minCpuShares.toNat) / 4) 1 := hval
    have hmove : next ≠ w.state.cpuShares := by
      intro heq
      have hsame : next.toNat = shares w := congrArg UInt64.toNat heq
      omega
    rw [tickStep_served hload hnext hserved, if_neg hmove]
    refine ⟨?_, fun _ => ?_, fun _ => ?_, fun h => absurd h hbottom⟩ <;>
      simp only [slack, shares_moved] <;> omega

/-! ## A run of ticks -/

theorem inLimits_tick (hin : InLimits l w.state.cpuShares) :
    InLimits l (tickStep p (.fromLimits l) w t).2.state.cpuShares := by
  obtain ⟨w', hrun, hto⟩ := run_tick p (.fromLimits l) t.1 t.2 w
  unfold tickStep
  rw [hrun]
  cases hto with
  | still => exact hin
  | refused next e _ => exact hin
  | moved next hto => exact inLimits_of_toward hin hto

theorem inLimits_ticks (hin : InLimits l w.state.cpuShares) (ticks : List (Reading × Sink)) :
    InLimits l (Run.final (tickStep p (.fromLimits l)) w ticks).state.cpuShares :=
  Run.final_invariant (I := fun v : World => InLimits l v.state.cpuShares)
    (fun _ _ hv => inLimits_tick hv) hin ticks

theorem headroom_highTick (h : HighTick p (.fromLimits l) w t)
    (hin : InLimits l w.state.cpuShares) :
    headroom l (tickStep p (.fromLimits l) w t).2 ≤ headroom l w - 1 := by
  have hr := rises_of_highTick hin h
  by_cases htop : shares w = l.maxCpuShares.toNat
  · rw [hr.rests htop]
    unfold headroom
    omega
  · exact (hr.headroom htop).2

theorem slack_lowTick (h : LowTick p (.fromLimits l) w t)
    (hin : InLimits l w.state.cpuShares) :
    slack l (tickStep p (.fromLimits l) w t).2 ≤ slack l w - 1 := by
  have hf := falls_of_lowTick hin h
  by_cases hbottom : shares w = l.minCpuShares.toNat
  · rw [hf.rests hbottom]
    unfold slack
    omega
  · exact (hf.slack hbottom).2

/-- Under a steady high load the headroom is used up, and then nothing happens. -/
theorem climb {ticks more : List (Reading × Sink)} (hin : InLimits l w.state.cpuShares)
    (hticks : Run.Along (tickStep p (.fromLimits l)) (HighTick p (.fromLimits l)) w
      (ticks ++ more))
    (hlen : headroom l w ≤ ticks.length) :
    shares (Run.final (tickStep p (.fromLimits l)) w ticks) = l.maxCpuShares.toNat ∧
      Run.final (tickStep p (.fromLimits l)) w (ticks ++ more) =
        Run.final (tickStep p (.fromLimits l)) w ticks := by
  have hrest : ∀ v t, HighTick p (.fromLimits l) v t → InLimits l v.state.cpuShares →
      headroom l v = 0 → (tickStep p (.fromLimits l) v t).2 = v := by
    intro v t ht hv hzero
    have htop : shares v = l.maxCpuShares.toNat :=
      Nat.le_antisymm hv.2 (Nat.sub_eq_zero_iff_le.mp hzero)
    exact (rises_of_highTick hv ht).rests htop
  obtain ⟨hzero, hsame⟩ := Run.rest_of_descent (fun _ _ _ hv => inLimits_tick hv)
    (fun _ _ ht hv => headroom_highTick ht hv) hrest hin hticks hlen
  exact ⟨Nat.le_antisymm (inLimits_ticks hin ticks).2 (Nat.sub_eq_zero_iff_le.mp hzero), hsame⟩

/-- Under a steady low load the slack is. -/
theorem descend {ticks more : List (Reading × Sink)} (hin : InLimits l w.state.cpuShares)
    (hticks : Run.Along (tickStep p (.fromLimits l)) (LowTick p (.fromLimits l)) w
      (ticks ++ more))
    (hlen : slack l w ≤ ticks.length) :
    shares (Run.final (tickStep p (.fromLimits l)) w ticks) = l.minCpuShares.toNat ∧
      Run.final (tickStep p (.fromLimits l)) w (ticks ++ more) =
        Run.final (tickStep p (.fromLimits l)) w ticks := by
  have hrest : ∀ v t, LowTick p (.fromLimits l) v t → InLimits l v.state.cpuShares →
      slack l v = 0 → (tickStep p (.fromLimits l) v t).2 = v := by
    intro v t ht hv hzero
    have hbottom : shares v = l.minCpuShares.toNat :=
      Nat.le_antisymm (Nat.sub_eq_zero_iff_le.mp hzero) hv.1
    exact (falls_of_lowTick hv ht).rests hbottom
  obtain ⟨hzero, hsame⟩ := Run.rest_of_descent (fun _ _ _ hv => inLimits_tick hv)
    (fun _ _ ht hv => slack_lowTick ht hv) hrest hin hticks hlen
  exact ⟨Nat.le_antisymm (Nat.sub_eq_zero_iff_le.mp hzero) (inLimits_ticks hin ticks).1, hsame⟩

end

/-- **Convergence.**  From every world that a run of the monitor leaves, ticks under a high
load and with served calls each raise the shares until these are the maximum, which they
are after as many ticks as there was headroom, and then leave the sink alone; under a low
load they take the shares to the minimum in the same way. -/
theorem converges (p : Profile) (l : Limits) (hle : l.minCpuShares.toNat ≤ l.maxCpuShares.toNat)
    (first : Sink) (history : List Event) (ticks more : List (Reading × Sink)) :
    let policy := ScalingPolicy.fromLimits l
    let w := runLoop p policy first history
    let final := Run.final (tickStep p policy)
    (Run.Along (tickStep p policy) (HighTick p policy) w (ticks ++ more) →
      Run.Along (tickStep p policy) (fun v t => Rises l v (tickStep p policy v t).2) w
          (ticks ++ more) ∧
        (l.maxCpuShares.toNat - shares w ≤ ticks.length →
          shares (final w ticks) = l.maxCpuShares.toNat ∧
            final w (ticks ++ more) = final w ticks)) ∧
    (Run.Along (tickStep p policy) (LowTick p policy) w (ticks ++ more) →
      Run.Along (tickStep p policy) (fun v t => Falls l v (tickStep p policy v t).2) w
          (ticks ++ more) ∧
        (shares w - l.minCpuShares.toNat ≤ ticks.length →
          shares (final w ticks) = l.minCpuShares.toNat ∧
            final w (ticks ++ more) = final w ticks)) := by
  intro policy w final
  have hin : InLimits l w.state.cpuShares := (Run.final_invariant
    (fun w e hw => (sharesInLimits_step p w e hw).2) (sharesInLimits_start hle first)
    history).recorded
  refine ⟨fun hticks => ⟨?_, climb hin hticks⟩, fun hticks => ⟨?_, descend hin hticks⟩⟩
  · exact Run.along_of_along (I := fun v : World => InLimits l v.state.cpuShares)
      (fun _ _ _ hv => inLimits_tick hv) (fun _ _ ht hv => rises_of_highTick hv ht) hin hticks
  · exact Run.along_of_along (I := fun v : World => InLimits l v.state.cpuShares)
      (fun _ _ _ hv => inLimits_tick hv) (fun _ _ ht hv => falls_of_lowTick hv ht) hin hticks

/-- Limits 1 and 8: seven ticks under a full load take the shares from one to eight, seven
idle ones take them back, and an eighth leaves the sink alone. -/
theorem converges_full_then_idle :
    let policy := ScalingPolicy.fromLimits ⟨128, 256, 1, 8⟩
    let sink : Sink := fun _ => .ok ()
    let full : Reading × Sink := (.ok ⟨0x3ff0000000000000⟩, sink)
    let idle : Reading × Sink := (.ok ⟨0⟩, sink)
    let fresh := runLoop .debug policy sink []
    let busy := runLoop .debug policy sink (List.replicate 7 (.turn full.1 sink))
    let final := Run.final (tickStep .debug policy)
    (shares fresh = 1 ∧ shares (final fresh (List.replicate 7 full)) = UInt64.toNat 8 ∧
      final fresh (List.replicate 7 full ++ [full]) = final fresh (List.replicate 7 full)) ∧
    (shares busy = 8 ∧ shares (final busy (List.replicate 7 idle)) = UInt64.toNat 1 ∧
      final busy (List.replicate 7 idle ++ [idle]) = final busy (List.replicate 7 idle)) := by
  intro policy sink full idle fresh busy final
  have hfull : ∀ t ∈ List.replicate 7 full ++ [full], ∀ v, HighTick .debug policy v t := by
    intro t ht v
    have heq : t = full := by simpa [List.mem_replicate] using ht
    rw [heq]
    exact ⟨⟨⟨0x3ff0000000000000⟩, rfl, by decide⟩, served_of_sink fun _ => rfl⟩
  have hidle : ∀ t ∈ List.replicate 7 idle ++ [idle], ∀ v, LowTick .debug policy v t := by
    intro t ht v
    have heq : t = idle := by simpa [List.mem_replicate] using ht
    rw [heq]
    exact ⟨⟨⟨0⟩, rfl, by decide⟩, served_of_sink fun _ => rfl⟩
  have hup := (converges .debug ⟨128, 256, 1, 8⟩ (by decide) sink []
    (List.replicate 7 full) [full]).1 (Run.along_of_forall _ hfull fresh)
  have hdown := (converges .debug ⟨128, 256, 1, 8⟩ (by decide) sink
    (List.replicate 7 (.turn full.1 sink)) (List.replicate 7 idle) [idle]).2
    (Run.along_of_forall _ hidle busy)
  exact ⟨⟨by decide, hup.2 (by decide)⟩, by decide, hdown.2 (by decide)⟩

end Monitor
end HyperPod
