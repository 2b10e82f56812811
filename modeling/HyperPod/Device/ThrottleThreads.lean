import HyperPod.Device.ThrottleBound
import Mathlib.Logic.Function.Basic

/-!
# A bucket that many threads draw from

`try_consume` reads the clock and only then takes the lock, so a request can come to the
bucket with an instant that is long past.  `SharedBucket` is a bucket with the threads that
are between the two and the clock that goes on meanwhile.

Time in which nobody draws earns no more than a bucketful, as long as the instants are
recent: `allowance` is what a bucket can still grant up to an instant `B` when no request
comes with an instant before `A`, and every grant is paid out of it.  So in any stretch of
time all threads together are granted less than a bucketful, what the stretch earns at the
rate, what the longest delay between clock and lock earns, and one
(`granted_to_threads_lt`).
-/

namespace HyperPod

open Machine HyperPod.Inner

namespace TokenBucket

variable {p : Profile} {t : TokenBucket} {call : BucketCall} {start A B : Nat} {C rate : UInt64}

/-! ## What a bucket can still grant -/

/-- A bucket in order that was made at `start` and refilled last by `B`. -/
structure Sound (start B : Nat) (t : TokenBucket) : Prop where
  live : t.poisoned = false
  bounded : t.inner.tokens ≤ t.inner.capacity
  made : start ≤ t.inner.lastRefill
  clock : t.inner.lastRefill ≤ B

/-- The instant of a request is at most `B`. -/
def InstantLe (B : Nat) : BucketCall → Prop
  | .tryConsumeAt _ now => now ≤ B
  | _ => True

/-- Instants from `A` on, capacities up to `C`, and one rate. -/
def Steady (A : Nat) (C : UInt64) : BucketCall → Prop
  | .tryConsumeAt _ now => A ≤ now
  | .setCapacity c => c ≤ C
  | .setRate _ => False

/-- For the first `2 ^ 64` nanoseconds every product fits. -/
theorem fits_of_young (h : Sound start B t) (hB : B < start + 2 ^ 64) (hcall : InstantLe B call) :
    Fits t call := by
  cases call with
  | tryConsumeAt n now =>
    have hnow : now ≤ B := hcall
    have hmade := h.made
    have hrate := t.inner.refillPerSec.toNat_lt
    have helapsed : now - t.inner.lastRefill ≤ 2 ^ 64 := by omega
    show (now - t.inner.lastRefill) * t.inner.refillPerSec.toNat < 2 ^ 128
    calc (now - t.inner.lastRefill) * t.inner.refillPerSec.toNat
        ≤ 2 ^ 64 * t.inner.refillPerSec.toNat := Nat.mul_le_mul_right _ helapsed
      _ < 2 ^ 64 * 2 ^ 64 := Nat.mul_lt_mul_of_pos_left hrate (by decide)
  | setRate r => trivial
  | setCapacity c => trivial

/-- **What a request does to a sound bucket**: it refills, and then takes `n` or nothing. -/
theorem step_try_cases (h : t.poisoned = false) {n : UInt64} {now : Nat}
    (hfits : Fits t (.tryConsumeAt n now)) :
    ∃ b, (t.step p (.tryConsumeAt n now)).2 = ⟨b, false⟩ ∧
      b.capacity = t.inner.capacity ∧ b.refillPerSec = t.inner.refillPerSec ∧
      b.lastRefill = (t.inner.settled now).lastRefill ∧
      granted p t (.tryConsumeAt n now) + b.tokens.toNat = (t.inner.settled now).tokens.toNat := by
  have hg : (t.inner.refill p now : Outcome Nat Inner) = .ok (t.inner.settled now) :=
    refill_eq_settled fun _ => hfits
  rcases tryConsumeAt_cases p t.inner n now with ⟨hpanic, -⟩ | ⟨g, hg', hc⟩
  · rw [hg] at hpanic
    cases hpanic
  · rw [hg] at hg'
    cases hg'
    rcases hc with ⟨hn, hc⟩ | ⟨-, d, hc⟩
    · rw [granted_try (step_try h hc), step_try h hc]
      refine ⟨_, rfl, settled_capacity, settled_refillPerSec, rfl, ?_⟩
      have hsub : (((t.inner.settled now).tokens - n).toNat : ℚ) =
          (t.inner.settled now).tokens.toNat - n.toNat := by
        rw [UInt64.toNat_sub_of_le _ _ hn, Nat.cast_sub (UInt64.le_iff_toNat_le.mp hn)]
      simp only [if_true, hsub]
      linarith
    · rw [granted_try (step_try h hc), step_try h hc]
      refine ⟨_, rfl, settled_capacity, settled_refillPerSec, rfl, ?_⟩
      simp

theorem sound_step (h : Sound start B t) (hB : B < start + 2 ^ 64) (hcall : InstantLe B call) :
    Sound start B (t.step p call).2 := by
  have hbounded : (t.step p call).2.inner.tokens ≤ (t.step p call).2.inner.capacity :=
    step_bounded h.bounded
  have hfits := fits_of_young h hB hcall
  cases call with
  | tryConsumeAt n now =>
    have hnow : now ≤ B := hcall
    have hmade := h.made
    have hclock := h.clock
    obtain ⟨b, hstep, -, -, hlast, -⟩ := step_try_cases (p := p) h.live hfits
    rw [hstep] at hbounded ⊢
    have hmoved := (refilled_settled t.inner now).clock
    rw [← hlast] at hmoved
    refine ⟨rfl, hbounded, ?_, ?_⟩
    · show start ≤ b.lastRefill
      rcases hmoved with heq | ⟨hlt, heq⟩ <;> omega
    · show b.lastRefill ≤ B
      rcases hmoved with heq | ⟨hlt, heq⟩ <;> omega
  | setRate r =>
    rw [step_live h.live rfl] at hbounded ⊢
    exact ⟨rfl, hbounded, h.made, h.clock⟩
  | setCapacity c =>
    rw [step_live h.live rfl] at hbounded ⊢
    exact ⟨rfl, hbounded, h.made, h.clock⟩

theorem sound_run {calls : List BucketCall} (h : Sound start B t) (hB : B < start + 2 ^ 64)
    (hcalls : ∀ c ∈ calls, InstantLe B c) : Sound start B (Run.final (step p) t calls) :=
  Run.final_of_along (P := fun _ c => InstantLe B c) (fun _ _ hc h => sound_step h hB hc) h
    (Run.along_of_forall (step p) (fun c hc _ => hcalls c hc) t)

/-! ## The allowance -/

/-- By `A` less than one token is still to be credited. -/
def Fresh (A : Nat) (b : Inner) : Prop := (A - b.lastRefill) * b.refillPerSec.toNat < nanosPerSec

instance (A : Nat) (b : Inner) : Decidable (Fresh A b) := inferInstanceAs (Decidable (_ < _))

/-- What a bucket can grant up to `B` when all instants are from `A` on.  One that is not
fresh is filled by the first request, whatever it holds. -/
def allowance (A B : Nat) (C : UInt64) (t : TokenBucket) : ℚ :=
  if Fresh A t.inner then
    t.inner.tokens.toNat + t.inner.refillPerSec.toNat * ((B : ℚ) - t.inner.lastRefill) / nanosPerSec
  else C.toNat + t.inner.refillPerSec.toNat * ((B : ℚ) - A) / nanosPerSec

/-- A bucket in a stretch of steady calls. -/
structure InStretch (start A B : Nat) (C rate : UInt64) (t : TokenBucket) : Prop where
  sound : Sound start B t
  capacity : t.inner.capacity ≤ C
  rate : t.inner.refillPerSec = rate

theorem tokens_le (h : InStretch start A B C rate t) :
    (t.inner.tokens.toNat : ℚ) ≤ C.toNat := by
  have hle := UInt64.le_iff_toNat_le.mp (UInt64.le_trans h.sound.bounded h.capacity)
  exact_mod_cast hle

/-- At the start of a stretch the allowance is under a bucketful, what the stretch earns,
and one. -/
theorem allowance_lt (h : InStretch start A B C rate t) :
    allowance A B C t < C.toNat + rate.toNat * ((B : ℚ) - A) / nanosPerSec + 1 := by
  have hpos : (0 : ℚ) < nanosPerSec := by norm_num [nanosPerSec]
  unfold allowance
  rw [h.rate]
  split
  · next hfresh =>
    have huncr : ((A : ℚ) - t.inner.lastRefill) * rate.toNat < nanosPerSec := by
      unfold Fresh at hfresh
      rw [h.rate] at hfresh
      have hcast : ((A - t.inner.lastRefill : ℕ) * rate.toNat : ℚ) < nanosPerSec := by
        exact_mod_cast hfresh
      have hsub : (A : ℚ) - t.inner.lastRefill ≤ (A - t.inner.lastRefill : ℕ) := by
        have hle : A ≤ (A - t.inner.lastRefill) + t.inner.lastRefill := by omega
        have hleq : (A : ℚ) ≤ (A - t.inner.lastRefill : ℕ) + t.inner.lastRefill := by
          exact_mod_cast hle
        linarith
      have hrate : (0 : ℚ) ≤ rate.toNat := Nat.cast_nonneg _
      calc ((A : ℚ) - t.inner.lastRefill) * rate.toNat
          ≤ (A - t.inner.lastRefill : ℕ) * rate.toNat := mul_le_mul_of_nonneg_right hsub hrate
        _ < nanosPerSec := hcast
    have hgain : (rate.toNat * ((B : ℚ) - t.inner.lastRefill) / nanosPerSec : ℚ) <
        rate.toNat * ((B : ℚ) - A) / nanosPerSec + 1 := by
      rw [div_add_one hpos.ne', div_lt_div_iff_of_pos_right hpos]
      linarith
    have htok := tokens_le h
    linarith
  · linarith

theorem allowance_nonneg (h : InStretch start A B C rate t) (hAB : A ≤ B) :
    0 ≤ allowance A B C t := by
  have hpos : (0 : ℚ) < nanosPerSec := by norm_num [nanosPerSec]
  have hrate : (0 : ℚ) ≤ t.inner.refillPerSec.toNat := Nat.cast_nonneg _
  unfold allowance
  split
  · have hlast : (t.inner.lastRefill : ℚ) ≤ B := by exact_mod_cast h.sound.clock
    exact add_nonneg (Nat.cast_nonneg _)
      (div_nonneg (mul_nonneg hrate (sub_nonneg.mpr hlast)) hpos.le)
  · have hA : (A : ℚ) ≤ B := by exact_mod_cast hAB
    exact add_nonneg (Nat.cast_nonneg _)
      (div_nonneg (mul_nonneg hrate (sub_nonneg.mpr hA)) hpos.le)

theorem inStretch_step (h : InStretch start A B C rate t) (hB : B < start + 2 ^ 64)
    (hcall : InstantLe B call) (hsteady : Steady A C call) :
    InStretch start A B C rate (t.step p call).2 := by
  have hsound := sound_step (p := p) h.sound hB hcall
  cases call with
  | tryConsumeAt n now =>
    obtain ⟨b, hstep, hcap, hrate, -⟩ :=
      step_try_cases (p := p) h.sound.live (fits_of_young h.sound hB hcall)
    rw [hstep] at hsound ⊢
    exact ⟨hsound, hcap ▸ h.capacity, hrate.trans h.rate⟩
  | setRate r => exact hsteady.elim
  | setCapacity c =>
    rw [step_live h.sound.live rfl] at hsound ⊢
    exact ⟨hsound, hsteady, h.rate⟩

/-- A request to a bucket that is not fresh fills it up to its instant. -/
theorem settled_of_not_fresh {now : Nat} (hstale : ¬ Fresh A t.inner) (hA : A ≤ now)
    (hfits : Fits t (.tryConsumeAt 0 now)) : (t.inner.settled now).lastRefill = now := by
  apply settled_lastRefill_of_earned
  have hproduct : t.inner.product now < 2 ^ 128 := hfits
  have hle : (A - t.inner.lastRefill) * t.inner.refillPerSec.toNat ≤ t.inner.product now :=
    Nat.mul_le_mul_right _ (Nat.sub_le_sub_right hA _)
  unfold Fresh at hstale
  rw [earned_of_fits hproduct]
  exact Nat.pos_iff_ne_zero.mp (Nat.div_pos (by omega) (by decide))

/-- **Every grant is paid out of the allowance.** -/
theorem granted_add_allowance_le (h : InStretch start A B C rate t) (hB : B < start + 2 ^ 64)
    (hcall : InstantLe B call) (hsteady : Steady A C call) :
    granted p t call + allowance A B C (t.step p call).2 ≤ allowance A B C t := by
  have hpos : (0 : ℚ) < nanosPerSec := by norm_num [nanosPerSec]
  cases call with
  | tryConsumeAt n now =>
    have hfits := fits_of_young h.sound hB hcall
    obtain ⟨b, hstep, -, hrate, hlast, hpaid⟩ := step_try_cases (p := p) h.sound.live hfits
    have hr := refilled_settled t.inner now
    rw [hstep]
    by_cases hfresh : Fresh A t.inner
    · -- the clock of the bucket only moves forward
      have hfresh' : Fresh A b := by
        unfold Fresh at *
        rw [hrate, hlast]
        refine Nat.lt_of_le_of_lt (Nat.mul_le_mul_right _ (Nat.sub_le_sub_left ?_ A)) hfresh
        rcases hr.clock with heq | ⟨hlt, heq⟩ <;> omega
      have hpot := potential_le_of_refilled false false hr
      unfold potential at hpot
      rw [hr.rate] at hpot
      unfold allowance
      rw [if_pos hfresh, if_pos hfresh', hrate, hlast]
      simp only [mul_sub, sub_div] at hpot ⊢
      linarith
    · -- the first request fills the bucket
      have hA : A ≤ now := hsteady
      have hnow := settled_of_not_fresh hfresh hA hfits
      have hfresh' : Fresh A b := by
        unfold Fresh
        rw [hlast, hnow, Nat.sub_eq_zero_of_le hA, Nat.zero_mul]
        decide
      have hfull : ((t.inner.settled now).tokens.toNat : ℚ) ≤ C.toNat := by
        have hcap := hr.capacity ▸ hr.bounded h.sound.bounded
        have hle := UInt64.le_iff_toNat_le.mp (UInt64.le_trans hcap h.capacity)
        exact_mod_cast hle
      have hearned : (t.inner.refillPerSec.toNat * ((B : ℚ) - now) / nanosPerSec : ℚ) ≤
          t.inner.refillPerSec.toNat * ((B : ℚ) - A) / nanosPerSec := by
        have hAq : (A : ℚ) ≤ now := by exact_mod_cast hA
        gcongr
      unfold allowance
      rw [if_neg hfresh, if_pos hfresh', hrate, hlast, hnow]
      linarith
  | setRate r => exact hsteady.elim
  | setCapacity c =>
    have htok : ((t.inner.setCapacity c).tokens.toNat : ℚ) ≤ t.inner.tokens.toNat := by
      exact_mod_cast UInt64.le_iff_toNat_le.mp (tokens_setCapacity_le t.inner c)
    rw [step_live h.sound.live rfl]
    show (0 : ℚ) + allowance A B C ⟨t.inner.setCapacity c, _⟩ ≤ _
    unfold allowance
    by_cases hfresh : Fresh A t.inner
    · rw [if_pos hfresh, if_pos (show Fresh A (t.inner.setCapacity c) from hfresh)]
      simp only [setCapacity] at htok ⊢
      linarith
    · rw [if_neg hfresh, if_neg (show ¬ Fresh A (t.inner.setCapacity c) from hfresh)]
      simp only [setCapacity]
      linarith

/-- What a stretch of steady calls grants. -/
theorem totalGranted_lt {calls : List BucketCall} (h : InStretch start A B C rate t)
    (hB : B < start + 2 ^ 64) (hAB : A ≤ B)
    (hcalls : ∀ c ∈ calls, InstantLe B c ∧ Steady A C c) :
    Run.totalCost (step p) (granted p) t calls <
      C.toNat + rate.toNat * ((B : ℚ) - A) / nanosPerSec + 1 := by
  have halong : Run.Along (step p) (fun _ c => InstantLe B c ∧ Steady A C c) t calls :=
    Run.along_of_forall (step p) (fun c hc _ => hcalls c hc) t
  have hpaid := Run.totalCost_le (fun _ _ hc h => inStretch_step h hB hc.1 hc.2)
    (fun _ _ hc h => granted_add_allowance_le (p := p) h hB hc.1 hc.2) h halong
  have hleft := allowance_nonneg
    (Run.final_of_along (fun _ _ hc h => inStretch_step (p := p) h hB hc.1 hc.2) h halong) hAB
  have hstart := allowance_lt h
  linarith

end TokenBucket

/-! ## The threads -/

/-- A bucket, the clock, and the threads that have read the clock and wait for the lock. -/
structure SharedBucket (T : Type) where
  bucket : TokenBucket
  clock : Nat
  asking : T → Option (UInt64 × Nat)

inductive BucketEvent (T : Type) where
  /-- time passes -/
  | pass (nanos : Nat)
  /-- the thread calls `try_consume`, which reads the clock -/
  | ask (t : T) (n : UInt64)
  /-- the thread gets the lock -/
  | lock (t : T)
  | setRate (refillPerSec : UInt64)
  | setCapacity (capacity : UInt64)

namespace SharedBucket

variable {T : Type}

/-- `TokenBucket::new`, before any thread has it. -/
def share (capacity refillPerSec : UInt64) (now : Nat) : SharedBucket T :=
  ⟨.new capacity refillPerSec now, now, fun _ => none⟩

/-- The call that comes to the bucket. -/
def callOf (w : SharedBucket T) : BucketEvent T → Option BucketCall
  | .lock t => (w.asking t).map fun a => .tryConsumeAt a.1 a.2
  | .setRate r => some (.setRate r)
  | .setCapacity c => some (.setCapacity c)
  | _ => none

def nanosOf : BucketEvent T → Nat
  | .pass nanos => nanos
  | _ => 0

variable [DecidableEq T]

/-- A thread asks once at a time. -/
def askingAfter (w : SharedBucket T) : BucketEvent T → T → Option (UInt64 × Nat)
  | .ask t n => if (w.asking t).isSome then w.asking else Function.update w.asking t (n, w.clock)
  | .lock t => Function.update w.asking t none
  | _ => w.asking

/-- One event, and what a call on the bucket returned. -/
def step (p : Profile) (w : SharedBucket T) (e : BucketEvent T) :
    Option (Outcome Nat Unit) × SharedBucket T :=
  let r := match w.callOf e with
    | some call => w.bucket.step p call
    | none => (.ok (), w.bucket)
  ((w.callOf e).map fun _ => r.1, ⟨r.2, w.clock + nanosOf e, w.askingAfter e⟩)

/-- What one event grants. -/
def granted (p : Profile) (w : SharedBucket T) (e : BucketEvent T) : ℚ :=
  match w.callOf e with
  | some call => w.bucket.granted p call
  | none => 0

/-- The calls that come to the bucket in a run. -/
def calls (p : Profile) : SharedBucket T → List (BucketEvent T) → List BucketCall
  | _, [] => []
  | w, e :: es => (w.callOf e).toList ++ calls p (w.step p e).2 es

/-- No request waits longer than `L` for the lock, no capacity is above `C`, and the rate
stays. -/
def Prompt (L : Nat) (C : UInt64) (w : SharedBucket T) : BucketEvent T → Prop
  | .lock t => ∀ a ∈ w.asking t, w.clock ≤ a.2 + L
  | .setCapacity c => c ≤ C
  | .setRate _ => False
  | _ => True

instance (L : Nat) (C : UInt64) (w : SharedBucket T) : DecidablePred (Prompt L C w)
  | .lock t => inferInstanceAs (Decidable (∀ a ∈ w.asking t, w.clock ≤ a.2 + L))
  | .setCapacity c => inferInstanceAs (Decidable (c ≤ C))
  | .setRate _ => isFalse id
  | .pass _ => isTrue trivial
  | .ask _ _ => isTrue trivial

/-- The clock was read before now. -/
def Asked (w : SharedBucket T) : Prop := ∀ t, ∀ a ∈ w.asking t, a.2 ≤ w.clock

section

variable {p : Profile} {w : SharedBucket T} {e : BucketEvent T} {es : List (BucketEvent T)}
  {L : Nat} {C : UInt64}

theorem step_bucket : (w.step p e).2.bucket = Run.final (TokenBucket.step p) w.bucket
    (w.callOf e).toList := by
  unfold step
  cases w.callOf e with
  | none => rfl
  | some call => rfl

omit [DecidableEq T] in
theorem granted_eq : granted p w e = Run.totalCost (TokenBucket.step p) (TokenBucket.granted p)
    w.bucket (w.callOf e).toList := by
  unfold granted
  cases w.callOf e with
  | none => rfl
  | some call => exact (add_zero _).symm

/-- The bucket only sees its calls. -/
theorem final_bucket : (Run.final (step p) w es).bucket =
    Run.final (TokenBucket.step p) w.bucket (calls p w es) := by
  induction es generalizing w with
  | nil => rfl
  | cons e es ih => rw [Run.final_cons, ih, step_bucket, calls, Run.final_append]

theorem totalGranted_eq : Run.totalCost (step p) (granted p) w es =
    Run.totalCost (TokenBucket.step p) (TokenBucket.granted p) w.bucket (calls p w es) := by
  induction es generalizing w with
  | nil => rfl
  | cons e es ih =>
    rw [Run.totalCost, ih, granted_eq, step_bucket, calls, Run.totalCost_append]

theorem clock_le_step : w.clock ≤ (w.step p e).2.clock := Nat.le_add_right _ _

theorem clock_le_final : w.clock ≤ (Run.final (step p) w es).clock := by
  induction es generalizing w with
  | nil => exact Nat.le_refl _
  | cons e es ih => exact Nat.le_trans clock_le_step ih

omit [DecidableEq T] in
theorem asked_share (capacity rate : UInt64) (start : Nat) :
    Asked (share capacity rate start : SharedBucket T) := by
  intro t a ha
  cases ha

theorem asked_step (h : Asked w) : Asked (w.step p e).2 := by
  intro t a ha
  have hold : ∀ a ∈ w.asking t, a.2 ≤ (w.step p e).2.clock :=
    fun a ha => Nat.le_trans (h t a ha) clock_le_step
  cases e with
  | ask t' n =>
    have hmem : a ∈ (if (w.asking t').isSome then w.asking
      else Function.update w.asking t' (n, w.clock)) t := ha
    split at hmem
    · exact hold a hmem
    · by_cases ht : t = t'
      · subst ht
        rw [Function.update_self] at hmem
        cases hmem
        exact clock_le_step
      · rw [Function.update_of_ne ht] at hmem
        exact hold a hmem
  | lock t' =>
    have hmem : a ∈ Function.update w.asking t' none t := ha
    by_cases ht : t = t'
    · subst ht
      rw [Function.update_self] at hmem
      cases hmem
    · rw [Function.update_of_ne ht] at hmem
      exact hold a hmem
  | pass nanos => exact hold a ha
  | setRate r => exact hold a ha
  | setCapacity c => exact hold a ha

/-- The instants of the calls are at most the clock at the end. -/
theorem instantLe_calls (h : Asked w) : ∀ c ∈ calls p w es,
    TokenBucket.InstantLe (Run.final (step p) w es).clock c := by
  induction es generalizing w with
  | nil => exact nofun
  | cons e es ih =>
    intro c hc
    rcases List.mem_append.mp hc with hc | hc
    · have hlast : w.clock ≤ (Run.final (step p) w (e :: es)).clock := clock_le_final
      have hcall : w.callOf e = some c := Option.mem_toList.mp hc
      cases e with
      | lock t =>
        obtain ⟨a, ha, rfl⟩ := Option.map_eq_some_iff.mp hcall
        exact Nat.le_trans (h t a ha) hlast
      | setRate r => cases hcall; trivial
      | setCapacity c => cases hcall; trivial
      | pass nanos => cases hcall
      | ask t n => cases hcall
    · exact ih (asked_step h) c hc

/-- The instants of prompt calls are from `L` before the clock at the start on. -/
theorem steady_calls {A : Nat} (hA : A ≤ w.clock - L) (h : Run.Along (step p) (Prompt L C) w es) :
    ∀ c ∈ calls p w es, TokenBucket.Steady A C c := by
  induction es generalizing w with
  | nil => exact nofun
  | cons e es ih =>
    intro c hc
    obtain ⟨hprompt, hrest⟩ := h
    rcases List.mem_append.mp hc with hc | hc
    · have hcall : w.callOf e = some c := Option.mem_toList.mp hc
      cases e with
      | lock t =>
        obtain ⟨a, ha, rfl⟩ := Option.map_eq_some_iff.mp hcall
        have hwait : w.clock ≤ a.2 + L := hprompt a ha
        show A ≤ a.2
        omega
      | setRate r => exact hprompt.elim
      | setCapacity c =>
        cases hcall
        exact hprompt
      | pass nanos => cases hcall
      | ask t n => cases hcall
    · have hle : w.clock ≤ (w.step p e).2.clock := clock_le_step
      exact ih (by omega) hrest c hc

theorem sound_shared {capacity rate : UInt64} {start B : Nat}
    (hB : (Run.final (step p) (share capacity rate start) es).clock ≤ B)
    (hyoung : B < start + 2 ^ 64) :
    TokenBucket.Sound start B (Run.final (step p) (share capacity rate start) es).bucket := by
  have hstart : start ≤ (Run.final (step p) (share capacity rate start) es).clock :=
    clock_le_final (w := share capacity rate start)
  have hnew : TokenBucket.Sound start B (.new capacity rate start) :=
    ⟨rfl, UInt64.le_refl _, Nat.le_refl _, Nat.le_trans hstart hB⟩
  rw [final_bucket]
  refine TokenBucket.sound_run hnew hyoung fun c hc => ?_
  have hle := instantLe_calls (asked_share capacity rate start) c hc
  cases c with
  | tryConsumeAt n now => exact Nat.le_trans hle hB
  | setRate r => trivial
  | setCapacity c => trivial

/-- **What all threads are granted together.**  In any stretch of time, whatever happened
before it and however the threads interleave, it is less than a bucketful, what the stretch
and the longest wait for the lock earn, and one. -/
theorem granted_to_threads_lt (p : Profile) (capacity rate : UInt64) (start L : Nat) (C : UInt64)
    (pre win : List (BucketEvent T)) :
    let w := Run.final (step p) (share capacity rate start) pre
    let w' := Run.final (step p) w win
    w'.clock < start + 2 ^ 64 → w.bucket.inner.capacity ≤ C →
      Run.Along (step p) (Prompt L C) w win →
        Run.totalCost (step p) (granted p) w win <
          C.toNat + w.bucket.inner.refillPerSec.toNat * ((w'.clock : ℚ) - w.clock + L) /
            nanosPerSec + 1 := by
  intro w w' hyoung hcap hprompt
  have hAsked : Asked w := Run.final_invariant (fun _ _ h => asked_step h)
    (asked_share capacity rate start) pre
  have hle : w.clock ≤ w'.clock := clock_le_final
  have hstretch : TokenBucket.InStretch start (w.clock - L) w'.clock C
      w.bucket.inner.refillPerSec w.bucket := ⟨sound_shared hle hyoung, hcap, rfl⟩
  have hcalls : ∀ c ∈ calls p w win, TokenBucket.InstantLe w'.clock c ∧
      TokenBucket.Steady (w.clock - L) C c := fun c hc =>
    ⟨instantLe_calls hAsked c hc, steady_calls (Nat.le_refl _) hprompt c hc⟩
  have hlt := TokenBucket.totalGranted_lt (p := p) hstretch hyoung
    (Nat.le_trans (Nat.sub_le _ _) hle) hcalls
  rw [totalGranted_eq]
  refine lt_of_lt_of_le hlt ?_
  have hlate : (w.clock : ℚ) ≤ (w.clock - L : ℕ) + L := by
    have h : w.clock ≤ (w.clock - L) + L := by omega
    exact_mod_cast h
  have hearned : (w.bucket.inner.refillPerSec.toNat *
      ((w'.clock : ℚ) - (w.clock - L : ℕ)) / nanosPerSec : ℚ) ≤
        w.bucket.inner.refillPerSec.toNat * ((w'.clock : ℚ) - w.clock + L) / nanosPerSec := by
    have hstretch : (w'.clock : ℚ) - (w.clock - L : ℕ) ≤ (w'.clock : ℚ) - w.clock + L := by
      linarith
    gcongr
  linarith

end

/-- Two threads after a minute in which nobody draws: the second waits a second. -/
def minuteIdle : List (BucketEvent Bool) :=
  [.ask true 100, .ask false 8, .pass 1000000000, .lock true, .lock false]

theorem granted_to_threads_lt_minute :
    let w : SharedBucket Bool :=
      Run.final (step .debug) (share 100 10 0) [.pass 60000000000]
    Run.totalCost (step .debug) (granted .debug) w minuteIdle <
      (100 : UInt64).toNat + w.bucket.inner.refillPerSec.toNat *
        (((Run.final (step .debug) w minuteIdle).clock : ℚ) - w.clock + (1000000000 : ℕ)) /
          nanosPerSec + 1 :=
  granted_to_threads_lt .debug 100 10 0 1000000000 100 [.pass 60000000000] minuteIdle
    (by decide) (by decide) (by decide)

/-- The wait for the lock counts: a thread that read the clock a minute ago takes what the
bucket holds, and the next one, in the same instant, what the minute earned. -/
example : Run.answers (step .release) (share 100 10 0 : SharedBucket Bool)
    [.ask true 100, .pass 60000000000, .lock true, .ask false 100, .lock false] =
      [none, none, some (.ok ()), none, some (.ok ())] := by
  decide

end SharedBucket
end HyperPod
