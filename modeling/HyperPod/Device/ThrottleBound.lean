import HyperPod.Device.ThrottleExact
import HyperPod.Lib.Run
import Mathlib.Tactic.Linarith
import Mathlib.Tactic.FieldSimp
import Mathlib.Algebra.Order.Field.Rat

/-!
# What a throttle lets through

In every state a bucket holds no more tokens than its capacity, and while the rate
stays, what any stretch of a run grants is bounded by the capacity at its start and
the time that passes in it (`tokens_le_and_granted_lt`):

    granted < capacity + rate * (latest_end - latest_start) / 10^9 + 1

The potential `tokens - rate * last_refill / 10^9` pays for every grant
(`granted_add_potential_le`); what the start of the stretch adds to its capacity is
under one token of time not yet credited (`Credited`).
-/

namespace HyperPod

open Machine HyperPod.Inner

/-- A call that leaves the rate as it is. -/
def BucketCall.KeepsRate : BucketCall → Prop
  | .setRate _ => False
  | _ => True

instance : DecidablePred BucketCall.KeepsRate
  | .tryConsumeAt _ _ => isTrue trivial
  | .setRate _ => isFalse id
  | .setCapacity _ => isTrue trivial

namespace TokenBucket

/-- The product `elapsed * rate` of the call fits `u128`. -/
def Fits (t : TokenBucket) : BucketCall → Prop
  | .tryConsumeAt _ now => (now - t.inner.lastRefill) * t.inner.refillPerSec.toNat < 2 ^ 128
  | _ => True

instance (t : TokenBucket) : DecidablePred (Fits t)
  | .tryConsumeAt _ now =>
    inferInstanceAs (Decidable ((now - t.inner.lastRefill) * t.inner.refillPerSec.toNat < 2 ^ 128))
  | .setRate _ => isTrue trivial
  | .setCapacity _ => isTrue trivial

/-- The latest instant seen, from `start` on. -/
def latest (start : Nat) : List BucketCall → Nat
  | [] => start
  | .tryConsumeAt _ now :: calls => latest (max start now) calls
  | _ :: calls => latest start calls

/-- What one call grants. -/
def granted (p : Profile) (t : TokenBucket) : BucketCall → ℚ
  | .tryConsumeAt n now =>
    if (t.step p (.tryConsumeAt n now)).1 = .ok () then (n.toNat : ℚ) else 0
  | _ => 0

variable {p : Profile} {t : TokenBucket} {call : BucketCall} {M : Nat}

theorem granted_try {n : UInt64} {now : Nat} {r : Outcome Nat Unit × TokenBucket}
    (h : t.step p (.tryConsumeAt n now) = r) :
    granted p t (.tryConsumeAt n now) = if r.1 = .ok () then (n.toNat : ℚ) else 0 := by
  subst h
  rfl

theorem step_poisoned (h : t.poisoned = true) : t.step p call = (.panic, t) :=
  if_pos h

theorem step_live (h : t.poisoned = false) {a : Outcome Nat Unit} {b : Inner}
    (hbody : body p t.inner call = (a, b)) : t.step p call = (a, ⟨b, a = .panic⟩) := by
  unfold step
  rw [h, hbody]
  rfl

theorem step_try (h : t.poisoned = false) {n : UInt64} {now : Nat} {a : Outcome Nat Unit}
    {b : Inner} (hbody : t.inner.tryConsumeAt p n now = (a, b)) :
    t.step p (.tryConsumeAt n now) = (a, ⟨b, a = .panic⟩) :=
  step_live h hbody

/-! ## The bucket never overflows -/

theorem body_bounded (h : t.inner.tokens ≤ t.inner.capacity) :
    (body p t.inner call).2.tokens ≤ (body p t.inner call).2.capacity := by
  cases call with
  | tryConsumeAt n now =>
    show (t.inner.tryConsumeAt p n now).2.tokens ≤ (t.inner.tryConsumeAt p n now).2.capacity
    rcases tryConsumeAt_cases p t.inner n now with
      ⟨-, hc⟩ | ⟨g, hg, ⟨hn, hc⟩ | ⟨-, d, hc⟩⟩ <;> rw [hc]
    · exact h
    · have hle := (refilled_of_refill hg).bounded h
      rw [UInt64.le_iff_toNat_le] at hn hle ⊢
      simp only [UInt64.toNat_sub_of_le _ _ (UInt64.le_iff_toNat_le.mpr hn)]
      omega
    · exact (refilled_of_refill hg).bounded h
  | setRate r => exact h
  | setCapacity c => exact bounded_setCapacity t.inner c

theorem step_bounded (h : t.inner.tokens ≤ t.inner.capacity) :
    (t.step p call).2.inner.tokens ≤ (t.step p call).2.inner.capacity := by
  cases hp : t.poisoned with
  | true =>
    rw [step_poisoned hp]
    exact h
  | false =>
    rw [step_live hp rfl]
    exact body_bounded h

/-- The states of a bucket are those that hold no more than the capacity: each is reached
from a full bucket by one request. -/
theorem exists_run_iff (p : Profile) (b : Inner) :
    (∃ capacity rate start calls,
      (Run.final (step p) (new capacity rate start) calls).inner = b) ↔
        b.tokens ≤ b.capacity := by
  constructor
  · rintro ⟨capacity, rate, start, calls, rfl⟩
    exact Run.final_invariant (I := fun t : TokenBucket => t.inner.tokens ≤ t.inner.capacity)
      (fun _ _ h => step_bounded h) (UInt64.le_refl capacity) calls
  · intro h
    let full : Inner := ⟨b.capacity, b.refillPerSec, b.capacity, b.lastRefill⟩
    have hcall : full.tryConsumeAt p (b.capacity - b.tokens) b.lastRefill =
        (.ok (), { full with tokens := b.capacity - (b.capacity - b.tokens) }) := by
      have hle : b.lastRefill ≤ full.lastRefill := Nat.le_refl _
      rw [tryConsumeAt_eq _ (settles_stale hle), settled_stale hle]
      exact if_pos (UInt64.sub_le h)
    have htok : b.capacity - (b.capacity - b.tokens) = b.tokens := by grind
    refine ⟨b.capacity, b.refillPerSec, b.lastRefill,
      [.tryConsumeAt (b.capacity - b.tokens) b.lastRefill], ?_⟩
    rw [Run.final_cons, Run.final_nil, step_try rfl hcall, htok]

/-! ## Time credited -/

/-- Up to the instant `M` all but one token's worth of time is credited. -/
structure Credited (t : TokenBucket) (M : Nat) : Prop where
  live : t.poisoned = false
  bounded : t.inner.tokens ≤ t.inner.capacity
  clock : t.inner.lastRefill ≤ M
  uncredited : (M - t.inner.lastRefill) * t.inner.refillPerSec.toNat < nanosPerSec

theorem credited_new (capacity rate : UInt64) (now : Nat) :
    Credited (new capacity rate now) now := by
  refine ⟨rfl, UInt64.le_refl _, Nat.le_refl _, ?_⟩
  show (now - now) * _ < nanosPerSec
  rw [Nat.sub_self, Nat.zero_mul]
  decide

/-- The clock of a refill at `now`, seen from the latest instant before it. -/
theorem refilled_uncredited {b g : Inner} {now : Nat}
    (hM : (M - b.lastRefill) * b.refillPerSec.toNat < nanosPerSec)
    (hg : Refilled b now g) (hnow : (now - g.lastRefill) * g.refillPerSec.toNat < nanosPerSec) :
    (max M now - g.lastRefill) * g.refillPerSec.toNat < nanosPerSec := by
  rcases Nat.le_total M now with hle | hle
  · rw [Nat.max_eq_right hle]
    exact hnow
  · rw [Nat.max_eq_left hle, hg.rate]
    refine Nat.lt_of_le_of_lt (Nat.mul_le_mul_right _ (Nat.sub_le_sub_left ?_ M)) hM
    rcases hg.clock with heq | ⟨hlt, heq⟩ <;> omega

/-- A call that keeps the rate and whose product fits keeps the credit and the rate. -/
theorem credited_step (h : Credited t M) (hrate : call.KeepsRate) (hfits : Fits t call) :
    Credited (t.step p call).2 (latest M [call]) ∧
      (t.step p call).2.inner.refillPerSec = t.inner.refillPerSec := by
  have hb : (t.step p call).2.inner.tokens ≤ (t.step p call).2.inner.capacity :=
    step_bounded h.bounded
  cases call with
  | tryConsumeAt n now =>
    have hg : (t.inner.refill p now : Outcome Nat Inner) = .ok (t.inner.settled now) :=
      refill_eq_settled fun _ => hfits
    have hr := refilled_settled t.inner now
    have hclock : (t.inner.settled now).lastRefill ≤ max M now := by
      have hM := h.clock
      rcases hr.clock with heq | ⟨hlt, heq⟩ <;> omega
    have huncr := refilled_uncredited h.uncredited hr (product_settled_lt hfits)
    rcases tryConsumeAt_cases p t.inner n now with ⟨hpanic, -⟩ | ⟨g', hg', hc⟩
    · rw [hg] at hpanic
      cases hpanic
    · rw [hg] at hg'
      cases hg'
      rcases hc with ⟨-, hc⟩ | ⟨-, d, hc⟩ <;> rw [step_try h.live hc] at hb ⊢ <;>
        exact ⟨⟨rfl, hb, hclock, huncr⟩, hr.rate⟩
  | setRate r => exact hrate.elim
  | setCapacity c =>
    rw [step_live h.live rfl] at hb ⊢
    exact ⟨⟨rfl, hb, h.clock, h.uncredited⟩, rfl⟩

theorem latest_append (start : Nat) (pre calls : List BucketCall) :
    latest start (pre ++ calls) = latest (latest start pre) calls := by
  induction pre generalizing start with
  | nil => rfl
  | cons call pre ih => cases call <;> exact ih _

theorem credited_run {calls : List BucketCall} (h : Credited t M)
    (hrate : ∀ c ∈ calls, c.KeepsRate) (hfits : Run.Along (step p) Fits t calls) :
    Credited (Run.final (step p) t calls) (latest M calls) ∧
      (Run.final (step p) t calls).inner.refillPerSec = t.inner.refillPerSec := by
  induction calls generalizing t M with
  | nil => exact ⟨h, rfl⟩
  | cons call calls ih =>
    rw [List.forall_mem_cons] at hrate
    obtain ⟨hstep, hsame⟩ := credited_step (p := p) h hrate.1 hfits.1
    obtain ⟨hrun, hsame'⟩ := ih hstep hrate.2 hfits.2
    rw [← latest_append] at hrun
    exact ⟨hrun, hsame'.trans hsame⟩

/-! ## Every grant is paid for -/

/-- The tokens, less what the time up to the last refill earned. -/
def potential (t : TokenBucket) : ℚ :=
  t.inner.tokens.toNat - t.inner.refillPerSec.toNat * t.inner.lastRefill / nanosPerSec

theorem potential_le_of_refilled {b g : Inner} {now : Nat} (q q' : Bool)
    (h : Refilled b now g) :
    potential ⟨g, q⟩ ≤ potential ⟨b, q'⟩ := by
  have hc : (g.tokens.toNat * nanosPerSec + b.lastRefill * b.refillPerSec.toNat : ℚ) ≤
      b.tokens.toNat * nanosPerSec + g.lastRefill * b.refillPerSec.toNat := by
    exact_mod_cast h.tokens
  have hpos : (0 : ℚ) < nanosPerSec := by norm_num [nanosPerSec]
  unfold potential
  rw [h.rate, sub_le_sub_iff, ← sub_nonneg]
  have hdiv : (0 : ℚ) ≤ ((b.tokens.toNat * nanosPerSec + g.lastRefill * b.refillPerSec.toNat) -
      (g.tokens.toNat * nanosPerSec + b.lastRefill * b.refillPerSec.toNat)) / nanosPerSec :=
    div_nonneg (sub_nonneg.mpr hc) hpos.le
  calc (0 : ℚ) ≤ _ := hdiv
    _ = _ := by field_simp

theorem granted_add_potential_le (hrate : call.KeepsRate) :
    granted p t call + potential (t.step p call).2 ≤ potential t := by
  cases hp : t.poisoned with
  | true =>
    cases call <;> simp [granted, step_poisoned hp]
  | false =>
    cases call with
    | tryConsumeAt n now =>
      rcases tryConsumeAt_cases p t.inner n now with
        ⟨-, hc⟩ | ⟨g, hg, ⟨hn, hc⟩ | ⟨-, d, hc⟩⟩ <;>
        rw [granted_try (step_try hp hc), step_try hp hc]
      · simp [potential]
      · have hle := potential_le_of_refilled false t.poisoned (refilled_of_refill hg)
        have hsub : ((g.tokens - n).toNat : ℚ) = g.tokens.toNat - n.toNat := by
          rw [UInt64.toNat_sub_of_le _ _ hn, Nat.cast_sub (UInt64.le_iff_toNat_le.mp hn)]
        simp only [potential, if_true, hsub] at hle ⊢
        linarith
      · have hle := potential_le_of_refilled false t.poisoned (refilled_of_refill hg)
        simpa using hle
    | setRate r => exact hrate.elim
    | setCapacity c =>
      have hq : ((t.inner.setCapacity c).tokens.toNat : ℚ) ≤ t.inner.tokens.toNat := by
        exact_mod_cast UInt64.le_iff_toNat_le.mp (tokens_setCapacity_le t.inner c)
      rw [step_live hp rfl]
      simp only [granted, setCapacity, potential] at hq ⊢
      linarith

theorem totalGranted_add_potential_le {win : List BucketCall} (hrate : ∀ c ∈ win, c.KeepsRate)
    (t : TokenBucket) :
    Run.totalCost (step p) (granted p) t win + potential (Run.final (step p) t win) ≤
      potential t :=
  Run.totalCost_le (I := fun _ => True) (P := fun _ c => c.KeepsRate) (fun _ _ _ h => h)
    (fun _ _ h _ => granted_add_potential_le h) trivial
    (Run.along_of_forall (step p) (fun c hc _ => hrate c hc) t)

/-- What the potential loses between two credited states. -/
theorem lt_of_credited {s t : TokenBucket} {A B : Nat} {rate : UInt64} {q : ℚ}
    (hs : Credited s A) (ht : Credited t B) (hpaid : q + potential t ≤ potential s)
    (hrt : t.inner.refillPerSec = rate) (hrs : s.inner.refillPerSec = rate) :
    q < s.inner.capacity.toNat + rate.toNat * ((B : ℚ) - A) / nanosPerSec + 1 := by
  have hpos : (0 : ℚ) < nanosPerSec := by norm_num [nanosPerSec]
  have hcap : (s.inner.tokens.toNat : ℚ) ≤ s.inner.capacity.toNat := by
    exact_mod_cast UInt64.le_iff_toNat_le.mp hs.bounded
  have huncr : ((A : ℚ) - s.inner.lastRefill) * rate.toNat < nanosPerSec := by
    have h := hs.uncredited
    rw [hrs] at h
    rw [← Nat.cast_sub hs.clock]
    exact_mod_cast h
  have hclock : (rate.toNat : ℚ) * t.inner.lastRefill ≤ rate.toNat * B := by
    exact_mod_cast Nat.mul_le_mul_left rate.toNat ht.clock
  have htok : (0 : ℚ) ≤ t.inner.tokens.toNat := Nat.cast_nonneg _
  unfold potential at hpaid
  rw [hrt, hrs] at hpaid
  have hgain : (rate.toNat * t.inner.lastRefill / nanosPerSec : ℚ) -
      rate.toNat * s.inner.lastRefill / nanosPerSec <
        rate.toNat * ((B : ℚ) - A) / nanosPerSec + 1 := by
    rw [← sub_div, div_add_one hpos.ne', div_lt_div_iff_of_pos_right hpos]
    linarith
  linarith

/-- **The throttle's bound.**  A bucket never holds more than its capacity; and over
any stretch `win` of a run that keeps the rate, it grants less than its capacity at
the start, what the time in the stretch earns, and one. -/
theorem tokens_le_and_granted_lt (p : Profile) (capacity rate : UInt64) (start : Nat) :
    (∀ calls, (Run.final (step p) (new capacity rate start) calls).inner.tokens ≤
      (Run.final (step p) (new capacity rate start) calls).inner.capacity) ∧
    ∀ pre win, (∀ c ∈ pre ++ win, c.KeepsRate) →
      Run.Along (step p) Fits (new capacity rate start) (pre ++ win) →
      let t := Run.final (step p) (new capacity rate start) pre
      Run.totalCost (step p) (granted p) t win <
        t.inner.capacity.toNat +
          rate.toNat * ((latest start (pre ++ win) : ℚ) - latest start pre) / nanosPerSec + 1 := by
  refine ⟨fun calls => ?_, fun pre win hrate hfits => ?_⟩
  · exact (exists_run_iff p _).mp ⟨capacity, rate, start, calls, rfl⟩
  · rw [Run.along_append] at hfits
    rw [List.forall_mem_append] at hrate
    obtain ⟨hpre, hr⟩ := credited_run (credited_new capacity rate start) hrate.1 hfits.1
    obtain ⟨hwin, hr'⟩ := credited_run hpre hrate.2 hfits.2
    rw [← latest_append] at hwin
    have hpaid := totalGranted_add_potential_le (p := p) hrate.2
      (Run.final (step p) (new capacity rate start) pre)
    exact lt_of_credited hpre hwin hpaid (hr'.trans hr) hr

/-- A burst of 100, then a stretch of two seconds that earns at a rate of 10 per second. -/
theorem granted_lt_after_burst :
    Run.totalCost (step .debug) (granted .debug)
        (Run.final (step .debug) (new 100 10 0) [.tryConsumeAt 100 0])
        [.tryConsumeAt 3 500000000, .setCapacity 20, .tryConsumeAt 14 2000000000] <
      (UInt64.toNat 100 : ℚ) + (UInt64.toNat 10 : ℚ) * (((2000000000 : ℕ) : ℚ) - ((0 : ℕ) : ℚ)) /
        nanosPerSec + 1 :=
  (tokens_le_and_granted_lt .debug 100 10 0).2 [.tryConsumeAt 100 0]
    [.tryConsumeAt 3 500000000, .setCapacity 20, .tryConsumeAt 14 2000000000]
    (by decide) (by decide)

end TokenBucket
end HyperPod
