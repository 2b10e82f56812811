import HyperPod.Device.ThrottleExact
import HyperPod.Lib.Run

/-!
# Changing the rate and the capacity of a bucket

`set_rate` and `set_capacity` take no instant and settle nothing: the next refill
credits all the time since the last one at the rate, and under the capacity, it finds
(`elapsed_credited_at_new_rate`).  So a change that widens the throttle also widens
it for time already past.

Between two rates and one instant, the higher rate grants what the lower one does and
waits no longer, unless the lower one is zero and its wait the fixed hour
(`higher_rate_no_harder`).
-/

namespace HyperPod

open Machine

/-- A call of `set_rate` or `set_capacity`. -/
def BucketCall.Sets : BucketCall → Prop
  | .tryConsumeAt _ _ => False
  | _ => True

instance : DecidablePred BucketCall.Sets
  | .tryConsumeAt _ _ => isFalse id
  | .setRate _ => isTrue trivial
  | .setCapacity _ => isTrue trivial

namespace Inner

variable {ε : Type} {p : Profile} {b b' g : Inner} {now : Nat}

/-! ## What the changes leave alone -/

/-- `b'` is `b` after changes of rate and capacity. -/
structure Reconfigured (b b' : Inner) : Prop where
  clock : b'.lastRefill = b.lastRefill
  tokens : b'.tokens ≤ b.tokens
  bounded : b'.tokens ≤ b'.capacity

theorem reconfigured_body {call : BucketCall} (hset : call.Sets) (h : Reconfigured b b') :
    Reconfigured b (TokenBucket.body p b' call).2 := by
  cases call with
  | tryConsumeAt n now => exact hset.elim
  | setRate r => exact ⟨h.clock, h.tokens, h.bounded⟩
  | setCapacity c =>
    exact ⟨h.clock, UInt64.le_trans (tokens_setCapacity_le b' c) h.tokens,
      bounded_setCapacity b' c⟩

theorem reconfigured_run {calls : List BucketCall} (hset : ∀ c ∈ calls, c.Sets)
    (hb : b.tokens ≤ b.capacity) : Reconfigured b (Run.final (TokenBucket.body p) b calls) :=
  Run.final_of_along (fun _ _ hc h => reconfigured_body hc h)
    (⟨rfl, UInt64.le_refl _, hb⟩ : Reconfigured b b)
    (Run.along_of_forall (TokenBucket.body p) (fun c hc _ => hset c hc) b)

/-! ## The next refill -/

/-- A refill grants at most what the time since the last one earns at the present rate. -/
theorem tokens_refill_le (h : (b.refill p now : Outcome ε Inner) = .ok g) :
    g.tokens.toNat * nanosPerSec ≤ b.tokens.toNat * nanosPerSec + b.product now := by
  have hr := refilled_of_refill h
  have htok := hr.tokens
  rcases hr.clock with heq | ⟨hlt, heq⟩
  · rw [heq] at htok
    omega
  · have hsum : b.product now + b.lastRefill * b.refillPerSec.toNat =
        now * b.refillPerSec.toNat := by
      unfold product
      rw [← Nat.add_mul, Nat.sub_add_cancel (Nat.le_of_lt hlt)]
    rw [heq] at htok
    omega

theorem tokens_refill_le_capacity (hb : b.tokens ≤ b.capacity)
    (h : (b.refill p now : Outcome ε Inner) = .ok g) : g.tokens.toNat ≤ b.capacity.toNat := by
  have hr := refilled_of_refill h
  have hbounded := hr.bounded hb
  rw [hr.capacity] at hbounded
  exact UInt64.le_iff_toNat_le.mp hbounded

/-- ... and exactly that, rounded down and up to the capacity, where `u64` holds it. -/
theorem tokens_refill_eq (hb : b.tokens ≤ b.capacity)
    (hsmall : b.product now < 2 ^ 64 * nanosPerSec) :
    (b.settled now).tokens.toNat =
      min (b.tokens.toNat + b.product now / nanosPerSec) b.capacity.toNat := by
  have hfits : b.product now < 2 ^ 128 := Nat.lt_of_lt_of_le hsmall (by decide)
  rw [Nat.min_comm]
  exact (tokens_settled_exact_iff hb hfits).mpr (Or.inl hsmall)

theorem settles_of_small (hsmall : b.product now < 2 ^ 64 * nanosPerSec) : b.Settles p now := by
  intro _
  unfold nanosPerSec at hsmall
  omega

/-- `u` nanoseconds at the old rate `r` and `v` at the new one `r'`: a bucket that credited
all of them at the new rate holds no more than one that credited each at its own, when
neither rate nor capacity was raised, or the old capacity `c` was not reached. -/
theorem le_old_bound {k c c' r r' u v n : Nat} (hrate : r' ≤ r) (hold : c' ≤ c ∨ k + r * u ≤ c)
    (hcap : n ≤ c') (hle : n ≤ k + r' * (u + v)) : n ≤ min c' (min c (k + r * u) + r' * v) := by
  have hpast : r' * u ≤ r * u := Nat.mul_le_mul_right u hrate
  rw [Nat.mul_add] at hle
  refine Nat.le_min.mpr ⟨hcap, ?_⟩
  rw [← Nat.add_min_add_right]
  refine Nat.le_min.mpr ⟨?_, by omega⟩
  rcases hold with hshrunk | hroom
  · omega
  · omega

/-- **Elapsed time is credited at the new rate.**  Calls of `set_rate` and `set_capacity` leave
no more tokens than there were, nor more than the new capacity; the next refill credits all
the time since the last one at the rate and under the capacity now in force; the old ones
bound it where neither was raised, or where the old capacity was not reached by the change. -/
theorem elapsed_credited_at_new_rate (p : Profile) (b g : Inner) (calls : List BucketCall)
    (t₂ : Nat) (hset : ∀ c ∈ calls, c.Sets) (hb : b.tokens ≤ b.capacity)
    (h : ((Run.final (TokenBucket.body p) b calls).refill p t₂ : Outcome ε Inner) = .ok g) :
    let b' := Run.final (TokenBucket.body p) b calls
    b'.tokens.toNat ≤ min b.tokens.toNat b'.capacity.toNat ∧
      g.tokens.toNat * nanosPerSec ≤
        min (b'.capacity.toNat * nanosPerSec)
          (min b.tokens.toNat b'.capacity.toNat * nanosPerSec +
            b'.refillPerSec.toNat * (t₂ - b.lastRefill)) ∧
      (b'.refillPerSec.toNat * (t₂ - b.lastRefill) < 2 ^ 64 * nanosPerSec →
        g.tokens.toNat =
          min (b'.tokens.toNat + b'.refillPerSec.toNat * (t₂ - b.lastRefill) / nanosPerSec)
            b'.capacity.toNat) ∧
      ∀ t₁, b.lastRefill ≤ t₁ → t₁ ≤ t₂ → b'.refillPerSec ≤ b.refillPerSec →
        (b'.capacity ≤ b.capacity ∨
          b.tokens.toNat * nanosPerSec + b.refillPerSec.toNat * (t₁ - b.lastRefill) ≤
            b.capacity.toNat * nanosPerSec) →
        g.tokens.toNat * nanosPerSec ≤
          min (b'.capacity.toNat * nanosPerSec)
            (min (b.capacity.toNat * nanosPerSec)
                (b.tokens.toNat * nanosPerSec + b.refillPerSec.toNat * (t₁ - b.lastRefill)) +
              b'.refillPerSec.toNat * (t₂ - t₁)) := by
  intro b'
  have hre : Reconfigured b b' := reconfigured_run hset hb
  have hprod : b'.product t₂ = b'.refillPerSec.toNat * (t₂ - b.lastRefill) := by
    unfold product
    rw [hre.clock, Nat.mul_comm]
  have hle : g.tokens.toNat * nanosPerSec ≤ b'.tokens.toNat * nanosPerSec + b'.product t₂ :=
    tokens_refill_le h
  have hcap : g.tokens.toNat * nanosPerSec ≤ b'.capacity.toNat * nanosPerSec :=
    Nat.mul_le_mul_right _ (tokens_refill_le_capacity hre.bounded h)
  have htok := UInt64.le_iff_toNat_le.mp hre.tokens
  have hleft : b'.tokens.toNat ≤ min b.tokens.toNat b'.capacity.toNat :=
    Nat.le_min.mpr ⟨htok, UInt64.le_iff_toNat_le.mp hre.bounded⟩
  rw [hprod] at hle
  refine ⟨hleft, ?_, fun hsmall => ?_, fun t₁ hlo hhi hrate hold => ?_⟩
  · have hmin := Nat.mul_le_mul_right nanosPerSec hleft
    exact Nat.le_min.mpr ⟨hcap, by omega⟩
  · rw [← hprod] at hsmall ⊢
    have hg : b'.settled t₂ = g := (refill_eq_ok_iff.mp h).2
    rw [← hg]
    exact tokens_refill_eq hre.bounded hsmall
  · have hsum : t₂ - b.lastRefill = t₁ - b.lastRefill + (t₂ - t₁) := by omega
    have htok' := Nat.mul_le_mul_right nanosPerSec htok
    rw [hsum] at hle
    have hold' := hold.imp_left fun hshrunk =>
      Nat.mul_le_mul_right nanosPerSec (UInt64.le_iff_toNat_le.mp hshrunk)
    exact le_old_bound (UInt64.le_iff_toNat_le.mp hrate) hold' hcap (by omega)

/-- A rate lowered from 100 to 10 after a second: the next second pays 10, and so does
the one before. -/
theorem second_before_lowered_rate :
    let b' := Run.final (TokenBucket.body .debug) (⟨1000, 100, 0, 0⟩ : Inner) [.setRate 10]
    UInt64.toNat 20 * nanosPerSec ≤ min (b'.capacity.toNat * nanosPerSec)
      (min (UInt64.toNat 0) b'.capacity.toNat * nanosPerSec +
        b'.refillPerSec.toNat * (2000000000 - 0)) :=
  (elapsed_credited_at_new_rate (ε := Unit) .debug ⟨1000, 100, 0, 0⟩
    ⟨1000, 10, 20, 2000000000⟩ [.setRate 10] 2000000000 (by decide) (by decide)
    (by decide +kernel)).2.1

/-- Ten seconds at one token a second, then the rate is raised to ten: 100 tokens, not 10. -/
theorem raised_rate_is_retroactive :
    ¬ ∀ (p : Profile) (b g : Inner) (calls : List BucketCall) (t₁ t₂ : Nat),
      (∀ c ∈ calls, c.Sets) → b.tokens ≤ b.capacity → b.lastRefill ≤ t₁ → t₁ ≤ t₂ →
      ((Run.final (TokenBucket.body p) b calls).refill p t₂ : Outcome Unit Inner) = .ok g →
        let b' := Run.final (TokenBucket.body p) b calls
        g.tokens.toNat * nanosPerSec ≤
          min (b'.capacity.toNat * nanosPerSec)
            (min (b.capacity.toNat * nanosPerSec)
                (b.tokens.toNat * nanosPerSec + b.refillPerSec.toNat * (t₁ - b.lastRefill)) +
              b'.refillPerSec.toNat * (t₂ - t₁)) := by
  intro h
  have hrefill : ((Run.final (TokenBucket.body .debug) (⟨100, 1, 0, 0⟩ : Inner)
      [.setRate 10]).refill .debug 10000000000 : Outcome Unit Inner) =
        .ok ⟨100, 10, 100, 10000000000⟩ := by
    decide +kernel
  have hle := h .debug ⟨100, 1, 0, 0⟩ ⟨100, 10, 100, 10000000000⟩ [.setRate 10] 10000000000
    10000000000 (by decide) (by decide) (by decide) (by decide) hrefill
  exact absurd hle (by decide +kernel)

/-! ## Two rates at one instant -/

/-- The fixed wait of a bucket that never refills, in nanoseconds. -/
def starvedWait : Nat := 3600 * nanosPerSec

theorem tokens_settled_mono_rate {r₁ r₂ : UInt64} (hb : b.tokens ≤ b.capacity) (hr : r₁ ≤ r₂)
    (hsmall : (b.setRate r₂).product now < 2 ^ 64 * nanosPerSec) :
    (b.setRate r₁).product now < 2 ^ 64 * nanosPerSec ∧
      ((b.setRate r₁).settled now).tokens ≤ ((b.setRate r₂).settled now).tokens := by
  have hle : (b.setRate r₁).product now ≤ (b.setRate r₂).product now :=
    Nat.mul_le_mul_left _ (UInt64.le_iff_toNat_le.mp hr)
  have hdiv : (b.setRate r₁).product now / nanosPerSec ≤
      (b.setRate r₂).product now / nanosPerSec := Nat.div_le_div_right hle
  have hsmall₁ := Nat.lt_of_le_of_lt hle hsmall
  have htok₁ := tokens_refill_eq (b := b.setRate r₁) hb hsmall₁
  have htok₂ := tokens_refill_eq (b := b.setRate r₂) hb hsmall
  refine ⟨hsmall₁, ?_⟩
  rw [UInt64.le_iff_toNat_le, htok₁, htok₂]
  show min (b.tokens.toNat + _) b.capacity.toNat ≤ min (b.tokens.toNat + _) b.capacity.toNat
  omega

/-- More tokens and a higher rate shorten the wait. -/
theorem wait_antitone {g₁ g₂ : Inner} {n : UInt64} (htok : g₁.tokens ≤ g₂.tokens)
    (hn : g₂.tokens < n) (hrate : g₁.refillPerSec ≤ g₂.refillPerSec)
    (hpos : g₁.refillPerSec ≠ 0) : g₂.wait n ≤ g₁.wait n := by
  have hshort : (n - g₂.tokens).toNat ≤ (n - g₁.tokens).toNat := by
    rw [UInt64.toNat_sub_of_le _ _ (UInt64.le_of_lt hn),
      UInt64.toNat_sub_of_le _ _ (UInt64.le_trans htok (UInt64.le_of_lt hn))]
    exact Nat.sub_le_sub_left (UInt64.le_iff_toNat_le.mp htok) _
  have hdiv := Nat.div_le_div (Nat.mul_le_mul_right nanosPerSec hshort)
    (UInt64.le_iff_toNat_le.mp hrate) (Nat.ne_of_gt (rate_pos hpos))
  unfold wait
  omega

/-- **A higher rate throttles no harder**, as long as `u64` holds what it earned: it grants
what the lower rate grants, and it waits no longer unless the lower rate is zero, whose
wait is the fixed hour. -/
theorem higher_rate_no_harder (p : Profile) (b : Inner) (n : UInt64) (now : Nat)
    (r₁ r₂ : UInt64) (hb : b.tokens ≤ b.capacity) (hr : r₁ ≤ r₂)
    (hsmall : (now - b.lastRefill) * r₂.toNat / nanosPerSec < 2 ^ 64) :
    (((b.setRate r₁).tryConsumeAt p n now).1 = .ok () →
        ((b.setRate r₂).tryConsumeAt p n now).1 = .ok ()) ∧
      ∀ d₁, ((b.setRate r₁).tryConsumeAt p n now).1 = .err d₁ →
        ((b.setRate r₂).tryConsumeAt p n now).1 = .ok () ∨
          ∃ d₂, ((b.setRate r₂).tryConsumeAt p n now).1 = .err d₂ ∧
            (d₂ ≤ d₁ ∨ r₁ = 0 ∧ r₂ ≠ 0 ∧ d₁ = starvedWait) := by
  have hsmall₂ : (b.setRate r₂).product now < 2 ^ 64 * nanosPerSec :=
    (Nat.div_lt_iff_lt_mul (by decide)).mp hsmall
  obtain ⟨hsmall₁, htok⟩ := tokens_settled_mono_rate hb hr hsmall₂
  have hs₁ : (b.setRate r₁).Settles p now := settles_of_small hsmall₁
  have hs₂ : (b.setRate r₂).Settles p now := settles_of_small hsmall₂
  have hgrant : n ≤ ((b.setRate r₁).settled now).tokens →
      n ≤ ((b.setRate r₂).settled now).tokens := fun h => UInt64.le_trans h htok
  refine ⟨?_, fun d₁ h => ?_⟩
  · rw [tryConsumeAt_eq_ok_iff, tryConsumeAt_eq_ok_iff]
    exact fun h => ⟨hs₂, hgrant h.2⟩
  · rw [tryConsumeAt_eq n hs₁] at h
    rw [tryConsumeAt_eq n hs₂]
    by_cases hn : n ≤ ((b.setRate r₂).settled now).tokens
    · exact Or.inl (by rw [if_pos hn])
    · rw [if_neg (fun h => hn (hgrant h))] at h
      refine Or.inr ?_
      rw [if_neg hn]
      by_cases hz : r₁ = 0
      · rw [if_pos (show (b.setRate r₁).refillPerSec = 0 from hz)] at h
        cases h
        by_cases hz₂ : (b.setRate r₂).refillPerSec = 0
        · rw [if_pos hz₂]
          exact ⟨_, rfl, Or.inl (Nat.le_refl _)⟩
        · rw [if_neg hz₂]
          exact ⟨_, rfl, Or.inr ⟨hz, hz₂, rfl⟩⟩
      · have hz₂ : ¬ (b.setRate r₂).refillPerSec = 0 := by
          intro h₂
          have hle : r₁ ≤ 0 := (show r₂ = 0 from h₂) ▸ hr
          exact hz (UInt64.le_antisymm hle UInt64.zero_le)
        rw [if_neg (show ¬ (b.setRate r₁).refillPerSec = 0 from hz)] at h
        cases h
        rw [if_neg hz₂]
        refine ⟨_, rfl, Or.inl ?_⟩
        exact wait_antitone htok (UInt64.not_le.mp hn)
          (by rw [settled_refillPerSec, settled_refillPerSec]; exact hr)
          (by rw [settled_refillPerSec]; exact hz)

/-- A drained bucket at two rates that both make the caller wait. -/
theorem higher_rate_no_harder_drained :
    (((⟨10, 0, 0, 0⟩ : Inner).setRate 1000000).tryConsumeAt .debug 100 500000000).1 = .ok () ∨
      ∃ d₂, (((⟨10, 0, 0, 0⟩ : Inner).setRate 1000000).tryConsumeAt .debug 100
          500000000).1 = .err d₂ ∧
        (d₂ ≤ 100000000000 ∨
          (1 : UInt64) = 0 ∧ (1000000 : UInt64) ≠ 0 ∧ 100000000000 = starvedWait) :=
  (higher_rate_no_harder .debug ⟨10, 0, 0, 0⟩ 100 500000000 1 1000000 (by decide) (by decide)
    (by decide)).2 100000000000 (by decide +kernel)

/-- At rate zero the wait for 10000 tokens is the fixed hour; at rate one it is 10000 s. -/
theorem rate_one_waits_longer_than_zero :
    ¬ ∀ (p : Profile) (b : Inner) (n : UInt64) (now : Nat) (r₁ r₂ : UInt64), r₁ ≤ r₂ →
      (((b.setRate r₁).tryConsumeAt p n now).1 = .ok () →
          ((b.setRate r₂).tryConsumeAt p n now).1 = .ok ()) ∧
        ∀ d₁, ((b.setRate r₁).tryConsumeAt p n now).1 = .err d₁ →
          ((b.setRate r₂).tryConsumeAt p n now).1 = .ok () ∨
            ∃ d₂, ((b.setRate r₂).tryConsumeAt p n now).1 = .err d₂ ∧ d₂ ≤ d₁ := by
  intro h
  have hzero : (((⟨10000, 0, 0, 0⟩ : Inner).setRate 0).tryConsumeAt .debug 10000 0).1 =
      .err 3600000000000 := by decide +kernel
  have hone : (((⟨10000, 0, 0, 0⟩ : Inner).setRate 1).tryConsumeAt .debug 10000 0).1 =
      .err 10000000000000 := by decide +kernel
  rcases (h .debug ⟨10000, 0, 0, 0⟩ 10000 0 0 1 (by decide)).2 _ hzero with hok | ⟨d₂, hd₂, hle⟩
  · rw [hone] at hok
    cases hok
  · rw [hone] at hd₂
    cases hd₂
    exact absurd hle (by decide)

end Inner
end HyperPod
