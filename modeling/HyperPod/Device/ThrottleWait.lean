import HyperPod.Device.ThrottleExact
import HyperPod.Lib.Accrual

/-!
# The wait a throttled caller is told

`try_consume` promises the minimum wait after which a retry is granted.  The wait
rounds down and is cut off at `u64::MAX` nanoseconds, so a retry after it finds the
tokens exactly when the time already on the clock makes up for that
(`retry_ok_iff_covered`); and the code does not count that time when it computes the
wait, so a shorter wait can be enough (`earlier_retries_fail_iff_minimal`).
-/

namespace HyperPod

open Machine

namespace Inner

/-- `u64::MAX`, in nanoseconds. -/
def maxWait : Nat := 2 ^ 64 - 1

/-- What `n` is short of after the refill at `now`, in parts of a token. -/
def shortfall (b : Inner) (n : UInt64) (now : Nat) : Nat :=
  (n.toNat - (b.settled now).tokens.toNat) * nanosPerSec

/-- What the refill at `now` leaves on the clock, in parts of a token. -/
def uncredited (b : Inner) (now : Nat) : Nat := if b.earned now = 0 then b.seen now else 0

variable {p : Profile} {b g : Inner} {n : UInt64} {now d : Nat}

theorem wait_eq (hshort : (b.settled now).tokens < n) :
    (b.settled now).wait n = Accrual.wait maxWait (b.shortfall n now) b.refillPerSec.toNat := by
  unfold wait Accrual.wait maxWait shortfall
  rw [UInt64.toNat_sub_of_le _ _ (UInt64.le_of_lt hshort), settled_refillPerSec]

theorem shortfall_pos (hshort : (b.settled now).tokens < n) :
    nanosPerSec ≤ b.shortfall n now := by
  rw [UInt64.lt_iff_toNat_lt] at hshort
  exact Nat.le_mul_of_pos_left nanosPerSec (Nat.sub_pos_of_lt hshort)

theorem shortfall_le (b : Inner) (n : UInt64) (now : Nat) :
    b.shortfall n now ≤ (2 ^ 64 - 1) * nanosPerSec := by
  have hn := n.toNat_lt
  exact Nat.mul_le_mul_right nanosPerSec (by omega)

theorem uncredited_lt_unit (b : Inner) (now : Nat) : b.uncredited now < nanosPerSec := by
  unfold uncredited
  split
  · next h => exact (Nat.div_eq_zero_iff_lt (by decide)).mp h
  · decide

theorem uncredited_stale (h : now ≤ b.lastRefill) : b.uncredited now = 0 := by
  unfold uncredited seen
  rw [product_stale h]
  split <;> rfl

theorem mul_rate_le (r : UInt64) (hd : d ≤ maxWait) :
    d * r.toNat ≤ (2 ^ 64 - 1) * (2 ^ 64 - 1) := by
  have hr := r.toNat_lt
  exact Nat.mul_le_mul hd (by omega)

/-! ## The retry sees the time on the clock and the wait -/

theorem product_settled (hlast : b.lastRefill ≤ now) :
    (b.settled now).product (now + d) =
      (if b.earned now = 0 then b.product now else 0) + d * b.refillPerSec.toNat := by
  by_cases h : b.earned now = 0
  · rw [settled_of_earned_eq_zero h, if_pos h]
    unfold product
    rw [Nat.sub_add_comm hlast, Nat.add_mul]
  · unfold product
    rw [settled_lastRefill_of_earned h, settled_refillPerSec, if_neg h, Nat.add_sub_cancel_left,
      Nat.zero_add]

theorem seen_settled (hlast : b.lastRefill ≤ now) (hd : d ≤ maxWait) :
    (b.settled now).seen (now + d) = b.uncredited now + d * b.refillPerSec.toNat := by
  have hmul := mul_rate_le b.refillPerSec hd
  have hu := uncredited_lt_unit b now
  unfold nanosPerSec at hu
  have hmod : (if b.earned now = 0 then b.product now else 0) % 2 ^ 128 = b.uncredited now := by
    unfold uncredited seen
    split <;> rfl
  have hlt : b.uncredited now + d * b.refillPerSec.toNat < 2 ^ 128 := by omega
  unfold seen
  rw [product_settled hlast, ← Nat.mod_add_mod, hmod, Nat.mod_eq_of_lt hlt]

theorem settles_settled (hs : b.Settles p now) (hlast : b.lastRefill ≤ now) (hd : d ≤ maxWait) :
    (b.settled now).Settles p (now + d) := by
  intro hp
  have hmul := mul_rate_le b.refillPerSec hd
  have hu := uncredited_lt_unit b now
  unfold nanosPerSec at hu
  have heq : (if b.earned now = 0 then b.product now else 0) = b.uncredited now := by
    unfold uncredited seen
    rw [Nat.mod_eq_of_lt (hs hp)]
  rw [product_settled hlast, heq]
  omega

/-- A retry no later than the shortfall takes to earn finds `n` once clock and wait cover it. -/
theorem retry_live_iff (hs : b.Settles p now) (hlast : b.lastRefill ≤ now)
    (hshort : (b.settled now).tokens < n) (hcap : n ≤ b.capacity) (hd : d ≤ maxWait)
    (hmul : d * b.refillPerSec.toNat ≤ b.shortfall n now) :
    ((b.settled now).tryConsumeAt p n (now + d)).1 = .ok () ↔
      b.shortfall n now ≤ b.uncredited now + d * b.refillPerSec.toNat := by
  have hseen : (b.settled now).seen (now + d) < 2 ^ 64 * nanosPerSec := by
    have hu := uncredited_lt_unit b now
    have hN := shortfall_le b n now
    unfold nanosPerSec at hu hN ⊢
    rw [seen_settled hlast hd]
    omega
  rw [retry_eq_ok_iff hshort (by rw [settled_capacity]; exact hcap)
    (settles_settled hs hlast hd) hseen, seen_settled hlast hd]
  rfl

/-- At a stale instant the wait is counted from too early, and the retry comes too early. -/
theorem retry_stale (hlast : now < b.lastRefill) (hrate : b.refillPerSec ≠ 0)
    (hshort : (b.settled now).tokens < n) (hcap : n ≤ b.capacity)
    (hmul : d * b.refillPerSec.toNat ≤ b.shortfall n now) :
    (b.settled now).Settles p (now + d) ∧
      ((b.settled now).tryConsumeAt p n (now + d)).1 ≠ .ok () := by
  have hstale : b.settled now = b := settled_stale (Nat.le_of_lt hlast)
  have hpos := rate_pos hrate
  have hN := shortfall_pos hshort
  have hN' := shortfall_le b n now
  have hlt : b.product (now + d) < b.shortfall n now := by
    unfold product
    cases d with
    | zero =>
      rw [Nat.add_zero, Nat.sub_eq_zero_of_le (Nat.le_of_lt hlast), Nat.zero_mul]
      exact Nat.lt_of_lt_of_le (by decide) hN
    | succ d =>
      have hle : (now + (d + 1) - b.lastRefill) * b.refillPerSec.toNat ≤
          d * b.refillPerSec.toNat := Nat.mul_le_mul_right _ (by omega)
      rw [Nat.succ_mul] at hmul
      omega
  unfold nanosPerSec at hN'
  have hfits : b.product (now + d) < 2 ^ 128 := by omega
  have hseen : b.seen (now + d) = b.product (now + d) := Nat.mod_eq_of_lt hfits
  rw [hstale] at hshort ⊢
  refine ⟨fun _ => hfits, ?_⟩
  rw [Ne, retry_eq_ok_iff hshort hcap (fun _ => hfits)
    (by rw [hseen]; unfold nanosPerSec; omega), hseen]
  unfold shortfall at hlt
  rw [hstale] at hlt
  exact Nat.not_le.mpr hlt

/-! ## Whether the wait suffices -/

/-- **The reported wait suffices** exactly when the instant is not stale and the time on
the clock covers what the wait rounds off. -/
theorem retry_ok_iff_covered (p : Profile) (b g : Inner) (n : UInt64) (now d : Nat)
    (hrate : b.refillPerSec ≠ 0) (hcap : n ≤ b.capacity)
    (h : b.tryConsumeAt p n now = (.err d, g)) :
    (g.tryConsumeAt p n (now + d)).1 = .ok () ↔
      b.lastRefill ≤ now ∧
        Accrual.Covers maxWait (b.shortfall n now) b.refillPerSec.toNat (b.uncredited now) := by
  obtain ⟨hs, rfl, hshort, rfl⟩ := of_tryConsumeAt_eq_err hrate h
  rw [wait_eq hshort]
  by_cases hlast : b.lastRefill ≤ now
  · rw [retry_live_iff hs hlast hshort hcap Accrual.wait_le_cap
      (Accrual.wait_mul_le _ _ _),
      Accrual.wait_covers_iff, and_iff_right hlast]
  · have hfail := (retry_stale (p := p) (Nat.lt_of_not_le hlast) hrate hshort hcap
      (Accrual.wait_mul_le maxWait _ _)).2
    exact ⟨fun hok => absurd hok hfail, fun hlive => absurd hlive.1 hlast⟩

/-- A drained bucket at 100 tokens a second: one token takes 10 ms, with nothing rounded off. -/
theorem retry_ok_after_ten_millis :
    ((⟨10, 100, 0, 0⟩ : Inner).tryConsumeAt .debug 1 (0 + 10000000)).1 = .ok () :=
  (retry_ok_iff_covered .debug ⟨10, 100, 0, 0⟩ ⟨10, 100, 0, 0⟩ 1 0 10000000
    (by decide) (by decide) (by decide +kernel)).mpr (by decide +kernel)

/-- At three tokens a second the wait for one is rounded down to 333333333 ns. -/
theorem retry_fails_after_reported_wait :
    ¬ ∀ (p : Profile) (b g : Inner) (n : UInt64) (now d : Nat), b.refillPerSec ≠ 0 →
      n ≤ b.capacity → b.tryConsumeAt p n now = (.err d, g) →
        (g.tryConsumeAt p n (now + d)).1 = .ok () := by
  intro h
  have hcall : (⟨1, 3, 0, 0⟩ : Inner).tryConsumeAt .debug 1 0 = (.err 333333333, ⟨1, 3, 0, 0⟩) := by
    decide +kernel
  have hretry : ((⟨1, 3, 0, 0⟩ : Inner).tryConsumeAt .debug 1 (0 + 333333333)).1 =
      .err 333333333 := by
    decide +kernel
  have hok := h .debug ⟨1, 3, 0, 0⟩ ⟨1, 3, 0, 0⟩ 1 0 333333333 (by decide) (by decide) hcall
  rw [hretry] at hok
  cases hok

/-! ## Whether it is minimal -/

/-- **The reported wait is minimal** exactly when the time on the clock, one tick before
the wait is over, still leaves some of the shortfall. -/
theorem earlier_retries_fail_iff_minimal (p : Profile) (b g : Inner) (n : UInt64) (now d : Nat)
    (hrate : b.refillPerSec ≠ 0) (hcap : n ≤ b.capacity)
    (h : b.tryConsumeAt p n now = (.err d, g)) :
    (∀ d', d' < d → ∃ e, (g.tryConsumeAt p n (now + d')).1 = .err e) ↔
      Accrual.Minimal maxWait (b.shortfall n now) b.refillPerSec.toNat (b.uncredited now) := by
  obtain ⟨hs, rfl, hshort, rfl⟩ := of_tryConsumeAt_eq_err hrate h
  have hhad : b.uncredited now < b.shortfall n now :=
    Nat.lt_of_lt_of_le (uncredited_lt_unit b now) (shortfall_pos hshort)
  rw [wait_eq hshort, ← Accrual.wait_minimal_iff (by decide) hhad]
  refine forall_congr' fun d' => forall_congr' fun hd' => ?_
  have hle : d' ≤ maxWait := Nat.le_of_lt (Nat.lt_of_lt_of_le hd' Accrual.wait_le_cap)
  have hmul : d' * b.refillPerSec.toNat ≤ b.shortfall n now :=
    Nat.le_trans (Nat.mul_le_mul_right _ (Nat.le_of_lt hd')) (Accrual.wait_mul_le _ _ _)
  by_cases hlast : b.lastRefill ≤ now
  · have hiff := retry_live_iff hs hlast hshort hcap hle hmul
    constructor
    · rintro ⟨e, he⟩
      rw [he] at hiff
      exact Nat.lt_of_not_le fun hN => absurd (hiff.mpr hN) (by simp)
    · intro hlt
      exact exists_err_of_ne_ok (settles_settled hs hlast hle)
        fun hok => Nat.not_lt.mpr (hiff.mp hok) hlt
  · obtain ⟨hs', hfail⟩ := retry_stale (p := p) (Nat.lt_of_not_le hlast) hrate hshort hcap hmul
    refine ⟨fun _ => ?_, fun _ => exists_err_of_ne_ok hs' hfail⟩
    rw [uncredited_stale (Nat.le_of_not_le hlast), Nat.zero_add]
    exact Accrual.lt_of_lt_wait (rate_pos hrate) hd'

/-- The bucket of `retry_ok_after_ten_millis` fails one nanosecond earlier. -/
theorem retry_fails_before_ten_millis :
    ∃ e, ((⟨10, 100, 0, 0⟩ : Inner).tryConsumeAt .debug 1 (0 + 9999999)).1 = .err e :=
  (earlier_retries_fail_iff_minimal .debug ⟨10, 100, 0, 0⟩ ⟨10, 100, 0, 0⟩ 1 0 10000000
    (by decide) (by decide) (by decide +kernel)).mpr (by decide +kernel) 9999999 (by decide)

/-- At one token a second, 900 ms on the clock: the caller is told to wait a second more,
when 100 ms are enough. -/
theorem retry_ok_before_reported_wait :
    ¬ ∀ (p : Profile) (b g : Inner) (n : UInt64) (now d : Nat), b.refillPerSec ≠ 0 →
      n ≤ b.capacity → b.tryConsumeAt p n now = (.err d, g) →
        ∀ d', d' < d → ∃ e, (g.tryConsumeAt p n (now + d')).1 = .err e := by
  intro h
  have hcall : (⟨1, 1, 0, 0⟩ : Inner).tryConsumeAt .debug 1 900000000 =
      (.err 1000000000, ⟨1, 1, 0, 0⟩) := by
    decide +kernel
  have hretry : ((⟨1, 1, 0, 0⟩ : Inner).tryConsumeAt .debug 1 (900000000 + 100000000)).1 =
      .ok () := by
    decide +kernel
  obtain ⟨e, he⟩ := h .debug ⟨1, 1, 0, 0⟩ ⟨1, 1, 0, 0⟩ 1 900000000 1000000000 (by decide)
    (by decide) hcall 100000000 (by decide)
  rw [hretry] at he
  cases he

end Inner
end HyperPod
