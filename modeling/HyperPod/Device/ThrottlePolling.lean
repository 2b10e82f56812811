import HyperPod.Device.ThrottleExact
import HyperPod.Lib.Accrual
import HyperPod.Lib.Run

/-!
# Polling a bucket between two instants

A refill that earns a token moves `last_refill` and drops the part of a token that
is left over; one that earns none keeps it.  So what a bucket holds at `t` depends on
when it was refilled before.  `dropped` adds up the remainders from the instants and the
rate alone.  While no cast cuts anything off, polls at `ts` cost nothing exactly when these
remainders fit into the one that a single refill at `t` leaves, or the bucket is full in
spite of them (`polls_cost_nothing_iff`).
-/

namespace HyperPod

open Machine

namespace Inner

/-- Refills at the instants of `ts`, one after the other. -/
def refills {ε : Type} (p : Profile) (b : Inner) : List Nat → Outcome ε Inner
  | [] => .ok b
  | s :: ts => do
    let g ← b.refill p s
    g.refills p ts

/-- What refills at the instants of `ts` leave, where they return. -/
def polled (b : Inner) (ts : List Nat) : Inner := ts.foldl settled b

/-- What refills at the instants of `ts` drop, in parts of a token: each of those that earn
one the remainder of the parts that came since the last of them. -/
def dropped (b : Inner) (ts : List Nat) : Nat :=
  Accrual.dropped nanosPerSec b.refillPerSec.toNat b.lastRefill ts

variable {ε : Type} {p : Profile} {b : Inner} {t : Nat} {ts : List Nat}

@[simp] theorem polled_nil : b.polled [] = b := rfl

@[simp] theorem polled_cons (s : Nat) : b.polled (s :: ts) = (b.settled s).polled ts := rfl

theorem polled_append_single : b.polled (ts ++ [t]) = (b.polled ts).settled t := by
  unfold polled
  rw [List.foldl_append]
  rfl

/-! ## The polls return -/

/-- A refill before `t` brings the next product down. -/
theorem product_settled_le (s : Nat) : (b.settled s).product t ≤ b.product t := by
  by_cases h : b.earned s = 0
  · rw [settled_of_earned_eq_zero h]
  · unfold product
    rw [settled_refillPerSec, settled_lastRefill_of_earned h]
    exact Nat.mul_le_mul_right _ (Nat.sub_le_sub_left (Nat.le_of_lt (live_of_earned h)) t)

theorem Settles.mono {s : Nat} (h : b.Settles p t) (hle : s ≤ t) : b.Settles p s :=
  fun hp => Nat.lt_of_le_of_lt (product_mono hle) (h hp)

theorem Settles.settled (h : b.Settles p t) (s : Nat) : (b.settled s).Settles p t :=
  fun hp => Nat.lt_of_le_of_lt (product_settled_le s) (h hp)

theorem Settles.polled (h : b.Settles p t) (ts : List Nat) : (b.polled ts).Settles p t := by
  induction ts generalizing b with
  | nil => exact h
  | cons s ts ih => exact ih (h.settled s)

theorem refills_eq_polled (h : b.Settles p t) (hts : ∀ s ∈ ts, s ≤ t) :
    (b.refills p ts : Outcome ε Inner) = .ok (b.polled ts) := by
  induction ts generalizing b with
  | nil => rfl
  | cons s ts ih =>
    rw [List.forall_mem_cons] at hts
    rw [refills, refill_eq_settled (h.mono hts.1), Outcome.ok_bind, polled_cons]
    exact ih (h.settled s) hts.2

/-- Calls that ask for nothing are refills. -/
theorem final_tryConsumeAt_zero (h : b.Settles p t) (hts : ∀ s ∈ ts, s ≤ t) :
    Run.final (fun b s => b.tryConsumeAt p 0 s) b ts = b.polled ts := by
  induction ts generalizing b with
  | nil => rfl
  | cons s ts ih =>
    rw [List.forall_mem_cons] at hts
    rw [Run.final_cons, tryConsumeAt_zero (h.mono hts.1), polled_cons]
    exact ih (h.settled s) hts.2

/-! ## What the polls credit -/

/-- However it is polled, the bucket holds what was credited, up to its capacity. -/
theorem toNat_tokens_polled (hb : b.tokens ≤ b.capacity)
    (hkept : b.product t < 2 ^ 64 * nanosPerSec) (hts : ∀ s ∈ ts, s ≤ t) :
    (b.polled ts).tokens.toNat =
      min (b.tokens.toNat + Accrual.credited nanosPerSec b.refillPerSec.toNat b.lastRefill ts)
        b.capacity.toNat := by
  induction ts generalizing b with
  | nil =>
    rw [UInt64.le_iff_toNat_le] at hb
    rw [polled_nil, Accrual.credited, Nat.add_zero, Nat.min_eq_left hb]
  | cons s ts ih =>
    rw [List.forall_mem_cons] at hts
    have hs : b.product s < 2 ^ 64 * nanosPerSec := Nat.lt_of_le_of_lt (product_mono hts.1) hkept
    have hearned : b.earned s = b.product s / nanosPerSec :=
      earned_of_fits (Nat.lt_of_lt_of_le hs (by decide))
    have hzero : b.earned s = 0 ↔ (s - b.lastRefill) * b.refillPerSec.toNat < nanosPerSec := by
      rw [hearned]
      exact Nat.div_eq_zero_iff_lt (by decide)
    rw [polled_cons, ih ((refilled_settled b s).bounded hb)
      (Nat.lt_of_le_of_lt (product_settled_le s) hkept) hts.2, toNat_tokens_settled,
      settled_capacity, settled_refillPerSec, Accrual.credited]
    by_cases h : b.earned s = 0
    · rw [if_pos h, if_pos (hzero.mp h), settled_of_earned_eq_zero h]
    · have hlt : b.product s / nanosPerSec < 2 ^ 64 := (Nat.div_lt_iff_lt_mul (by decide)).mpr hs
      rw [if_neg h, if_neg fun hlt => h (hzero.mpr hlt), settled_lastRefill_of_earned h, hearned,
        Nat.mod_eq_of_lt hlt]
      unfold product
      omega

/-! ## Whether polling is free -/

/-- At `t` no cast cuts anything off, and what polls at `ts` drop fits into the remainder of a
single refill, or the bucket is full in spite of it. -/
def FreePolls (b : Inner) (ts : List Nat) (t : Nat) : Prop :=
  b.product t < 2 ^ 64 * nanosPerSec ∧
    (b.dropped ts ≤ b.product t % nanosPerSec ∨
      (b.capacity.toNat - b.tokens.toNat) * nanosPerSec + b.dropped ts ≤ b.product t)

instance : Decidable (b.FreePolls ts t) :=
  inferInstanceAs (Decidable (_ ∧ _))

/-- Polls that come before a token is there, or on a whole number of tokens, are free. -/
theorem freePolls_of_whole (hkept : b.product t < 2 ^ 64 * nanosPerSec)
    (h : ∀ s ∈ ts, b.product s < nanosPerSec ∨ nanosPerSec ∣ b.product s) : b.FreePolls ts t := by
  have hzero : b.dropped ts = 0 := Accrual.dropped_eq_zero (by decide) h
  exact ⟨hkept, Or.inl (by rw [hzero]; exact Nat.zero_le _)⟩

theorem forall_mem_append_self (hts : ∀ s ∈ ts, s ≤ t) : ∀ s ∈ ts ++ [t], s ≤ t := by
  rw [List.forall_mem_append, List.forall_mem_singleton]
  exact ⟨hts, Nat.le_refl t⟩

theorem tokens_eq_iff_free (hb : b.tokens ≤ b.capacity)
    (hkept : b.product t < 2 ^ 64 * nanosPerSec) (hts : ∀ s ∈ ts, s ≤ t) :
    ((b.polled ts).settled t).tokens = (b.settled t).tokens ↔ b.FreePolls ts t := by
  have hpolled := toNat_tokens_polled hb hkept (forall_mem_append_self hts)
  have hsingle := toNat_tokens_polled hb hkept (List.forall_mem_singleton.mpr (Nat.le_refl t))
  rw [polled_append_single] at hpolled
  rw [polled_cons, polled_nil] at hsingle
  rw [← UInt64.toNat_inj, hpolled, hsingle, Accrual.min_credited_eq_iff (by decide) hts]
  exact (and_iff_right hkept).symm

/-- The same count of tokens at `t` is the same answer to every request. -/
theorem tokens_eq_iff_answers (hs : b.Settles p t) (hts : ∀ s ∈ ts, s ≤ t) :
    (∀ n, ((Run.final (fun b s => b.tryConsumeAt p 0 s) b ts).tryConsumeAt p n t).1 = .ok () ↔
        (b.tryConsumeAt p n t).1 = .ok ()) ↔
      ((b.polled ts).settled t).tokens = (b.settled t).tokens := by
  rw [final_tryConsumeAt_zero hs hts]
  simp only [tryConsumeAt_eq_ok_iff, hs, hs.polled ts, true_and]
  constructor
  · intro h
    exact UInt64.le_antisymm ((h _).mp (UInt64.le_refl _)) ((h _).mpr (UInt64.le_refl _))
  · intro h n
    rw [h]

/-- **Polling is free** under `FreePolls`: refills at `ts` and then at `t` leave the tokens that
one refill at `t` does, and calls at `ts` that ask for nothing leave the answer to every
request.  Where no cast cuts anything off at `t`, either of the two needs it, and it holds when
each poll comes before a token is there or on a whole number of tokens. -/
theorem polls_cost_nothing_iff (p : Profile) (b : Inner) (ts : List Nat) (t : Nat)
    (hb : b.tokens ≤ b.capacity) (hts : ∀ s ∈ ts, s ≤ t) :
    let sameTokens := ∃ g g', (b.refills p (ts ++ [t]) : Outcome ε Inner) = .ok g ∧
      (b.refill p t : Outcome ε Inner) = .ok g' ∧ g.tokens = g'.tokens
    let sameAnswers := ∀ n,
      ((Run.final (fun b s => b.tryConsumeAt p 0 s) b ts).tryConsumeAt p n t).1 = .ok () ↔
        (b.tryConsumeAt p n t).1 = .ok ()
    (b.FreePolls ts t → sameTokens ∧ sameAnswers) ∧
      (b.product t < 2 ^ 64 * nanosPerSec → sameTokens ∨ sameAnswers → b.FreePolls ts t) ∧
      (b.product t < 2 ^ 64 * nanosPerSec →
        (∀ s ∈ ts, b.product s < nanosPerSec ∨ nanosPerSec ∣ b.product s) → b.FreePolls ts t) := by
  intro sameTokens sameAnswers
  have hsame (hkept : b.product t < 2 ^ 64 * nanosPerSec) :
      (sameTokens ↔ b.FreePolls ts t) ∧ (sameAnswers ↔ b.FreePolls ts t) := by
    have hs : b.Settles p t := fun _ => Nat.lt_of_lt_of_le hkept (by decide)
    have hfree := tokens_eq_iff_free hb hkept hts
    refine ⟨Iff.trans ?_ hfree, (tokens_eq_iff_answers hs hts).trans hfree⟩
    show (∃ g g', _) ↔ _
    rw [refills_eq_polled hs (forall_mem_append_self hts), polled_append_single,
      refill_eq_settled hs]
    simp
  refine ⟨?_, ?_, freePolls_of_whole⟩
  · intro h
    exact ⟨(hsame h.1).1.mpr h, (hsame h.1).2.mpr h⟩
  · rintro hkept (h | h)
    · exact (hsame hkept).1.mp h
    · exact (hsame hkept).2.mp h

/-- A burst of 100 is spent and earned back at 10 a second: the poll at 0.15 s drops half a
token, and the refill at 1.08 s leaves four fifths of one in any case. -/
theorem early_poll_costs_nothing :
    ∃ g g', ((⟨100, 10, 0, 0⟩ : Inner).refills .debug ([150000000] ++ [1080000000]) :
        Outcome Unit Inner) = .ok g ∧
      ((⟨100, 10, 0, 0⟩ : Inner).refill .debug 1080000000 : Outcome Unit Inner) = .ok g' ∧
      g.tokens = g'.tokens := by
  have hfree : (⟨100, 10, 0, 0⟩ : Inner).FreePolls [150000000] 1080000000 := by decide +kernel
  exact ((polls_cost_nothing_iff .debug ⟨100, 10, 0, 0⟩ [150000000] 1080000000 (by decide)
    (by decide)).1 hfree).1

/-- Three tokens a second: a poll at half a second drops half a token, and two are left
at the end of the second. -/
theorem poll_at_half_a_second_costs_a_token :
    ¬ ∀ (p : Profile) (b : Inner) (ts : List Nat) (t : Nat), b.tokens ≤ b.capacity →
      (ts ++ [t]).Pairwise (· ≤ ·) →
        ∃ g g', (b.refills p (ts ++ [t]) : Outcome Unit Inner) = .ok g ∧
          (b.refill p t : Outcome Unit Inner) = .ok g' ∧ g.tokens = g'.tokens := by
  intro h
  obtain ⟨g, g', hg, hg', heq⟩ :=
    h .debug ⟨10, 3, 0, 0⟩ [500000000] 1000000000 (by decide) (by decide)
  have hpolled : ((⟨10, 3, 0, 0⟩ : Inner).refills .debug ([500000000] ++ [1000000000]) :
      Outcome Unit Inner) = .ok ⟨10, 3, 2, 1000000000⟩ := by decide +kernel
  have hsingle : ((⟨10, 3, 0, 0⟩ : Inner).refill .debug 1000000000 : Outcome Unit Inner) =
      .ok ⟨10, 3, 3, 1000000000⟩ := by decide +kernel
  rw [hpolled] at hg
  rw [hsingle] at hg'
  cases hg
  cases hg'
  cases heq

end Inner
end HyperPod
