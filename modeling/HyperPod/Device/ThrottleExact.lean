import HyperPod.Device.Throttle

/-!
# A refill in closed form

A refill at `now` multiplies the time since the last one by the rate (`product`), of
which `u128` keeps the low bits (`seen`), and credits the whole tokens in them
(`earned`).  It panics only when a debug build multiplies past `u128`
(`refill_eq_ok_iff`).  So it credits no more tokens than the time it moves
`last_refill` over earns, and it stays under the capacity (`Refilled`); it is
exact when `earned as u64` keeps them all, or enough to fill the bucket
(`refill_exact_iff`).

`tryConsumeAt_eq` is the same for a call, and `retry_eq_ok_iff` says when a bucket
that is short of `n` grants it at a later instant.
-/

namespace HyperPod

open Machine

namespace Inner

/-- Elapsed nanoseconds times the rate; a stale instant has no elapsed time. -/
def product (b : Inner) (now : Nat) : Nat := (now - b.lastRefill) * b.refillPerSec.toNat

/-- The product as `u128` keeps it. -/
def seen (b : Inner) (now : Nat) : Nat := b.product now % 2 ^ 128

def earned (b : Inner) (now : Nat) : Nat := b.seen now / nanosPerSec

/-- The state a refill at `now` leaves. -/
def settled (b : Inner) (now : Nat) : Inner :=
  if b.earned now = 0 then b
  else { b with
    tokens := min (saturatingAdd b.tokens (UInt64.ofNat (b.earned now))) b.capacity
    lastRefill := now }

/-- The refill at `now` returns: the multiplication panics in no build but a debug one. -/
def Settles (p : Profile) (b : Inner) (now : Nat) : Prop := p = .debug → b.product now < 2 ^ 128

instance (p : Profile) (b : Inner) (now : Nat) : Decidable (b.Settles p now) :=
  inferInstanceAs (Decidable (p = .debug → b.product now < 2 ^ 128))

variable {ε : Type} {p : Profile} {b g : Inner} {now : Nat}

theorem product_stale (h : now ≤ b.lastRefill) : b.product now = 0 := by
  unfold product
  rw [Nat.sub_eq_zero_of_le h, Nat.zero_mul]

theorem product_mono {s : Nat} (h : s ≤ now) : b.product s ≤ b.product now :=
  Nat.mul_le_mul_right _ (Nat.sub_le_sub_right h _)

theorem settled_stale (h : now ≤ b.lastRefill) : b.settled now = b := by
  unfold settled earned seen
  rw [product_stale h]
  rfl

theorem settles_stale (h : now ≤ b.lastRefill) : b.Settles p now := by
  intro _
  rw [product_stale h]
  decide

@[simp] theorem settled_capacity : (b.settled now).capacity = b.capacity := by
  unfold settled
  split <;> rfl

@[simp] theorem settled_refillPerSec : (b.settled now).refillPerSec = b.refillPerSec := by
  unfold settled
  split <;> rfl

theorem settled_of_earned_eq_zero (h : b.earned now = 0) : b.settled now = b := if_pos h

theorem settled_lastRefill_of_earned (h : b.earned now ≠ 0) :
    (b.settled now).lastRefill = now := by
  unfold settled
  rw [if_neg h]

theorem fit_of_settles (h : b.Settles p now) :
    (fit p 128 (b.product now) : Outcome ε Nat) = .ok (b.seen now) := by
  unfold seen
  cases p with
  | debug =>
    rw [Nat.mod_eq_of_lt (h rfl)]
    exact fit_eq_ok (h rfl)
  | release => exact fit_release _ _

/-- **What a refill does.** -/
theorem refill_eq_settled (h : b.Settles p now) :
    (b.refill p now : Outcome ε Inner) = .ok (b.settled now) := by
  by_cases hstale : now ≤ b.lastRefill
  · rw [refill_stale hstale, settled_stale hstale]
  · rw [refill_eq (Nat.lt_of_not_le hstale) (fit_of_settles h)]
    unfold settled earned
    by_cases hz : b.seen now / nanosPerSec = 0
    · rw [if_pos hz, if_neg (Nat.not_lt.mpr (Nat.le_of_eq hz))]
    · rw [if_neg hz, if_pos (Nat.pos_of_ne_zero hz)]

theorem refill_eq_panic (h : ¬ b.Settles p now) :
    (b.refill p now : Outcome ε Inner) = .panic := by
  unfold Settles at h
  have hp : p = .debug := Decidable.byContradiction fun hp => h fun hd => absurd hd hp
  have hbig : 2 ^ 128 ≤ b.product now := by
    by_cases hlt : b.product now < 2 ^ 128
    · exact absurd (fun _ => hlt) h
    · exact Nat.le_of_not_lt hlt
  have hlive : ¬ now ≤ b.lastRefill := by
    intro hstale
    rw [product_stale hstale] at hbig
    omega
  subst hp
  unfold refill
  rw [if_neg hlive]
  have hfit : (fit .debug 128 ((now - b.lastRefill) * b.refillPerSec.toNat) : Outcome ε Nat) =
      .panic := fit_debug_eq_panic hbig
  simp only [hfit, Outcome.panic_bind]

theorem refill_eq_ok_iff :
    (b.refill p now : Outcome ε Inner) = .ok g ↔ b.Settles p now ∧ b.settled now = g := by
  by_cases h : b.Settles p now
  · rw [refill_eq_settled h]
    simp [h]
  · rw [refill_eq_panic h]
    simp [h]

/-- The tokens a refill leaves: `earned as u64` keeps the low 64 bits. -/
theorem toNat_tokens_settled :
    (b.settled now).tokens.toNat =
      if b.earned now = 0 then b.tokens.toNat
      else min (b.tokens.toNat + b.earned now % 2 ^ 64) b.capacity.toNat := by
  unfold settled
  split
  · rfl
  · have hcap := b.capacity.toNat_lt
    show (min (saturatingAdd b.tokens (UInt64.ofNat (b.earned now))) b.capacity).toNat = _
    rw [toNat_min_u64, toNat_saturatingAdd, UInt64.toNat_ofNat']
    omega

/-- What a refill that returns keeps, and what bounds it. -/
structure Refilled (b : Inner) (now : Nat) (g : Inner) : Prop where
  capacity : g.capacity = b.capacity
  rate : g.refillPerSec = b.refillPerSec
  /-- no more tokens than the time credited earns -/
  tokens : g.tokens.toNat * nanosPerSec + b.lastRefill * b.refillPerSec.toNat ≤
    b.tokens.toNat * nanosPerSec + g.lastRefill * b.refillPerSec.toNat
  bounded : b.tokens ≤ b.capacity → g.tokens ≤ g.capacity
  /-- the clock stays or moves forward to `now` -/
  clock : g.lastRefill = b.lastRefill ∨ b.lastRefill < now ∧ g.lastRefill = now

theorem live_of_earned (h : b.earned now ≠ 0) : b.lastRefill < now := by
  apply Nat.lt_of_not_le
  intro hstale
  refine h ?_
  unfold earned seen
  rw [product_stale hstale]
  rfl

theorem refilled_settled (b : Inner) (now : Nat) : Refilled b now (b.settled now) := by
  by_cases hz : b.earned now = 0
  · rw [settled_of_earned_eq_zero hz]
    exact ⟨rfl, rfl, Nat.le_refl _, fun h => h, Or.inl rfl⟩
  · have hlive := live_of_earned hz
    have htok : (b.settled now).tokens.toNat = _ := toNat_tokens_settled
    rw [if_neg hz] at htok
    have hearned : b.earned now % 2 ^ 64 * nanosPerSec ≤ b.product now := calc
      b.earned now % 2 ^ 64 * nanosPerSec ≤ b.earned now * nanosPerSec :=
        Nat.mul_le_mul_right _ (Nat.mod_le _ _)
      _ ≤ b.seen now := Nat.div_mul_le_self _ _
      _ ≤ b.product now := Nat.mod_le _ _
    have hsum : b.product now + b.lastRefill * b.refillPerSec.toNat =
        now * b.refillPerSec.toNat := by
      unfold product
      rw [← Nat.add_mul, Nat.sub_add_cancel (Nat.le_of_lt hlive)]
    refine ⟨settled_capacity, settled_refillPerSec, ?_, fun _ => ?_,
      Or.inr ⟨hlive, settled_lastRefill_of_earned hz⟩⟩
    · have hmul := Nat.mul_le_mul_right nanosPerSec
        (Nat.min_le_left (b.tokens.toNat + b.earned now % 2 ^ 64) b.capacity.toNat)
      rw [Nat.add_mul] at hmul
      rw [htok, settled_lastRefill_of_earned hz]
      omega
    · rw [UInt64.le_iff_toNat_le, settled_capacity, htok]
      exact Nat.min_le_right _ _

theorem refilled_of_refill (h : (b.refill p now : Outcome ε Inner) = .ok g) :
    Refilled b now g := by
  obtain ⟨-, rfl⟩ := refill_eq_ok_iff.mp h
  exact refilled_settled b now

/-- A refill whose product fits leaves less than one token of time uncredited. -/
theorem product_settled_lt (hfits : b.product now < 2 ^ 128) :
    (b.settled now).product now < nanosPerSec := by
  by_cases hz : b.earned now = 0
  · rw [settled_of_earned_eq_zero hz, ← Nat.mod_eq_of_lt hfits]
    exact (Nat.div_eq_zero_iff_lt (by decide)).mp hz
  · unfold product
    rw [settled_lastRefill_of_earned hz, Nat.sub_self, Nat.zero_mul]
    decide

/-! ## An exact refill -/

theorem earned_of_fits (hfits : b.product now < 2 ^ 128) :
    b.earned now = b.product now / nanosPerSec := by
  unfold earned seen
  rw [Nat.mod_eq_of_lt hfits]

/-- `u64` keeps the tokens earned, or enough of them to fill the bucket. -/
def CreditsEnough (b : Inner) (now : Nat) : Prop :=
  b.product now < 2 ^ 64 * nanosPerSec ∨
    (b.capacity.toNat - b.tokens.toNat) * nanosPerSec ≤ b.product now % (2 ^ 64 * nanosPerSec)

instance (b : Inner) (now : Nat) : Decidable (b.CreditsEnough now) :=
  inferInstanceAs (Decidable (_ ∨ _))

theorem creditsEnough_iff : b.CreditsEnough now ↔
    b.product now / nanosPerSec < 2 ^ 64 ∨
      b.capacity.toNat - b.tokens.toNat ≤ b.product now / nanosPerSec % 2 ^ 64 := by
  have hmod : b.product now % (2 ^ 64 * nanosPerSec) =
      b.product now % nanosPerSec + nanosPerSec * (b.product now / nanosPerSec % 2 ^ 64) := by
    rw [Nat.mul_comm (2 ^ 64), Nat.mod_mul]
  have hrem : b.product now % nanosPerSec < nanosPerSec := Nat.mod_lt _ (by decide)
  unfold CreditsEnough
  rw [hmod, ← Nat.div_lt_iff_lt_mul (by decide)]
  refine or_congr_right ?_
  unfold nanosPerSec at *
  omega

theorem tokens_settled_le_exact (hb : b.tokens ≤ b.capacity) (hfits : b.product now < 2 ^ 128) :
    (b.settled now).tokens.toNat ≤
      min b.capacity.toNat (b.tokens.toNat + b.product now / nanosPerSec) := by
  rw [UInt64.le_iff_toNat_le] at hb
  have hmod := Nat.mod_le (b.product now / nanosPerSec) (2 ^ 64)
  rw [toNat_tokens_settled, earned_of_fits hfits]
  split <;> omega

theorem tokens_settled_exact_iff (hb : b.tokens ≤ b.capacity)
    (hfits : b.product now < 2 ^ 128) :
    (b.settled now).tokens.toNat =
        min b.capacity.toNat (b.tokens.toNat + b.product now / nanosPerSec) ↔
      b.CreditsEnough now := by
  have hcap := b.capacity.toNat_lt
  rw [UInt64.le_iff_toNat_le] at hb
  rw [creditsEnough_iff, toNat_tokens_settled, earned_of_fits hfits]
  generalize b.product now / nanosPerSec = q
  by_cases hz : q = 0
  · rw [if_pos hz]
    exact iff_of_true (by omega) (Or.inl (by omega))
  · rw [if_neg hz]
    by_cases hq : q < 2 ^ 64
    · rw [Nat.mod_eq_of_lt hq]
      exact iff_of_true (Nat.min_comm _ _) (Or.inl hq)
    · -- the exact sum passes the capacity, so the bucket must be full
      have hfull : min b.capacity.toNat (b.tokens.toNat + q) = b.capacity.toNat := by omega
      rw [hfull, or_iff_right hq]
      omega

/-- **A refill in exact arithmetic.**  The bucket holds what it held and every whole token
that the elapsed time earns, up to the capacity, it never loses one, and a refill at no
earlier instant leaves more, exactly when `u64` keeps enough of the tokens earned. -/
theorem refill_exact_iff (p : Profile) (b : Inner) (now : Nat) (hb : b.tokens ≤ b.capacity)
    (helapsed : now - b.lastRefill < 2 ^ 64) :
    (∃ g, (b.refill p now : Outcome ε Inner) = .ok g ∧
      g.tokens.toNat = min b.capacity.toNat
        (b.tokens.toNat + (now - b.lastRefill) * b.refillPerSec.toNat / nanosPerSec) ∧
      b.tokens ≤ g.tokens ∧
      ∀ s ≤ now, ∀ g', (b.refill p s : Outcome ε Inner) = .ok g' → g'.tokens ≤ g.tokens) ↔
    b.CreditsEnough now := by
  have hfits : b.product now < 2 ^ 128 := calc
    b.product now < 2 ^ 64 * 2 ^ 64 :=
      Nat.mul_lt_mul_of_lt_of_le helapsed (Nat.le_of_lt b.refillPerSec.toNat_lt) (by decide)
    _ = 2 ^ 128 := by decide
  have hreturns : (b.refill p now : Outcome ε Inner) = .ok (b.settled now) :=
    refill_eq_settled fun _ => hfits
  refine Iff.trans ?_ (tokens_settled_exact_iff hb hfits)
  constructor
  · rintro ⟨g, hg, hexact, -, -⟩
    rw [hreturns] at hg
    cases hg
    exact hexact
  · intro hexact
    refine ⟨b.settled now, hreturns, hexact, ?_, fun s hs g' hg' => ?_⟩
    · rw [UInt64.le_iff_toNat_le] at hb ⊢
      rw [hexact]
      exact Nat.le_min.mpr ⟨hb, Nat.le_add_right _ _⟩
    · obtain ⟨-, rfl⟩ := refill_eq_ok_iff.mp hg'
      have hprod : b.product s ≤ b.product now := product_mono hs
      have hle := tokens_settled_le_exact hb (Nat.lt_of_le_of_lt hprod hfits)
      have hdiv := Nat.div_le_div_right (c := nanosPerSec) hprod
      rw [UInt64.le_iff_toNat_le, hexact]
      omega

/-- Two seconds at three tokens a second. -/
theorem refill_exact_six :
    ∃ g, ((⟨10, 3, 1, 0⟩ : Inner).refill .debug 2000000000 : Outcome Unit Inner) = .ok g ∧
      g.tokens.toNat = 7 := by
  obtain ⟨g, hg, hexact, -⟩ :=
    (refill_exact_iff (ε := Unit) .debug ⟨10, 3, 1, 0⟩ 2000000000 (by decide) (by decide)).mpr
      (Or.inl (by decide))
  exact ⟨g, hg, hexact⟩

/-- At 2^63 tokens a second the first second fills the bucket, and two seconds earn 2^64
tokens, of which `u64` keeps none. -/
theorem refill_loses_all :
    (∃ g, ((⟨10, 0x8000000000000000, 0, 0⟩ : Inner).refill .debug 1000000000 :
      Outcome Unit Inner) = .ok g ∧ g.tokens = 10) ∧
    (∃ g, ((⟨10, 0x8000000000000000, 0, 0⟩ : Inner).refill .debug 2000000000 :
        Outcome Unit Inner) = .ok g ∧ g.tokens = 0 ∧ g.lastRefill = 2000000000 ∧
      g.tokens.toNat ≠ min (UInt64.toNat 10)
        (UInt64.toNat 0 +
          (2000000000 - 0) * UInt64.toNat 0x8000000000000000 / nanosPerSec)) :=
  ⟨⟨_, refill_eq_settled (by decide), by decide +kernel⟩,
    ⟨_, refill_eq_settled (by decide), by decide +kernel, by decide +kernel, by decide +kernel⟩⟩

/-! ## A call -/

theorem rate_pos (hrate : b.refillPerSec ≠ 0) : 0 < b.refillPerSec.toNat := by
  rw [Nat.pos_iff_ne_zero]
  exact fun h => hrate (UInt64.toNat_inj.mp h)

/-- The wait reported to a caller that is short of `n`. -/
def wait (g : Inner) (n : UInt64) : Nat :=
  min ((n - g.tokens).toNat * nanosPerSec / g.refillPerSec.toNat) (2 ^ 64 - 1)

/-- **What `try_consume_at` does**, after a refill that returned. -/
theorem tryConsumeAt_eq (n : UInt64) (h : b.Settles p now) :
    b.tryConsumeAt p n now =
      if n ≤ (b.settled now).tokens then
        (.ok (), { b.settled now with tokens := (b.settled now).tokens - n })
      else if b.refillPerSec = 0 then (.err (3600 * nanosPerSec), b.settled now)
      else (.err ((b.settled now).wait n), b.settled now) := by
  unfold tryConsumeAt
  rw [refill_eq_settled h]
  simp only [ge_iff_le, settled_refillPerSec, wait]

theorem tryConsumeAt_panic (n : UInt64) (h : ¬ b.Settles p now) :
    b.tryConsumeAt p n now = (.panic, b) := by
  unfold tryConsumeAt
  rw [refill_eq_panic h]

theorem tryConsumeAt_eq_ok_iff (n : UInt64) :
    (b.tryConsumeAt p n now).1 = .ok () ↔ b.Settles p now ∧ n ≤ (b.settled now).tokens := by
  by_cases h : b.Settles p now
  · rw [tryConsumeAt_eq n h]
    by_cases hn : n ≤ (b.settled now).tokens
    · simp [h, hn]
    · by_cases hr : b.refillPerSec = 0 <;> simp [hn, hr]
  · rw [tryConsumeAt_panic n h]
    simp [h]

/-- A call that asks for nothing is a refill. -/
theorem tryConsumeAt_zero (h : b.Settles p now) :
    b.tryConsumeAt p 0 now = (.ok (), b.settled now) := by
  rw [tryConsumeAt_eq 0 h, if_pos UInt64.zero_le, UInt64.sub_zero]

/-- A call panics and changes nothing, or it refills and then grants `n` or nothing. -/
theorem tryConsumeAt_cases (p : Profile) (b : Inner) (n : UInt64) (now : Nat) :
    ((b.refill p now : Outcome Nat Inner) = .panic ∧ b.tryConsumeAt p n now = (.panic, b)) ∨
    ∃ g, (b.refill p now : Outcome Nat Inner) = .ok g ∧
      (n ≤ g.tokens ∧ b.tryConsumeAt p n now = (.ok (), { g with tokens := g.tokens - n }) ∨
        g.tokens < n ∧ ∃ d, b.tryConsumeAt p n now = (.err d, g)) := by
  by_cases hs : b.Settles p now
  · refine Or.inr ⟨b.settled now, refill_eq_settled hs, ?_⟩
    rw [tryConsumeAt_eq n hs]
    by_cases hn : n ≤ (b.settled now).tokens
    · exact Or.inl ⟨hn, if_pos hn⟩
    · refine Or.inr ⟨UInt64.not_le.mp hn, ?_⟩
      rw [if_neg hn]
      split
      · exact ⟨_, rfl⟩
      · exact ⟨_, rfl⟩
  · exact Or.inl ⟨refill_eq_panic hs, tryConsumeAt_panic n hs⟩

/-- Everything known of a call that reported a wait. -/
theorem of_tryConsumeAt_eq_err {n : UInt64} {d : Nat} (hrate : b.refillPerSec ≠ 0)
    (h : b.tryConsumeAt p n now = (.err d, g)) :
    b.Settles p now ∧ g = b.settled now ∧ g.tokens < n ∧ d = g.wait n := by
  by_cases hs : b.Settles p now
  · rw [tryConsumeAt_eq n hs] at h
    by_cases hn : n ≤ (b.settled now).tokens
    · rw [if_pos hn] at h
      cases h
    · rw [if_neg hn, if_neg hrate] at h
      cases h
      exact ⟨hs, rfl, UInt64.not_le.mp hn, rfl⟩
  · rw [tryConsumeAt_panic n hs] at h
    cases h

/-! ## A retry -/

/-- A bucket short of `n ≤ capacity` grants it once the shortfall is seen. -/
theorem retry_eq_ok_iff {n : UInt64} (hshort : g.tokens < n) (hcap : n ≤ g.capacity)
    (hs : g.Settles p now) (hseen : g.seen now < 2 ^ 64 * nanosPerSec) :
    (g.tryConsumeAt p n now).1 = .ok () ↔
      (n.toNat - g.tokens.toNat) * nanosPerSec ≤ g.seen now := by
  rw [UInt64.lt_iff_toNat_lt] at hshort
  rw [UInt64.le_iff_toNat_le] at hcap
  have hn := n.toNat_lt
  have hearned : g.earned now < 2 ^ 64 := by
    unfold earned
    exact Nat.div_lt_of_lt_mul (by rw [Nat.mul_comm]; exact hseen)
  have hwhole : n.toNat - g.tokens.toNat ≤ g.earned now ↔
      (n.toNat - g.tokens.toNat) * nanosPerSec ≤ g.seen now := by
    unfold earned
    exact Nat.le_div_iff_mul_le (by decide)
  rw [tryConsumeAt_eq_ok_iff, and_iff_right hs, UInt64.le_iff_toNat_le,
    toNat_tokens_settled, Nat.mod_eq_of_lt hearned, ← hwhole]
  split <;> omega

/-- A call that has no token to give and does not panic reports a wait. -/
theorem exists_err_of_ne_ok {n : UInt64} (hs : b.Settles p now)
    (h : (b.tryConsumeAt p n now).1 ≠ .ok ()) : ∃ d, (b.tryConsumeAt p n now).1 = .err d := by
  rw [Ne, tryConsumeAt_eq_ok_iff, not_and] at h
  rw [tryConsumeAt_eq n hs, if_neg (h hs)]
  split
  · exact ⟨_, rfl⟩
  · exact ⟨_, rfl⟩

end Inner
end HyperPod
