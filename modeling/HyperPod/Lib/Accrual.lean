/-!
# Units that accrue at a rate, and the time to wait for them

Time times rate is counted in parts, `unit` parts to one unit.  A caller that is
short of `N` parts and told to come back after `N / rate`, or after `cap` if that is
less, finds them earned unless the division dropped more than was there already
(`wait_covers_iff`); and it could have come back earlier only if the dropped
remainder and one tick were there already (`wait_minimal_iff`).

Polls credit whole units.  One that credits a unit starts to count afresh and drops what is
left over; so after all polls the whole units of what accrued, less the remainders dropped on
the way, have been credited (`credited_append_single`), and up to a bound the polls cost
nothing exactly when those remainders go into the one that is left at the end anyway, or the
bound is reached in spite of them (`min_credited_eq_iff`).
-/

namespace Accrual

/-! ## Waiting -/

section wait

variable {N rate had cap : Nat}

/-- The wait for `N` parts: rounded down, and cut off at `cap`. -/
def wait (cap N rate : Nat) : Nat := min (N / rate) cap

theorem wait_mul_le (cap N rate : Nat) : wait cap N rate * rate ≤ N :=
  Nat.le_trans (Nat.mul_le_mul_right rate (Nat.min_le_left _ _)) (Nat.div_mul_le_self N rate)

theorem lt_of_lt_wait {d : Nat} (hrate : 0 < rate) (hd : d < wait cap N rate) : d * rate < N :=
  Nat.lt_of_lt_of_le (Nat.mul_lt_mul_of_pos_right hd hrate) (wait_mul_le cap N rate)

theorem wait_le_cap : wait cap N rate ≤ cap := Nat.min_le_right _ _

/-- With `had` parts there at the start, what the wait must earn is there at its end. -/
def Covers (cap N rate had : Nat) : Prop :=
  if N / rate ≤ cap then N % rate ≤ had else N ≤ had + cap * rate

instance : Decidable (Covers cap N rate had) :=
  inferInstanceAs (Decidable (if N / rate ≤ cap then N % rate ≤ had else N ≤ had + cap * rate))

theorem wait_covers_iff : N ≤ had + wait cap N rate * rate ↔ Covers cap N rate had := by
  unfold Covers wait
  split
  · next h =>
    rw [Nat.min_eq_left h]
    have hdm : rate * (N / rate) + N % rate = N := Nat.div_add_mod N rate
    rw [Nat.mul_comm (N / rate) rate]
    omega
  · next h => rw [Nat.min_eq_right (by omega)]

/-- The parts are not there one tick before the wait is over. -/
def Minimal (cap N rate had : Nat) : Prop :=
  if N / rate ≤ cap then had < N % rate + rate else had + (cap - 1) * rate < N

instance : Decidable (Minimal cap N rate had) :=
  inferInstanceAs (Decidable
    (if N / rate ≤ cap then had < N % rate + rate else had + (cap - 1) * rate < N))

theorem wait_minimal_iff (hcap : 0 < cap) (hhad : had < N) :
    (∀ d, d < wait cap N rate → had + d * rate < N) ↔ Minimal cap N rate had := by
  -- it is enough to look at the last tick before the wait is over
  have hlast : (∀ d, d < wait cap N rate → had + d * rate < N) ↔
      (0 < wait cap N rate → had + (wait cap N rate - 1) * rate < N) := by
    constructor
    · intro h hpos
      exact h _ (Nat.sub_lt hpos Nat.one_pos)
    · intro h d hd
      have hle : d * rate ≤ (wait cap N rate - 1) * rate :=
        Nat.mul_le_mul_right rate (Nat.le_sub_one_of_lt hd)
      have hlt := h (Nat.zero_lt_of_lt hd)
      omega
  have hdm : rate * (N / rate) + N % rate = N := Nat.div_add_mod N rate
  rw [hlast]
  unfold Minimal wait
  split
  · next h =>
    rw [Nat.min_eq_left h]
    generalize N / rate = q at *
    cases q with
    | zero =>
      have hmod : N % rate = N := by omega
      rw [hmod]
      omega
    | succ q =>
      have hmul : rate * (q + 1) = q * rate + rate := by rw [Nat.mul_comm, Nat.succ_mul]
      rw [Nat.add_sub_cancel]
      omega
  · next h =>
    rw [Nat.min_eq_right (Nat.le_of_not_le h)]
    exact ⟨fun hmin => hmin hcap, fun hmin _ => hmin⟩

end wait

/-! ## Polling -/

section polling

variable {unit rate last t : Nat} {ts : List Nat}

/-- The units that polls at `ts` credit, when the parts are counted from `last`. -/
def credited (unit rate : Nat) : Nat → List Nat → Nat
  | _, [] => 0
  | last, s :: ts =>
    if (s - last) * rate < unit then credited unit rate last ts
    else (s - last) * rate / unit + credited unit rate s ts

/-- The remainders that they drop. -/
def dropped (unit rate : Nat) : Nat → List Nat → Nat
  | _, [] => 0
  | last, s :: ts =>
    if (s - last) * rate < unit then dropped unit rate last ts
    else (s - last) * rate % unit + dropped unit rate s ts

theorem credited_single : credited unit rate last [t] = (t - last) * rate / unit := by
  unfold credited
  split
  · next h => rw [Nat.div_eq_of_lt h, credited]
  · rfl

theorem sub_mul_add_sub_mul (rate : Nat) {s : Nat} (hlo : last ≤ s) (hhi : s ≤ t) :
    (s - last) * rate + (t - s) * rate = (t - last) * rate := by
  rw [← Nat.add_mul, Nat.add_comm, Nat.sub_add_sub_cancel hhi hlo]

/-- A poll that credits a unit comes after the counting began. -/
theorem le_of_not_lt_unit {s : Nat} (hunit : 0 < unit) (h : ¬ (s - last) * rate < unit) :
    last ≤ s := by
  apply Nat.le_of_not_lt
  intro hlt
  rw [Nat.sub_eq_zero_of_le (Nat.le_of_lt hlt), Nat.zero_mul] at h
  exact h hunit

theorem dropped_le (hunit : 0 < unit) (hts : ∀ s ∈ ts, s ≤ t) :
    dropped unit rate last ts ≤ (t - last) * rate := by
  induction ts generalizing last with
  | nil => exact Nat.zero_le _
  | cons s ts ih =>
    rw [List.forall_mem_cons] at hts
    rw [dropped]
    split
    · exact ih hts.2
    · next h =>
      have hsum := sub_mul_add_sub_mul rate (le_of_not_lt_unit hunit h) hts.1
      have hmod := Nat.mod_le ((s - last) * rate) unit
      have hrest : dropped unit rate s ts ≤ (t - s) * rate := ih hts.2
      omega

/-- Polls that come before a unit is there, or on a whole number of units, drop nothing. -/
theorem dropped_eq_zero (hunit : 0 < unit)
    (h : ∀ s ∈ ts, (s - last) * rate < unit ∨ unit ∣ (s - last) * rate) :
    dropped unit rate last ts = 0 := by
  induction ts generalizing last with
  | nil => rfl
  | cons s ts ih =>
    rw [List.forall_mem_cons] at h
    rw [dropped]
    split
    · exact ih h.2
    · next hge =>
      have hwhole : unit ∣ (s - last) * rate := h.1.resolve_left hge
      have hlast := le_of_not_lt_unit hunit hge
      -- counted from `s` on, the later polls come early or on a whole number as before
      have hlater : ∀ s' ∈ ts, (s' - s) * rate < unit ∨ unit ∣ (s' - s) * rate := by
        intro s' hs'
        rcases Nat.le_total s' s with hle | hle
        · rw [Nat.sub_eq_zero_of_le hle, Nat.zero_mul]
          exact Or.inl hunit
        · have hsum := sub_mul_add_sub_mul rate hlast hle
          rcases h.2 s' hs' with hlt | hdvd
          · omega
          · rw [← hsum] at hdvd
            exact Or.inr ((Nat.dvd_add_right hwhole).mp hdvd)
      rw [Nat.mod_eq_zero_of_dvd hwhole, ih hlater]

/-- **What polls credit** by the time `t` of the last one. -/
theorem credited_append_single (hunit : 0 < unit) (hts : ∀ s ∈ ts, s ≤ t) :
    credited unit rate last (ts ++ [t]) =
      ((t - last) * rate - dropped unit rate last ts) / unit := by
  induction ts generalizing last with
  | nil => exact credited_single
  | cons s ts ih =>
    rw [List.forall_mem_cons] at hts
    rw [List.cons_append, credited, dropped]
    split
    · exact ih hts.2
    · next h =>
      have hsum := sub_mul_add_sub_mul rate (le_of_not_lt_unit hunit h) hts.1
      have hrest : dropped unit rate s ts ≤ (t - s) * rate := dropped_le hunit hts.2
      have hdm := Nat.mod_add_div ((s - last) * rate) unit
      have hparts : (t - last) * rate - ((s - last) * rate % unit + dropped unit rate s ts) =
          (t - s) * rate - dropped unit rate s ts + unit * ((s - last) * rate / unit) := by
        omega
      rw [ih hts.2, hparts, Nat.add_mul_div_left _ _ hunit, Nat.add_comm]

/-- Up to the bound `c`, dropping `d` of `x` parts leaves the number of units as it is. -/
theorem min_div_eq_iff {k c x d : Nat} (hunit : 0 < unit) (hd : d ≤ x) :
    min (k + (x - d) / unit) c = min (k + x / unit) c ↔
      d ≤ x % unit ∨ (c - k) * unit + d ≤ x := by
  have hle : (x - d) / unit ≤ x / unit := Nat.div_le_div_right (Nat.sub_le x d)
  have hdm := Nat.mod_add_div x unit
  have hsame : x / unit ≤ (x - d) / unit ↔ d ≤ x % unit := by
    rw [Nat.le_div_iff_mul_le hunit, Nat.mul_comm (x / unit)]
    omega
  have hfull : c - k ≤ (x - d) / unit ↔ (c - k) * unit + d ≤ x := by
    rw [Nat.le_div_iff_mul_le hunit]
    omega
  rw [← hsame, ← hfull]
  clear hsame hfull hdm
  generalize x / unit = a at *
  generalize (x - d) / unit = b at *
  omega

theorem min_credited_eq_iff {k c : Nat} (hunit : 0 < unit) (hts : ∀ s ∈ ts, s ≤ t) :
    min (k + credited unit rate last (ts ++ [t])) c = min (k + credited unit rate last [t]) c ↔
      dropped unit rate last ts ≤ (t - last) * rate % unit ∨
        (c - k) * unit + dropped unit rate last ts ≤ (t - last) * rate := by
  rw [credited_append_single hunit hts, credited_single]
  exact min_div_eq_iff hunit (dropped_le hunit hts)

end polling
end Accrual
