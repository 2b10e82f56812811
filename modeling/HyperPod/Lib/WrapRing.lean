import Mathlib.Data.Nat.ModEq
import Mathlib.Logic.Function.Basic

/-!
# A ring of slots under counters that wrap

A producer and a consumer count entries; entry `k` sits in slot `k % n` and both
counters are kept modulo `W`.  When `n` divides `W` the slot of a counter is the slot
of its value modulo `W` (`slot_of_wrapped`), and as long as at most `n < W` entries
are pending, equal counters mean that nothing is (`wrapped_eq_iff`).

`Pending` says that the slots hold the log from the consumer's counter to the
producer's; filling a free slot and taking the first entry keep it.
-/

namespace WrapRing

variable {W n lo hi : Nat}

/-- A wrapped counter selects the slot of the counter. -/
theorem slot_of_wrapped (h : n ∣ W) (k : Nat) : k % W % n = k % n :=
  Nat.mod_mod_of_dvd k h

theorem wrapped_eq_iff (hle : lo ≤ hi) (hlt : hi - lo < W) : lo % W = hi % W ↔ lo = hi := by
  constructor
  · intro h
    have hdvd : W ∣ hi - lo := (Nat.modEq_iff_dvd' hle).mp h
    have hzero := Nat.eq_zero_of_dvd_of_lt hdvd hlt
    omega
  · intro h
    rw [h]

/-- Two pending entries share no slot. -/
theorem slot_ne (hlt : lo < hi) (hn : hi < lo + n) : lo % n ≠ hi % n := by
  intro h
  have heq := (wrapped_eq_iff (Nat.le_of_lt hlt) (by omega)).mp h
  omega

variable {α : Type*} {base : Nat} {log : List α} {slot : Nat → α}

/-- The slots hold `log` from entry `lo` on; entry `k` of the log has the counter `base + k`. -/
structure Pending (n base lo : Nat) (log : List α) (slot : Nat → α) : Prop where
  le : lo ≤ log.length
  room : log.length ≤ lo + n
  stored : ∀ k, lo ≤ k → k < log.length → log[k]? = some (slot ((base + k) % n))

theorem pending_refl (slot : Nat → α) : Pending n base 0 [] slot :=
  ⟨Nat.le_refl _, Nat.zero_le _, fun _ _ h => absurd h (Nat.not_lt_zero _)⟩

/-- The slot after the last entry is free: what it holds does not matter. -/
theorem Pending.fill (h : Pending n base lo log slot) (hroom : log.length < lo + n)
    {slot' : Nat → α} (hslot : ∀ i, i < n → i ≠ (base + log.length) % n → slot' i = slot i) :
    Pending n base lo log slot' := by
  refine ⟨h.le, h.room, ?_⟩
  intro k hlo hk
  have hn : 0 < n := by
    have := h.le
    omega
  have hne : (base + k) % n ≠ (base + log.length) % n := slot_ne (by omega) (by omega)
  rw [h.stored k hlo hk, hslot _ (Nat.mod_lt _ hn) hne]

/-- Publishing what the free slot holds. -/
theorem Pending.push (h : Pending n base lo log slot) (hroom : log.length < lo + n) {a : α}
    (ha : slot ((base + log.length) % n) = a) : Pending n base lo (log ++ [a]) slot := by
  have hle := h.le
  refine ⟨by rw [List.length_append]; omega, by rw [List.length_append]; exact hroom, ?_⟩
  intro k hlo hk
  rw [List.length_append, List.length_singleton] at hk
  rcases Nat.lt_or_ge k log.length with hlt | hge
  · rw [List.getElem?_append_left hlt]
    exact h.stored k hlo hlt
  · have hk' : k = log.length := by omega
    subst hk'
    rw [List.getElem?_concat_length, ha]

/-- The consumer's slot holds the first entry. -/
theorem Pending.head (h : Pending n base lo log slot) (hlt : lo < log.length) :
    log[lo]? = some (slot ((base + lo) % n)) :=
  h.stored lo (Nat.le_refl _) hlt

theorem Pending.pop (h : Pending n base lo log slot) (hlt : lo < log.length) :
    Pending n base (lo + 1) log slot :=
  ⟨hlt, by have := h.room; omega, fun k hlo hk => h.stored k (by omega) hk⟩

end WrapRing
