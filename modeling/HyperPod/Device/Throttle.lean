import HyperPod.Lib.Outcome

/-!
# The token bucket: `device/throttle.rs`

Amounts and rates are `u64`; an instant is a number of nanoseconds.  `Inner` is the
state a `TokenBucket` keeps behind its lock, and `TokenBucket.step` one call on the
bucket.

`refill_stale` and `refill_eq` are the two branches of a refill.
-/

namespace HyperPod

open Machine

def nanosPerSec : Nat := 1000000000

/-- `u64::saturating_add` -/
def saturatingAdd (a b : UInt64) : UInt64 :=
  UInt64.ofNat (min (a.toNat + b.toNat) (2 ^ 64 - 1))

theorem toNat_saturatingAdd (a b : UInt64) :
    (saturatingAdd a b).toNat = min (a.toNat + b.toNat) (2 ^ 64 - 1) := by
  unfold saturatingAdd
  rw [UInt64.toNat_ofNat']
  exact Nat.mod_eq_of_lt (by omega)

/-- The state behind the lock of a `TokenBucket`. -/
structure Inner where
  capacity : UInt64
  refillPerSec : UInt64
  tokens : UInt64
  lastRefill : Nat
deriving Repr, DecidableEq

namespace Inner

def setRate (b : Inner) (refillPerSec : UInt64) : Inner := { b with refillPerSec := refillPerSec }

def setCapacity (b : Inner) (capacity : UInt64) : Inner :=
  { b with
    capacity := capacity
    tokens := if b.tokens > capacity then capacity else b.tokens }

variable {ε : Type}

def refill (p : Profile) (b : Inner) (now : Nat) : Outcome ε Inner :=
  if now ≤ b.lastRefill then .ok b
  else do
    let nanos := now - b.lastRefill
    let product ← fit p 128 (nanos * b.refillPerSec.toNat)
    let earned := product / nanosPerSec
    if earned > 0 then
      return { b with
        -- `earned as u64` keeps the low 64 bits
        tokens := min (saturatingAdd b.tokens (UInt64.ofNat earned)) b.capacity
        lastRefill := now }
    else return b

/-- The body of `try_consume_at`; the error is the wait in nanoseconds. -/
def tryConsumeAt (p : Profile) (b : Inner) (n : UInt64) (now : Nat) : Outcome Nat Unit × Inner :=
  match (b.refill p now : Outcome Nat Inner) with
  | .ok g =>
    if g.tokens ≥ n then (.ok (), { g with tokens := g.tokens - n })
    else if g.refillPerSec = 0 then (.err (3600 * nanosPerSec), g)
    else
      let needed := n - g.tokens
      let nanos := needed.toNat * nanosPerSec / g.refillPerSec.toNat
      (.err (min nanos (2 ^ 64 - 1)), g)
  | .err d => (.err d, b)
  | .panic => (.panic, b)

end Inner

/-- A call on the bucket. -/
inductive BucketCall where
  | tryConsumeAt (n : UInt64) (now : Nat)
  | setRate (refillPerSec : UInt64)
  | setCapacity (capacity : UInt64)
deriving Repr, DecidableEq

/-- A mutex around `Inner`: a call that panics inside poisons it. -/
structure TokenBucket where
  inner : Inner
  poisoned : Bool
deriving Repr, DecidableEq

namespace TokenBucket

/-- `TokenBucket::new` at the instant `now`. -/
def new (capacity refillPerSec : UInt64) (now : Nat) : TokenBucket :=
  ⟨⟨capacity, refillPerSec, capacity, now⟩, false⟩

/-- A call that has the lock. -/
def body (p : Profile) (b : Inner) : BucketCall → Outcome Nat Unit × Inner
  | .tryConsumeAt n now => b.tryConsumeAt p n now
  | .setRate r => (.ok (), b.setRate r)
  | .setCapacity c => (.ok (), b.setCapacity c)

/-- One call: `lock().unwrap()` panics on a poisoned lock. -/
def step (p : Profile) (t : TokenBucket) (call : BucketCall) : Outcome Nat Unit × TokenBucket :=
  if t.poisoned then (.panic, t)
  else
    let r := body p t.inner call
    (r.1, ⟨r.2, r.1 = .panic⟩)

end TokenBucket

namespace Inner

/-! ## What a refill does -/

variable {ε : Type} {p : Profile} {b : Inner} {now : Nat}

theorem refill_stale (h : now ≤ b.lastRefill) : (b.refill p now : Outcome ε Inner) = .ok b :=
  if_pos h

/-- The refill, on the product the profile computed. -/
theorem refill_eq {product : Nat} (h : b.lastRefill < now)
    (hfit : (fit p 128 ((now - b.lastRefill) * b.refillPerSec.toNat) : Outcome ε Nat) =
      .ok product) :
    (b.refill p now : Outcome ε Inner) =
      .ok (if product / nanosPerSec > 0 then
        { b with
          tokens := min (saturatingAdd b.tokens (UInt64.ofNat (product / nanosPerSec))) b.capacity
          lastRefill := now }
        else b) := by
  unfold refill
  rw [if_neg (by omega)]
  simp only [hfit, Outcome.ok_bind, Outcome.pure_eq]
  split <;> rfl

theorem toNat_min_u64 (a b : UInt64) : (min a b).toNat = min a.toNat b.toNat := by
  have h : min a b = if a ≤ b then a else b := rfl
  rw [h]
  split
  · next hab => exact (Nat.min_eq_left hab).symm
  · next hab => exact (Nat.min_eq_right (Nat.le_of_not_le hab)).symm

/-! ## A new capacity -/

theorem tokens_setCapacity_le (b : Inner) (c : UInt64) : (b.setCapacity c).tokens ≤ b.tokens := by
  show (if b.tokens > c then c else b.tokens) ≤ b.tokens
  split
  · next hgt => exact UInt64.le_of_lt hgt
  · exact UInt64.le_refl _

theorem bounded_setCapacity (b : Inner) (c : UInt64) :
    (b.setCapacity c).tokens ≤ (b.setCapacity c).capacity := by
  show (if b.tokens > c then c else b.tokens) ≤ c
  split
  · exact UInt64.le_refl c
  · next hgt => exact UInt64.not_lt.mp hgt

end Inner
end HyperPod
