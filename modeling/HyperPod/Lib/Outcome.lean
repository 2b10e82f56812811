import Mathlib.Algebra.Group.Nat.Defs

/-!
# What a call gives back, and fixed-width arithmetic under two build profiles

A call returns a value (`ok`), returns an error (`err`) or panics (`panic`).
An unsigned result that does not fit its type panics in a `debug` build and is
reduced modulo `2 ^ w` in a `release` build; `fit` and `subFit` are the two ways
a result is produced, and the `_eq_ok` lemmas say that a result that fits is
exact in both.

`Act σ α` is a call on mutable state `σ`.  Unlike in a transaction, the state
stays as the call left it when the call fails.
-/

namespace Machine

inductive Outcome (ε α : Type) where
  | ok (a : α)
  | err (e : ε)
  | panic
deriving Repr, DecidableEq

/-- An error with the contexts wrapped around it; `host` is one the operating
system reports. -/
inductive Error where
  | host
  | msg (text : String)
  | context (text : String) (cause : Error)
deriving Repr, DecidableEq

abbrev Result (α : Type) := Outcome Error α

namespace Outcome

variable {ε α β : Type}

def bind (x : Outcome ε α) (f : α → Outcome ε β) : Outcome ε β :=
  match x with
  | ok a => f a
  | err e => err e
  | panic => panic

instance : Monad (Outcome ε) where
  pure := ok
  bind := bind

@[simp] theorem pure_eq (a : α) : (pure a : Outcome ε α) = ok a := rfl
@[simp] theorem ok_bind (a : α) (f : α → Outcome ε β) : (ok a >>= f) = f a := rfl
@[simp] theorem err_bind (e : ε) (f : α → Outcome ε β) : (err e >>= f) = err e := rfl
@[simp] theorem panic_bind (f : α → Outcome ε β) : ((panic : Outcome ε α) >>= f) = panic := rfl

theorem bind_eq_ok {x : Outcome ε α} {f : α → Outcome ε β} {b : β} :
    (x >>= f) = ok b ↔ ∃ a, x = ok a ∧ f a = ok b := by
  cases x <;> simp

theorem bind_ne_panic {x : Outcome ε α} {f : α → Outcome ε β} (hx : x ≠ panic)
    (hf : ∀ a, x = ok a → f a ≠ panic) : (x >>= f) ≠ panic := by
  cases x with
  | ok a => exact hf a rfl
  | err e => simp
  | panic => exact absurd rfl hx

def map (g : α → β) : Outcome ε α → Outcome ε β
  | ok a => ok (g a)
  | err e => err e
  | panic => panic

@[simp] theorem map_ok (g : α → β) (a : α) : (ok a : Outcome ε α).map g = ok (g a) := rfl
@[simp] theorem map_err (g : α → β) (e : ε) : (err e : Outcome ε α).map g = err e := rfl

theorem map_eq_ok {g : α → β} {x : Outcome ε α} {b : β} :
    x.map g = ok b ↔ ∃ a, x = ok a ∧ g a = b := by
  cases x <;> simp [map]

@[simp] theorem map_eq_err {g : α → β} {x : Outcome ε α} {e : ε} :
    x.map g = err e ↔ x = err e := by
  cases x <;> simp [map]

@[simp] theorem map_eq_panic {g : α → β} {x : Outcome ε α} : x.map g = panic ↔ x = panic := by
  cases x <;> simp [map]

/-- The value of a call that returned one. -/
def toOption : Outcome ε α → Option α
  | ok a => some a
  | _ => none

@[simp] theorem toOption_ok (a : α) : (ok a : Outcome ε α).toOption = some a := rfl
@[simp] theorem toOption_err (e : ε) : (err e : Outcome ε α).toOption = none := rfl
@[simp] theorem toOption_panic : (panic : Outcome ε α).toOption = none := rfl

theorem toOption_eq_some {x : Outcome ε α} {a : α} : x.toOption = some a ↔ x = .ok a := by
  cases x with
  | ok b => simp
  | err e => simp
  | panic => simp

theorem err_of_toOption_eq_none {x : Outcome ε α} (h : x.toOption = none) (hp : x ≠ .panic) :
    ∃ e, x = .err e := by
  cases x with
  | ok a => cases h
  | err e => exact ⟨e, rfl⟩
  | panic => exact absurd rfl hp

end Outcome

/-- `.with_context(..)`: the error is wrapped, a value or a panic passes through. -/
def withContext {α : Type} (text : String) : Result α → Result α
  | .err e => .err (.context text e)
  | r => r

@[simp] theorem withContext_ok {α : Type} (text : String) (a : α) :
    withContext text (.ok a) = .ok a := rfl

@[simp] theorem withContext_err {α : Type} (text : String) (e : Error) :
    withContext text (.err e : Result α) = .err (.context text e) := rfl

@[simp] theorem withContext_eq_ok {α : Type} {text : String} {r : Result α} {a : α} :
    withContext text r = .ok a ↔ r = .ok a := by
  cases r <;> simp [withContext]

@[simp] theorem withContext_eq_panic {α : Type} {text : String} {r : Result α} :
    withContext text r = .panic ↔ r = .panic := by
  cases r <;> simp [withContext]

/-! ## Calls on mutable state -/

structure Act (σ α : Type) where
  run : σ → Result α × σ

namespace Act

variable {σ α β : Type}

def bind (x : Act σ α) (f : α → Act σ β) : Act σ β where
  run s := match x.run s with
    | (.ok a, s') => (f a).run s'
    | (.err e, s') => (.err e, s')
    | (.panic, s') => (.panic, s')

instance : Monad (Act σ) where
  pure a := ⟨fun s => (.ok a, s)⟩
  bind := bind

def get : Act σ σ := ⟨fun s => (.ok s, s)⟩

def set (s : σ) : Act σ Unit := ⟨fun _ => (.ok (), s)⟩

/-- A computation that does not touch the state. -/
def lift (r : Result α) : Act σ α := ⟨fun s => (r, s)⟩

def bail (text : String) : Act σ α := lift (.err (.msg text))

/-- `.context(..)` on a call. -/
def context (text : String) (x : Act σ α) : Act σ α where
  run s := (withContext text (x.run s).1, (x.run s).2)

@[simp] theorem run_pure (a : α) (s : σ) : (pure a : Act σ α).run s = (.ok a, s) := rfl
@[simp] theorem run_get (s : σ) : (get : Act σ σ).run s = (.ok s, s) := rfl
@[simp] theorem run_set (t s : σ) : (set t).run s = (.ok (), t) := rfl
@[simp] theorem run_lift (r : Result α) (s : σ) : (lift r).run s = (r, s) := rfl
@[simp] theorem run_bail (text : String) (s : σ) :
    (bail text : Act σ α).run s = (.err (.msg text), s) := rfl
@[simp] theorem run_context (text : String) (x : Act σ α) (s : σ) :
    (context text x).run s = (withContext text (x.run s).1, (x.run s).2) := rfl

theorem run_bind (x : Act σ α) (f : α → Act σ β) (s : σ) :
    (x >>= f).run s = match x.run s with
      | (.ok a, s') => (f a).run s'
      | (.err e, s') => (.err e, s')
      | (.panic, s') => (.panic, s') := rfl

theorem run_bind_ok {x : Act σ α} {f : α → Act σ β} {s s' : σ} {a : α}
    (h : x.run s = (.ok a, s')) : (x >>= f).run s = (f a).run s' := by
  rw [run_bind, h]

/-- A sequence returned: so did its first part. -/
theorem run_bind_eq_ok {x : Act σ α} {f : α → Act σ β} {s t : σ} {b : β} :
    (x >>= f).run s = (.ok b, t) ↔
      ∃ a s', x.run s = (.ok a, s') ∧ (f a).run s' = (.ok b, t) := by
  rw [run_bind]
  constructor
  · intro h
    rcases hx : x.run s with ⟨r, s'⟩
    rw [hx] at h
    cases r with
    | ok a => exact ⟨a, s', rfl, h⟩
    | err e => cases h
    | panic => cases h
  · rintro ⟨a, s', hx, hf⟩
    rw [hx]
    exact hf

theorem run_lift_bind_eq_ok {r : Result α} {f : α → Act σ β} {s t : σ} {b : β} :
    (lift r >>= f).run s = (.ok b, t) ↔ ∃ a, r = .ok a ∧ (f a).run s = (.ok b, t) := by
  rw [run_bind_eq_ok]
  constructor
  · rintro ⟨a, s', h, hf⟩
    obtain ⟨hr, rfl⟩ := Prod.mk.inj h
    exact ⟨a, hr, hf⟩
  · rintro ⟨a, rfl, hf⟩
    exact ⟨a, s, rfl, hf⟩

/-- A call that returned passed its checks. -/
theorem run_ite_bail_eq_ok {γ : Type} {c : Prop} [Decidable c] {text : String} {f : γ → Act σ β}
    {x : Act σ β} {s t : σ} {b : β} :
    (if c then (bail text : Act σ γ) >>= f else x).run s = (.ok b, t) ↔
      ¬ c ∧ x.run s = (.ok b, t) := by
  by_cases h : c
  · rw [if_pos h]
    constructor
    · intro heq
      cases heq
    · rintro ⟨hn, -⟩
      exact absurd h hn
  · rw [if_neg h]
    constructor
    · intro hx
      exact ⟨h, hx⟩
    · rintro ⟨-, hx⟩
      exact hx

/-- A pure step after a call. -/
theorem run_bind_pure (x : Act σ α) (g : α → β) (s : σ) :
    (x >>= fun a => pure (g a)).run s = ((x.run s).1.map g, (x.run s).2) := by
  rw [run_bind]
  split <;> simp_all [Outcome.map]

@[simp] theorem run_pure_bind (a : α) (f : α → Act σ β) (s : σ) :
    ((pure a : Act σ α) >>= f).run s = (f a).run s := rfl

@[simp] theorem run_get_bind (f : σ → Act σ β) (s : σ) :
    ((get : Act σ σ) >>= f).run s = (f s).run s := rfl

@[simp] theorem run_set_bind (t : σ) (f : Unit → Act σ β) (s : σ) :
    (set t >>= f).run s = (f ()).run t := rfl

@[simp] theorem run_bail_bind (text : String) (f : α → Act σ β) (s : σ) :
    ((bail text : Act σ α) >>= f).run s = (.err (.msg text), s) := rfl

@[simp] theorem run_lift_ok_bind (a : α) (f : α → Act σ β) (s : σ) :
    (lift (.ok a) >>= f).run s = (f a).run s := rfl

@[simp] theorem run_lift_err_bind (e : Error) (f : α → Act σ β) (s : σ) :
    ((lift (.err e) : Act σ α) >>= f).run s = (.err e, s) := rfl

@[simp] theorem run_lift_panic_bind (f : α → Act σ β) (s : σ) :
    ((lift .panic : Act σ α) >>= f).run s = (.panic, s) := rfl

end Act

/-! ## Fixed-width results -/

inductive Profile where
  | debug
  | release
deriving Repr, DecidableEq

variable {ε : Type}

/-- The exact result `n` of an addition or a multiplication, kept in `w` bits. -/
def fit (p : Profile) (w n : Nat) : Outcome ε Nat :=
  if n < 2 ^ w then .ok n
  else match p with
    | .debug => .panic
    | .release => .ok (n % 2 ^ w)

/-- `a - b` in `w` bits. -/
def subFit (p : Profile) (w a b : Nat) : Outcome ε Nat :=
  if b ≤ a then .ok (a - b)
  else match p with
    | .debug => .panic
    | .release => .ok ((2 ^ w + a - b) % 2 ^ w)

theorem fit_eq_ok {p : Profile} {w n : Nat} (h : n < 2 ^ w) : (fit p w n : Outcome ε Nat) = .ok n :=
  if_pos h

theorem fit_debug_eq_panic {w n : Nat} (h : 2 ^ w ≤ n) :
    (fit .debug w n : Outcome ε Nat) = .panic :=
  if_neg (Nat.not_lt.mpr h)

theorem subFit_eq_ok {p : Profile} {w a b : Nat} (h : b ≤ a) :
    (subFit p w a b : Outcome ε Nat) = .ok (a - b) :=
  if_pos h

theorem fit_release (w n : Nat) : (fit .release w n : Outcome ε Nat) = .ok (n % 2 ^ w) := by
  unfold fit
  split
  · next h => rw [Nat.mod_eq_of_lt h]
  · rfl

/-- A release build has a result always, a debug build when it fits. -/
theorem exists_fit_eq_ok {p : Profile} {w n : Nat} (h : p = .debug → n < 2 ^ w) :
    ∃ m, (fit p w n : Outcome ε Nat) = .ok m := by
  cases p with
  | debug => exact ⟨n, fit_eq_ok (h rfl)⟩
  | release => exact ⟨_, fit_release w n⟩

/-- A result that was produced is the exact one modulo the width, in both profiles. -/
theorem eq_mod_of_fit_eq_ok {p : Profile} {w n m : Nat} (h : (fit p w n : Outcome ε Nat) = .ok m) :
    m = n % 2 ^ w := by
  unfold fit at h
  split at h
  · next hn => rw [Nat.mod_eq_of_lt hn]; simpa using h.symm
  · cases p <;> simp_all

end Machine
