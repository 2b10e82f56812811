import HyperPod.Lib.Outcome

/-!
# Calls that follow a protocol

`Logged κ α` is a computation that logs the calls it makes to its host, the newest first,
each with whether it was served.  A resource is released at the end of its scope, however
the scope ends (`holding`), or only when the scope does not return (`orRelease`).

A `Protocol` follows the log: `allowed` says which calls may be made in a state, `effect`
what a served call does to the state.  `Keeps P m x post` says that from state `m` on `x`
makes no call that is not allowed and ends in `post`, whether it returns, fails or panics;
there is one rule for each way to build `x`.
-/

namespace Machine

/-- The value is there. -/
def Outcome.isOk {ε α : Type} (r : Outcome ε α) : Bool := r.toOption.isSome

/-- The calls made, and whether they were served. -/
abbrev Log (κ : Type) := List (κ × Bool)

abbrev Logged (κ α : Type) := Act (Log κ) α

namespace Logged

variable {κ α : Type}

/-- A call, and the host's answer to it. -/
def call (c : κ) (answer : Result α) : Logged κ α where
  run log := (answer, (c, answer.isOk) :: log)

/-- A call that the host always serves. -/
def emit (c : κ) : Logged κ Unit := call c (.ok ())

/-- The rest of a scope that releases what it holds at its end. -/
def holding (release : κ) (body : Logged κ α) : Logged κ α where
  run log := ((body.run log).1, (release, true) :: (body.run log).2)

/-- The rest of a scope that passes on what it holds when it returns, and releases it
otherwise. -/
def orRelease (release : κ) (body : Logged κ α) : Logged κ α where
  run log := match body.run log with
    | (.ok a, log') => (.ok a, log')
    | (r, log') => (r, (release, true) :: log')

/-- The error of `x` as a value; a panic is none. -/
def attempt (x : Logged κ α) : Logged κ (Result α) where
  run log := match x.run log with
    | (.panic, log') => (.panic, log')
    | (r, log') => (.ok r, log')

end Logged

structure Protocol (κ μ : Type) where
  start : μ
  allowed : μ → κ → Prop
  effect : μ → κ → μ

namespace Protocol

variable {κ μ α β : Type} (P : Protocol κ μ)

/-- The state a log leads to. -/
def state : Log κ → μ
  | [] => P.start
  | (c, served) :: log => if served then P.effect (state log) c else state log

/-- Every call of the log was allowed when it was made. -/
def Follows : Log κ → Prop
  | [] => True
  | (c, _) :: log => P.allowed (P.state log) c ∧ Follows log

/-- A call of such a log was allowed in some state. -/
theorem Follows.allowed_of_mem {P : Protocol κ μ} {log : Log κ} (h : P.Follows log) {c : κ}
    {served : Bool} (hc : (c, served) ∈ log) : ∃ m, P.allowed m c := by
  induction log with
  | nil => cases hc
  | cons head log ih =>
    rcases List.mem_cons.mp hc with rfl | hc
    · exact ⟨_, h.1⟩
    · exact ih h.2 hc

/-- From state `m` on, `x` makes only calls that are allowed, and `post` holds of what it
gives back and of the state it leaves. -/
def Keeps (m : μ) (x : Logged κ α) (post : Result α → μ → Prop) : Prop :=
  ∀ log, P.Follows log → P.state log = m →
    P.Follows (x.run log).2 ∧ post (x.run log).1 (P.state (x.run log).2)

variable {P} {m : μ} {post : Result α → μ → Prop}

/-- The whole run of a program that starts with nothing logged. -/
theorem Keeps.follows {x : Logged κ α} (h : P.Keeps P.start x post) :
    P.Follows (x.run []).2 ∧ post (x.run []).1 (P.state (x.run []).2) :=
  h [] trivial rfl

theorem Keeps.mono {x : Logged κ α} {post' : Result α → μ → Prop} (h : P.Keeps m x post)
    (himp : ∀ r m', post r m' → post' r m') : P.Keeps m x post' := by
  intro log hlog hm
  obtain ⟨hlog', hpost⟩ := h log hlog hm
  exact ⟨hlog', himp _ _ hpost⟩

theorem keeps_pure {a : α} (h : post (.ok a) m) : P.Keeps m (pure a) post := by
  intro log hlog hm
  subst hm
  exact ⟨hlog, h⟩

theorem keeps_lift {r : Result α} (h : post r m) : P.Keeps m (Act.lift r) post := by
  intro log hlog hm
  subst hm
  exact ⟨hlog, h⟩

theorem keeps_call {c : κ} {r : Result α} (hallowed : P.allowed m c)
    (hok : ∀ a, r = .ok a → post (.ok a) (P.effect m c)) (herr : ∀ e, r = .err e → post (.err e) m)
    (hpanic : r = .panic → post .panic m) : P.Keeps m (Logged.call c r) post := by
  intro log hlog hm
  subst hm
  refine ⟨⟨hallowed, hlog⟩, ?_⟩
  cases r with
  | ok a => exact hok a rfl
  | err e => exact herr e rfl
  | panic => exact hpanic rfl

theorem keeps_emit {c : κ} {post : Result Unit → μ → Prop} (hallowed : P.allowed m c)
    (h : post (.ok ()) (P.effect m c)) : P.Keeps m (Logged.emit c) post :=
  keeps_call hallowed (fun _ _ => h) nofun nofun

theorem Keeps.bind {x : Logged κ α} {f : α → Logged κ β} {post' : Result β → μ → Prop}
    (hx : P.Keeps m x post) (hok : ∀ a m', post (.ok a) m' → P.Keeps m' (f a) post')
    (herr : ∀ e m', post (.err e) m' → post' (.err e) m')
    (hpanic : ∀ m', post .panic m' → post' .panic m') : P.Keeps m (x >>= f) post' := by
  intro log hlog hm
  obtain ⟨hlog', hpost⟩ := hx log hlog hm
  rw [Act.run_bind]
  rcases hrun : x.run log with ⟨r, log'⟩
  rw [hrun] at hlog' hpost
  cases r with
  | ok a => exact hok a _ hpost log' hlog' rfl
  | err e => exact ⟨hlog', herr e _ hpost⟩
  | panic => exact ⟨hlog', hpanic _ hpost⟩

/-- What holds at every end of both parts holds at every end of the whole. -/
theorem Keeps.bind_invariant {x : Logged κ α} {f : α → Logged κ β} {I : μ → Prop}
    (hx : P.Keeps m x fun _ => I) (hf : ∀ a m', I m' → P.Keeps m' (f a) fun _ => I) :
    P.Keeps m (x >>= f) fun _ => I :=
  hx.bind hf (fun _ _ h => h) fun _ h => h

theorem keeps_lift_bind {r : Result α} {f : α → Logged κ β} {post : Result β → μ → Prop}
    (hok : ∀ a, r = .ok a → P.Keeps m (f a) post) (herr : ∀ e, r = .err e → post (.err e) m)
    (hpanic : r = .panic → post .panic m) : P.Keeps m (Act.lift r >>= f) post := by
  have hlift : P.Keeps m (Act.lift r) fun r' m' => r' = r ∧ m' = m := keeps_lift ⟨rfl, rfl⟩
  refine hlift.bind ?_ ?_ ?_
  · rintro a m' ⟨ha, rfl⟩
    exact hok a ha.symm
  · rintro e m' ⟨he, rfl⟩
    exact herr e he.symm
  · rintro m' ⟨hp, rfl⟩
    exact hpanic hp.symm

theorem keeps_call_bind {c : κ} {r : Result α} {f : α → Logged κ β} {post : Result β → μ → Prop}
    (hallowed : P.allowed m c) (hok : ∀ a, r = .ok a → P.Keeps (P.effect m c) (f a) post)
    (herr : ∀ e, r = .err e → post (.err e) m) (hpanic : r = .panic → post .panic m) :
    P.Keeps m (Logged.call c r >>= f) post := by
  have hcall : P.Keeps m (Logged.call c r) fun r' m' =>
      r' = r ∧ m' = if r.isOk then P.effect m c else m := by
    refine keeps_call hallowed ?_ ?_ ?_
    · rintro a rfl
      exact ⟨rfl, rfl⟩
    · rintro e rfl
      exact ⟨rfl, rfl⟩
    · rintro rfl
      exact ⟨rfl, rfl⟩
  refine hcall.bind ?_ ?_ ?_
  · rintro a m' ⟨rfl, rfl⟩
    exact hok a rfl
  · rintro e m' ⟨rfl, rfl⟩
    exact herr e rfl
  · rintro m' ⟨rfl, rfl⟩
    exact hpanic rfl

theorem keeps_emit_bind {c : κ} {f : Unit → Logged κ β} {post : Result β → μ → Prop}
    (hallowed : P.allowed m c) (h : P.Keeps (P.effect m c) (f ()) post) :
    P.Keeps m (Logged.emit c >>= f) post :=
  keeps_call_bind hallowed (fun _ _ => h) nofun nofun

/-- The release is the last call of its scope, and every end of the scope must allow it. -/
theorem keeps_holding {release : κ} {body : Logged κ α}
    (h : P.Keeps m body fun r m' => P.allowed m' release ∧ post r (P.effect m' release)) :
    P.Keeps m (Logged.holding release body) post := by
  intro log hlog hm
  obtain ⟨hlog', hallowed, hpost⟩ := h log hlog hm
  exact ⟨⟨hallowed, hlog'⟩, hpost⟩

theorem keeps_orRelease {release : κ} {body : Logged κ α}
    (h : P.Keeps m body fun r m' =>
      if r.isOk then post r m' else P.allowed m' release ∧ post r (P.effect m' release)) :
    P.Keeps m (Logged.orRelease release body) post := by
  intro log hlog hm
  obtain ⟨hlog', hpost⟩ := h log hlog hm
  unfold Logged.orRelease
  dsimp only
  rcases hrun : body.run log with ⟨r, log'⟩
  rw [hrun] at hlog' hpost
  cases r with
  | ok a => exact ⟨hlog', hpost⟩
  | err e => exact ⟨⟨hpost.1, hlog'⟩, hpost.2⟩
  | panic => exact ⟨⟨hpost.1, hlog'⟩, hpost.2⟩

/-- What follows an attempt gets a value or an error. -/
theorem keeps_attempt_bind {x : Logged κ α} {f : Result α → Logged κ β}
    {post' : Result β → μ → Prop} (hx : P.Keeps m x post)
    (hf : ∀ r m', r ≠ .panic → post r m' → P.Keeps m' (f r) post')
    (hpanic : ∀ m', post .panic m' → post' .panic m') :
    P.Keeps m (Logged.attempt x >>= f) post' := by
  intro log hlog hm
  obtain ⟨hlog', hpost⟩ := hx log hlog hm
  rw [Act.run_bind]
  unfold Logged.attempt
  dsimp only
  rcases hrun : x.run log with ⟨r, log'⟩
  rw [hrun] at hlog' hpost
  cases r with
  | ok a => exact hf (.ok a) _ nofun hpost log' hlog' rfl
  | err e => exact hf (.err e) _ nofun hpost log' hlog' rfl
  | panic => exact ⟨hlog', hpanic _ hpost⟩

end Protocol
end Machine
