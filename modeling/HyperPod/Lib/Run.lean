import Mathlib.Algebra.Order.Monoid.Defs
import Mathlib.Data.List.Forall2

/-!
# Runs of a state machine

`step s e` answers the call `e` in state `s` and moves to the next state;
`exec` runs a list of calls.  Three rules carry a fact about one step to every
run: an invariant (`final_invariant`), a fact about the answers
(`answers_forall`) and a simulation between two machines (`simulation`).
`totalCost_le` is the accounting rule: when every step pays for itself out of a
potential, so does every run.
-/

namespace Run

variable {σ τ ε β γ : Type*}

/-- The answers and the last state of a run. -/
def exec (step : σ → ε → β × σ) : σ → List ε → List β × σ
  | s, [] => ([], s)
  | s, e :: es =>
    let r := step s e
    let rest := exec step r.2 es
    (r.1 :: rest.1, rest.2)

def answers (step : σ → ε → β × σ) (s : σ) (es : List ε) : List β := (exec step s es).1

def final (step : σ → ε → β × σ) (s : σ) (es : List ε) : σ := (exec step s es).2

/-- `P` holds of every call of a run, in the state the call is made in. -/
def Along (step : σ → ε → β × σ) (P : σ → ε → Prop) : σ → List ε → Prop
  | _, [] => True
  | s, e :: es => P s e ∧ Along step P (step s e).2 es

instance instDecidableAlong {step : σ → ε → β × σ} {P : σ → ε → Prop} [∀ s e, Decidable (P s e)] :
    (s : σ) → (es : List ε) → Decidable (Along step P s es)
  | _, [] => isTrue trivial
  | s, e :: es =>
    have : Decidable (Along step P (step s e).2 es) := instDecidableAlong (step s e).2 es
    inferInstanceAs (Decidable (P s e ∧ Along step P (step s e).2 es))

/-- What the calls of a run cost together. -/
def totalCost {α : Type*} [AddCommMonoid α] (step : σ → ε → β × σ) (cost : σ → ε → α) :
    σ → List ε → α
  | _, [] => 0
  | s, e :: es => cost s e + totalCost step cost (step s e).2 es

section
variable (step : σ → ε → β × σ)

@[simp] theorem final_nil (s : σ) : final step s [] = s := rfl
@[simp] theorem answers_nil (s : σ) : answers step s [] = [] := rfl

@[simp] theorem final_cons (s : σ) (e : ε) (es : List ε) :
    final step s (e :: es) = final step (step s e).2 es := rfl

@[simp] theorem answers_cons (s : σ) (e : ε) (es : List ε) :
    answers step s (e :: es) = (step s e).1 :: answers step (step s e).2 es := rfl

theorem final_append (s : σ) (es fs : List ε) :
    final step s (es ++ fs) = final step (final step s es) fs := by
  induction es generalizing s with
  | nil => rfl
  | cons e es ih => exact ih _

theorem answers_append (s : σ) (es fs : List ε) :
    answers step s (es ++ fs) = answers step s es ++ answers step (final step s es) fs := by
  induction es generalizing s with
  | nil => rfl
  | cons e es ih => simp [ih]

theorem length_answers (s : σ) (es : List ε) : (answers step s es).length = es.length := by
  induction es generalizing s with
  | nil => rfl
  | cons e es ih => simp [ih]

theorem along_append (P : σ → ε → Prop) (s : σ) (es fs : List ε) :
    Along step P s (es ++ fs) ↔ Along step P s es ∧ Along step P (final step s es) fs := by
  induction es generalizing s with
  | nil => simp [Along]
  | cons e es ih => simp [Along, ih, and_assoc]

theorem along_of_forall {P : σ → ε → Prop} {es : List ε} (h : ∀ e ∈ es, ∀ s, P s e) (s : σ) :
    Along step P s es := by
  induction es generalizing s with
  | nil => trivial
  | cons e es ih =>
    rw [List.forall_mem_cons] at h
    exact ⟨h.1 s, ih h.2 _⟩

variable {step}

/-- **Invariant rule.**  What every step keeps, every run keeps. -/
theorem final_invariant {I : σ → Prop} (hstep : ∀ s e, I s → I (step s e).2) {s : σ}
    (h0 : I s) (es : List ε) : I (final step s es) := by
  induction es generalizing s with
  | nil => exact h0
  | cons e es ih => exact ih (hstep s e h0)

/-- Invariant rule for the runs whose every call meets `P`. -/
theorem final_of_along {I : σ → Prop} {P : σ → ε → Prop}
    (hstep : ∀ s e, P s e → I s → I (step s e).2) {s : σ} (h0 : I s) {es : List ε}
    (hes : Along step P s es) : I (final step s es) := by
  induction es generalizing s with
  | nil => exact h0
  | cons e es ih => exact ih (hstep s e hes.1 h0) hes.2

/-- **Answer rule.**  Under an invariant, what holds of each call and its answer
holds along the run. -/
theorem answers_forall {I : σ → Prop} {Q : ε → β → Prop}
    (hstep : ∀ s e, I s → I (step s e).2) (hans : ∀ s e, I s → Q e (step s e).1)
    {s : σ} (h0 : I s) (es : List ε) : List.Forall₂ Q es (answers step s es) := by
  induction es generalizing s with
  | nil => exact .nil
  | cons e es ih => exact .cons (hans s e h0) (ih (hstep s e h0))

/-- Answer rule for a fact about the answers alone. -/
theorem forall_mem_answers {I : σ → Prop} {Q : β → Prop}
    (hstep : ∀ s e, I s → I (step s e).2) (hans : ∀ s e, I s → Q (step s e).1)
    {s : σ} (h0 : I s) (es : List ε) : ∀ b ∈ answers step s es, Q b := by
  induction es generalizing s with
  | nil => exact fun _ hb => (nomatch hb)
  | cons e es ih => exact List.forall_mem_cons.mpr ⟨hans s e h0, ih (hstep s e h0)⟩

/-- **Simulation rule.**  Two machines whose related states give answers related by
`A` and stay related do so along every run. -/
theorem simulation {step' : τ → ε → γ × τ} {A : β → γ → Prop} {R : σ → τ → Prop}
    (hstep : ∀ s t e, R s t → A (step s e).1 (step' t e).1 ∧ R (step s e).2 (step' t e).2)
    {s : σ} {t : τ} (h0 : R s t) (es : List ε) :
    List.Forall₂ A (answers step s es) (answers step' t es) ∧
      R (final step s es) (final step' t es) := by
  induction es generalizing s t with
  | nil => exact ⟨.nil, h0⟩
  | cons e es ih =>
    obtain ⟨hans, hR⟩ := hstep s t e h0
    obtain ⟨ihans, ihR⟩ := ih hR
    exact ⟨.cons hans ihans, ihR⟩

/-- **Refinement rule.**  Where the steps of another machine that a step answers with match it,
those that a whole run answers with match the run. -/
theorem refinement {ε' : Type*} {step : σ → ε → List ε' × σ} {step' : τ → ε' → γ × τ}
    {R : σ → τ → Prop} (hstep : ∀ s t e, R s t → R (step s e).2 (final step' t (step s e).1))
    {s : σ} {t : τ} (h0 : R s t) (es : List ε) :
    R (final step s es) (final step' t (answers step s es).flatten) := by
  induction es generalizing s t with
  | nil => exact h0
  | cons e es ih =>
    rw [answers_cons, List.flatten_cons, final_append]
    exact ih (hstep s t e h0)

/-- **Lock-step rule.**  Two machines on the same states that answer a call alike exactly
under `P`, and then move alike, answer a run alike exactly when `P` holds along it. -/
theorem answers_eq_iff {step' : σ → ε → β × σ} {P : σ → ε → Prop}
    (hans : ∀ s e, (step s e).1 = (step' s e).1 ↔ P s e)
    (hmove : ∀ s e, P s e → (step s e).2 = (step' s e).2) (s : σ) (es : List ε) :
    answers step s es = answers step' s es ↔ Along step' P s es := by
  induction es generalizing s with
  | nil => simp [Along]
  | cons e es ih =>
    rw [answers_cons, answers_cons, List.cons.injEq, hans]
    constructor
    · rintro ⟨hP, hrest⟩
      rw [hmove s e hP] at hrest
      exact ⟨hP, (ih _).mp hrest⟩
    · rintro ⟨hP, hrest⟩
      rw [hmove s e hP]
      exact ⟨hP, (ih _).mpr hrest⟩

/-- What one call gives, every call of a run gives. -/
theorem along_of_along {I : σ → Prop} {P Q : σ → ε → Prop}
    (hstep : ∀ s e, P s e → I s → I (step s e).2) (hgive : ∀ s e, P s e → I s → Q s e)
    {s : σ} (h0 : I s) {es : List ε} (hes : Along step P s es) : Along step Q s es := by
  induction es generalizing s with
  | nil => exact hes
  | cons e es ih => exact ⟨hgive s e hes.1 h0, ih (hstep s e hes.1 h0) hes.2⟩

/-- **Descent rule.**  If every step lowers `gap` until it is zero, it is zero after as
many steps as it was at the start. -/
theorem gap_final_le {I : σ → Prop} {P : σ → ε → Prop} {gap : σ → Nat}
    (hstep : ∀ s e, P s e → I s → I (step s e).2)
    (hfall : ∀ s e, P s e → I s → gap (step s e).2 ≤ gap s - 1)
    {s : σ} (h0 : I s) {es : List ε} (hes : Along step P s es) :
    gap (final step s es) ≤ gap s - es.length := by
  induction es generalizing s with
  | nil => exact Nat.le_refl _
  | cons e es ih =>
    have hfirst := hfall s e hes.1 h0
    have hrest := ih (hstep s e hes.1 h0) hes.2
    rw [final_cons, List.length_cons]
    omega

/-- Descent by a monotone `f`: as many steps of a run, as many times `f`. -/
theorem gap_final_le_iterate {I : σ → Prop} {P : σ → ε → Prop} {d : σ → Nat} {f : Nat → Nat}
    (hf : Monotone f) (hstep : ∀ s e, P s e → I s → I (step s e).2)
    (hfall : ∀ s e, P s e → I s → d (step s e).2 ≤ f (d s))
    {s : σ} (h0 : I s) {es : List ε} (hes : Along step P s es) :
    d (final step s es) ≤ f^[es.length] (d s) := by
  induction es generalizing s with
  | nil => exact Nat.le_refl _
  | cons e es ih =>
    rw [final_cons, List.length_cons, Function.iterate_succ_apply]
    calc d (final step (step s e).2 es) ≤ f^[es.length] (d (step s e).2) :=
          ih (hstep s e hes.1 h0) hes.2
      _ ≤ f^[es.length] (f (d s)) := hf.iterate _ (hfall s e hes.1 h0)

/-- Steps that change nothing in one state leave a run that starts there where it is. -/
theorem final_of_rest {P : σ → ε → Prop} {s : σ} (hrest : ∀ e, P s e → (step s e).2 = s)
    {es : List ε} (hes : Along step P s es) : final step s es = s := by
  induction es with
  | nil => rfl
  | cons e es ih =>
    have hsame := hrest e hes.1
    have htail := hes.2
    rw [hsame] at htail
    rw [final_cons, hsame, ih htail]

/-- Descent to rest: where a `gap` of zero stops the steps, a run is at rest after as many
steps as the gap was at the start. -/
theorem rest_of_descent {I : σ → Prop} {P : σ → ε → Prop} {gap : σ → Nat}
    (hstep : ∀ s e, P s e → I s → I (step s e).2)
    (hfall : ∀ s e, P s e → I s → gap (step s e).2 ≤ gap s - 1)
    (hrest : ∀ s e, P s e → I s → gap s = 0 → (step s e).2 = s)
    {s : σ} (h0 : I s) {es fs : List ε} (hes : Along step P s (es ++ fs))
    (hlen : gap s ≤ es.length) :
    gap (final step s es) = 0 ∧ final step s (es ++ fs) = final step s es := by
  rw [along_append] at hes
  have hzero : gap (final step s es) = 0 := by
    have hle := gap_final_le hstep hfall h0 hes.1
    omega
  refine ⟨hzero, ?_⟩
  rw [final_append]
  exact final_of_rest
    (fun e he => hrest _ e he (final_of_along hstep h0 hes.1) hzero) hes.2

/-- A machine seen through `f` runs as the one below it. -/
theorem final_map {step' : τ → ε → γ × τ} {f : σ → τ}
    (hstep : ∀ s e, (step' (f s) e).2 = f (step s e).2) (s : σ) (es : List ε) :
    final step' (f s) es = f (final step s es) := by
  induction es generalizing s with
  | nil => rfl
  | cons e es ih => rw [final_cons, final_cons, hstep, ih]

/-- The same for machines with events of their own, where each call meets `P`. -/
theorem final_map_along {ε' : Type*} {step' : τ → ε' → γ × τ} {f : σ → τ} {g : ε → ε'}
    {P : σ → ε → Prop} (hstep : ∀ s e, P s e → (step' (f s) (g e)).2 = f (step s e).2) {s : σ}
    {es : List ε} (hes : Along step P s es) :
    final step' (f s) (es.map g) = f (final step s es) := by
  induction es generalizing s with
  | nil => rfl
  | cons e es ih => rw [List.map_cons, final_cons, final_cons, hstep s e hes.1, ih hes.2]

theorem totalCost_append {α : Type*} [AddCommMonoid α] (cost : σ → ε → α) (s : σ)
    (es fs : List ε) : totalCost step cost s (es ++ fs) =
      totalCost step cost s es + totalCost step cost (final step s es) fs := by
  induction es generalizing s with
  | nil => exact (zero_add _).symm
  | cons e es ih => rw [List.cons_append, totalCost, ih, totalCost, final_cons, add_assoc]

/-- **Accounting rule.**  If every step pays its cost out of the potential `pot`,
a run costs at most what the potential loses. -/
theorem totalCost_le {α : Type*} [AddCommMonoid α] [PartialOrder α] [IsOrderedAddMonoid α]
    {I : σ → Prop} {P : σ → ε → Prop} {cost : σ → ε → α} {pot : σ → α}
    (hstep : ∀ s e, P s e → I s → I (step s e).2)
    (hpay : ∀ s e, P s e → I s → cost s e + pot (step s e).2 ≤ pot s)
    {s : σ} (h0 : I s) {es : List ε} (hes : Along step P s es) :
    totalCost step cost s es + pot (final step s es) ≤ pot s := by
  induction es generalizing s with
  | nil => simp [totalCost]
  | cons e es ih =>
    have hrest := ih (hstep s e hes.1 h0) hes.2
    calc totalCost step cost s (e :: es) + pot (final step s (e :: es))
        = cost s e + (totalCost step cost (step s e).2 es + pot (final step (step s e).2 es)) := by
          rw [totalCost, final_cons, add_assoc]
      _ ≤ cost s e + pot (step s e).2 := by gcongr
      _ ≤ pot s := hpay s e hes.1 h0

end
end Run
