import HyperPod.Lib.Bytes

/-!
# Many writes to one memory

`overlays m ws` applies the writes `ws` in order.  A cell that no write reaches keeps
its value (`overlays_of_clear`), and when the writes are pairwise apart each of them
reads back from the result, in whatever order they came (`window_overlays`).  Writes
that overlap leave in each cell what the last of them stored there
(`overlays_eq_lastStored`).
-/

namespace Bytes

variable {α : Type}

/-- A write: where it starts and what it stores. -/
abbrev Patch (α : Type) := Nat × List α

def overlays (m : Nat → α) : List (Patch α) → Nat → α
  | [] => m
  | w :: ws => overlays (overlay m w.1 w.2) ws

/-- The cell `a` is not written by `w`. -/
def ClearOf (a : Nat) (w : Patch α) : Prop := a < w.1 ∨ w.1 + w.2.length ≤ a

/-- Two writes share no cell. -/
def Apart (v w : Patch α) : Prop := v.1 + v.2.length ≤ w.1 ∨ w.1 + w.2.length ≤ v.1

/-- The write lies in `[lo, hi)`. -/
def Within (lo hi : Nat) (w : Patch α) : Prop := lo ≤ w.1 ∧ w.1 + w.2.length ≤ hi

instance (a : Nat) (w : Patch α) : Decidable (ClearOf a w) := inferInstanceAs (Decidable (_ ∨ _))
instance (v w : Patch α) : Decidable (Apart v w) := inferInstanceAs (Decidable (_ ∨ _))
instance (lo hi : Nat) (w : Patch α) : Decidable (Within lo hi w) :=
  inferInstanceAs (Decidable (_ ∧ _))

variable {m : Nat → α} {v w : Patch α} {ws vs : List (Patch α)} {lo hi lo' hi' a : Nat}

theorem apart_of_within (hv : Within lo hi v) (hw : Within lo' hi' w) (h : hi ≤ lo' ∨ hi' ≤ lo) :
    Apart v w := by
  obtain ⟨hv1, hv2⟩ := hv
  obtain ⟨hw1, hw2⟩ := hw
  rcases h with h | h
  · exact Or.inl (by omega)
  · exact Or.inr (by omega)

theorem clearOf_of_within (hw : Within lo hi w) (h : a < lo ∨ hi ≤ a) : ClearOf a w := by
  obtain ⟨hw1, hw2⟩ := hw
  rcases h with h | h
  · exact Or.inl (by omega)
  · exact Or.inr (by omega)

theorem overlays_append (m : Nat → α) (ws vs : List (Patch α)) :
    overlays m (ws ++ vs) = overlays (overlays m ws) vs := by
  induction ws generalizing m with
  | nil => rfl
  | cons w ws ih => exact ih _

/-- No write reaches the cell. -/
theorem overlays_of_clear (h : ∀ w ∈ ws, ClearOf a w) : overlays m ws a = m a := by
  induction ws generalizing m with
  | nil => rfl
  | cons w ws ih =>
    rw [List.forall_mem_cons] at h
    rw [overlays, ih h.2, overlay_of_not_mem h.1]

theorem window_overlays_apart (h : ∀ w ∈ ws, Apart v w) :
    window (overlays m ws) v.1 v.2.length = window m v.1 v.2.length := by
  apply window_congr
  intro i hi
  apply overlays_of_clear
  intro w hw
  rcases h w hw with h | h
  · exact Or.inl (by omega)
  · exact Or.inr (by omega)

/-- **Writes that are apart all read back.** -/
theorem window_overlays (hws : ws.Pairwise Apart) (hw : w ∈ ws) :
    window (overlays m ws) w.1 w.2.length = w.2 := by
  induction ws generalizing m with
  | nil => cases hw
  | cons v ws ih =>
    obtain ⟨hv, hws⟩ := List.pairwise_cons.mp hws
    rw [overlays]
    rcases List.mem_cons.mp hw with rfl | hw
    · rw [window_overlays_apart hv, window_overlay_self]
    · exact ih hws hw

/-! ## Writes by where they start and how long they are -/

def extent (w : Patch α) : Nat × Nat := (w.1, w.2.length)

/-- Apartness is a matter of extents. -/
theorem pairwise_apart_of_extents
    (h : (ws.map extent).Pairwise fun v w => v.1 + v.2 ≤ w.1 ∨ w.1 + w.2 ≤ v.1) :
    ws.Pairwise Apart := by
  rw [List.pairwise_map] at h
  exact h

theorem within_of_extents (h : ∀ e ∈ ws.map extent, lo ≤ e.1 ∧ e.1 + e.2 ≤ hi) :
    ∀ w ∈ ws, Within lo hi w :=
  fun w hw => h (extent w) (List.mem_map_of_mem hw)

/-- Two groups of writes in separate regions, each apart in itself. -/
theorem pairwise_append_of_within (hws : ws.Pairwise Apart) (hvs : vs.Pairwise Apart)
    (hw : ∀ w ∈ ws, Within lo hi w) (hv : ∀ v ∈ vs, Within lo' hi' v) (h : hi ≤ lo' ∨ hi' ≤ lo) :
    (ws ++ vs).Pairwise Apart := by
  rw [List.pairwise_append]
  refine ⟨hws, hvs, ?_⟩
  intro w hmw v hmv
  exact apart_of_within (hw w hmw) (hv v hmv) h

/-! ## The last write to a cell -/

/-- What the write stores in the cell `a`. -/
def stored (a : Nat) (w : Patch α) : Option α := if w.1 ≤ a then w.2[a - w.1]? else none

/-- What the last of the writes that reach the cell `a` stored in it. -/
def lastStored (a : Nat) (ws : List (Patch α)) : Option α := ws.reverse.findSome? (stored a)

theorem overlay_eq_stored : overlay m w.1 w.2 a = (stored a w).getD (m a) := by
  unfold overlay stored
  split
  · rfl
  · rfl

theorem lastStored_cons : lastStored a (w :: ws) = (lastStored a ws).or (stored a w) := by
  unfold lastStored
  rw [List.reverse_cons, List.findSome?_append, List.findSome?_singleton]

/-- **Last write wins**, cell by cell. -/
theorem overlays_eq_lastStored (m : Nat → α) (ws : List (Patch α)) (a : Nat) :
    overlays m ws a = (lastStored a ws).getD (m a) := by
  induction ws generalizing m with
  | nil => rfl
  | cons w ws ih =>
    rw [overlays, ih, lastStored_cons, overlay_eq_stored]
    cases lastStored a ws with
    | none => rfl
    | some v => rfl

end Bytes
