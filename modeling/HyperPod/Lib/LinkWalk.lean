import Mathlib.Data.Fintype.EquivFin
import Mathlib.Logic.Relation

/-!
# Walks through a table of linked nodes

A table gives, for an index, a node and the link out of it, if there is one.  `Walk t i l`
says that following the links from `i` ends, having visited `l`.  A walk that ends repeats
no index (`Walk.nodup`), so it is no longer than the table (`Walk.length_le`) and a loop of
that many steps finds it (`follow_eq_some`).  In a finite table the walk from `i` ends
exactly when no link out of a reached node is broken and none closes a cycle
(`exists_walk_iff`).
-/

namespace LinkWalk

variable {ι δ : Type*}

abbrev Table (ι δ : Type*) := ι → Option (δ × Option ι)

inductive Walk (t : Table ι δ) : ι → List (ι × δ) → Prop
  | last {i : ι} {d : δ} : t i = some (d, none) → Walk t i [(i, d)]
  | link {i j : ι} {d : δ} {l : List (ι × δ)} :
      t i = some (d, some j) → Walk t j l → Walk t i ((i, d) :: l)

def Links (t : Table ι δ) (i j : ι) : Prop := ∃ d, t i = some (d, some j)

def Reaches (t : Table ι δ) : ι → ι → Prop := Relation.ReflTransGen (Links t)

/-- Follow the links for at most `n` nodes. -/
def follow (t : Table ι δ) : Nat → ι → Option (List (ι × δ))
  | 0, _ => none
  | n + 1, i =>
    match t i with
    | none => none
    | some (d, none) => some [(i, d)]
    | some (d, some j) => (follow t n j).map ((i, d) :: ·)

variable {t : Table ι δ} {i j : ι} {l : List (ι × δ)}

/-! ## A walk that ends -/

namespace Walk

theorem ne_nil (h : Walk t i l) : l ≠ [] := by
  cases h <;> exact List.cons_ne_nil _ _

theorem isSome (h : Walk t i l) : (t i).isSome := by
  cases h with
  | last ht => rw [ht]; rfl
  | link ht _ => rw [ht]; rfl

/-- There is one walk from an index. -/
theorem unique (h : Walk t i l) {l' : List (ι × δ)} (h' : Walk t i l') : l = l' := by
  induction h generalizing l' with
  | last ht =>
    cases h' with
    | last ht' =>
      rw [ht] at ht'
      cases ht'
      rfl
    | link ht' _ =>
      rw [ht] at ht'
      cases ht'
  | link ht _ ih =>
    cases h' with
    | last ht' =>
      rw [ht] at ht'
      cases ht'
    | link ht' hw' =>
      rw [ht] at ht'
      cases ht'
      rw [ih hw']

/-- A walk goes on as a walk from each index it visits. -/
theorem from_mem (h : Walk t i l) (hj : j ∈ l.map Prod.fst) :
    ∃ l', Walk t j l' ∧ l'.length ≤ l.length := by
  induction h with
  | last ht =>
    rw [List.map_singleton, List.mem_singleton] at hj
    subst hj
    exact ⟨_, .last ht, Nat.le_refl _⟩
  | link ht hw ih =>
    rw [List.map_cons, List.mem_cons] at hj
    rcases hj with rfl | hj
    · exact ⟨_, .link ht hw, Nat.le_refl _⟩
    · obtain ⟨l', hw', hlen⟩ := ih hj
      exact ⟨l', hw', Nat.le_succ_of_le hlen⟩

/-- A walk is one of every table that agrees on the indices it visits. -/
theorem congr (h : Walk t i l) {t' : Table ι δ} (heq : ∀ e ∈ l, t' e.1 = t e.1) :
    Walk t' i l := by
  induction h with
  | last ht => exact .last ((heq _ List.mem_cons_self).trans ht)
  | link ht _ ih =>
    exact .link ((heq _ List.mem_cons_self).trans ht)
      (ih fun e he => heq e (List.mem_cons_of_mem _ he))

theorem isSome_of_mem (h : Walk t i l) {e : ι × δ} (he : e ∈ l) : (t e.1).isSome := by
  obtain ⟨_, hw, -⟩ := h.from_mem (List.mem_map_of_mem he)
  exact hw.isSome

/-- **A walk that ends repeats no index.**  From a repeated index there would be a second,
shorter walk. -/
theorem nodup (h : Walk t i l) : (l.map Prod.fst).Nodup := by
  induction h with
  | last _ => exact List.nodup_singleton _
  | link ht hw ih =>
    rw [List.map_cons, List.nodup_cons]
    refine ⟨?_, ih⟩
    intro hmem
    obtain ⟨l', hw', hlen⟩ := hw.from_mem hmem
    rw [hw'.unique (.link ht hw), List.length_cons] at hlen
    omega

/-- **Pigeonhole.**  A walk through indices below `n` visits at most `n` nodes. -/
theorem length_le (h : Walk t i l) {f : ι → Nat} (hf : Function.Injective f) {n : Nat}
    (hn : ∀ j, (t j).isSome → f j < n) : l.length ≤ n := by
  have hsub : (l.map Prod.fst).map f ⊆ List.range n := by
    intro k hk
    obtain ⟨j, hj, rfl⟩ := List.mem_map.mp hk
    obtain ⟨l', hw', -⟩ := h.from_mem hj
    exact List.mem_range.mpr (hn j hw'.isSome)
  have hle := (h.nodup.map hf).length_le_of_subset hsub
  rwa [List.length_map, List.length_map, List.length_range] at hle

theorem of_links (h : Walk t i l) (hij : Links t i j) :
    ∃ l', Walk t j l' ∧ l'.length < l.length := by
  obtain ⟨d, ht⟩ := hij
  cases h with
  | last ht' =>
    rw [ht] at ht'
    cases ht'
  | link ht' hw =>
    rw [ht] at ht'
    cases ht'
    exact ⟨_, hw, Nat.lt_succ_self _⟩

theorem of_reaches (h : Walk t i l) (hij : Reaches t i j) :
    ∃ l', Walk t j l' ∧ l'.length ≤ l.length := by
  induction hij with
  | refl => exact ⟨l, h, Nat.le_refl _⟩
  | tail _ hjk ih =>
    obtain ⟨l', hw', hlen'⟩ := ih
    obtain ⟨l'', hw'', hlen''⟩ := hw'.of_links hjk
    exact ⟨l'', hw'', by omega⟩

theorem not_cycle (h : Walk t i l) : ¬ Relation.TransGen (Links t) i i := by
  intro hcycle
  obtain ⟨k, hik, hki⟩ := Relation.TransGen.head'_iff.mp hcycle
  obtain ⟨l', hw', hlt⟩ := h.of_links hik
  obtain ⟨l'', hw'', hle⟩ := hw'.of_reaches hki
  rw [hw''.unique h] at hle
  omega

end Walk

/-! ## Finding the walk -/

theorem follow_eq_some {n : Nat} : follow t n i = some l ↔ Walk t i l ∧ l.length ≤ n := by
  induction n generalizing i l with
  | zero =>
    constructor
    · intro h
      cases h
    · rintro ⟨h, hlen⟩
      exact absurd (List.eq_nil_of_length_eq_zero (Nat.le_zero.mp hlen)) h.ne_nil
  | succ n ih =>
    rw [follow]
    constructor
    · intro h
      split at h
      · cases h
      · next d ht =>
        cases h
        exact ⟨.last ht, by simp⟩
      · next d j ht =>
        obtain ⟨l', hl', rfl⟩ := Option.map_eq_some_iff.mp h
        obtain ⟨hw, hlen⟩ := ih.mp hl'
        exact ⟨.link ht hw, Nat.succ_le_succ hlen⟩
    · rintro ⟨h, hlen⟩
      cases h with
      | last ht => rw [ht]
      | link ht hw =>
        rw [ht]
        exact Option.map_eq_some_iff.mpr ⟨_, ih.mpr ⟨hw, Nat.le_of_succ_le_succ hlen⟩, rfl⟩

/-- The loop bound never cuts a walk off. -/
theorem follow_eq_some_of_lt {f : ι → Nat} (hf : Function.Injective f) {n : Nat}
    (hn : ∀ j, (t j).isSome → f j < n) : follow t n i = some l ↔ Walk t i l := by
  rw [follow_eq_some]
  constructor
  · rintro ⟨h, -⟩
    exact h
  · intro h
    exact ⟨h, h.length_le hf hn⟩

/-- **When a walk ends**: no reached link is broken and none closes a cycle. -/
theorem exists_walk_iff [Finite ι] :
    (∃ l, Walk t i l) ↔
      ∀ j, Reaches t i j → (t j).isSome ∧ ¬ Relation.TransGen (Links t) j j := by
  constructor
  · rintro ⟨l, h⟩ j hij
    obtain ⟨l', hw', -⟩ := h.of_reaches hij
    exact ⟨hw'.isSome, hw'.not_cycle⟩
  · intro h
    -- among the reached indices the links lead downwards
    let below : {j // Reaches t i j} → {j // Reaches t i j} → Prop :=
      fun a b => Relation.TransGen (Links t) b.1 a.1
    have : IsTrans _ below := ⟨fun _ _ _ hab hbc => hbc.trans hab⟩
    have : Std.Irrefl below := ⟨fun a => (h a.1 a.2).2⟩
    have hwf : WellFounded below := Finite.wellFounded_of_trans_of_irrefl below
    have hall : ∀ a : {j // Reaches t i j}, ∃ l, Walk t a.1 l := by
      intro a
      induction a using hwf.induction with
      | h a ih =>
        obtain ⟨⟨d, o⟩, ht⟩ := Option.isSome_iff_exists.mp (h a.1 a.2).1
        cases o with
        | none => exact ⟨_, .last ht⟩
        | some k =>
          obtain ⟨l, hw⟩ := ih ⟨k, a.2.tail ⟨d, ht⟩⟩ (.single ⟨d, ht⟩)
          exact ⟨_, .link ht hw⟩
    exact hall ⟨i, .refl⟩

/-! ## The walk to an index -/

/-- The table in which walks end at `j` and nowhere else. -/
def stopAt [DecidableEq ι] (t : Table ι δ) (j : ι) (d : δ) : Table ι δ := fun i =>
  if i = j then some (d, none)
  else (t i).bind fun e => e.2.map fun k => (e.1, some k)

section
variable [DecidableEq ι] {d e : δ} {k : ι}

theorem stopAt_self : stopAt t j d j = some (d, none) := if_pos rfl

theorem eq_of_stopAt_eq_last (h : stopAt t j d i = some (e, none)) : i = j := by
  unfold stopAt at h
  split at h
  · assumption
  · obtain ⟨n, -, hn⟩ := Option.bind_eq_some_iff.mp h
    obtain ⟨k, -, hk⟩ := Option.map_eq_some_iff.mp hn
    cases hk

theorem stopAt_eq_link : stopAt t j d i = some (e, some k) ↔ i ≠ j ∧ t i = some (e, some k) := by
  unfold stopAt
  by_cases hij : i = j
  · simp [hij]
  · rw [if_neg hij]
    constructor
    · intro h
      obtain ⟨⟨e', o⟩, ht, hn⟩ := Option.bind_eq_some_iff.mp h
      obtain ⟨k', hk', heq⟩ := Option.map_eq_some_iff.mp hn
      cases heq
      rw [ht]
      exact ⟨hij, by rw [← hk']⟩
    · rintro ⟨-, ht⟩
      rw [ht]
      rfl

theorem isSome_of_stopAt (h : (stopAt t j d i).isSome) : i = j ∨ (t i).isSome := by
  unfold stopAt at h
  split at h
  · next hij => exact Or.inl hij
  · right
    cases ht : t i with
    | none => rw [ht] at h; cases h
    | some n => rfl

/-- An index that is reached is reached by a walk that ends there. -/
theorem Reaches.exists_walk (h : Reaches t i j) (d : δ) : ∃ l, Walk (stopAt t j d) i l := by
  induction h using Relation.ReflTransGen.head_induction_on with
  | refl => exact ⟨_, .last stopAt_self⟩
  | @head i k hik _ ih =>
    by_cases hij : i = j
    · subst hij
      exact ⟨_, .last stopAt_self⟩
    · obtain ⟨e, ht⟩ := hik
      obtain ⟨l, hw⟩ := ih
      exact ⟨_, .link (stopAt_eq_link.mpr ⟨hij, ht⟩) hw⟩

end

end LinkWalk
