import HyperPod.Lib.Run
import Mathlib.Logic.Function.Basic
import Mathlib.Data.List.Basic

/-!
# Objects whose calls take two critical sections

Some calls on a shared object are one critical section.  The others are two: the
first reads a selector, the second acts on the part that was selected, and other
threads run in between, so that the selector may have moved on by then.

`linearizable` says that this does not show.  The calls that were made by any number
of threads, in any interleaving, have an order in which they give the same answers and
the same state when each is done at once, and that order keeps every call that ended
before another began in front of it.

A call between its two sections keeps a `Slot` in the order: a place where the selector
still has the value that was read, with nothing after it that acts on the same part.
What comes after the slot commutes with the call, so the call can be put there.
-/

namespace TwoSection

/-- An object of states `S` with calls `C`, answers `R` and parts `K`. -/
structure Object (S K C R : Type*) where
  /-- The call done at once. -/
  call : S → C → R × S
  /-- Does the call take two critical sections? -/
  split : C → Bool
  /-- What the first of them reads. -/
  selector : S → K
  /-- What the second does with the part that was selected. -/
  act : K → C → S → R × S
  call_split : ∀ s c, split c = true → call s c = act (selector s) c s
  selector_act : ∀ k c s, selector (act k c s).2 = selector s
  /-- A call of one section and an act do not see each other. -/
  call_act : ∀ k a s c, split c = false →
    (call (act k a s).2 c).1 = (call s c).1 ∧ (act k a (call s c).2).1 = (act k a s).1 ∧
      (call (act k a s).2 c).2 = (act k a (call s c).2).2
  /-- Nor do acts on two parts. -/
  act_act : ∀ k l a b s, l ≠ k →
    (act l b (act k a s).2).1 = (act l b s).1 ∧ (act k a (act l b s).2).1 = (act k a s).1 ∧
      (act l b (act k a s).2).2 = (act k a (act l b s).2).2

/-- A call that has returned, with the times it began and ended. -/
structure Done (T C R : Type*) where
  thread : T
  call : C
  answer : R
  began : Nat
  ended : Nat
deriving DecidableEq

/-- A call between its two critical sections. -/
structure Open (K C : Type*) where
  part : K
  call : C
  began : Nat
deriving DecidableEq

/-- The object, the calls that its threads are in, and the history of those that returned. -/
structure World (T S K C R : Type*) where
  state : S
  inside : T → Option (Open K C)
  clock : Nat
  history : List (Done T C R)

inductive Event (T C : Type*) where
  /-- The thread makes a call, unless it is inside one. -/
  | enter (t : T) (c : C)
  /-- The thread goes through the second section of its call. -/
  | finish (t : T)

variable {T S K C R : Type*} (o : Object S K C R)

def World.init (s : S) : World T S K C R := ⟨s, fun _ => none, 0, []⟩

/-- One critical section of one thread. -/
def step [DecidableEq T] (w : World T S K C R) :
    Event T C → Option R × World T S K C R
  | .enter t c =>
    match w.inside t with
    | some _ => (none, { w with clock := w.clock + 1 })
    | none =>
      if o.split c then
        (none, { w with
          inside := Function.update w.inside t (some ⟨o.selector w.state, c, w.clock⟩)
          clock := w.clock + 1 })
      else
        let r := o.call w.state c
        (some r.1, { w with
          state := r.2
          clock := w.clock + 1
          history := w.history ++ [⟨t, c, r.1, w.clock, w.clock⟩] })
  | .finish t =>
    match w.inside t with
    | none => (none, { w with clock := w.clock + 1 })
    | some p =>
      let r := o.act p.part p.call w.state
      (some r.1, {
        state := r.2
        inside := Function.update w.inside t none
        clock := w.clock + 1
        history := w.history ++ [⟨t, p.call, r.1, p.began, w.clock⟩] })

/-! ## Calls that miss a part -/

/-- The call does not act on part `k`. -/
def Misses (k : K) (s : S) (c : C) : Prop := o.split c = true → o.selector s ≠ k

variable {o}

/-- A call that misses part `k` and an act on it do not see each other. -/
theorem call_act_of_misses {k : K} {s : S} {c : C} (h : Misses o k s c) (a : C) :
    (o.call (o.act k a s).2 c).1 = (o.call s c).1 ∧
      (o.act k a (o.call s c).2).1 = (o.act k a s).1 ∧
      (o.call (o.act k a s).2 c).2 = (o.act k a (o.call s c).2).2 := by
  cases hc : o.split c with
  | false => exact o.call_act k a s c hc
  | true =>
    rw [o.call_split _ _ hc, o.call_split _ _ hc, o.selector_act]
    exact o.act_act k (o.selector s) a c s (h hc)

/-- An act on a part commutes with a run of calls that miss it. -/
theorem run_act {k : K} {s : S} {cs : List C} (h : Run.Along o.call (Misses o k) s cs) (a : C) :
    Run.answers o.call (o.act k a s).2 cs = Run.answers o.call s cs ∧
      (o.act k a (Run.final o.call s cs)).1 = (o.act k a s).1 ∧
      Run.final o.call (o.act k a s).2 cs = (o.act k a (Run.final o.call s cs)).2 := by
  induction cs generalizing s with
  | nil => exact ⟨rfl, rfl, rfl⟩
  | cons c cs ih =>
    obtain ⟨hans, hact, hstate⟩ := call_act_of_misses h.1 a
    obtain ⟨ihans, ihact, ihstate⟩ := ih h.2
    refine ⟨?_, ?_, ?_⟩
    · rw [Run.answers_cons, Run.answers_cons, hans, hstate, ihans]
    · rw [Run.final_cons, ihact, hact]
    · rw [Run.final_cons, Run.final_cons, hstate, ihstate]

/-- What a run of calls misses, it misses from after an act too. -/
theorem along_misses_act {k l : K} {s : S} {cs : List C} (a : C)
    (h : Run.Along o.call (Misses o k) s cs) (hl : Run.Along o.call (Misses o l) s cs) :
    Run.Along o.call (Misses o l) (o.act k a s).2 cs := by
  induction cs generalizing s with
  | nil => trivial
  | cons c cs ih =>
    refine ⟨fun hc => ?_, ?_⟩
    · rw [o.selector_act]
      exact hl.1 hc
    · rw [(call_act_of_misses h.1 a).2.2]
      exact ih h.2 hl.2

/-! ## The order that explains a history -/

/-- The state after the calls of `order`, each done at once. -/
def after (o : Object S K C R) (s : S) (order : List (Done T C R)) : S :=
  Run.final o.call s (order.map Done.call)

/-- Done at once in this order, the calls that returned give the answers they gave and
the state that was reached, and a call that ended before another began is in front of it. -/
structure Explains (o : Object S K C R) (s : S) (order : List (Done T C R))
    (w : World T S K C R) : Prop where
  perm : order.Perm w.history
  answers : order.map Done.answer = Run.answers o.call s (order.map Done.call)
  state : w.state = after o s order
  realTime : order.Pairwise fun d e => ¬ e.ended < d.began

/-- Between `pre` and `post` is a place for the call `p`. -/
structure Slot (o : Object S K C R) (s : S) (pre post : List (Done T C R)) (p : Open K C) :
    Prop where
  selector : o.selector (after o s pre) = p.part
  misses : Run.Along o.call (Misses o p.part) (after o s pre) (post.map Done.call)
  ended : ∀ d ∈ post, p.began ≤ d.ended

/-- A call under way: it has a slot in the order. -/
structure UnderWay (o : Object S K C R) (s : S) (order : List (Done T C R)) (now : Nat)
    (p : Open K C) : Prop where
  slot : ∃ pre post, order = pre ++ post ∧ Slot o s pre post p
  split : o.split p.call = true
  began : p.began ≤ now

/-- The order explains the history, and has a slot for each call that is under way. -/
structure Inv (o : Object S K C R) (s : S) (order : List (Done T C R)) (w : World T S K C R) :
    Prop where
  explains : Explains o s order w
  inside : ∀ t p, w.inside t = some p → UnderWay o s order w.clock p
  past : ∀ d ∈ w.history, d.began ≤ w.clock ∧ d.ended < w.clock

theorem after_append (s : S) (pre post : List (Done T C R)) :
    after o s (pre ++ post) = Run.final o.call (after o s pre) (post.map Done.call) := by
  rw [after, List.map_append, Run.final_append]
  rfl

theorem after_cons_split {s : S} {pre : List (Done T C R)} {d : Done T C R} {k : K}
    (hsel : o.selector (after o s pre) = k) (hd : o.split d.call = true)
    (post : List (Done T C R)) :
    after o s (pre ++ d :: post) =
      Run.final o.call (o.act k d.call (after o s pre)).2 (post.map Done.call) := by
  rw [after_append, List.map_cons, Run.final_cons, o.call_split _ _ hd, hsel]

/-- A call of one section goes to the end of the order, past every slot. -/
theorem Slot.snoc {s : S} {pre post : List (Done T C R)} {p : Open K C} {d : Done T C R}
    (h : Slot o s pre post p) (hd : o.split d.call = false) (hend : p.began ≤ d.ended) :
    Slot o s pre (post ++ [d]) p where
  selector := h.selector
  misses := by
    rw [List.map_append, Run.along_append]
    exact ⟨h.misses, fun hc => absurd (hc.symm.trans hd) (by decide), trivial⟩
  ended e he := by
    rcases List.mem_append.mp he with he | he
    · exact h.ended e he
    · rw [List.mem_singleton.mp he]
      exact hend

/-- When a call is put into its slot, every other call under way still has one.  A slot on
the same part that was in front moves behind the call. -/
theorem Slot.insert {s : S} {pre post pre' post' : List (Done T C R)} {p q : Open K C}
    {d : Done T C R} (h : Slot o s pre post p) (hd : o.split d.call = true)
    (hq : Slot o s pre' post' q) (horder : pre ++ post = pre' ++ post')
    (hend : q.began ≤ d.ended) :
    ∃ pre'' post'', pre ++ d :: post = pre'' ++ post'' ∧ Slot o s pre'' post'' q := by
  rcases List.append_eq_append_iff.mp horder with ⟨mid, rfl, rfl⟩ | ⟨mid, rfl, rfl⟩
  · -- the slot of `q` is behind the one of `p`
    have hmiss := h.misses
    rw [List.map_append, Run.along_append] at hmiss
    have hlast : after o s (pre ++ d :: mid) =
        (o.act p.part d.call (after o s (pre ++ mid))).2 := by
      rw [after_cons_split h.selector hd, after_append, (run_act hmiss.1 d.call).2.2]
    refine ⟨pre ++ d :: mid, post', by simp, ?_, ?_, hq.ended⟩
    · rw [hlast, o.selector_act]
      exact hq.selector
    · rw [hlast]
      refine along_misses_act d.call ?_ hq.misses
      rw [after_append]
      exact hmiss.2
  · by_cases hpart : q.part = p.part
    · refine ⟨pre' ++ mid ++ [d], post, by simp, ?_, ?_, ?_⟩
      · rw [after_cons_split h.selector hd, List.map_nil, Run.final_nil, o.selector_act,
          h.selector, hpart]
      · rw [after_cons_split h.selector hd, hpart]
        exact along_misses_act d.call h.misses h.misses
      · exact fun e he => hq.ended e (List.mem_append_right mid he)
    · refine ⟨pre', mid ++ d :: post, by simp, hq.selector, ?_, ?_⟩
      · have hmiss := hq.misses
        rw [List.map_append, Run.along_append, ← after_append] at hmiss
        rw [List.map_append, Run.along_append, ← after_append, List.map_cons]
        refine ⟨hmiss.1, fun _ => ?_, ?_⟩
        · rw [h.selector]
          exact fun heq => hpart heq.symm
        · rw [o.call_split _ _ hd, h.selector]
          exact along_misses_act d.call h.misses hmiss.2
      · intro e he
        rcases List.mem_append.mp he with he | he
        · exact hq.ended e (List.mem_append_left _ he)
        · rcases List.mem_cons.mp he with rfl | he
          · exact hend
          · exact hq.ended e (List.mem_append_right _ he)

/-! ## Every interleaving has one -/

theorem forall_update [DecidableEq T] {Q : Open K C → Prop} {inside : T → Option (Open K C)} {t : T}
    {v : Option (Open K C)} (hold : ∀ u p, u ≠ t → inside u = some p → Q p)
    (hnew : ∀ p, v = some p → Q p) (u : T) (p : Open K C)
    (hp : Function.update inside t v u = some p) : Q p := by
  by_cases hu : u = t
  · subst hu
    rw [Function.update_self] at hp
    exact hnew p hp
  · rw [Function.update_of_ne hu] at hp
    exact hold u p hu hp

theorem inv_init (o : Object S K C R) (s : S) :
    Inv o s [] (World.init s : World T S K C R) where
  explains := ⟨.refl _, rfl, rfl, .nil⟩
  inside _ _ h := nomatch h
  past _ h := nomatch h

section
variable {s : S} {order : List (Done T C R)} {w : World T S K C R}

theorem UnderWay.later {now : Nat} {p : Open K C} (h : UnderWay o s order now p) :
    UnderWay o s order (now + 1) p :=
  ⟨h.slot, h.split, Nat.le_succ_of_le h.began⟩

theorem Inv.past_later (h : Inv o s order w) :
    ∀ d ∈ w.history, d.began ≤ w.clock + 1 ∧ d.ended < w.clock + 1 := fun d hd =>
  ⟨Nat.le_succ_of_le (h.past d hd).1, Nat.lt_succ_of_lt (h.past d hd).2⟩

/-- An event that is not enabled only takes time. -/
theorem Inv.tick (h : Inv o s order w) : Inv o s order { w with clock := w.clock + 1 } where
  explains := ⟨h.explains.perm, h.explains.answers, h.explains.state, h.explains.realTime⟩
  inside t p hp := (h.inside t p hp).later
  past := h.past_later

/-- A call of one section goes to the end of the order. -/
theorem Inv.whole (h : Inv o s order w) {c : C} (hc : o.split c = false) (t : T) :
    let d : Done T C R := ⟨t, c, (o.call w.state c).1, w.clock, w.clock⟩
    Inv o s (order ++ [d]) { w with
      state := (o.call w.state c).2
      clock := w.clock + 1
      history := w.history ++ [d] } where
  explains.perm := h.explains.perm.append_right _
  explains.answers := by
    have hlast : Run.final o.call s (order.map Done.call) = w.state := h.explains.state.symm
    rw [List.map_append, List.map_append, Run.answers_append, h.explains.answers, hlast]
    rfl
  explains.state := by
    rw [after_append, ← h.explains.state]
    rfl
  explains.realTime := by
    refine List.pairwise_append.mpr ⟨h.explains.realTime, List.pairwise_singleton _ _, ?_⟩
    intro e he d hd
    rw [List.mem_singleton.mp hd]
    exact Nat.not_lt.mpr (h.past e (h.explains.perm.subset he)).1
  inside u p hp := by
    have hu := h.inside u p hp
    obtain ⟨pre, post, rfl, hslot⟩ := hu.slot
    exact ⟨⟨pre, _, List.append_assoc .., hslot.snoc hc hu.began⟩, hu.split,
      Nat.le_succ_of_le hu.began⟩
  past e he := by
    rcases List.mem_append.mp he with he | he
    · exact h.past_later e he
    · rw [List.mem_singleton.mp he]
      exact ⟨Nat.le_succ _, Nat.lt_succ_self _⟩

/-- The slot of a call that has just read the selector is at the end of the order. -/
theorem Inv.enter [DecidableEq T] (h : Inv o s order w) {c : C} (hc : o.split c = true) (t : T) :
    Inv o s order { w with
      inside := Function.update w.inside t (some ⟨o.selector w.state, c, w.clock⟩)
      clock := w.clock + 1 } where
  explains := ⟨h.explains.perm, h.explains.answers, h.explains.state, h.explains.realTime⟩
  inside := by
    refine forall_update (fun u p _ hp => (h.inside u p hp).later) ?_
    intro p hp
    rw [← Option.some.inj hp]
    refine ⟨⟨order, [], (List.append_nil _).symm, ?_, trivial, fun _ hd => nomatch hd⟩, hc,
      Nat.le_succ _⟩
    rw [← h.explains.state]
  past := h.past_later

/-- A call that finishes is put into its slot. -/
theorem Inv.finish [DecidableEq T] (h : Inv o s order w) {t : T} {p : Open K C}
    (hp : w.inside t = some p) :
    let d : Done T C R := ⟨t, p.call, (o.act p.part p.call w.state).1, p.began, w.clock⟩
    ∃ pre post, order = pre ++ post ∧ Inv o s (pre ++ d :: post) {
      state := (o.act p.part p.call w.state).2
      inside := Function.update w.inside t none
      clock := w.clock + 1
      history := w.history ++ [d] } := by
  intro d
  have hu := h.inside t p hp
  obtain ⟨pre, post, rfl, hslot⟩ := hu.slot
  have hlast : Run.final o.call (after o s pre) (post.map Done.call) = w.state := by
    rw [← after_append, h.explains.state]
  obtain ⟨hans, hact, hstate⟩ := run_act hslot.misses p.call
  rw [hlast] at hact hstate
  have hcall : o.call (after o s pre) p.call = o.act p.part p.call (after o s pre) := by
    rw [o.call_split _ _ hu.split, hslot.selector]
  have hbefore := List.pairwise_append.mp h.explains.realTime
  refine ⟨pre, post, rfl, ⟨?_, ?_, ?_, ?_⟩, ?_, ?_⟩
  · calc (pre ++ d :: post).Perm (d :: (pre ++ post)) := List.perm_middle
      _ |>.Perm (d :: w.history) := h.explains.perm.cons d
      _ |>.Perm (w.history ++ [d]) := (List.perm_append_singleton d _).symm
  · -- the answers in front are as before, and those behind do not see the call
    have hsame := h.explains.answers
    rw [List.map_append, List.map_append, Run.answers_append] at hsame
    obtain ⟨hpre, hpost⟩ := List.append_inj hsame (by simp [Run.length_answers])
    have hpost' : post.map Done.answer =
        Run.answers o.call (after o s pre) (post.map Done.call) := hpost
    rw [List.map_append, List.map_append, Run.answers_append, hpre, List.map_cons, List.map_cons,
      Run.answers_cons]
    change _ = _ ++ (o.call (after o s pre) p.call).1 ::
      Run.answers o.call (o.call (after o s pre) p.call).2 _
    rw [hcall, hans, ← hpost', ← hact]
  · rw [after_cons_split hslot.selector hu.split, hstate]
  · refine List.pairwise_append.mpr ⟨hbefore.1, List.pairwise_cons.mpr ⟨?_, hbefore.2.1⟩, ?_⟩
    · exact fun e he => Nat.not_lt.mpr (hslot.ended e he)
    · intro e he e' he'
      rcases List.mem_cons.mp he' with rfl | he'
      · have hmem := h.explains.perm.subset (List.mem_append_left post he)
        exact Nat.not_lt.mpr (h.past e hmem).1
      · exact hbefore.2.2 e he e' he'
  · refine forall_update (fun u q _ hq => ?_) (fun _ hq => nomatch hq)
    have hv := h.inside u q hq
    obtain ⟨pre', post', horder, hslot'⟩ := hv.slot
    exact ⟨hslot.insert hu.split hslot' horder hv.began, hv.split, Nat.le_succ_of_le hv.began⟩
  · intro e he
    rcases List.mem_append.mp he with he | he
    · exact h.past_later e he
    · rw [List.mem_singleton.mp he]
      exact ⟨Nat.le_succ_of_le hu.began, Nat.lt_succ_self _⟩

theorem Inv.step [DecidableEq T] (h : Inv o s order w) (e : Event T C) :
    ∃ order', Inv o s order' (step o w e).2 := by
  cases e with
  | enter t c =>
    cases hin : w.inside t with
    | some p => exact ⟨order, by simpa only [TwoSection.step, hin] using h.tick⟩
    | none =>
      cases hc : o.split c with
      | false =>
        exact ⟨_, by simpa only [TwoSection.step, hin, hc, Bool.false_eq_true, if_false]
          using h.whole hc t⟩
      | true => exact ⟨order, by simpa only [TwoSection.step, hin, hc, if_true] using h.enter hc t⟩
  | finish t =>
    cases hin : w.inside t with
    | none => exact ⟨order, by simpa only [TwoSection.step, hin] using h.tick⟩
    | some p =>
      obtain ⟨pre, post, -, hinv⟩ := h.finish hin
      exact ⟨_, by simpa only [TwoSection.step, hin] using hinv⟩

end

/-- **Linearizability.**  Whatever the interleaving of the critical sections, the calls that
returned have an order that explains their answers and the state. -/
theorem linearizable [DecidableEq T] (o : Object S K C R) (s : S) (events : List (Event T C)) :
    ∃ order, Explains o s order (Run.final (step o) (World.init s) events) := by
  have hinv : ∃ order, Inv o s order (Run.final (step o) (World.init s) events) :=
    Run.final_invariant (I := fun w => ∃ order, Inv o s order w)
      (fun _ e ⟨_, h⟩ => h.step e) ⟨[], inv_init o s⟩ events
  obtain ⟨order, h⟩ := hinv
  exact ⟨order, h.explains⟩

end TwoSection
