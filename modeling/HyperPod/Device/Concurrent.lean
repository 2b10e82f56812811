import HyperPod.Device.RegisterFile
import HyperPod.Lib.TwoSection

/-!
# Register accesses from many threads

`VirtioMmio` is shared: `read32` and `write32` take `&self`, and its state is behind one
mutex and each queue behind another.  An access to a register of the selected queue locks
the state to read `queue_sel`, lets go of it, and locks that queue; any other access is in
one critical section at most.  So the selector may move while an access is on its way to
the queue, and the access still goes to the queue that was selected before.

All the same the accesses are linearizable (`accesses_linearizable`): they are answered,
and leave the device, as they would be in some sequence of plain `read32`s and `write32`s
that keeps their order in time.  What holds of all such sequences holds of the shared
device (`registers_of_threads`).
-/

namespace HyperPod

open TwoSection

/-- One access of a thread to the transport. -/
inductive MmioAccess where
  | read (offset : UInt64)
  | write (offset : UInt64) (val : UInt32)
deriving Repr, DecidableEq

/-- What `read32` or `write32` returns. -/
inductive MmioReply where
  | value (val : UInt32)
  | notify (queue : Option UInt32)
deriving Repr, DecidableEq

namespace MmioAccess

/-- The accesses that go through `selected_queue` or `mutate_selected_queue`. -/
def onSelectedQueue : MmioAccess → Bool
  | .read offset =>
    match Reg.ofOffset offset with
    | some .queueNumMax | some .queueReady => true
    | _ => false
  | .write offset _ =>
    match Reg.ofOffset offset with
    | some .queueNum | some .queueReady
    | some .queueDescLow | some .queueDescHigh
    | some .queueAvailLow | some .queueAvailHigh
    | some .queueUsedLow | some .queueUsedHigh => true
    | _ => false

/-- The writes among some accesses. -/
def writes (as : List MmioAccess) : List MmioWrite :=
  as.filterMap fun
    | .read _ => none
    | .write offset val => some (offset, val)

end MmioAccess

namespace VirtioMmio

/-- An access done at once. -/
def access (d : VirtioMmio) : MmioAccess → MmioReply × VirtioMmio
  | .read offset => (.value (d.read32 offset), d)
  | .write offset val =>
    let r := d.write32 offset val
    (.notify r.1, r.2)

/-- `selected_queue` once it has read the selector. -/
def readQueue {α : Type} (d : VirtioMmio) (sel : Nat) (f : VirtQueue → α) : Option α :=
  d.queues[sel]?.map f

/-- `mutate_selected_queue` once it has read the selector. -/
def mutateQueue (d : VirtioMmio) (sel : Nat) (f : VirtQueue → VirtQueue) : VirtioMmio :=
  { d with queues := d.queues.modify sel f }

/-- The critical section of an access in which it holds the lock of queue `sel`. -/
def accessQueue (sel : Nat) : MmioAccess → VirtioMmio → MmioReply × VirtioMmio
  | .read offset, d =>
    match Reg.ofOffset offset with
    | some .queueNumMax => (.value ((d.readQueue sel fun q => q.sizeMax).getD 0), d)
    | some .queueReady => (.value ((d.readQueue sel fun q => if q.ready then 1 else 0).getD 0), d)
    | _ => (.value 0, d)
  | .write offset val, d =>
    (.notify none, d.mutateQueue sel (queueWrite (Reg.ofOffset offset) val))

/-! ## What the critical sections see of each other -/

theorem access_onSelectedQueue (d : VirtioMmio) (a : MmioAccess) (h : a.onSelectedQueue = true) :
    d.access a = accessQueue d.state.queueSel.toNat a d := by
  cases a with
  | read offset =>
    simp only [MmioAccess.onSelectedQueue] at h
    simp only [access, read32, accessQueue]
    revert h
    cases Reg.ofOffset offset with
    | none => exact nofun
    | some r =>
      cases r <;> first
        | exact fun _ => rfl
        | exact nofun
  | write offset val =>
    simp only [MmioAccess.onSelectedQueue] at h
    simp only [access, write32, accessQueue]
    revert h
    cases Reg.ofOffset offset with
    | none => exact nofun
    | some r =>
      cases r <;> first
        | exact fun _ => rfl
        | exact nofun

/-- What an access does to the queue whose lock it holds. -/
def queueEffect : MmioAccess → VirtQueue → VirtQueue
  | .read _ => id
  | .write offset val => queueWrite (Reg.ofOffset offset) val

theorem snd_accessQueue (sel : Nat) (a : MmioAccess) (d : VirtioMmio) :
    (accessQueue sel a d).2 = d.mutateQueue sel (queueEffect a) := by
  cases a with
  | read offset =>
    have hid : d = d.mutateQueue sel id := by
      unfold mutateQueue
      rw [List.modify_id]
    refine Eq.trans ?_ hid
    simp only [accessQueue]
    cases Reg.ofOffset offset with
    | none => rfl
    | some r => cases r <;> rfl
  | write offset val => rfl

/-- The reply depends on that queue alone. -/
theorem fst_accessQueue_congr {sel : Nat} {d e : VirtioMmio} (h : d.queues[sel]? = e.queues[sel]?)
    (a : MmioAccess) : (accessQueue sel a d).1 = (accessQueue sel a e).1 := by
  cases a with
  | read offset =>
    simp only [accessQueue, readQueue]
    cases Reg.ofOffset offset with
    | none => rfl
    | some r =>
      cases r <;> first
        | rfl
        | simp only [h]
  | write offset val => rfl

theorem getElem?_mutateQueue_ne {k l : Nat} (h : l ≠ k) (d : VirtioMmio)
    (f : VirtQueue → VirtQueue) : (d.mutateQueue k f).queues[l]? = d.queues[l]? := by
  have hkl : ¬ k = l := fun hkl => h hkl.symm
  simp only [mutateQueue, List.getElem?_modify, if_neg hkl]
  cases d.queues[l]? <;> rfl

theorem mutateQueue_comm {k l : Nat} (h : l ≠ k) (d : VirtioMmio) (f g : VirtQueue → VirtQueue) :
    (d.mutateQueue k f).mutateQueue l g = (d.mutateQueue l g).mutateQueue k f := by
  unfold mutateQueue
  congr 1
  apply List.ext_getElem?
  intro i
  simp only [List.getElem?_modify]
  by_cases hk : k = i
  · have hl : ¬ l = i := fun hl => h (hl.trans hk.symm)
    simp only [if_pos hk, if_neg hl]
    cases d.queues[i]? <;> rfl
  · simp only [if_neg hk]
    cases d.queues[i]? <;> rfl

/-- An access that does not go to a queue does not see what happens to one, -/
theorem access_mutateQueue {c : MmioAccess} (h : c.onSelectedQueue = false) (d : VirtioMmio)
    (k : Nat) (f : VirtQueue → VirtQueue) :
    (d.mutateQueue k f).access c = ((d.access c).1, (d.access c).2.mutateQueue k f) := by
  cases c with
  | read offset =>
    simp only [MmioAccess.onSelectedQueue] at h
    simp only [access, read32]
    revert h
    cases Reg.ofOffset offset with
    | none => exact fun _ => rfl
    | some r =>
      cases r <;> first
        | exact fun _ => rfl
        | exact nofun
  | write offset val =>
    simp only [MmioAccess.onSelectedQueue] at h
    simp only [access, write32]
    revert h
    cases Reg.ofOffset offset with
    | none => exact fun _ => rfl
    | some r =>
      cases r <;> first
        | exact fun _ => rfl
        | exact nofun

/-- and changes none. -/
theorem queues_access {c : MmioAccess} (h : c.onSelectedQueue = false) (d : VirtioMmio) :
    (d.access c).2.queues = d.queues := by
  cases c with
  | read offset => rfl
  | write offset val =>
    simp only [MmioAccess.onSelectedQueue] at h
    simp only [access, write32]
    revert h
    cases Reg.ofOffset offset with
    | none => exact fun _ => rfl
    | some r =>
      cases r <;> first
        | exact fun _ => rfl
        | exact nofun

/-- The transport as an object whose accesses to a queue take two critical sections. -/
def shared : Object VirtioMmio Nat MmioAccess MmioReply where
  call := access
  split := MmioAccess.onSelectedQueue
  selector d := d.state.queueSel.toNat
  act := accessQueue
  call_split := access_onSelectedQueue
  selector_act k a d := by rw [snd_accessQueue]; rfl
  call_act k a d c hc := by
    rw [snd_accessQueue, snd_accessQueue, access_mutateQueue hc]
    exact ⟨rfl, fst_accessQueue_congr (by rw [queues_access hc]) a, rfl⟩
  act_act k l a b d hlk := by
    simp only [snd_accessQueue]
    exact ⟨fst_accessQueue_congr (getElem?_mutateQueue_ne hlk d _) b,
      fst_accessQueue_congr (getElem?_mutateQueue_ne hlk.symm d _) a, mutateQueue_comm hlk d _ _⟩

/-! ## Any number of threads -/

variable {T : Type} [DecidableEq T]

/-- The transport after the critical sections `events` of its threads. -/
def interleaved (d : VirtioMmio) (events : List (Event T MmioAccess)) :
    World T VirtioMmio Nat MmioAccess MmioReply :=
  Run.final (TwoSection.step shared) (World.init d) events

/-- **The transport is linearizable.**  Whatever the interleaving of the critical sections,
the accesses that returned have an order in which plain `read32`s and `write32`s give the
same replies and the same state, and in which none comes after one that began when it had
already ended. -/
theorem accesses_linearizable (d : VirtioMmio) (events : List (Event T MmioAccess)) :
    let w := interleaved d events
    ∃ order : List (Done T MmioAccess MmioReply),
      order.Perm w.history ∧
      order.map Done.answer = Run.answers access d (order.map Done.call) ∧
      w.state = Run.final access d (order.map Done.call) ∧
      order.Pairwise fun a b => ¬ b.ended < a.began := by
  obtain ⟨order, h⟩ := linearizable shared d events
  exact ⟨order, h.perm, h.answers, h.state, h.realTime⟩

/-- A thread that is on its way to queue 0 gets there although another selects queue 1. -/
example :
    (interleaved (new 2 0x1af4 0 [256, 64])
      [.enter true (.write Reg.queueNum.offset 128), .enter false (.write Reg.queueSel.offset 1),
        .finish true]).state.queues.map VirtQueue.size = [128, 0] := by decide

end VirtioMmio
end HyperPod
