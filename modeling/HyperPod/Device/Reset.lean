import HyperPod.Device.Mmio

/-!
# Writing 0 to `STATUS`

`Call` is what can be done to the transport: guest writes and reads, and pops by the
device.  A guest resets a device by writing 0 to `STATUS`; this transport stores the 0 and
keeps everything else (`write32_status`), so that from then on only reads of `STATUS`
tell the two runs apart, and only until `STATUS` is written again (`answers_after_status`).
-/

namespace HyperPod

open Machine

namespace VirtioMmio

inductive Call where
  | write (offset : UInt64) (val : UInt32)
  | read (offset : UInt64)
  /-- the device takes the next chain off queue `i`, in RAM as it is then -/
  | pop (i : Nat) (ram : GuestRam)

inductive Reply where
  /-- of a write: the queue to notify -/
  | notify (queue : Option UInt32)
  | value (val : UInt32)
  /-- of a pop: `none` if there is no such queue -/
  | chain (result : Option (Result (Option DescriptorChain)))

/-- `DescriptorChain::pop` on queue `i` of the transport. -/
def popQueue (p : Profile) (d : VirtioMmio) (i : Nat) (ram : GuestRam) :
    Option (Result (Option DescriptorChain)) × VirtioMmio :=
  match d.queues[i]? with
  | none => (none, d)
  | some q =>
    let popped := (DescriptorChain.pop p ram).run q
    (some popped.1, { d with queues := d.queues.set i popped.2 })

def serve (p : Profile) (d : VirtioMmio) : Call → Reply × VirtioMmio
  | .write offset val => ((.notify (d.write32 offset val).1), (d.write32 offset val).2)
  | .read offset => (.value (d.read32 offset), d)
  | .pop i ram => (.chain (d.popQueue p i ram).1, (d.popQueue p i ram).2)

/-- A new device with the same identity, features, config and queue sizes. -/
def renew (d : VirtioMmio) : VirtioMmio :=
  { new d.deviceId d.vendorId d.deviceFeatures (d.queues.map VirtQueue.sizeMax) with
    config := d.config }

/-! ## The status is apart from the rest of the transport -/

def withStatus (d : VirtioMmio) (val : UInt32) : VirtioMmio :=
  d.mutateState fun s => { s with status := val }

theorem write32_status (d : VirtioMmio) (val : UInt32) :
    d.write32 Reg.status.offset val = (none, d.withStatus val) := rfl

theorem write32_withStatus {d : VirtioMmio} {offset : UInt64}
    (h : Reg.ofOffset offset ≠ some .status) (v val : UInt32) :
    (d.withStatus v).write32 offset val =
      ((d.write32 offset val).1, (d.write32 offset val).2.withStatus v) := by
  unfold write32
  cases hreg : Reg.ofOffset offset with
  | none => rfl
  | some r =>
    cases r <;> first
      | rfl
      | exact absurd hreg h

/-- A new status replaces the old one. -/
theorem write32_status_withStatus {d : VirtioMmio} {offset : UInt64}
    (h : Reg.ofOffset offset = some .status) (v val : UInt32) :
    (d.withStatus v).write32 offset val = d.write32 offset val := by
  unfold write32
  rw [h]
  rfl

theorem read32_withStatus (d : VirtioMmio) (offset : UInt64) (v : UInt32) :
    (d.withStatus v).read32 offset =
      if Reg.ofOffset offset = some .status then v else d.read32 offset := by
  unfold read32
  cases Reg.ofOffset offset with
  | none => rfl
  | some r => cases r <;> rfl

theorem popQueue_withStatus (p : Profile) (d : VirtioMmio) (i : Nat) (ram : GuestRam)
    (v : UInt32) :
    (d.withStatus v).popQueue p i ram =
      ((d.popQueue p i ram).1, (d.popQueue p i ram).2.withStatus v) := by
  show (match d.queues[i]? with
    | none => (none, d.withStatus v)
    | some q => _) = _
  unfold popQueue
  cases d.queues[i]? with
  | none => rfl
  | some q => rfl

/-! ## Two runs -/

/-- The replies `rs` to `calls` with reads of `STATUS` answered by `v` until it is written. -/
def readingStatus (v : UInt32) : List Call → List Reply → List Reply
  | .write offset _ :: calls, r :: rs =>
    r :: if Reg.ofOffset offset = some .status then rs else readingStatus v calls rs
  | .read offset :: calls, r :: rs =>
    (if Reg.ofOffset offset = some .status then .value v else r) :: readingStatus v calls rs
  | .pop _ _ :: calls, r :: rs => r :: readingStatus v calls rs
  | _, rs => rs

/-- Two devices that differ in the status only. -/
theorem answers_withStatus (p : Profile) (d : VirtioMmio) (v : UInt32) (calls : List Call) :
    Run.answers (serve p) (d.withStatus v) calls =
      readingStatus v calls (Run.answers (serve p) d calls) := by
  induction calls generalizing d with
  | nil => rfl
  | cons c calls ih =>
    rw [Run.answers_cons, Run.answers_cons]
    cases c with
    | write offset val =>
      show Reply.notify _ :: Run.answers (serve p) ((d.withStatus v).write32 offset val).2 calls = _
      by_cases h : Reg.ofOffset offset = some .status
      · rw [write32_status_withStatus h]
        show _ = _ :: if Reg.ofOffset offset = some .status then _ else _
        rw [if_pos h]
        rfl
      · rw [write32_withStatus h, ih]
        show _ = _ :: if Reg.ofOffset offset = some .status then _ else _
        rw [if_neg h]
        rfl
    | read offset =>
      show Reply.value ((d.withStatus v).read32 offset) ::
        Run.answers (serve p) (d.withStatus v) calls = _
      rw [read32_withStatus, ih]
      show _ = (if Reg.ofOffset offset = some .status then _ else _) :: _
      split
      · rfl
      · rfl
    | pop i ram =>
      show Reply.chain ((d.withStatus v).popQueue p i ram).1 ::
        Run.answers (serve p) ((d.withStatus v).popQueue p i ram).2 calls = _
      rw [popQueue_withStatus, ih]
      rfl

/-- With its status cleared the transport is the new one exactly when the rest is. -/
theorem withStatus_zero_eq_renew {d : VirtioMmio} :
    d.withStatus 0 = d.renew ↔
      d.queues = d.renew.queues ∧ d.state = { d.renew.state with status := d.state.status } := by
  constructor
  · intro h
    have hqueues : (d.withStatus 0).queues = d.renew.queues := by rw [h]
    have hstate : (d.withStatus 0).state = d.renew.state := by rw [h]
    refine ⟨hqueues, ?_⟩
    rw [← hstate]
    rfl
  · rintro ⟨hqueues, hstate⟩
    show { d with state := { d.state with status := 0 } } = d.renew
    rw [hstate]
    calc ({ d with state := { d.renew.state with status := 0 } } : VirtioMmio)
        = { d with state := d.renew.state, queues := d.queues } := rfl
      _ = { d with state := d.renew.state, queues := d.renew.queues } := by rw [← hqueues]
      _ = d.renew := rfl

/-- **Writing 0 to `STATUS`** clears the status and nothing else: later calls are answered
as without it, but for reads of `STATUS` up to its next write, and the transport is the new
one exactly when it was that before, status apart. -/
theorem answers_after_status (p : Profile) (d : VirtioMmio) (later : List Call) :
    d.write32 Reg.status.offset 0 =
      (none, { d with state := { d.state with status := 0 } }) ∧
    Run.answers (serve p) (d.write32 Reg.status.offset 0).2 later =
      readingStatus 0 later (Run.answers (serve p) d later) ∧
    ((d.write32 Reg.status.offset 0).2 = d.renew ↔
      d.queues = d.renew.queues ∧
        d.state = { d.renew.state with status := d.state.status }) := by
  rw [write32_status]
  exact ⟨rfl, answers_withStatus p d 0 later, withStatus_zero_eq_renew⟩

/-- A queue that was ready stays ready. -/
theorem status_is_no_reset :
    ¬ ∀ (p : Profile) (d : VirtioMmio) (history later : List Call),
      Run.answers (serve p)
          ((Run.final (serve p) d.renew history).write32 Reg.status.offset 0).2 later =
        Run.answers (serve p) d.renew later := by
  intro h
  have h1 := h .release (new 2 0x1af4 0 [256]) [.write Reg.queueReady.offset 1]
    [.read Reg.queueReady.offset]
  have h2 : [Reply.value 1] = [Reply.value 0] := h1
  cases h2

end VirtioMmio
end HyperPod
