import HyperPod.Lib.Bytes
import HyperPod.Lib.Outcome
import HyperPod.Lib.Run

/-!
# Port I/O in the two run loops: `serial.rs`, `windows/vm.rs`, `linux/vm.rs`

`whpx` and `kvm` are what one port access does in the run loop of either backend, with
what the hypervisor does around it.  KVM hands out a zero-filled buffer for an `IN` and
merges it into RAX by the size of the access; WHPX leaves RAX to the run loop, which
overwrites all of it for a serial port and nothing for another port.  The two agree along a
run exactly when RAX has nothing in the bits they treat differently (`backends_agree_iff`).
-/

namespace HyperPod

open Machine Bytes

/-! ## The serial port -/

namespace Serial

def serialPortBase : UInt16 := 0x3f8
def serialPortEnd : UInt16 := 0x3ff
def regThr : UInt16 := 0
def regLsr : UInt16 := 5
def lsrThre : UInt8 := 0x20
def lsrTemt : UInt8 := 0x40

def handles (port : UInt16) : Bool := serialPortBase ≤ port && port ≤ serialPortEnd

/-- The bytes a write appends to the output. -/
def write (port : UInt16) (data : List UInt8) : List UInt8 :=
  let reg := port - serialPortBase
  if reg = regThr ∧ data ≠ [] then data.take 1 else []

/-- The buffer after a read. -/
def read (port : UInt16) (data : List UInt8) : List UInt8 :=
  match data with
  | [] => []
  | _ :: rest =>
    let reg := port - serialPortBase
    (if reg = regLsr then lsrThre ||| lsrTemt else 0) :: rest

end Serial

/-! ## One port access -/

inductive AccessSize where
  | byte
  | word
  | dword
deriving Repr, DecidableEq

def AccessSize.bytes : AccessSize → Nat
  | .byte => 1
  | .word => 2
  | .dword => 4

/-- The bits of RAX that an `IN` of this size writes. -/
def AccessSize.mask : AccessSize → UInt64
  | .byte => 0xff
  | .word => 0xffff
  | .dword => 0xffffffffffffffff

structure Regs where
  rax : UInt64
  rip : UInt64
deriving Repr, DecidableEq

/-- A port access the guest comes to, and the instruction that makes it. -/
structure PortAccess where
  isWrite : Bool
  port : UInt16
  size : AccessSize
  instructionByteCount : UInt8
deriving Repr, DecidableEq

/-- What the guest does to its registers since the last access, and the access. -/
structure PortEvent where
  guest : Regs → Regs
  access : PortAccess

/-- What one access does: the bytes appended to the serial output and the RAX it leaves. -/
abbrev PortReply := Result (List UInt8 × UInt64)

/-! ## WHPX -/

/-- `WHV_X64_IO_PORT_ACCESS_CONTEXT`, as far as the run loop reads it. -/
structure IoPortAccess where
  portNumber : UInt16
  accessInfo : UInt32
  rax : UInt64
  instructionByteCount : UInt8

/-- `WHV_X64_IO_PORT_ACCESS_INFO`: bit 0 is the direction, bits 1 to 3 are the size. -/
def accessInfo (isWrite : Bool) (size : AccessSize) : UInt32 :=
  (if isWrite then 1 else 0 : UInt32) ||| (UInt32.ofNat size.bytes <<< 1)

/-- The exit WHPX reports. -/
def PortAccess.exit (a : PortAccess) (rax : UInt64) : IoPortAccess where
  portNumber := a.port
  accessInfo := accessInfo a.isWrite a.size
  rax := rax
  instructionByteCount := a.instructionByteCount

/-- The `X64IoPortAccess` arm of the run loop, from the RIP of the exit. -/
def handleIoPortAccess (p : Profile) (rip : UInt64) (io : IoPortAccess) :
    Act Regs (List UInt8) := do
  let port := io.portNumber
  let rawInfo := io.accessInfo
  let isWrite := rawInfo &&& 1 ≠ 0
  let accessSize := ((rawInfo >>> 1) &&& 0x7).toNat
  let nextRip ← Act.lift (fit p 64 (rip.toNat + io.instructionByteCount.toNat))
  if Serial.handles port ∧ isWrite then
    let bytes := leBytes 8 io.rax.toNat
    let n := max (min accessSize 4) 1
    let out := Serial.write port (bytes.take n)
    let regs ← Act.get
    Act.set { regs with rip := UInt64.ofNat nextRip }
    return out
  else if Serial.handles port then
    let buf := List.replicate 4 (0 : UInt8)
    let n := max (min accessSize 4) 1
    let buf := Serial.read port (buf.take n) ++ buf.drop n
    let newRax := (UInt32.ofNat (leVal buf)).toUInt64
    Act.set { rax := newRax, rip := UInt64.ofNat nextRip }
    return []
  else
    let regs ← Act.get
    Act.set { regs with rip := UInt64.ofNat nextRip }
    return []

/-- One access under WHPX, which itself changes no register. -/
def whpx (p : Profile) (r : Regs) (e : PortEvent) : PortReply × Regs :=
  let r := e.guest r
  let served := (handleIoPortAccess p r.rip (e.access.exit r.rax)).run r
  (served.1.map fun out => (out, served.2.rax), served.2)

/-! ## KVM -/

inductive VcpuExit where
  | ioIn (port : UInt16) (data : List UInt8)
  | ioOut (port : UInt16) (data : List UInt8)

/-- The port I/O arms of the run loop: the bytes appended, and the data of the exit after it. -/
def handleVcpuExit : VcpuExit → List UInt8 × List UInt8
  | .ioIn port data => if Serial.handles port then ([], Serial.read port data) else ([], data)
  | .ioOut port data => if Serial.handles port then (Serial.write port data, data) else ([], data)

/-- The exit KVM reports: the low bytes of RAX, or zeros. -/
def PortAccess.vcpuExit (a : PortAccess) (rax : UInt64) : VcpuExit :=
  if a.isWrite then .ioOut a.port (leBytes a.size.bytes rax.toNat)
  else .ioIn a.port (List.replicate a.size.bytes 0)

/-- RAX after the kernel has completed the access. -/
def PortAccess.complete (a : PortAccess) (rax : UInt64) (data : List UInt8) : UInt64 :=
  if a.isWrite then rax
  else (rax &&& ~~~a.size.mask) ||| UInt64.ofNat (leVal data)

/-- One access under KVM, which advances RIP itself. -/
def kvm (r : Regs) (e : PortEvent) : PortReply × Regs :=
  let r := e.guest r
  let handled := handleVcpuExit (e.access.vcpuExit r.rax)
  let rax := e.access.complete r.rax handled.2
  (.ok (handled.1, rax), ⟨rax, r.rip + e.access.instructionByteCount.toUInt64⟩)

/-! ## What an access does, without the encoding of the exit -/

theorem accessInfo_isWrite (isWrite : Bool) (size : AccessSize) :
    accessInfo isWrite size &&& 1 ≠ 0 ↔ isWrite = true := by
  cases isWrite <;> cases size <;> decide

theorem accessInfo_size (isWrite : Bool) (size : AccessSize) :
    ((accessInfo isWrite size >>> 1) &&& 0x7).toNat = size.bytes := by
  cases isWrite <;> cases size <;> decide

theorem AccessSize.clamp_bytes (size : AccessSize) : max (min size.bytes 4) 1 = size.bytes := by
  cases size <;> rfl

theorem AccessSize.take_leBytes (size : AccessSize) (v : Nat) :
    (leBytes 8 v).take size.bytes = leBytes size.bytes v := by
  cases size <;> rfl

namespace PortAccess

/-- The bytes an access appends. -/
def output (a : PortAccess) (rax : UInt64) : List UInt8 :=
  if Serial.handles a.port ∧ a.isWrite = true then
    Serial.write a.port (leBytes a.size.bytes rax.toNat)
  else []

/-- What a port gives an `IN`: the line status, or 0. -/
def value (a : PortAccess) : UInt64 :=
  if Serial.handles a.port ∧ a.port - Serial.serialPortBase = Serial.regLsr then 0x60 else 0

theorem leVal_read (a : PortAccess) (h : Serial.handles a.port = true) :
    UInt64.ofNat (leVal (Serial.read a.port (List.replicate a.size.bytes 0))) = a.value := by
  unfold value Serial.read
  by_cases hlsr : a.port - Serial.serialPortBase = Serial.regLsr
  · cases a.size <;> simp [h, hlsr] <;> rfl
  · cases a.size <;> simp [h, hlsr] <;> rfl

theorem value_of_not_handles (a : PortAccess) (h : ¬ Serial.handles a.port = true) :
    a.value = 0 :=
  if_neg fun hv => h hv.1

theorem leVal_replicate (size : AccessSize) :
    UInt64.ofNat (leVal (List.replicate size.bytes 0)) = 0 := by
  rw [leVal_zeros]
  rfl

/-- The four-byte buffer of the WHPX arm holds the same value. -/
theorem leVal_read_buf (a : PortAccess) (h : Serial.handles a.port = true) :
    (UInt32.ofNat (leVal (Serial.read a.port ((List.replicate 4 0).take a.size.bytes) ++
      (List.replicate 4 (0 : UInt8)).drop a.size.bytes))).toUInt64 = a.value := by
  unfold value Serial.read
  by_cases hlsr : a.port - Serial.serialPortBase = Serial.regLsr
  · cases a.size <;> simp [h, hlsr, AccessSize.bytes] <;> rfl
  · cases a.size <;> simp [h, hlsr, AccessSize.bytes] <;> rfl

end PortAccess

/-- RAX after an access under WHPX: an `IN` from the serial port overwrites all of it. -/
def whpxRax (a : PortAccess) (rax : UInt64) : UInt64 :=
  if Serial.handles a.port ∧ a.isWrite = false then a.value else rax

/-- RAX after an access under KVM: an `IN` overwrites the bits of its size. -/
def kvmRax (a : PortAccess) (rax : UInt64) : UInt64 :=
  if a.isWrite then rax else (rax &&& ~~~a.size.mask) ||| a.value

theorem run_handleIoPortAccess {p : Profile} {a : PortAccess} {r : Regs} {next : Nat}
    (h : (fit p 64 (r.rip.toNat + a.instructionByteCount.toNat) : Result Nat) = .ok next) :
    (handleIoPortAccess p r.rip (a.exit r.rax)).run r =
      (.ok (a.output r.rax), ⟨whpxRax a r.rax, UInt64.ofNat next⟩) := by
  have hwrite := accessInfo_isWrite a.isWrite a.size
  have hsize := accessInfo_size a.isWrite a.size
  unfold handleIoPortAccess PortAccess.exit PortAccess.output whpxRax
  simp only [h, hsize, a.size.clamp_bytes, a.size.take_leBytes, Act.run_lift_ok_bind]
  by_cases hport : Serial.handles a.port = true
  · cases hw : a.isWrite with
    | true =>
      have hbit := hwrite.mpr hw
      rw [hw] at hbit
      rw [if_pos ⟨hport, hbit⟩]
      simp [hport]
    | false =>
      have hbit : ¬ accessInfo a.isWrite a.size &&& 1 ≠ 0 := fun hb => by
        rw [hwrite.mp hb] at hw
        cases hw
      rw [hw] at hbit
      rw [if_neg (fun hb => hbit hb.2), if_pos hport, a.leVal_read_buf hport]
      simp [hport]
  · simp [hport]

theorem kvm_eq (r : Regs) (e : PortEvent) :
    kvm r e =
      (.ok (e.access.output (e.guest r).rax, kvmRax e.access (e.guest r).rax),
        ⟨kvmRax e.access (e.guest r).rax,
          (e.guest r).rip + e.access.instructionByteCount.toUInt64⟩) := by
  unfold kvm handleVcpuExit PortAccess.vcpuExit PortAccess.complete PortAccess.output kvmRax
  cases hw : e.access.isWrite with
  | true =>
    by_cases hport : Serial.handles e.access.port = true
    · simp [hport]
    · simp [hport]
  | false =>
    by_cases hport : Serial.handles e.access.port = true
    · simp [hport, e.access.leVal_read hport]
    · simp [hport, PortAccess.leVal_replicate, e.access.value_of_not_handles hport]

/-! ## When the two agree -/

/-- The bits outside the mask are what keeps a merged value from being the value. -/
theorem merge_eq_value_iff {a m v : UInt64} (hv : v &&& ~~~m = 0) :
    (a &&& ~~~m) ||| v = v ↔ a &&& ~~~m = 0 := by
  constructor
  · intro h
    have habsorb : (a &&& ~~~m) &&& ((a &&& ~~~m) ||| v) = a &&& ~~~m := by
      apply UInt64.toBitVec_inj.mp
      apply BitVec.eq_of_getLsbD_eq
      intro i hi
      simp
      grind
    calc a &&& ~~~m = (a &&& ~~~m) &&& ((a &&& ~~~m) ||| v) := habsorb.symm
      _ = a &&& (v &&& ~~~m) := by rw [h, UInt64.and_assoc, UInt64.and_comm (~~~m)]
      _ = 0 := by rw [hv, UInt64.and_zero]
  · intro h
    rw [h, UInt64.zero_or]

/-- The bits inside the mask are what a merged 0 clears. -/
theorem merge_zero_eq_self_iff {a m : UInt64} : (a &&& ~~~m) ||| 0 = a ↔ a &&& m = 0 := by
  rw [UInt64.or_zero]
  constructor
  · intro h
    rw [← h, UInt64.and_assoc, UInt64.not_and_self, UInt64.and_zero]
  · intro h
    apply UInt64.toBitVec_inj.mp
    apply BitVec.eq_of_getLsbD_eq
    intro i hi
    have hbit := congrArg (fun x : UInt64 => x.toBitVec.getLsbD i) h
    simp at hbit ⊢
    grind

/-- What the run loops need of an access to leave the guest alike: RIP does not overflow in
a debug build, and for an `IN` RAX is 0 in the bits that one of them leaves and the other
overwrites. -/
def Agrees (p : Profile) (r : Regs) (e : PortEvent) : Prop :=
  (p = .debug → (e.guest r).rip.toNat + e.access.instructionByteCount.toNat < 2 ^ 64) ∧
  (e.access.isWrite = false →
    if Serial.handles e.access.port then (e.guest r).rax &&& ~~~e.access.size.mask = 0
    else (e.guest r).rax &&& e.access.size.mask = 0)

instance (p : Profile) (r : Regs) (e : PortEvent) : Decidable (Agrees p r e) :=
  inferInstanceAs (Decidable (_ ∧ _))

theorem PortAccess.value_fits (a : PortAccess) : a.value &&& ~~~a.size.mask = 0 := by
  unfold PortAccess.value
  cases a.size <;> split <;> rfl

theorem whpxRax_eq_kvmRax_iff {a : PortAccess} {rax : UInt64} :
    whpxRax a rax = kvmRax a rax ↔ (a.isWrite = false →
      if Serial.handles a.port then rax &&& ~~~a.size.mask = 0 else rax &&& a.size.mask = 0) := by
  unfold whpxRax kvmRax
  cases hw : a.isWrite with
  | true => simp
  | false =>
    by_cases hport : Serial.handles a.port = true
    · rw [if_pos ⟨hport, rfl⟩, if_neg Bool.false_ne_true, if_pos hport, eq_comm,
        merge_eq_value_iff a.value_fits]
      simp
    · rw [if_neg (fun h => hport h.1), if_neg Bool.false_ne_true, if_neg hport,
        a.value_of_not_handles hport, eq_comm, merge_zero_eq_self_iff]
      simp

/-- The run loop of WHPX answers an access, unless it panics on RIP. -/
theorem whpx_of_fit {p : Profile} {r : Regs} {e : PortEvent} {next : Nat}
    (h : (fit p 64 ((e.guest r).rip.toNat + e.access.instructionByteCount.toNat) : Result Nat) =
      .ok next) :
    whpx p r e =
      (.ok (e.access.output (e.guest r).rax, whpxRax e.access (e.guest r).rax),
        ⟨whpxRax e.access (e.guest r).rax, UInt64.ofNat next⟩) := by
  unfold whpx
  simp only [run_handleIoPortAccess h, Outcome.map_ok]

/-- **One access.**  The two run loops give the same reply exactly under `Agrees`. -/
theorem reply_eq_iff (p : Profile) (r : Regs) (e : PortEvent) :
    (whpx p r e).1 = (kvm r e).1 ↔ Agrees p r e := by
  by_cases hrip : p = .debug ∧
      2 ^ 64 ≤ (e.guest r).rip.toNat + e.access.instructionByteCount.toNat
  · obtain ⟨rfl, hwrap⟩ := hrip
    have hpanic : (whpx .debug r e).1 = .panic := by
      unfold whpx handleIoPortAccess
      show Outcome.map _ ((Act.lift (fit .debug 64 ((e.guest r).rip.toNat +
        e.access.instructionByteCount.toNat)) >>= _).run (e.guest r)).1 = _
      rw [fit_debug_eq_panic hwrap]
      rfl
    rw [hpanic, kvm_eq]
    constructor
    · intro h
      cases h
    · rintro ⟨hfits, -⟩
      have hlt := hfits rfl
      omega
  · have hfits : p = .debug →
        (e.guest r).rip.toNat + e.access.instructionByteCount.toNat < 2 ^ 64 :=
      fun hp => Nat.not_le.mp fun hwrap => hrip ⟨hp, hwrap⟩
    obtain ⟨next, hnext⟩ := exists_fit_eq_ok hfits
    rw [whpx_of_fit hnext, kvm_eq]
    unfold Agrees
    rw [← whpxRax_eq_kvmRax_iff]
    constructor
    · intro h
      obtain ⟨-, hrax⟩ := Prod.mk.inj (Outcome.ok.inj h)
      exact ⟨hfits, hrax⟩
    · rintro ⟨-, hrax⟩
      rw [hrax]

/-- Then they leave the same registers. -/
theorem regs_eq_of_agrees {p : Profile} {r : Regs} {e : PortEvent} (h : Agrees p r e) :
    (whpx p r e).2 = (kvm r e).2 := by
  have hreply := (reply_eq_iff p r e).mpr h
  obtain ⟨next, hnext⟩ := exists_fit_eq_ok h.1
  have hrip : UInt64.ofNat next =
      (e.guest r).rip + e.access.instructionByteCount.toUInt64 := by
    apply UInt64.toNat_inj.mp
    rw [eq_mod_of_fit_eq_ok hnext]
    simp
  rw [whpx_of_fit hnext, kvm_eq] at hreply ⊢
  obtain ⟨-, hrax⟩ := Prod.mk.inj (Outcome.ok.inj hreply)
  rw [hrax, hrip]

/-- **The two backends emulate a run of port accesses alike exactly when every access of it
agrees.** -/
theorem backends_agree_iff (p : Profile) (r : Regs) (es : List PortEvent) :
    Run.answers (whpx p) r es = Run.answers kvm r es ↔ Run.Along kvm (Agrees p) r es :=
  Run.answers_eq_iff (reply_eq_iff p) (fun _ _ => regs_eq_of_agrees) r es

/-- The guest polls the line status with its loop counter above AL. -/
theorem backends_differ :
    ¬ ∀ p r es, Run.answers (whpx p) r es = Run.answers kvm r es := by
  intro h
  have hpoll := h .release ⟨0x1200, 0x100000⟩ [⟨id, ⟨false, 0x3fd, .byte, 1⟩⟩]
  revert hpoll
  decide

end HyperPod
