import HyperPod.RunKvm
import HyperPod.RunWhpx

/-!
# The two run loops on one guest

A guest runs up to an instruction that leaves it, is served and goes on: a port access, a
store to an address that is not RAM, HLT or a triple fault.  The registers that it goes on
with are those of KVM (`kvm`) or of WHPX (`whpx`), where they are what the run loop has set
(`run_ioPortAccess`).  As long as every step agrees, the two loops print the same and end
alike (`run_loops_agree`).
-/

namespace HyperPod

open Machine Bytes

/-- An instruction that leaves the guest, after what the guest does to its registers since
the last one.  A load from an address that is not RAM is none of them: it leaves the
register that it loads to the hypervisor. -/
inductive GuestStep where
  | port (event : PortEvent)
  | mmioWrite (guest : Regs → Regs) (gpa : UInt64) (instructionByteCount : UInt8)
  | halt
  | tripleFault

namespace GuestStep

/-- The exit that KVM reports, and the registers after it. -/
def kvmStep (r : Regs) : GuestStep → KvmExit × Regs
  | .port e => (.io (e.access.vcpuExit (e.guest r).rax), (kvm r e).2)
  | .mmioWrite guest gpa n => (.mmioWrite gpa, { guest r with rip := (guest r).rip + n.toUInt64 })
  | .halt => (.hlt, r)
  | .tripleFault => (.shutdown, r)

/-- The exit that WHPX reports, and the registers after it was handled. -/
def whpxStep (p : Profile) (r : Regs) : GuestStep → WhpxExit × Regs
  | .port e =>
    (.x64IoPortAccess (e.guest r).rip (e.access.exit (e.guest r).rax), (whpx p r e).2)
  | .mmioWrite guest gpa n =>
    (.memoryAccess (guest r).rip gpa n, { guest r with rip := (guest r).rip + n.toUInt64 })
  | .halt => (.x64Halt, r)
  | .tripleFault => (.unrecoverableException, r)

/-- A port access on which the backends agree; RIP does not overflow in a debug build. -/
def AgreesAt (p : Profile) (r : Regs) : GuestStep → Prop
  | .port e => Agrees p r e
  | .mmioWrite guest _ n => p = .debug → (guest r).rip.toNat + n.toNat < 2 ^ 64
  | .halt | .tripleFault => True

/-- The run loop ends here. -/
def ends : GuestStep → Bool
  | .halt | .tripleFault => true
  | .port _ | .mmioWrite _ _ _ => false

/-- The bytes that go to the serial port. -/
def output (r : Regs) : GuestStep → List UInt8
  | .port e => e.access.output (e.guest r).rax
  | _ => []

theorem next_eq_of_agreesAt {p : Profile} {r : Regs} {s : GuestStep} (h : s.AgreesAt p r) :
    (s.whpxStep p r).2 = (s.kvmStep r).2 := by
  cases s with
  | port e => exact regs_eq_of_agrees h
  | mmioWrite guest gpa n => rfl
  | halt => rfl
  | tripleFault => rfl

end GuestStep

/-- What a run has printed on the serial port. -/
def KvmCall.printed : KvmCall → List UInt8
  | .serial bytes => bytes
  | _ => []

def WhpxCall.printed : WhpxCall → List UInt8
  | .serial bytes => bytes
  | _ => []

def printed {κ : Type} (bytes : κ → List UInt8) : Log κ → List UInt8
  | [] => []
  | (c, _) :: log => printed bytes log ++ bytes c

@[simp] theorem printed_cons {κ : Type} (bytes : κ → List UInt8) (c : κ) (served : Bool)
    (log : Log κ) : printed bytes ((c, served) :: log) = printed bytes log ++ bytes c := rfl

/-! ## One access on WHPX -/

/-- RAX and RIP among the registers of a virtual processor. -/
def WhvRegisters.regs (registers : WhvRegisters) : Regs :=
  ⟨(registers .rax).asReg64, (registers .rip).asReg64⟩

/-- A turn in which WHPX serves both calls. -/
def WhpxExit.turn (exit : WhpxExit) : WhpxTurn := ⟨0, exit, 0⟩

theorem run_eprintln_bind {κ α : Type} {stderr : String → Bool} {text : String}
    (h : stderr text = true) (f : Unit → Logged κ α) (log : Log κ) :
    (eprintln stderr text >>= f).run log = (f ()).run log := by
  unfold eprintln
  rw [h]
  rfl

namespace Whpx

theorem run_setRegistersWith {p : Profile} {names : List WhvRegister} {values : List WhvValue}
    (hlen : names.length = values.length) (log : Log WhpxCall) :
    (setRegistersWith p 0 names values).run log =
      (.ok (), (.setRegisters names values, true) :: log) := by
  unfold setRegistersWith
  rw [if_neg fun hne => hne.2 hlen]
  rfl

theorem regs_set_rip (registers : WhvRegisters) (v : UInt64) :
    WhvRegisters.regs (setRegisters registers [.rip] [.reg64 v]) =
      { registers.regs with rip := v } := rfl

theorem regs_set_rax_rip (registers : WhvRegisters) (v w : UInt64) :
    WhvRegisters.regs (setRegisters registers [.rax, .rip] [.reg64 v, .reg64 w]) = ⟨v, w⟩ := rfl

/-- The last call of the arm sets the registers as `handleIoPortAccess` leaves them, and it
prints the same. -/
theorem run_ioPortAccess {p : Profile} {host : WhpxRunHost} {rip : UInt64} {io : IoPortAccess}
    {r r' : Regs} {out : List UInt8} (hstderr : ∀ text, host.stderr text = true)
    (h : (handleIoPortAccess p rip io).run r = (.ok out, r')) (log : Log WhpxCall) :
    ∃ names values log', (ioPortAccess p host 0 rip io).run log =
        (.ok (), (.setRegisters names values, true) :: log') ∧
      printed WhpxCall.printed log' = printed WhpxCall.printed log ++ out ∧
      ∀ registers : WhvRegisters, registers.regs = r →
        WhvRegisters.regs (setRegisters registers names values) = r' := by
  unfold handleIoPortAccess at h
  unfold ioPortAccess
  dsimp only at h ⊢
  obtain ⟨next, hnext, h⟩ := Act.run_lift_bind_eq_ok.mp h
  rw [hnext, Act.run_lift_ok_bind]
  by_cases hwrite : Serial.handles io.portNumber = true ∧ io.accessInfo &&& 1 ≠ 0
  · rw [if_pos hwrite] at h ⊢
    cases h
    refine ⟨_, _, _, run_setRegistersWith rfl _, rfl, fun registers hregs => ?_⟩
    rw [regs_set_rip, hregs]
  · rw [if_neg hwrite] at h ⊢
    by_cases hport : Serial.handles io.portNumber = true
    · rw [if_pos hport] at h ⊢
      cases h
      exact ⟨_, _, _, run_setRegistersWith rfl _, rfl, fun registers _ => regs_set_rax_rip _ _ _⟩
    · rw [if_neg hport] at h ⊢
      cases h
      refine ⟨[.rip], [.reg64 (UInt64.ofNat next)], log, ?_, (List.append_nil _).symm,
        fun registers hregs => ?_⟩
      · rw [run_eprintln_bind (hstderr _)]
        exact run_setRegistersWith rfl _
      · rw [regs_set_rip, hregs]

theorem run_runLoop_cons (p : Profile) (host : WhpxRunHost) (exit : WhpxExit)
    (turns : List WhpxTurn) (log : Log WhpxCall) :
    (runLoop p host (WhpxExit.turn exit :: turns)).run log =
      (handleExit p host 0 exit >>= fun goesOn =>
        if goesOn = true then runLoop p host turns else pure ()).run ((.run, true) :: log) := by
  rw [runLoop]
  rfl

end Whpx

namespace Kvm

theorem run_runLoop_cons (host : KvmRunHost) (exit : KvmExit) (answers : List (Result KvmExit))
    (log : Log KvmCall) :
    (runLoop host (.ok exit :: answers)).run log =
      (handleExit host exit >>= fun goesOn =>
        if goesOn = true then runLoop host answers else pure ()).run ((.run, true) :: log) := by
  rw [runLoop]
  rfl

theorem port_vcpuExit (a : PortAccess) (rax : UInt64) : (a.vcpuExit rax).port = a.port := by
  unfold PortAccess.vcpuExit
  split <;> rfl

theorem handleVcpuExit_vcpuExit (r : Regs) (e : PortEvent) :
    (handleVcpuExit (e.access.vcpuExit (e.guest r).rax)).1 = e.access.output (e.guest r).rax := by
  have hreply := congrArg Prod.fst (kvm_eq r e)
  exact (Prod.mk.inj (Outcome.ok.inj hreply)).1

theorem run_handleExit {host : KvmRunHost} (hstderr : ∀ text, host.stderr text = true) (r : Regs)
    (s : GuestStep) (log : Log KvmCall) :
    ∃ log', (handleExit host (s.kvmStep r).1).run log = (.ok (!s.ends), log') ∧
      printed KvmCall.printed log' = printed KvmCall.printed log ++ s.output r := by
  cases s with
  | port e =>
    unfold GuestStep.kvmStep handleExit GuestStep.output
    dsimp only
    rw [port_vcpuExit, handleVcpuExit_vcpuExit]
    by_cases hport : Serial.handles e.access.port = true
    · rw [if_pos hport]
      exact ⟨_, rfl, rfl⟩
    · rw [if_neg hport, run_eprintln_bind (hstderr _)]
      refine ⟨log, rfl, ?_⟩
      unfold PortAccess.output
      rw [if_neg fun h => hport h.1, List.append_nil]
  | mmioWrite guest gpa n =>
    exact ⟨log, run_eprintln_bind (hstderr _) _ _, (List.append_nil _).symm⟩
  | halt => exact ⟨log, run_eprintln_bind (hstderr _) _ _, (List.append_nil _).symm⟩
  | tripleFault => exact ⟨log, run_eprintln_bind (hstderr _) _ _, (List.append_nil _).symm⟩

end Kvm

namespace Whpx

theorem run_handleExit {p : Profile} {host : WhpxRunHost}
    (hstderr : ∀ text, host.stderr text = true) {r : Regs} {s : GuestStep} (h : s.AgreesAt p r)
    (log : Log WhpxCall) :
    ∃ log', (handleExit p host 0 (s.whpxStep p r).1).run log = (.ok (!s.ends), log') ∧
      printed WhpxCall.printed log' = printed WhpxCall.printed log ++ s.output r := by
  cases s with
  | port e =>
    have hreply := (reply_eq_iff p r e).mpr h
    rw [kvm_eq] at hreply
    obtain ⟨out, hserved, heq⟩ := Outcome.map_eq_ok.mp hreply
    obtain ⟨rfl, -⟩ := Prod.mk.inj heq
    have hrun : (handleIoPortAccess p (e.guest r).rip (e.access.exit (e.guest r).rax)).run
        (e.guest r) = (.ok _, (whpx p r e).2) := Prod.ext hserved rfl
    obtain ⟨names, values, log', harm, hprinted, -⟩ := run_ioPortAccess hstderr hrun log
    refine ⟨(.setRegisters names values, true) :: log', ?_, ?_⟩
    · show (ioPortAccess p host 0 _ _ >>= fun _ => pure true).run log = _
      rw [Act.run_bind_ok harm]
      rfl
    · show printed _ log' ++ [] = _
      rw [hprinted, List.append_nil]
      rfl
  | mmioWrite guest gpa n =>
    obtain ⟨next, hnext⟩ := exists_fit_eq_ok h
    refine ⟨(.setRegisters [.rip] [.reg64 (UInt64.ofNat next)], true) :: log, ?_, ?_⟩
    · unfold GuestStep.whpxStep handleExit
      dsimp only
      rw [run_eprintln_bind (hstderr _), hnext, Act.run_lift_ok_bind,
        Act.run_bind_ok (run_setRegistersWith rfl log)]
      rfl
    · show (printed _ log ++ []) = printed _ log ++ []
      rfl
  | halt => exact ⟨log, run_eprintln_bind (hstderr _) _ _, (List.append_nil _).symm⟩
  | tripleFault => exact ⟨log, run_eprintln_bind (hstderr _) _ _, (List.append_nil _).symm⟩

end Whpx

/-! ## Whole runs -/

section
variable {p : Profile} {kvmHost : KvmRunHost} {whpxHost : WhpxRunHost}

/-- How a loop that has printed as much as the other ends. -/
theorem loops_agree (hkvm : ∀ text, kvmHost.stderr text = true)
    (hwhpx : ∀ text, whpxHost.stderr text = true) {r : Regs} {steps : List GuestStep}
    (hagrees : Run.Along GuestStep.kvmStep (GuestStep.AgreesAt p) r steps) {klog : Log KvmCall}
    {wlog : Log WhpxCall}
    (hlog : printed KvmCall.printed klog = printed WhpxCall.printed wlog) :
    let k := (Kvm.runLoop kvmHost ((Run.answers GuestStep.kvmStep r steps).map .ok)).run klog
    let w := (Whpx.runLoop p whpxHost
      ((Run.answers (GuestStep.whpxStep p) r steps).map WhpxExit.turn)).run wlog
    printed KvmCall.printed k.2 = printed WhpxCall.printed w.2 ∧
      (k.1 = .ok () ↔ ∃ s ∈ steps, s.ends = true) ∧
        (w.1 = .ok () ↔ ∃ s ∈ steps, s.ends = true) := by
  induction steps generalizing r klog wlog with
  | nil =>
    obtain ⟨e, he⟩ : ∃ e, Whpx.check whpxHost.failed "WHvRunVirtualProcessor" = .err e :=
      ⟨_, if_pos whpxHost.failed_ne⟩
    refine ⟨?_, ?_, ?_⟩
    · show printed _ klog ++ [] = printed _ wlog ++ []
      rw [hlog]
    · show (.err _ : Result Unit) = .ok () ↔ _
      simp
    · show Whpx.check whpxHost.failed "WHvRunVirtualProcessor" = .ok () ↔ _
      rw [he]
      simp
  | cons s steps ih =>
    obtain ⟨hs, hrest⟩ := hagrees
    obtain ⟨klog', hk, hkprinted⟩ := Kvm.run_handleExit hkvm r s ((.run, true) :: klog)
    obtain ⟨wlog', hw, hwprinted⟩ := Whpx.run_handleExit hwhpx hs ((.run, true) :: wlog)
    have hlog' : printed KvmCall.printed klog' = printed WhpxCall.printed wlog' := by
      rw [hkprinted, hwprinted, printed_cons, printed_cons, hlog]
      rfl
    rw [Run.answers_cons, Run.answers_cons, List.map_cons, List.map_cons, Kvm.run_runLoop_cons,
      Whpx.run_runLoop_cons, Act.run_bind_ok hk, Act.run_bind_ok hw,
      GuestStep.next_eq_of_agreesAt hs]
    cases hends : s.ends with
    | false =>
      have hsteps : (∃ t ∈ s :: steps, t.ends = true) ↔ ∃ t ∈ steps, t.ends = true := by
        simp [hends]
      rw [hsteps]
      exact ih hrest hlog'
    | true =>
      have hsteps : ∃ t ∈ s :: steps, t.ends = true := ⟨s, List.mem_cons_self, hends⟩
      exact ⟨hlog', iff_of_true rfl hsteps, iff_of_true rfl hsteps⟩

end

/-- **The two run loops on one guest.**  As long as every step agrees they print the same,
and each returns `Ok` exactly when the guest halts or faults. -/
theorem run_loops_agree (p : Profile) (kvmHost : KvmRunHost) (whpxHost : WhpxRunHost)
    (hkvm : ∀ text, kvmHost.stderr text = true) (hwhpx : ∀ text, whpxHost.stderr text = true)
    (r : Regs) (steps : List GuestStep)
    (hagrees : Run.Along GuestStep.kvmStep (GuestStep.AgreesAt p) r steps) :
    let k := (Kvm.runLoop kvmHost ((Run.answers GuestStep.kvmStep r steps).map .ok)).run []
    let w := (Whpx.runLoop p whpxHost
      ((Run.answers (GuestStep.whpxStep p) r steps).map WhpxExit.turn)).run []
    printed KvmCall.printed k.2 = printed WhpxCall.printed w.2 ∧
      (k.1 = .ok () ↔ ∃ s ∈ steps, s.ends = true) ∧
        (w.1 = .ok () ↔ ∃ s ∈ steps, s.ends = true) :=
  loops_agree hkvm hwhpx hagrees rfl

/-- A host that grants everything and prints every text. -/
def KvmRunHost.willing : KvmRunHost where
  toKvmHost := KvmHost.willing
  readKernel _ := .ok Elf.wholeKernel
  createVcpu _ := .ok ()
  kvmMaxCpuidEntries := 80
  getSupportedCpuid _ := .ok []
  setCpuid2 _ := .ok ()
  getSregs := .err .host
  setSregs _ := .ok ()
  getRegs := .err .host
  setRegs _ := .ok ()
  proc := ⟨fun _ => .err .host, fun _ => true, fun _ => .ok ()⟩
  availableParallelism := some 4
  buildPool _ := .ok ()
  vcpuRun := []
  stderr _ := true

def WhpxRunHost.willing : WhpxRunHost where
  openStorage _ := .ok ()
  alloc _ := .ok ()
  hostPtr := 0x20000000000
  readKernel _ := .ok Elf.wholeKernel
  createPartition := 0
  handle := 1
  handle_ne := by decide
  setPartitionProperty _ _ := 0
  setupPartition := 0
  mapGpaRange _ _ _ := 0
  createVirtualProcessor _ := 0
  registers _ := .reg64 0
  setRegisters _ _ := 0
  getSystemTimes := true
  createJobObject := true
  assignProcessToJobObject := true
  availableParallelism := some 4
  buildPool _ := .ok ()
  turns := []
  failed := -1
  failed_ne := by decide
  stderr _ := true

/-- The guest prints a letter, with RAX at 0x41, and halts. -/
theorem run_loops_agree_letter :
    let steps := [.port ⟨id, ⟨true, 0x3f8, .byte, 1⟩⟩, .halt]
    let k := (Kvm.runLoop .willing
      ((Run.answers GuestStep.kvmStep ⟨0x41, 0x100000⟩ steps).map .ok)).run []
    let w := (Whpx.runLoop .debug .willing
      ((Run.answers (GuestStep.whpxStep .debug) ⟨0x41, 0x100000⟩ steps).map WhpxExit.turn)).run []
    printed KvmCall.printed k.2 = printed WhpxCall.printed w.2 ∧
      (k.1 = .ok () ↔ ∃ s ∈ steps, s.ends = true) ∧
        (w.1 = .ok () ↔ ∃ s ∈ steps, s.ends = true) := by
  have hport : Agrees .debug ⟨0x41, 0x100000⟩ ⟨id, ⟨true, 0x3f8, .byte, 1⟩⟩ := by decide
  exact run_loops_agree .debug .willing .willing (fun _ => rfl) (fun _ => rfl) _ _
    ⟨hport, trivial, trivial⟩

end HyperPod
