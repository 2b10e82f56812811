import HyperPod.BootImage
import HyperPod.Config
import HyperPod.Lib.CString

/-!
# The command line as the guest reads it

The boot protocol hands the guest a pointer to a NUL-terminated string and its size.
`write_cmdline` stores the configured bytes and a NUL after them, and the guest stops at
the first NUL: it gets the text back whole when there is none in the text, and the size
when 32 bits hold it (`readsBack_iff`).
-/

namespace HyperPod

open Machine Bytes GuestRam Boot

namespace Boot

/-- What a guest reads: `boot_params.hdr.cmd_line_ptr` followed to the first NUL, and
`cmdline_size`. -/
def guestCmdline (ram : GuestRam) : Result (List UInt8 × UInt32) := do
  let ptr : UInt32 ← ram.readObj (zeroPageStart + offsetHdrCmdLinePtr)
  let size : UInt32 ← ram.readObj (zeroPageStart + offsetHdrCmdlineSize)
  match CString.read ram.mem (ram.size - ptr.toNat) ptr.toNat with
  | some bytes => return (bytes, size)
  | none => .err (.msg "no NUL before the end of RAM")

/-- The guest reads the bytes of `cmdline`, and their number. -/
def ReadsBack (cmdline : String) (ram : GuestRam) : Prop :=
  ∃ size, guestCmdline ram = .ok (asBytes cmdline, size) ∧
    size.toNat = (asBytes cmdline).length

variable {cmdline : String} {ramBytes : UInt64} {ram ram₁ ram₂ : GuestRam}

/-- The writes of the two writers. -/
def cmdlineZeroPageWrites (cmdline : String) (ramBytes : UInt64) : List (Patch UInt8) :=
  cmdlineWrites cmdline ++ zeroPageWrites (asBytes cmdline).length ramBytes

theorem apart_cmdlineZeroPageWrites (cmdline : String) (ramBytes : UInt64) :
    (cmdlineZeroPageWrites cmdline ramBytes).Pairwise Apart :=
  pairwise_append_of_within (apart_cmdlineWrites cmdline) (apart_zeroPageWrites _ _)
    (within_cmdlineWrites cmdline) (within_zeroPageWrites _ _) (Or.inr (by decide))

theorem puts_of_writers (h₁ : (writeCmdline cmdline).run ram = (.ok (), ram₁))
    (h₂ : (writeZeroPage (asBytes cmdline).length ramBytes).run ram₁ = (.ok (), ram₂)) :
    ram.Fits (cmdlineZeroPageWrites cmdline ramBytes) ∧
      ram₂ = ram.puts (cmdlineZeroPageWrites cmdline ramBytes) := by
  have hboth := (writes_writeCmdline cmdline).bind
    (f := fun _ => writeZeroPage (asBytes cmdline).length ramBytes)
    (writes_writeZeroPage (asBytes cmdline).length ramBytes)
  have hrun := (hboth ram () ram₂).mp (by rw [Act.run_bind_ok h₁, h₂])
  exact ⟨hrun.1, hrun.2.2⟩

/-- **What the guest reads** after the two writers: the text up to its first NUL, and the
low 32 bits of its length. -/
theorem guestCmdline_written (h₁ : (writeCmdline cmdline).run ram = (.ok (), ram₁))
    (h₂ : (writeZeroPage (asBytes cmdline).length ramBytes).run ram₁ = (.ok (), ram₂)) :
    guestCmdline ram₂ = .ok ((asBytes cmdline).takeWhile (· ≠ 0),
      UInt32.ofNat (asBytes cmdline).length) := by
  obtain ⟨hfits, rfl⟩ := puts_of_writers h₁ h₂
  have hapart := apart_cmdlineZeroPageWrites cmdline ramBytes
  have hcmd : ∀ w ∈ cmdlineWrites cmdline, w ∈ cmdlineZeroPageWrites cmdline ramBytes :=
    fun w hw => List.mem_append_left _ hw
  have hheader : ∀ w ∈ headerWrites (asBytes cmdline).length,
      w ∈ cmdlineZeroPageWrites cmdline ramBytes :=
    fun w hw => List.mem_append_right _ (List.mem_append_left _ hw)
  unfold headerWrites at hheader
  unfold cmdlineWrites at hcmd
  simp only [List.forall_mem_cons] at hheader hcmd
  obtain ⟨-, -, -, -, -, hptr, hlen, -⟩ := hheader
  obtain ⟨hbytes, hnul, -⟩ := hcmd
  have hread : CString.read (ram.puts (cmdlineZeroPageWrites cmdline ramBytes)).mem
      (ram.size - cmdlineStart) cmdlineStart =
        some ((asBytes cmdline).takeWhile (· ≠ 0)) := by
    have hend : cmdlineStart + (asBytes cmdline).length + 1 ≤ ram.size := hfits _ hnul
    have hzero : window (ram.puts (cmdlineZeroPageWrites cmdline ramBytes)).mem
        (cmdlineStart + (asBytes cmdline).length) 1 = [0] := window_overlays hapart hnul
    refine CString.read_stored (window_overlays hapart hbytes) ?_ ?_
    · exact (List.cons.inj hzero).1
    · show (asBytes cmdline).length < ram.size - cmdlineStart
      omega
  unfold guestCmdline
  rw [readObj_puts hapart hfits hptr, Outcome.ok_bind, readObj_puts hapart hfits hlen,
    Outcome.ok_bind]
  have hstart : (UInt32.ofNat cmdlineStart).toNat = cmdlineStart := rfl
  rw [hstart, size_puts, hread]
  rfl

/-- **The command line comes back** exactly when it holds no NUL and 32 bits hold its
length. -/
theorem readsBack_iff (cmdline : String) (ramBytes : UInt64) (ram ram₁ ram₂ : GuestRam)
    (h₁ : (writeCmdline cmdline).run ram = (.ok (), ram₁))
    (h₂ : (writeZeroPage (asBytes cmdline).length ramBytes).run ram₁ = (.ok (), ram₂)) :
    ReadsBack cmdline ram₂ ↔
      Char.ofNat 0 ∉ cmdline.toList ∧ (asBytes cmdline).length < 2 ^ 32 := by
  have hsize : (UInt32.ofNat (asBytes cmdline).length).toNat = (asBytes cmdline).length ↔
      (asBytes cmdline).length < 2 ^ 32 := by
    rw [UInt32.toNat_ofNat']
    omega
  have hnul : (asBytes cmdline).takeWhile (· ≠ 0) = asBytes cmdline ↔
      Char.ofNat 0 ∉ cmdline.toList := by
    rw [CString.takeWhile_ne_zero_eq_self, ← CString.zero_mem_toUTF8]
    rfl
  unfold ReadsBack
  rw [guestCmdline_written h₁ h₂, ← hsize, ← hnul]
  constructor
  · rintro ⟨size, heq, hlen⟩
    obtain ⟨hbytes, rfl⟩ := Prod.mk.inj (Outcome.ok.inj heq)
    exact ⟨hbytes, hlen⟩
  · rintro ⟨hbytes, hlen⟩
    exact ⟨_, by rw [hbytes], hlen⟩

/-- Both writers are served when the command line ends in RAM. -/
theorem exists_writers (hcmd : ram.Fits (cmdlineWrites cmdline)) (ramBytes : UInt64) :
    ∃ ram₁ ram₂, (writeCmdline cmdline).run ram = (.ok (), ram₁) ∧
      (writeZeroPage (asBytes cmdline).length ramBytes).run ram₁ = (.ok (), ram₂) := by
  refine ⟨ram.puts (cmdlineWrites cmdline), _,
    (writes_writeCmdline cmdline ram () _).mpr ⟨hcmd, rfl, rfl⟩,
    (writes_writeZeroPage _ ramBytes _ () _).mpr ⟨?_, rfl, rfl⟩⟩
  intro w hw
  have hzero := (within_zeroPageWrites _ _ w hw).2
  have hlow : 0x20000 ≤ ram.size :=
    Nat.le_trans (Nat.le_add_right _ _) (hcmd _ (List.mem_cons_self))
  rw [size_puts]
  omega

theorem readsBack_console :
    ∃ ram₁ ram₂, (writeCmdline "console=ttyS0").run twoMib = (.ok (), ram₁) ∧
      (writeZeroPage 13 0x200000).run ram₁ = (.ok (), ram₂) ∧
      ReadsBack "console=ttyS0" ram₂ := by
  obtain ⟨ram₁, ram₂, h₁, h₂⟩ := exists_writers fits_console 0x200000
  exact ⟨ram₁, ram₂, h₁, h₂,
    (readsBack_iff "console=ttyS0" 0x200000 twoMib ram₁ ram₂ h₁ h₂).mpr (by decide)⟩

/-! ## A command line with a NUL in it -/

/-- `cmdline = "a\u0000b"` -/
def nulInCmdline : HyperPodFile where
  rootfsPath := ⟨"rootfs.ext4", some "ext4"⟩
  kernelPath := ⟨"vmlinux", none⟩
  cmdline := "a\x00b"
  limits := ⟨2, 2, 1, 1⟩
  gpu := none

theorem validate_nulInCmdline : nulInCmdline.validate (fun _ => .ok true) = .ok () := by
  decide

/-- It is accepted, and the guest reads only `a`. -/
theorem nul_cuts_cmdline :
    ¬ ∀ (metadata : Path → Result Bool) (cfg : HyperPodFile) (ramBytes : UInt64)
      (ram ram₁ ram₂ : GuestRam), cfg.validate metadata = .ok () →
      (writeCmdline cfg.cmdline).run ram = (.ok (), ram₁) →
      (writeZeroPage (asBytes cfg.cmdline).length ramBytes).run ram₁ = (.ok (), ram₂) →
        ReadsBack cfg.cmdline ram₂ := by
  intro h
  have hfits : twoMib.Fits (cmdlineWrites nulInCmdline.cmdline) :=
    fits_twoMib (by decide)
  obtain ⟨ram₁, ram₂, h₁, h₂⟩ := exists_writers hfits 0x200000
  obtain ⟨size, hread, -⟩ := h _ _ _ _ _ _ validate_nulInCmdline h₁ h₂
  rw [guestCmdline_written h₁ h₂] at hread
  exact absurd (Prod.mk.inj (Outcome.ok.inj hread)).1 (by decide)

end Boot
end HyperPod
