import HyperPod.Storage.Backend
import Mathlib.Data.List.TakeWhile

/-!
# The configuration: `config.rs`

`HyperPodFile.validate` makes its checks in order and reports the first that fails.  It
accepts exactly the configurations that are `HyperPodFile.Valid` (`validate_eq_ok`), and
`HyperPodFile.load` returns no other (`valid_of_load`).
-/

namespace HyperPod

open Machine

/-- RAM in MiB, CPU shares as the host's scheduler counts them. -/
structure Limits where
  minRam : UInt64
  maxRam : UInt64
  minCpuShares : UInt64
  maxCpuShares : UInt64
deriving Repr, DecidableEq

inductive GpuPolicy where
  | credits (creditsPerSecond maxCredits : UInt64)
  | full
deriving Repr, DecidableEq

structure HyperPodFile where
  rootfsPath : Path
  kernelPath : Path
  cmdline : String
  limits : Limits
  gpu : Option GpuPolicy

/-- `char::is_whitespace`: the Unicode property `White_Space`. -/
def isWhitespace (c : Char) : Bool :=
  let n := c.toNat
  0x09 ≤ n ∧ n ≤ 0x0d ∨ n = 0x20 ∨ n = 0x85 ∨ n = 0xa0 ∨ n = 0x1680 ∨ 0x2000 ≤ n ∧ n ≤ 0x200a ∨
    n = 0x2028 ∨ n = 0x2029 ∨ n = 0x202f ∨ n = 0x205f ∨ n = 0x3000

/-- The characters of `s.trim()` -/
def trim (s : String) : List Char :=
  ((s.toList.dropWhile isWhitespace).reverse.dropWhile isWhitespace).reverse

/-- `if c { bail!(text) }` -/
def bailIf (c : Prop) [Decidable c] (text : String) : Result Unit :=
  if c then .err (.msg text) else .ok ()

/-- `metadata` is the host's answer for a path: whether it is a regular file. -/
def ensureFileExists (metadata : Path → Result Bool) (path : Path) (field : String) :
    Result Unit := do
  let isFile ← withContext s!"{field} `{path.display}` is not accessible" (metadata path)
  bailIf (!isFile) s!"{field} `{path.display}` is not a regular file"

namespace HyperPodFile

def checkGpu (gpu : Option GpuPolicy) : Result Unit :=
  match gpu with
  | some (.credits creditsPerSecond maxCredits) =>
    bailIf (creditsPerSecond = 0 ∨ maxCredits = 0) "gpu.credits values must be greater than zero"
  | _ => .ok ()

def validate (metadata : Path → Result Bool) (cfg : HyperPodFile) : Result Unit := do
  ensureFileExists metadata cfg.kernelPath "kernel_path"
  ensureFileExists metadata cfg.rootfsPath "rootfs_path"
  bailIf ((trim cfg.cmdline).isEmpty) "cmdline must not be empty"
  let l := cfg.limits
  bailIf (l.minRam = 0) "limits.min_ram must be greater than zero"
  bailIf (l.maxRam < l.minRam)
    s!"limits.max_ram ({l.maxRam}) must be >= limits.min_ram ({l.minRam})"
  bailIf (l.minCpuShares = 0) "limits.min_cpu_shares must be greater than zero"
  bailIf (l.maxCpuShares < l.minCpuShares)
    s!"limits.max_cpu_shares ({l.maxCpuShares}) must be >= limits.min_cpu_shares ({l.minCpuShares})"
  bailIf (l.minCpuShares > 10000 ∨ l.maxCpuShares > 10000)
    "cpu_shares values must lie in 1..=10000 (matches cgroup v2 cpu.weight and JobObject CpuRate)"
  checkGpu cfg.gpu

/-- `HyperPodFile::load`; `readToString` and `fromStr` are the host's read and the TOML
parser. -/
def load (readToString : Path → Result String) (fromStr : String → Result HyperPodFile)
    (metadata : Path → Result Bool) (path : Path) : Result HyperPodFile := do
  let contents ← withContext s!"failed to read HyperPod file {path.display}" (readToString path)
  let parsed ← withContext s!"failed to parse HyperPod file {path.display}" (fromStr contents)
  parsed.validate metadata
  return parsed

/-! ## What is accepted -/

/-- The configurations that pass every check. -/
structure Valid (metadata : Path → Result Bool) (cfg : HyperPodFile) : Prop where
  kernel : metadata cfg.kernelPath = .ok true
  rootfs : metadata cfg.rootfsPath = .ok true
  cmdline : ∃ c ∈ cfg.cmdline.toList, isWhitespace c = false
  minRam : 1 ≤ cfg.limits.minRam.toNat
  ram : cfg.limits.minRam.toNat ≤ cfg.limits.maxRam.toNat
  minCpuShares : 1 ≤ cfg.limits.minCpuShares.toNat
  cpuShares : cfg.limits.minCpuShares.toNat ≤ cfg.limits.maxCpuShares.toNat
  maxCpuShares : cfg.limits.maxCpuShares.toNat ≤ 10000
  gpu : ∀ creditsPerSecond maxCredits, cfg.gpu = some (.credits creditsPerSecond maxCredits) →
    1 ≤ creditsPerSecond.toNat ∧ 1 ≤ maxCredits.toNat

end HyperPodFile

theorem bailIf_eq_ok {c : Prop} [Decidable c] {text : String} {u : Unit} :
    bailIf c text = .ok u ↔ ¬ c := by
  unfold bailIf
  by_cases h : c
  · simp [h]
  · simp [h]

theorem isEmpty_trim (s : String) :
    (trim s).isEmpty = true ↔ ∀ c ∈ s.toList, isWhitespace c = true := by
  unfold trim
  rw [List.isEmpty_reverse, List.isEmpty_iff, List.dropWhile_eq_nil_iff]
  constructor
  · intro h
    apply List.dropWhile_eq_nil_iff.mp
    -- the first character kept would not be blank
    rcases hkept : s.toList.dropWhile isWhitespace with _ | ⟨c, cs⟩
    · rfl
    · have hc : isWhitespace c = true := h c (by simp [hkept])
      have hhead := List.head?_dropWhile_not isWhitespace s.toList
      rw [hkept] at hhead
      exact absurd hc (by simpa using hhead)
  · intro h c hc
    rw [List.mem_reverse] at hc
    exact h c ((List.dropWhile_suffix _).subset hc)

theorem not_isEmpty_trim (s : String) :
    ¬ (trim s).isEmpty = true ↔ ∃ c ∈ s.toList, isWhitespace c = false := by
  rw [isEmpty_trim]
  simp

theorem ensureFileExists_eq_ok {metadata : Path → Result Bool} {path : Path} {field : String}
    {u : Unit} : ensureFileExists metadata path field = .ok u ↔ metadata path = .ok true := by
  unfold ensureFileExists
  rw [Outcome.bind_eq_ok]
  constructor
  · rintro ⟨isFile, hmeta, hfile⟩
    rw [withContext_eq_ok] at hmeta
    rw [bailIf_eq_ok] at hfile
    cases isFile with
    | true => exact hmeta
    | false => exact absurd rfl hfile
  · intro h
    exact ⟨true, withContext_eq_ok.mpr h, bailIf_eq_ok.mpr (by decide)⟩

namespace HyperPodFile

theorem pos_iff (n : UInt64) : ¬ n = 0 ↔ 1 ≤ n.toNat := by
  rw [← UInt64.toNat_inj]
  show ¬ n.toNat = 0 ↔ _
  omega

theorem checkGpu_eq_ok {gpu : Option GpuPolicy} {u : Unit} :
    checkGpu gpu = .ok u ↔ ∀ creditsPerSecond maxCredits,
      gpu = some (.credits creditsPerSecond maxCredits) →
        1 ≤ creditsPerSecond.toNat ∧ 1 ≤ maxCredits.toNat := by
  unfold checkGpu
  split
  · next c m =>
    rw [bailIf_eq_ok, not_or, pos_iff, pos_iff]
    constructor
    · rintro h _ _ ⟨⟩
      exact h
    · intro h
      exact h c m rfl
  · next hne =>
    constructor
    · intro _ c m heq
      exact absurd heq (hne c m)
    · intro _
      rfl

/-- **What is accepted**, whatever the host answers. -/
theorem validate_eq_ok {metadata : Path → Result Bool} {cfg : HyperPodFile} :
    cfg.validate metadata = .ok () ↔ cfg.Valid metadata := by
  unfold validate
  simp only [Outcome.bind_eq_ok, ensureFileExists_eq_ok, bailIf_eq_ok, checkGpu_eq_ok, not_or,
    pos_iff, not_isEmpty_trim, UInt64.not_lt, UInt64.le_iff_toNat_le]
  constructor
  · rintro ⟨-, hkernel, -, hrootfs, -, hcmdline, -, hminRam, -, hram, -, hmin, -, hshares, -,
      ⟨-, hmax⟩, hgpu⟩
    exact ⟨hkernel, hrootfs, hcmdline, hminRam, hram, hmin, hshares, hmax, hgpu⟩
  · intro h
    have hle := Nat.le_trans h.cpuShares h.maxCpuShares
    exact ⟨(), h.kernel, (), h.rootfs, (), h.cmdline, (), h.minRam, (), h.ram, (),
      h.minCpuShares, (), h.cpuShares, (), ⟨hle, h.maxCpuShares⟩, h.gpu⟩

theorem valid_of_load {readToString : Path → Result String}
    {fromStr : String → Result HyperPodFile} {metadata : Path → Result Bool} {path : Path}
    {cfg : HyperPodFile} (h : load readToString fromStr metadata path = .ok cfg) :
    cfg.Valid metadata := by
  unfold load at h
  obtain ⟨contents, -, h⟩ := Outcome.bind_eq_ok.mp h
  obtain ⟨parsed, -, h⟩ := Outcome.bind_eq_ok.mp h
  obtain ⟨u, hvalid, h⟩ := Outcome.bind_eq_ok.mp h
  cases h
  exact validate_eq_ok.mp hvalid

end HyperPodFile
end HyperPod
